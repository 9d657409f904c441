import SqlWeave.Monitor.Hook

/-!
# The wording of a failure is cut between characters

Hooks are told why a statement failed in at most 512 bytes, and three dots where the wording goes
on. A limit on bytes may fall inside of a character; what is kept ends at the last boundary between
characters that is not behind the limit. It is found from either side: `takeBytes` takes characters
from the front as long as they fit, and `lastBoundary` goes back from the limit byte by byte.

Results:
* `isValid_iff`: the boundaries of a text are the sizes of what stands before its characters.
* `longestWithin_truncate`, `LongestWithin.eq_truncate`: a text is cut to the longest prefix that
  fits, which is the only one.
* `utf8ByteSize_truncate`: going back from the limit ends where the cut text does.
* **`failed_cut`**: the wording of a failure.
-/

namespace SqlWeave

namespace Text

/-! ## Boundaries -/

/-- **The boundaries of a text are the sizes of what stands before its characters.** -/
theorem isValid_iff {s : String} {p : String.Pos.Raw} :
    p.IsValid s ↔ ∃ k, p.byteIdx = byteSize (s.toList.take k) := by
  rw [String.Pos.Raw.isValid_iff_exists_take_toList]
  refine exists_congr fun k => ?_
  rw [← byteSize_toList, String.toList_ofList]

/-- **No prefix that fits is longer than the one that is taken.** -/
theorem byteSize_take_le {limit : Nat} {cs : List Char} {k : Nat}
    (h : byteSize (cs.take k) ≤ limit) : byteSize (cs.take k) ≤ byteSize (takeBytes limit cs) := by
  induction cs generalizing limit k with
  | nil => simp [takeBytes]
  | cons c cs ih =>
    cases k with
    | zero => exact Nat.zero_le _
    | succ k =>
      have hsize : ∀ ds, byteSize (c :: ds) = c.utf8Size + byteSize ds := fun _ => rfl
      rw [List.take_succ_cons, hsize] at h ⊢
      rw [takeBytes, if_pos (by omega), hsize]
      have hrest : byteSize (cs.take k) ≤ byteSize (takeBytes (limit - c.utf8Size) cs) :=
        ih (by omega)
      omega

/-- The longest prefix of a text that fits into a number of bytes. -/
structure LongestWithin (limit : Nat) (s t : String) : Prop where
  isPrefix : ∃ rest, s = t ++ rest
  fits : t.utf8ByteSize ≤ limit
  /-- It ends between two characters. -/
  boundary : t.rawEndPos.IsValid s
  /-- No boundary within the limit is behind its end. -/
  longest : ∀ p : String.Pos.Raw, p.IsValid s → p.byteIdx ≤ limit → p.byteIdx ≤ t.utf8ByteSize

theorem utf8ByteSize_truncate_eq (limit : Nat) (s : String) :
    (truncate limit s).utf8ByteSize = byteSize (takeBytes limit s.toList) := by
  rw [← byteSize_toList, truncate, String.toList_ofList]

/-- **A text is cut to the longest prefix that fits.** -/
theorem longestWithin_truncate (limit : Nat) (s : String) :
    LongestWithin limit s (truncate limit s) := by
  obtain ⟨rest, hrest⟩ := takeBytes_isPrefix limit s.toList
  have hs : s = truncate limit s ++ String.ofList rest := by
    rw [truncate, ← String.ofList_append, hrest, String.ofList_toList]
  refine ⟨⟨_, hs⟩, ?_, ?_, fun p hp hl => ?_⟩
  · rw [utf8ByteSize_truncate_eq]
    exact size_takeBytes_le limit s.toList
  · exact String.Pos.Raw.isValid_iff_exists_append.mpr ⟨_, _, hs, rfl⟩
  · obtain ⟨k, hk⟩ := isValid_iff.mp hp
    rw [utf8ByteSize_truncate_eq, hk]
    exact byteSize_take_le (hk ▸ hl)

/-- Prefixes of one size are one. -/
theorem eq_of_append_eq {t u x y : String} (h : t ++ x = u ++ y)
    (hsize : t.utf8ByteSize = u.utf8ByteSize) : t = u := by
  have hbytes := congrArg String.toByteArray h
  rw [String.toByteArray_append, String.toByteArray_append] at hbytes
  exact String.toByteArray_inj.mp (ByteArray.append_inj_left hbytes hsize)

/-- **The longest prefix that fits is what a text is cut to.** -/
theorem LongestWithin.eq_truncate {limit : Nat} {s t : String} (h : LongestWithin limit s t) :
    t = truncate limit s := by
  have hcut := longestWithin_truncate limit s
  have hsize : t.utf8ByteSize = (truncate limit s).utf8ByteSize :=
    Nat.le_antisymm (hcut.longest _ h.boundary h.fits) (h.longest _ hcut.boundary hcut.fits)
  obtain ⟨x, hx⟩ := h.isPrefix
  obtain ⟨y, hy⟩ := hcut.isPrefix
  exact eq_of_append_eq (hx.symm.trans hy) hsize

/-! ## Going back from the limit -/

/-- The last boundary that is not behind a place, found by going back from there. -/
def lastBoundary (s : String) : Nat → Nat
  | 0 => 0
  | n + 1 => if (⟨n + 1⟩ : String.Pos.Raw).isValid s then n + 1 else lastBoundary s n

theorem lastBoundary_le (s : String) (n : Nat) : lastBoundary s n ≤ n := by
  induction n with
  | zero => exact Nat.le_refl 0
  | succ n ih =>
    unfold lastBoundary
    split
    · exact Nat.le_refl _
    · exact Nat.le_succ_of_le ih

theorem isValid_lastBoundary (s : String) (n : Nat) :
    (⟨lastBoundary s n⟩ : String.Pos.Raw).IsValid s := by
  induction n with
  | zero => exact String.Pos.Raw.isValid_zero
  | succ n ih =>
    unfold lastBoundary
    split
    · rename_i hvalid
      exact String.Pos.Raw.isValid_eq_true_iff.mp hvalid
    · exact ih

/-- Every place that was passed on the way back is inside of a character. -/
theorem le_lastBoundary {s : String} {n : Nat} {p : String.Pos.Raw} (hp : p.IsValid s)
    (hn : p.byteIdx ≤ n) : p.byteIdx ≤ lastBoundary s n := by
  induction n with
  | zero => exact hn
  | succ n ih =>
    unfold lastBoundary
    split
    · exact hn
    · rename_i hinside
      have hne : p.byteIdx ≠ n + 1 := fun hpn =>
        hinside (hpn ▸ String.Pos.Raw.isValid_eq_true_iff.mpr hp)
      exact ih (by omega)

/-- **Going back from the limit ends where the cut text does.** -/
theorem utf8ByteSize_truncate (limit : Nat) (s : String) :
    (truncate limit s).utf8ByteSize =
      if s.utf8ByteSize ≤ limit then s.utf8ByteSize else lastBoundary s limit := by
  have hcut := longestWithin_truncate limit s
  split
  · rename_i hfits
    exact Nat.le_antisymm hcut.boundary.le_utf8ByteSize
      (hcut.longest s.rawEndPos String.Pos.Raw.isValid_rawEndPos hfits)
  · exact Nat.le_antisymm (le_lastBoundary hcut.boundary hcut.fits)
      (hcut.longest _ (isValid_lastBoundary s limit) (lastBoundary_le s limit))

/-- A text is as it was exactly if it fits. -/
theorem abbreviate_eq (limit : Nat) (s : String) :
    abbreviate limit s = if s.utf8ByteSize ≤ limit then s else truncate limit s ++ "..." := by
  rw [abbreviate, byteSize_toList]

end Text

open Text

/-- **The wording of a failure is cut between characters.** Of any text, up to any limit on bytes,
the longest prefix that fits is kept, which is the only one; it ends where going back from the limit
first meets a boundary. The wording of a failure is as it was if it has at most 512 bytes. Of a
longer one that prefix is kept, and three dots, which makes 515 bytes at most. -/
theorem failed_cut :
    (∀ limit s, LongestWithin limit s (truncate limit s) ∧
      (∀ t, LongestWithin limit s t → t = truncate limit s) ∧
      (truncate limit s).utf8ByteSize =
        if s.utf8ByteSize ≤ limit then s.utf8ByteSize else lastBoundary s limit) ∧
    ∀ message, ∃ wording, Outcome.failed message = .error wording ∧
      (message.utf8ByteSize ≤ 512 → wording = message) ∧
      (512 < message.utf8ByteSize →
        ∃ t, LongestWithin 512 message t ∧ wording = t ++ "...") ∧
      wording.utf8ByteSize ≤ 515 := by
  refine ⟨fun limit s => ⟨longestWithin_truncate limit s, fun t ht => ht.eq_truncate,
    utf8ByteSize_truncate limit s⟩, fun message => ⟨_, rfl, ?_⟩⟩
  have hcut := longestWithin_truncate 512 message
  rw [Outcome.messageLimit, abbreviate_eq]
  by_cases hfits : message.utf8ByteSize ≤ 512
  · rw [if_pos hfits]
    exact ⟨fun _ => rfl, fun hlong => absurd hlong (Nat.not_lt.mpr hfits), by omega⟩
  · rw [if_neg hfits]
    refine ⟨fun h => absurd h hfits, fun _ => ⟨_, hcut, rfl⟩, ?_⟩
    have hdots : "...".utf8ByteSize = 3 := by decide
    have := hcut.fits
    rw [String.utf8ByteSize_append, hdots]
    omega

end SqlWeave
