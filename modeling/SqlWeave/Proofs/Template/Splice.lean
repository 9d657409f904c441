import Mathlib.Data.List.Chain
import SqlWeave.Proofs.Template.Views

/-!
# Splicing and scanning

A fragment with others in it can be made flat in two ways: by splicing what is nested in place, or
by writing out its text and scanning that as one template. Scanning can go wrong only where two
texts meet: the second is read from right behind the quotes that the first has closed. Of the four
kinds of quotes three open with the character that closes them, and there the reader stands inside
again either way. Only a bracket behind a bracket is read as something else, since it opens nothing
on its own.

Results:
* `reads_leaves`: texts that are clean one by one are clean side by side.
* `flatten_eq_ofTemplate`: both ways give the same fragment.
-/

namespace SqlWeave

open Template

/-! ## Behind closed quotes -/

namespace Template

/-- A character that leaves the reader behind closed quotes has closed them. -/
theorem eq_of_next_eq_behind {p : Place} {c q : Char} (h : p.next c = .behind q) : c = q := by
  have hwithin : ∀ quotes : Option Char, Place.within quotes ≠ .behind q := by
    rintro (- | x) hx <;> cases hx
  cases p with
  | outside => exact absurd h (hwithin _)
  | inside x =>
    rw [Place.next] at h
    split at h
    · rename_i hc
      cases h
      exact hc
    · cases h
  | behind x =>
    rw [Place.next] at h
    split at h
    · cases h
    · exact absurd h (hwithin _)

/-- A text that leaves the reader behind closed quotes ends with the character that closed them. -/
theorem getLast?_of_after_eq_behind {p : Place} {cs : List Char} {q : Char} (hcs : cs ≠ [])
    (h : p.after cs = .behind q) : cs.getLast? = some q := by
  obtain ⟨ds, c, rfl⟩ := (List.eq_nil_or_concat' cs).resolve_left hcs
  rw [Place.after_append] at h
  rw [List.getLast?_append, List.getLast?_singleton, eq_of_next_eq_behind h]
  rfl

/-- A text is clean if the reader is back outside of quotes behind it and has found no
placeholder. -/
structure Clean (s : String) : Prop where
  placeholders : placeholders s = []
  closes : Settled (Place.after .outside s.toList)

theorem Clean.word {s : String} (h : Clean s) : Word s := by
  have hhole : Symbol.hole ∉ read .outside s.toList := by
    rw [← symbols_eq_read, ← List.count_eq_zero, ← length_holesFrom 0]
    exact List.length_eq_zero_iff.mpr h.placeholders
  rintro p rfl
  rw [map_toChar_chars]
  exact ⟨read_eq_map_char hhole, h.closes⟩

end Template

/-! ## Leaves side by side -/

namespace Piece

/-- The piece is text without characters. -/
def isBlank : Piece → Bool
  | text s => s.isEmpty
  | _ => false

/-- The piece is text that starts with a closing bracket. -/
def startsBracket : Piece → Bool
  | text s => s.toList.head? = some ']'
  | _ => false

/-- The piece is text that ends with a closing bracket. -/
def endsBracket : Piece → Bool
  | text s => s.toList.getLast? = some ']'
  | _ => false

/-- No text that starts with a closing bracket follows directly on one that ends with it. -/
def Apart (ps : List Piece) : Prop :=
  (ps.filter (!·.isBlank)).IsChain fun p q => ¬ (p.endsBracket = true ∧ q.startsBracket = true)

instance (ps : List Piece) : Decidable (Apart ps) :=
  inferInstanceAs (Decidable (List.IsChain _ _))

/-- The place behind which pieces may follow: not right behind a bracket, if the first text of them
starts with one. -/
def Follows (ps : List Piece) (p : Place) : Prop :=
  Settled p ∧ (p = .behind ']' → ∀ x ∈ (ps.filter (!·.isBlank)).head?, x.startsBracket = false)

theorem follows_outside (ps : List Piece) : Follows ps .outside :=
  ⟨settled_of_outside _ rfl, fun h => by cases h⟩

theorem filter_text {s : String} (hs : s ≠ "") (ps : List Piece) :
    (Piece.text s :: ps).filter (!·.isBlank) = .text s :: ps.filter (!·.isBlank) := by
  simp [isBlank, hs]

/-- What follows a text may start with a bracket only if the text does not end with one. -/
theorem follows_text {s : String} {ps : List Piece} (hs : s ≠ "") (hc : Clean s)
    (ha : Apart (.text s :: ps)) : Follows ps (Place.after .outside s.toList) := by
  refine ⟨hc.closes, fun hp x hx => ?_⟩
  have hne : s.toList ≠ [] := fun h => hs (String.toList_eq_nil_iff.mp h)
  have hends : (Piece.text s).endsBracket = true := by
    simpa [endsBracket] using getLast?_of_after_eq_behind hne hp
  unfold Apart at ha
  rw [filter_text hs, List.isChain_cons] at ha
  simpa [hends] using ha.1 x hx

/-- A clean text is read behind closed quotes as outside of them, and the pieces after it may
follow. -/
theorem reads_text {s : String} {ps : List Piece} (hs : Clean s) (ha : Apart (.text s :: ps)) :
    Reads (Follows (.text s :: ps)) (Follows ps) (chars s) := by
  by_cases he : s = ""
  · subst he
    exact reads_nil
  · have hfollows := follows_text he hs ha
    obtain ⟨hread, -⟩ := hs.word .outside rfl
    rw [map_toChar_chars] at hread
    rintro p ⟨rfl | ⟨q, hq, rfl⟩, hstart⟩
    · rw [map_toChar_chars]
      exact ⟨hread, hfollows⟩
    · have hne : s.toList ≠ [] := fun h => he (String.toList_eq_nil_iff.mp h)
      obtain ⟨c, cs, hcs⟩ := List.exists_cons_of_ne_nil hne
      have hc : ¬ (q = ']' ∧ c = ']') := by
        rintro ⟨rfl, rfl⟩
        rw [filter_text he] at hstart
        simpa [startsBracket, hcs] using hstart rfl
      obtain ⟨hr, hb⟩ := read_behind hq hc cs
      rw [map_toChar_chars, hcs, hr, hb, ← hcs]
      exact ⟨hread, hfollows⟩

/-- **Texts that are clean one by one are clean side by side.** -/
theorem reads_leaves {ps : List Piece} (hclean : ∀ s, .text s ∈ ps → Clean s) (ha : Apart ps) :
    Reads (Follows ps) Settled (ps.flatMap symbols) := by
  induction ps with
  | nil => exact fun p hp => ⟨rfl, hp.1⟩
  | cons p ps ih =>
    have hps : Apart ps := by
      unfold Apart at ha ⊢
      rw [List.filter_cons] at ha
      split at ha
      · exact ha.of_cons
      · exact ha
    have hrest := ih (fun s hs => hclean s (List.mem_cons_of_mem _ hs)) hps
    have hhole : Reads (Follows (p :: ps)) (Follows ps) [.hole] :=
      reads_hole.mono (fun _ h => h.1) fun x (hx : x = .outside) => hx ▸ follows_outside ps
    rw [List.flatMap_cons]
    cases p with
    | text s => exact (reads_text (hclean s List.mem_cons_self) ha).append hrest
    | bound v => exact hhole.append hrest
    | nested inner => exact hhole.append hrest

end Piece

/-! ## Two ways to be flat -/

/-- **Splicing a fragment and scanning its text give the same flat fragment.** The texts of its
fragments are clean one by one, and a bracket never follows directly on another. -/
theorem flatten_eq_ofTemplate (e : Expression) (hclean : ∀ s, .text s ∈ e.leaves → Clean s)
    (hapart : Piece.Apart e.leaves) :
    Expression.ofTemplate? e.text (e.values.map .value) = .ok e.flatten ∧
      e.flatten.slots = placeholders e.text := by
  have hslots : placeholders e.text = e.flatten.slots :=
    Expression.placeholders_of_reads ((Piece.reads_leaves hclean hapart).mono
      (fun p (hp : p = .outside) => hp ▸ Piece.follows_outside _) fun _ h => h)
  have hcount : (placeholders e.text).length = (e.values.map Param.value).length := by
    rw [hslots, ← e.params_flatten]
    exact (Expression.placed_ofPieces e.leaves).length
  refine ⟨?_, hslots.symm⟩
  unfold Expression.ofTemplate?
  simp only [hcount, if_pos]
  exact congrArg Except.ok (Expression.ext rfl hslots e.params_flatten.symm)

/-- `'a'`, `'b?'` and `([x]=?)` side by side. -/
def sideBySide : Expression :=
  .join [.raw "'a'", .raw "'b?'", (Expression.new "[x]=?" [.value (.int 1)]).wrap "(" ")"] ""

theorem flatten_eq_ofTemplate_sideBySide :
    (∀ s, .text s ∈ sideBySide.leaves → Clean s) ∧ Piece.Apart sideBySide.leaves ∧
      Expression.ofTemplate? sideBySide.text (sideBySide.values.map .value) =
        .ok sideBySide.flatten ∧
      sideBySide.flatten.slots = placeholders sideBySide.text := by
  have hleaves : sideBySide.leaves =
      [.text "'a'", .text "'b?'", .text "(", .text "[x]=", .bound (.int 1), .text ")"] := by rfl
  have hclean : ∀ s, .text s ∈ sideBySide.leaves → Clean s := by
    intro s hs
    rw [hleaves] at hs
    simp only [List.mem_cons, Piece.text.injEq, reduceCtorEq, List.not_mem_nil, or_false,
      false_or] at hs
    rcases hs with rfl | rfl | rfl | rfl | rfl
    · exact ⟨by decide, .inr ⟨'\'', rfl, by decide⟩⟩
    · exact ⟨by decide, .inr ⟨'\'', rfl, by decide⟩⟩
    · exact ⟨by decide, .inl (by decide)⟩
    · exact ⟨by decide, .inl (by decide)⟩
    · exact ⟨by decide, .inl (by decide)⟩
  have hapart : Piece.Apart sideBySide.leaves := by
    rw [hleaves]
    decide
  exact ⟨hclean, hapart, flatten_eq_ofTemplate sideBySide hclean hapart⟩

/-- A bracket behind a bracket is read as one inside of them, and hides what follows. -/
example :
    let e : Expression := .join [.raw "[x]", .new "]=?" [.value (.int 1)]] ""
    e.flatten.slots = [5] ∧ placeholders e.text = [] := by decide

end SqlWeave
