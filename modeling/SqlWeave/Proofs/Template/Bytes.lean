import SqlWeave.Proofs.Template.Fragment

/-!
# Finding placeholders byte by byte

A template is read in characters, and so are its quotes. The bytes of its encoding can be read
instead: what opens or closes quotes is a single byte, and so is a question mark, and none of these
is a byte of any other character.

Two readers of bytes are compared with `placeholders`. One is an automaton that takes the bytes one
after another and remembers where it stands. The other has an index into the bytes; inside quotes it
looks one byte ahead, and a read behind the last byte would fail.

Results:
* `positions_eq_holesFrom`: the automaton finds the placeholders.
* `search_eq_positions`: the reader with an index finds what the automaton finds, and no read fails.
* `mem_positions_iff`: what is found are the question marks that are met outside of quotes.
* `placeholders_met_outside`: the placeholders of any text.
-/

namespace SqlWeave.Template

/-! ## The automaton -/

namespace Bytes

/-- The bytes of a text. -/
def ofText (s : String) : List UInt8 := s.toByteArray.data.toList

/-- The byte that closes what a byte opens. -/
def closing? (b : UInt8) : Option UInt8 :=
  if b = '\''.toUInt8 ∨ b = '"'.toUInt8 ∨ b = '\x60'.toUInt8 then some b
  else if b = '['.toUInt8 then some ']'.toUInt8
  else none

/-- Where the automaton stands. -/
inductive State where
  | outside
  /-- In quotes that a byte closes. -/
  | inside (closing : UInt8)
  /-- The last byte was the one that closes the quotes. -/
  | justClosed (closing : UInt8)
  deriving DecidableEq, Repr

namespace State

/-- Inside quotes, if there are any. -/
def opened : Option UInt8 → State
  | none => outside
  | some q => inside q

/-- The state behind a byte. A closing byte that comes twice in a row closes nothing. -/
def next : State → UInt8 → State
  | outside, b => opened (closing? b)
  | inside q, b => if b = q then justClosed q else inside q
  | justClosed q, b => if b = q then inside q else opened (closing? b)

/-- The byte is met outside of quotes. -/
def meets : State → UInt8 → Bool
  | outside, _ => true
  | inside _, _ => false
  | justClosed q, b => b ≠ q

/-- The state behind some bytes. -/
def after (s : State) (bytes : List UInt8) : State := bytes.foldl next s

end State

/-- The question marks that are met outside of quotes; the first byte stands at `offset`. -/
def positions (s : State) (offset : Nat) : List UInt8 → List Nat
  | [] => []
  | b :: bytes =>
    if b = '?'.toUInt8 ∧ s.meets b then offset :: positions (s.next b) (offset + 1) bytes
    else positions (s.next b) (offset + 1) bytes

theorem positions_append (s : State) (n : Nat) (xs ys : List UInt8) :
    positions s n (xs ++ ys) = positions s n xs ++ positions (s.after xs) (n + xs.length) ys := by
  induction xs generalizing s n with
  | nil => rfl
  | cons x xs ih =>
    have hn : n + 1 + xs.length = n + (x :: xs).length := by
      rw [List.length_cons, Nat.add_assoc, Nat.add_comm 1]
    rw [List.cons_append, positions, positions, ih, hn]
    split <;> rfl

theorem le_of_mem_positions {s : State} {n i : Nat} {bytes : List UInt8}
    (h : i ∈ positions s n bytes) : n ≤ i := by
  induction bytes generalizing s n with
  | nil => cases h
  | cons b bytes ih =>
    rw [positions] at h
    split at h
    · rcases List.mem_cons.mp h with rfl | h
      · exact Nat.le_refl _
      · exact Nat.le_of_succ_le (ih h)
    · exact Nat.le_of_succ_le (ih h)

/-- **What is found are the question marks that are met outside of quotes.** -/
theorem mem_positions_iff {s : State} {n i : Nat} {bytes : List UInt8} :
    n + i ∈ positions s n bytes ↔
      bytes[i]? = some '?'.toUInt8 ∧ (s.after (bytes.take i)).meets '?'.toUInt8 = true := by
  induction bytes generalizing s n i with
  | nil => simp [positions]
  | cons b bytes ih =>
    rw [positions]
    cases i with
    | zero =>
      have hrest : n ∉ positions (s.next b) (n + 1) bytes := fun h =>
        absurd (le_of_mem_positions h) (Nat.not_succ_le_self n)
      have hmeets : (s.after ((b :: bytes).take 0)).meets '?'.toUInt8 = s.meets '?'.toUInt8 := rfl
      rw [Nat.add_zero, hmeets, List.getElem?_cons_zero, Option.some.injEq]
      split
      · rename_i hb
        exact iff_of_true List.mem_cons_self ⟨hb.1, hb.1 ▸ hb.2⟩
      · rename_i hb
        exact iff_of_false hrest fun h => hb ⟨h.1, h.1 ▸ h.2⟩
    | succ i =>
      have hi : n + (i + 1) = n + 1 + i := by omega
      have hne : n + 1 + i ≠ n := by omega
      rw [hi]
      have hmem : ∀ xs : List Nat, n + 1 + i ∈ n :: xs ↔ n + 1 + i ∈ xs := fun xs => by
        rw [List.mem_cons, or_iff_right hne]
      split
      · rw [hmem]
        exact ih
      · exact ih

/-! ## Characters and their bytes -/

/-- What opens or closes quotes is a character of one byte. -/
theorem lt_of_isClosing {q : Char} (h : isClosing q = true) : q.val.toNat < 128 := by
  simp only [isClosing, Bool.or_eq_true, decide_eq_true_eq] at h
  rcases h with ((rfl | rfl) | rfl) | rfl <;> decide

/-- Where a reader of bytes stands when a reader of characters stands at a place. -/
def State.ofPlace : Place → State
  | .outside => outside
  | .inside q => inside q.toUInt8
  | .behind q => justClosed q.toUInt8

/-- The quotes at a place are closed by a character that closes quotes. -/
def Closable : Place → Prop
  | .outside => True
  | .inside q => isClosing q = true
  | .behind q => isClosing q = true

theorem isClosing_of_closing? {c q : Char} (h : Template.closing? c = some q) :
    isClosing q = true := by
  unfold Template.closing? at h
  split at h
  · rename_i hc
    cases h
    rcases hc with rfl | rfl | rfl <;> rfl
  · split at h
    · cases h
      rfl
    · cases h

theorem closable_within (c : Char) : Closable (.within (Template.closing? c)) := by
  cases h : Template.closing? c with
  | none => trivial
  | some q => exact isClosing_of_closing? h

theorem closable_next {p : Place} (hp : Closable p) (c : Char) : Closable (p.next c) := by
  cases p with
  | outside => exact closable_within c
  | inside q =>
    rw [Place.next]
    split
    · exact hp
    · exact hp
  | behind q =>
    rw [Place.next]
    split
    · exact hp
    · exact closable_within c

/-- A character of one byte opens the same quotes as its byte. -/
theorem opened_closing? {c : Char} (hc : c.val.toNat < 128) :
    State.opened (closing? c.toUInt8) = .ofPlace (.within (Template.closing? c)) := by
  unfold closing? Template.closing?
  simp only [toUInt8_inj hc (by decide : '\''.val.toNat < 128),
    toUInt8_inj hc (by decide : '"'.val.toNat < 128),
    toUInt8_inj hc (by decide : '\x60'.val.toNat < 128),
    toUInt8_inj hc (by decide : '['.val.toNat < 128)]
  split
  · rfl
  · split <;> rfl

/-- **A character of one byte is read alike by both.** -/
theorem next_ofPlace {p : Place} (hp : Closable p) {c : Char} (hc : c.val.toNat < 128) :
    (State.ofPlace p).next c.toUInt8 = .ofPlace (p.next c) ∧
      (c.toUInt8 = '?'.toUInt8 ∧ (State.ofPlace p).meets c.toUInt8 ↔ p.marks c = true) := by
  have hmark : c.toUInt8 = '?'.toUInt8 ↔ c = '?' := toUInt8_inj hc (by decide)
  cases p with
  | outside =>
    refine ⟨opened_closing? hc, ?_⟩
    rw [hmark]
    simp [State.ofPlace, State.meets, Place.marks]
  | inside q =>
    have hq := toUInt8_inj hc (lt_of_isClosing hp)
    refine ⟨?_, by simp [State.ofPlace, State.meets, Place.marks]⟩
    simp only [State.ofPlace, State.next, Place.next, hq]
    split <;> rfl
  | behind q =>
    have hq := toUInt8_inj hc (lt_of_isClosing hp)
    refine ⟨?_, ?_⟩
    · simp only [State.ofPlace, State.next, Place.next, hq, opened_closing? hc]
      split <;> rfl
    · rw [hmark]
      simp [State.ofPlace, State.meets, Place.marks, hq, and_comm]

/-- A byte of no character of one byte is no quote, and closes none. -/
theorem next_of_le {p : Place} (hp : Closable p) {b : UInt8} (hb : 128 ≤ b.toNat) {c : Char}
    (hc : ¬ c.val.toNat < 128) :
    (State.ofPlace p).next b = .ofPlace (p.next c) ∧ p.marks c = false ∧ b ≠ '?'.toUInt8 ∧
      (p.next c).next c = p.next c := by
  have hbyte : ∀ d : Char, d.val.toNat < 128 → b ≠ d.toUInt8 := by
    rintro d hd rfl
    have ht : d.toUInt8.toNat = d.val.toNat % 256 := rfl
    omega
  have hchar : ∀ d : Char, d.val.toNat < 128 → c ≠ d := by
    rintro d hd rfl
    exact hc hd
  have hb? : closing? b = none := by
    unfold closing?
    rw [if_neg, if_neg (hbyte _ (by decide))]
    rintro (h | h | h) <;> exact hbyte _ (by decide) h
  have hc? : Template.closing? c = none := by
    unfold Template.closing?
    rw [if_neg, if_neg (hchar _ (by decide))]
    rintro (h | h | h) <;> exact hchar _ (by decide) h
  have hmark : c ≠ '?' := hchar _ (by decide)
  have houtside : Place.next .outside c = .outside := by rw [Place.next, hc?]; rfl
  cases p with
  | outside =>
    refine ⟨?_, by simp [Place.marks, hmark], hbyte _ (by decide), ?_⟩
    · rw [houtside, State.ofPlace, State.next, hb?]
      rfl
    · rw [houtside, houtside]
  | inside q =>
    have hq := lt_of_isClosing hp
    have hin : Place.next (.inside q) c = .inside q := if_neg (hchar q hq)
    refine ⟨?_, rfl, hbyte _ (by decide), ?_⟩
    · rw [hin, State.ofPlace, State.next, if_neg (hbyte q hq)]
    · rw [hin, hin]
  | behind q =>
    have hq := lt_of_isClosing hp
    have hout : Place.next (.behind q) c = .outside := by
      rw [Place.next, if_neg (hchar q hq), hc?]
      rfl
    have hbehind : (State.ofPlace (.behind q)).next b = .opened (closing? b) :=
      if_neg (hbyte q hq)
    refine ⟨?_, by simp [Place.marks, hmark], hbyte _ (by decide), ?_⟩
    · rw [hout, hbehind, hb?]
      rfl
    · rw [hout, houtside]

/-- **The bytes of any other character are read as one character**, and none of them is found. -/
theorem positions_of_le {p : Place} (hp : Closable p) {c : Char} (hc : ¬ c.val.toNat < 128)
    (n : Nat) {bytes : List UInt8} (hne : bytes ≠ []) (hb : ∀ b ∈ bytes, 128 ≤ b.toNat) :
    positions (.ofPlace p) n bytes = [] ∧
      State.after (.ofPlace p) bytes = .ofPlace (p.next c) := by
  induction bytes generalizing p n with
  | nil => exact absurd rfl hne
  | cons b bytes ih =>
    obtain ⟨hb, hbytes⟩ := List.forall_mem_cons.mp hb
    obtain ⟨hnext, -, hmark, hstay⟩ := next_of_le hp hb hc
    have hafter : State.after (.ofPlace p) (b :: bytes) =
        State.after ((State.ofPlace p).next b) bytes := rfl
    rw [positions, if_neg fun h => hmark h.1, hafter, hnext]
    cases bytes with
    | nil => exact ⟨rfl, rfl⟩
    | cons b' bytes =>
      -- the reader of characters would stay where it is if the character came again
      have h := ih (closable_next hp c) (n + 1) (List.cons_ne_nil _ _) hbytes
      rwa [hstay] at h

/-- A character is read alike by both readers. -/
theorem positions_utf8EncodeChar {p : Place} (hp : Closable p) (c : Char) (n : Nat) :
    positions (.ofPlace p) n (String.utf8EncodeChar c) =
        (if p.marks c = true then [n] else []) ∧
      State.after (.ofPlace p) (String.utf8EncodeChar c) = .ofPlace (p.next c) := by
  by_cases hc : c.val.toNat < 128
  · obtain ⟨hnext, hmark⟩ := next_ofPlace hp hc
    rw [utf8EncodeChar_of_lt hc]
    refine ⟨?_, hnext⟩
    simp only [positions, hmark]
  · obtain ⟨hpositions, hafter⟩ := positions_of_le hp hc n String.utf8EncodeChar_ne_nil
      fun _ => le_of_mem_utf8EncodeChar hc
    obtain ⟨b, hb⟩ := List.exists_mem_of_ne_nil _ (String.utf8EncodeChar_ne_nil (c := c))
    obtain ⟨-, hmarks, -⟩ := next_of_le hp (le_of_mem_utf8EncodeChar hc hb) hc
    refine ⟨?_, hafter⟩
    rw [hpositions, hmarks]
    rfl

/-- **The automaton finds the placeholders.** -/
theorem positions_eq_holesFrom {p : Place} (hp : Closable p) (n : Nat) (cs : List Char) :
    positions (.ofPlace p) n (cs.flatMap String.utf8EncodeChar) = holesFrom n (read p cs) := by
  induction cs generalizing p n with
  | nil => rfl
  | cons c cs ih =>
    obtain ⟨hpositions, hafter⟩ := positions_utf8EncodeChar hp c n
    rw [List.flatMap_cons, positions_append, hpositions, hafter, ih (closable_next hp c),
      String.length_utf8EncodeChar, read]
    by_cases hm : p.marks c = true
    · have hsize : c.utf8Size = 1 := by
        have hc : c = '?' := by cases p <;> simp_all [Place.marks]
        rw [hc]
        rfl
      rw [if_pos hm, if_pos hm, hsize]
      rfl
    · rw [if_neg hm, if_neg hm]
      rfl

/-! ## The reader with an index -/

/-- The placeholders from an index on, `region` being the byte that closes the quotes it stands in.
Inside of them it reads the byte behind a closing one if there is any. A read behind the last byte
fails. -/
def search (bytes : List UInt8) (region : Option UInt8) (i : Nat) : Option (List Nat) :=
  if i < bytes.length then do
    let b ← bytes[i]?
    match region with
    | none =>
      if b = '?'.toUInt8 then (search bytes none (i + 1)).map (i :: ·)
      else search bytes (closing? b) (i + 1)
    | some q =>
      if b = q then
        if i + 1 < bytes.length then do
          let c ← bytes[i + 1]?
          if c = q then search bytes (some q) (i + 2) else search bytes none (i + 1)
        else search bytes none (i + 1)
      else search bytes (some q) (i + 1)
  else some []
termination_by bytes.length - i

section

variable {bytes : List UInt8} {i : Nat} {b q : UInt8}

theorem search_end (h : bytes[i]? = none) (region : Option UInt8) :
    search bytes region i = some [] := by
  unfold search
  rw [if_neg (Nat.not_lt.mpr (List.getElem?_eq_none_iff.mp h))]

theorem search_outside (h : bytes[i]? = some b) :
    search bytes none i =
      if b = '?'.toUInt8 then (search bytes none (i + 1)).map (i :: ·)
      else search bytes (closing? b) (i + 1) := by
  obtain ⟨hi, -⟩ := List.getElem?_eq_some_iff.mp h
  conv => lhs; unfold search
  rw [if_pos hi, h]
  rfl

theorem search_inside (h : bytes[i]? = some b) (hb : b ≠ q) :
    search bytes (some q) i = search bytes (some q) (i + 1) := by
  obtain ⟨hi, -⟩ := List.getElem?_eq_some_iff.mp h
  conv => lhs; unfold search
  rw [if_pos hi, h]
  exact if_neg hb

theorem search_closing (h : bytes[i]? = some q) :
    search bytes (some q) i =
      if bytes[i + 1]? = some q then search bytes (some q) (i + 2)
      else search bytes none (i + 1) := by
  obtain ⟨hi, -⟩ := List.getElem?_eq_some_iff.mp h
  conv => lhs; unfold search
  rw [if_pos hi, h]
  refine (if_pos rfl).trans ?_
  by_cases hnext : i + 1 < bytes.length
  · rw [if_pos hnext, List.getElem?_eq_getElem hnext]
    simp only [Option.some.injEq]
    rfl
  · rw [if_neg hnext, List.getElem?_eq_none (Nat.not_lt.mp hnext), if_neg (by simp)]

end

/-- A closing byte that does not come again is behind the reader as if it had closed nothing. -/
theorem positions_justClosed {q : UInt8} {bytes : List UInt8} (h : bytes.head? ≠ some q) (n : Nat) :
    positions (.justClosed q) n bytes = positions .outside n bytes := by
  cases bytes with
  | nil => rfl
  | cons b bytes =>
    have hb : b ≠ q := fun hb => h (congrArg some hb)
    have hmeets : (State.justClosed q).meets b = State.outside.meets b := by
      simp [State.meets, hb]
    have hnext : (State.justClosed q).next b = State.outside.next b := if_neg hb
    rw [positions, positions, hmeets, hnext]

/-- From an index on, both readers find the same. -/
def SearchAgrees (bytes : List UInt8) (region : Option UInt8) (i : Nat) : Prop :=
  search bytes region i = some (positions (.opened region) i (bytes.drop i))

section

variable {bytes : List UInt8} {i : Nat} {q : UInt8}

/-- Outside of quotes both read a byte alike. -/
theorem searchAgrees_outside (hi : i < bytes.length)
    (hlater : ∀ region, SearchAgrees bytes region (i + 1)) : SearchAgrees bytes none i := by
  have hmeets : (State.opened none).meets bytes[i] = true := rfl
  have hnext : (State.opened none).next bytes[i] = .opened (closing? bytes[i]) := rfl
  rw [SearchAgrees, search_outside (List.getElem?_eq_getElem hi), hlater, hlater,
    List.drop_eq_getElem_cons hi, positions, hmeets, hnext]
  by_cases hmark : bytes[i] = '?'.toUInt8
  · have hc : closing? '?'.toUInt8 = none := rfl
    rw [if_pos hmark, if_pos ⟨hmark, rfl⟩, hmark, hc]
    rfl
  · rw [if_neg hmark, if_neg fun h => hmark h.1]

/-- Inside quotes the reader with an index takes one byte, or two where the closing one comes
again. -/
theorem searchAgrees_inside (hi : i < bytes.length)
    (hlater : ∀ region j, i < j → SearchAgrees bytes region j) :
    SearchAgrees bytes (some q) i := by
  have hmeets : (State.opened (some q)).meets bytes[i] = false := rfl
  rw [SearchAgrees, List.drop_eq_getElem_cons hi, positions, hmeets, if_neg (by simp)]
  by_cases hq : bytes[i] = q
  · have hnext : (State.opened (some q)).next bytes[i] = .justClosed q := if_pos hq
    rw [search_closing (hq ▸ List.getElem?_eq_getElem hi), hnext]
    split
    · -- the closing byte comes again: the reader stays inside
      rename_i hagain
      obtain ⟨hi', hq'⟩ := List.getElem?_eq_some_iff.mp hagain
      have hstay : (State.justClosed q).next q = .opened (some q) := if_pos rfl
      rw [hlater _ _ (by omega), List.drop_eq_getElem_cons hi', hq', positions, hstay,
        if_neg (by simp [State.meets])]
    · rename_i honce
      rw [hlater _ _ (Nat.lt_succ_self i), positions_justClosed (by rwa [List.head?_drop])]
      rfl
  · have hnext : (State.opened (some q)).next bytes[i] = .opened (some q) := if_neg hq
    rw [search_inside (List.getElem?_eq_getElem hi) hq, hnext, hlater _ _ (Nat.lt_succ_self i)]

end

/-- **The reader with an index finds what the automaton finds**, and none of its reads fails. -/
theorem search_eq_positions (bytes : List UInt8) (region : Option UInt8) (i : Nat) :
    search bytes region i = some (positions (.opened region) i (bytes.drop i)) := by
  induction hn : bytes.length - i using Nat.strongRecOn generalizing region i with
  | _ n ih =>
    subst hn
    by_cases hi : i < bytes.length
    · have hlater : ∀ region j, i < j → SearchAgrees bytes region j := fun region j hj =>
        ih _ (by omega) region j rfl
      cases region with
      | none => exact searchAgrees_outside hi fun region => hlater region _ (Nat.lt_succ_self i)
      | some q => exact searchAgrees_inside hi hlater
    · have hend := Nat.le_of_not_lt hi
      rw [search_end (List.getElem?_eq_none hend), List.drop_eq_nil_of_le hend]
      rfl

/-- From an index on, the quotes that a byte closes stay open to the end. -/
def OpenFrom (bytes : List UInt8) (q : UInt8) (i : Nat) : Prop :=
  ∀ k, i ≤ k → k ≤ bytes.length →
    State.after .outside (bytes.take k) = .inside q ∨
      State.after .outside (bytes.take k) = .justClosed q ∧ bytes[k]? = some q

/-- The bytes of a text are those of its characters. -/
theorem ofText_eq (s : String) : ofText s = s.toList.flatMap String.utf8EncodeChar := by
  rw [← List.toList_data_toByteArray (l := s.toList.flatMap String.utf8EncodeChar)]
  exact congrArg (·.data.toList) s.utf8Encode_toList.symm

end Bytes

open Bytes in
/-- **The placeholders of a text are the question marks that are met outside of quotes**, in
increasing order, by an automaton that takes the bytes one after another. A reader with an index
finds them too, and none of its reads is behind the last byte. Quotes that are never closed hide all
that follows. -/
theorem placeholders_met_outside (s : String) :
    search (ofText s) none 0 = some (placeholders s) ∧
      (placeholders s).Pairwise (· < ·) ∧
      (∀ i, i ∈ placeholders s ↔ (ofText s)[i]? = some '?'.toUInt8 ∧
        (State.after .outside ((ofText s).take i)).meets '?'.toUInt8 = true) ∧
      ∀ q i, OpenFrom (ofText s) q i → ∀ p ∈ placeholders s, p < i := by
  have hfound : positions .outside 0 (ofText s) = placeholders s := by
    rw [ofText_eq, placeholders, symbols_eq_read]
    exact positions_eq_holesFrom (p := .outside) trivial 0 s.toList
  have hmem : ∀ i, i ∈ placeholders s ↔ (ofText s)[i]? = some '?'.toUInt8 ∧
      (State.after .outside ((ofText s).take i)).meets '?'.toUInt8 = true := fun i => by
    rw [← hfound, ← mem_positions_iff (n := 0), Nat.zero_add]
  refine ⟨?_, pairwise_holesFrom 0 _, hmem, fun q i hopen p hp => ?_⟩
  · rw [← hfound]
    exact search_eq_positions (ofText s) none 0
  · by_contra hle
    obtain ⟨hbyte, hmeets⟩ := (hmem p).mp hp
    have hlt : p < (ofText s).length := (List.getElem?_eq_some_iff.mp hbyte).1
    rcases hopen p (Nat.not_lt.mp hle) (Nat.le_of_lt hlt) with hin | ⟨hclosed, hq⟩
    · rw [hin] at hmeets
      cases hmeets
    · -- the byte would be the closing one
      obtain rfl := Option.some.inj (hbyte.symm.trans hq)
      rw [hclosed] at hmeets
      cases hmeets

end SqlWeave.Template
