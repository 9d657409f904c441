import SqlWeave.Proofs.Writing

/-!
# The template of a fragment and its places

A fragment is well placed if its places increase, a question mark stands at each, and there are as
many as parameters. Then its template, its places and its parameters are three lists read off its
pieces: the template is the text of their symbols, the places are where the holes stand in it,
counted in bytes, and the parameters are as many as the holes. The fragment of any pieces is well
placed, and so is a template that is given as many parameters as it has placeholders.

`replaceAt` fills the places of a template by their numbers alone, without looking at pieces. It is
the independent view against which fragments are spliced, numbered and written in place.

Results:
* `symbolsAt_of_question`: marked by places with question marks, a text is still itself.
* `Placed.eq_ofPieces`: a well-placed fragment is that of its pieces.
* `placed_ofPieces`, `placed_new`: fragments that are well placed.
* `replaceAt_ofPieces`: filling the places of a template is filling the places among its pieces.
-/

namespace SqlWeave

open Template (Symbol chars holesFrom symbolsAt)

namespace Template

/-! ## Characters and their bytes -/

theorem toUInt8_inj {c d : Char} (hc : c.val.toNat < 128) (hd : d.val.toNat < 128) :
    c.toUInt8 = d.toUInt8 ↔ c = d := by
  refine ⟨fun h => ?_, congrArg _⟩
  have hn := congrArg UInt8.toNat h
  have ht : ∀ e : Char, e.toUInt8.toNat = e.val.toNat % 256 := fun _ => rfl
  rw [ht, ht, Nat.mod_eq_of_lt (by omega), Nat.mod_eq_of_lt (by omega)] at hn
  exact Char.ext (UInt32.toNat_inj.mp hn)

/-- A character of one byte is its byte. -/
theorem utf8EncodeChar_of_lt {c : Char} (hc : c.val.toNat < 128) :
    String.utf8EncodeChar c = [c.toUInt8] := by
  unfold String.utf8EncodeChar
  exact if_pos (Nat.le_of_lt_succ hc)

/-- The bytes of any other character are none of one byte. -/
theorem le_of_mem_utf8EncodeChar {c : Char} (hc : ¬ c.val.toNat < 128) {b : UInt8}
    (hb : b ∈ String.utf8EncodeChar c) : 128 ≤ b.toNat := by
  unfold String.utf8EncodeChar at hb
  rw [if_neg (by omega)] at hb
  split at hb
  · simp only [List.mem_cons, List.not_mem_nil, or_false] at hb
    rcases hb with rfl | rfl <;> simp only [UInt8.toNat_ofNat'] <;> omega
  · split at hb
    · simp only [List.mem_cons, List.not_mem_nil, or_false] at hb
      rcases hb with rfl | rfl | rfl <;> simp only [UInt8.toNat_ofNat'] <;> omega
    · simp only [List.mem_cons, List.not_mem_nil, or_false] at hb
      rcases hb with rfl | rfl | rfl | rfl <;> simp only [UInt8.toNat_ofNat'] <;> omega

/-- Bytes of one character each are read back. -/
theorem map_ofNat_bytes {cs : List Char}
    (h : ∀ b ∈ cs.flatMap String.utf8EncodeChar, b.toNat < 128) :
    (cs.flatMap String.utf8EncodeChar).map (fun b => Char.ofNat b.toNat) = cs := by
  induction cs with
  | nil => rfl
  | cons c cs ih =>
    rw [List.flatMap_cons, List.forall_mem_append] at h
    have hc : c.val.toNat < 128 := by
      by_contra hc
      have hne := String.length_utf8EncodeChar c ▸ c.utf8Size_pos
      have hb := List.getElem_mem hne
      have := le_of_mem_utf8EncodeChar hc hb
      have := h.1 _ hb
      omega
    have hone : Char.ofNat c.toUInt8.toNat = c := by
      have hn : c.toUInt8.toNat = c.toNat := Nat.mod_eq_of_lt (by change c.val.toNat < 256; omega)
      rw [hn, Char.ofNat_toNat]
    rw [List.flatMap_cons, List.map_append, ih h.2, utf8EncodeChar_of_lt hc, List.map_singleton,
      hone, List.singleton_append]

/-- A check of the characters of a text that has one byte for each. The bytes of a closed text are
at hand, while its characters have to be decoded. -/
def checks (Q : List Char → Bool) (s : String) : Bool :=
  let bytes := s.toByteArray.data.toList
  bytes.all (·.toNat < 128) && Q (bytes.map fun b => Char.ofNat b.toNat)

theorem of_checks {Q : List Char → Bool} {s : String} (h : checks Q s = true) :
    Q s.toList = true := by
  have hbytes : s.toByteArray.data.toList = s.toList.flatMap String.utf8EncodeChar := by
    rw [← String.utf8Encode_toList, List.utf8Encode, List.toList_data_toByteArray]
  unfold checks at h
  rw [hbytes, Bool.and_eq_true, List.all_eq_true] at h
  rw [map_ofNat_bytes fun b hb => of_decide_eq_true (h.1 b hb)] at h
  exact h.2

/-- A question mark among bytes is a character, and lies in no other. -/
theorem question_cases {c : Char} {bytes : List UInt8} {i : Nat}
    (h : (String.utf8EncodeChar c ++ bytes)[i]? = some '?'.toUInt8) :
    i = 0 ∧ c = '?' ∨ c.utf8Size ≤ i ∧ bytes[i - c.utf8Size]? = some '?'.toUInt8 := by
  by_cases hi : c.utf8Size ≤ i
  · rw [List.getElem?_append_right (by rwa [String.length_utf8EncodeChar]),
      String.length_utf8EncodeChar] at h
    exact .inr ⟨hi, h⟩
  · rw [List.getElem?_append_left (by rw [String.length_utf8EncodeChar]; omega)] at h
    by_cases hc : c.val.toNat < 128
    · rw [utf8EncodeChar_of_lt hc] at h
      obtain ⟨hlt, heq⟩ := List.getElem?_eq_some_iff.mp h
      obtain rfl : i = 0 := by simpa using hlt
      exact .inl ⟨rfl, (toUInt8_inj hc (by decide)).mp heq⟩
    · have hle := le_of_mem_utf8EncodeChar hc (List.mem_of_getElem? h)
      exact absurd hle (by decide)

/-- **Marked by places with question marks, a text is still itself**, and its holes are the
places. -/
theorem symbolsAt_of_question {n : Nat} {cs : List Char} {places : List Nat}
    (hinc : places.Pairwise (· < ·)) (hle : ∀ i ∈ places, n ≤ i)
    (hq : ∀ i, n + i ∈ places → (cs.flatMap String.utf8EncodeChar)[i]? = some '?'.toUInt8) :
    (symbolsAt n cs places).map Symbol.toChar = cs ∧
      holesFrom n (symbolsAt n cs places) = places := by
  induction cs generalizing n places with
  | nil =>
    cases places with
    | nil => exact ⟨rfl, rfl⟩
    | cons i places =>
      obtain ⟨j, rfl⟩ := Nat.exists_eq_add_of_le (hle i List.mem_cons_self)
      have hnone := hq j List.mem_cons_self
      cases hnone
  | cons c cs ih =>
    -- the places behind the character are places of the characters that follow
    have hnext : ∀ ps : List Nat, (∀ i ∈ ps, i ∈ places ∧ n < i) → ∀ i, n + c.utf8Size + i ∈ ps →
        (cs.flatMap String.utf8EncodeChar)[i]? = some '?'.toUInt8 := by
      intro ps hps i hi
      have hbyte := hq (c.utf8Size + i) (Nat.add_assoc n _ i ▸ (hps _ hi).1)
      rw [List.flatMap_cons] at hbyte
      rcases question_cases hbyte with ⟨h0, -⟩ | ⟨-, h⟩
      · have := c.utf8Size_pos
        omega
      · rwa [Nat.add_sub_cancel_left] at h
    have hbehind : ∀ i ∈ places, n < i → n + c.utf8Size ≤ i := by
      intro i hi hlt
      obtain ⟨j, rfl⟩ := Nat.exists_eq_add_of_le (Nat.le_of_lt hlt)
      have hbyte := hq j hi
      rw [List.flatMap_cons] at hbyte
      rcases question_cases hbyte with ⟨h0, -⟩ | ⟨h, -⟩ <;> omega
    cases places with
    | nil =>
      rw [symbolsAt_nil]
      exact ⟨toChar_char _, by simpa [chars] using holesFrom_chars n (String.ofList (c :: cs))⟩
    | cons i places =>
      obtain ⟨hi, hrest⟩ := List.pairwise_cons.mp hinc
      by_cases hn : i = n
      · subst hn
        have hlt : ∀ j ∈ places, j ∈ i :: places ∧ i < j :=
          fun j hj => ⟨List.mem_cons_of_mem _ hj, hi j hj⟩
        have hbyte := hq 0 List.mem_cons_self
        rw [List.flatMap_cons] at hbyte
        obtain ⟨-, rfl⟩ | ⟨h, -⟩ := question_cases hbyte
        · obtain ⟨hs, hp⟩ := ih hrest (fun j hj => hbehind j (hlt j hj).1 (hlt j hj).2)
            (hnext places hlt)
          rw [symbolsAt, if_pos rfl]
          exact ⟨congrArg ('?' :: ·) hs, congrArg (i :: ·) hp⟩
        · have := c.utf8Size_pos
          omega
      · have hlt : ∀ j ∈ i :: places, n < j := by
          intro j hj
          have hni := hle i List.mem_cons_self
          rcases List.mem_cons.mp hj with rfl | hj
          · omega
          · have := hi j hj
            omega
        obtain ⟨hs, hp⟩ := ih hinc (fun j hj => hbehind j hj (hlt j hj))
          (hnext _ fun j hj => ⟨hj, hlt j hj⟩)
        rw [symbolsAt, if_neg hn]
        exact ⟨congrArg (c :: ·) hs, hp⟩

/-- A question mark stands at every place. -/
theorem byte_of_mem_holesFrom {n i : Nat} {xs : List Symbol} (h : n + i ∈ holesFrom n xs) :
    ((xs.map Symbol.toChar).flatMap String.utf8EncodeChar)[i]? = some '?'.toUInt8 := by
  induction xs generalizing n i with
  | nil => cases h
  | cons x xs ih =>
    rw [List.map_cons, List.flatMap_cons]
    -- a place behind the first symbol is a place of the symbols that follow
    have hrest : ∀ k, n + i ∈ holesFrom (n + k) xs → (String.utf8EncodeChar x.toChar).length = k →
        (String.utf8EncodeChar x.toChar ++
          (xs.map Symbol.toChar).flatMap String.utf8EncodeChar)[i]? = some '?'.toUInt8 := by
      intro k hk hl
      have hle := le_of_mem_holesFrom hk
      obtain ⟨j, rfl⟩ : ∃ j, i = k + j := ⟨i - k, by omega⟩
      rw [List.getElem?_append_right (by omega), hl, Nat.add_sub_cancel_left]
      rw [← Nat.add_assoc] at hk
      exact ih hk
    cases x with
    | hole =>
      rcases List.mem_cons.mp h with h | h
      · obtain rfl : i = 0 := by omega
        rfl
      · exact hrest 1 h rfl
    | char c => exact hrest c.utf8Size h (String.length_utf8EncodeChar c)

/-! ## Filling places -/

/-- Characters with those at some places replaced by texts; the first character stands at
`offset`. -/
def replaceFrom (offset : Nat) : List Char → List Nat → List String → List Char
  | [], _, _ => []
  | c :: cs, i :: places, t :: texts =>
    if i = offset then t.toList ++ replaceFrom (offset + c.utf8Size) cs places texts
    else c :: replaceFrom (offset + c.utf8Size) cs (i :: places) (t :: texts)
  | cs, _, _ => cs

/-- A text with the characters at some places, counted in bytes, replaced by other texts. -/
def replaceAt (s : String) (places : List Nat) (texts : List String) : String :=
  String.ofList (replaceFrom 0 s.toList places texts)

/-- Symbols with the holes replaced by texts. -/
def fill : List Symbol → List String → List Char
  | [], _ => []
  | .hole :: xs, t :: texts => t.toList ++ fill xs texts
  | x :: xs, texts => x.toChar :: fill xs texts

theorem replaceFrom_nil (n : Nat) (cs : List Char) (texts : List String) :
    replaceFrom n cs [] texts = cs := by cases cs <;> rfl

theorem replaceFrom_holesFrom (xs : List Symbol) : ∀ (n : Nat) (texts : List String),
    texts.length = xs.count .hole →
    replaceFrom n (xs.map Symbol.toChar) (holesFrom n xs) texts = fill xs texts := by
  induction xs with
  | nil => intro n texts _; rfl
  | cons x xs ih =>
    intro n texts h
    cases x with
    | hole =>
      rw [List.count_cons_self] at h
      obtain ⟨t, texts, rfl⟩ := List.exists_cons_of_length_eq_add_one h
      rw [List.map_cons, holesFrom, replaceFrom, if_pos rfl]
      exact congrArg (t.toList ++ ·) (ih _ _ (Nat.succ.inj h))
    | char c =>
      rw [List.count_cons_of_ne (by simp)] at h
      have hih := ih (n + c.utf8Size) texts h
      have hc : fill (.char c :: xs) texts = c :: fill xs texts := by cases texts <;> rfl
      rw [List.map_cons, holesFrom, hc, ← hih]
      cases hp : holesFrom (n + c.utf8Size) xs with
      | nil => rw [replaceFrom_nil, replaceFrom_nil]; rfl
      | cons i places =>
        -- the next place is behind the character
        have hi : n + c.utf8Size ≤ i := le_of_mem_holesFrom (hp ▸ List.mem_cons_self)
        have hne : ¬ i = n := by
          have := c.utf8Size_pos
          omega
        cases texts with
        | nil =>
          rw [← length_holesFrom (n + c.utf8Size), hp] at h
          cases h
        | cons t texts =>
          rw [replaceFrom, if_neg hne]
          rfl

end Template

namespace Expression

/-! ## Well-placed fragments -/

/-- The places of a fragment fit its text and its parameters. -/
structure Placed (e : Expression) : Prop where
  increasing : e.slots.Pairwise (· < ·)
  question : ∀ i ∈ e.slots, e.template.toByteArray.data[i]? = some '?'.toUInt8
  length : e.slots.length = e.params.length

theorem byte_eq (s : String) (i : Nat) :
    s.toByteArray.data[i]? = (s.toList.flatMap String.utf8EncodeChar)[i]? := by
  rw [← String.utf8Encode_toList, List.utf8Encode, ← Array.getElem?_toList,
    List.toList_data_toByteArray]

/-- A fragment is well placed if its template and its places are those of symbols, and its
parameters as many as their holes. -/
theorem placed_of_symbols {e : Expression} {xs : List Symbol}
    (ht : e.template.toList = xs.map Symbol.toChar) (hs : e.slots = holesFrom 0 xs)
    (hp : e.params.length = xs.count .hole) : e.Placed where
  increasing := hs ▸ Template.pairwise_holesFrom 0 xs
  question i hi := by
    rw [hs, ← Nat.zero_add i] at hi
    rw [byte_eq, ht]
    exact Template.byte_of_mem_holesFrom hi
  length := by rw [hs, Template.length_holesFrom, hp]

theorem placed_ofPieces (ps : List Piece) : (ofPieces ps).Placed :=
  placed_of_symbols (toList_template_ofPieces ps) (Piece.slotsFrom_eq 0 ps) (Piece.length_params ps)

/-- **A template that is given as many parameters as it has placeholders is well placed.** -/
theorem placed_new {template : String} {params : List Param}
    (h : (Template.placeholders template).length = params.length) : (new template params).Placed :=
  placed_of_symbols (Template.map_toChar_scan none _).symm rfl
    (h.symm.trans (Template.length_holesFrom 0 _))

section

variable {e : Expression}

theorem Placed.marked (h : e.Placed) :
    e.symbols.map Symbol.toChar = e.template.toList ∧ holesFrom 0 e.symbols = e.slots :=
  Template.symbolsAt_of_question h.increasing (fun _ _ => Nat.zero_le _) fun i hi => by
    rw [← byte_eq]
    exact h.question i (Nat.zero_add i ▸ hi)

theorem Placed.count_symbols (h : e.Placed) : e.symbols.count .hole = e.params.length := by
  rw [← h.length, ← h.marked.2, Template.length_holesFrom]

/-- Filled with as many parameters as they have holes, symbols stay as they are, and each parameter
has its place. -/
theorem symbols_fill (xs : List Symbol) : ∀ (read : List Char) (args : List Param),
    xs.count .hole = args.length →
      (Piece.fill read xs (args.map fun p => [p.piece])).flatMap Piece.symbols =
          read.reverse.map .char ++ xs ∧
        Piece.params (Piece.fill read xs (args.map fun p => [p.piece])) = args := by
  have hflush : ∀ (read : List Char) (ps : List Piece),
      (Piece.flush read ps).flatMap Piece.symbols =
          read.reverse.map .char ++ ps.flatMap Piece.symbols ∧
        Piece.params (Piece.flush read ps) = Piece.params ps := by
    intro read ps
    cases read <;> simp [Piece.flush, Piece.symbols, chars, Piece.params]
  induction xs with
  | nil =>
    intro read args h
    obtain rfl := List.length_eq_zero_iff.mp h.symm
    obtain ⟨hs, hp⟩ := hflush read []
    exact ⟨hs, hp⟩
  | cons x xs ih =>
    intro read args h
    cases x with
    | char c =>
      rw [List.count_cons_of_ne (by simp)] at h
      obtain ⟨hs, hp⟩ := ih (c :: read) args h
      exact ⟨by rw [Piece.fill, hs]; simp, by rw [Piece.fill, hp]⟩
    | hole =>
      rw [List.count_cons_self] at h
      obtain ⟨a, args, rfl⟩ := List.exists_cons_of_length_eq_add_one h.symm
      obtain ⟨hs, hp⟩ := ih [] args (Nat.succ.inj h)
      obtain ⟨hfs, hfp⟩ := hflush read
        ([a.piece] ++ Piece.fill [] xs (args.map fun p => [p.piece]))
      have ha : a.piece.symbols = [.hole] := by cases a <;> rfl
      have hone : Piece.params [a.piece] = [a] := by cases a <;> rfl
      refine ⟨?_, ?_⟩
      · rw [List.map_cons, Piece.fill, hfs, List.flatMap_append, hs, List.flatMap_singleton, ha]
        rfl
      · rw [List.map_cons, Piece.fill, hfp, Piece.params_append, hp, hone]
        rfl

/-- **A well-placed fragment is that of its pieces.** -/
theorem Placed.eq_ofPieces (h : e.Placed) : e = ofPieces e.pieces := by
  obtain ⟨hs, hp⟩ := symbols_fill e.symbols [] e.params h.count_symbols
  have hsymbols : e.pieces.flatMap Piece.symbols = e.symbols := hs
  refine ext ?_ ?_ hp.symm
  · rw [← String.toList_inj, toList_template_ofPieces, hsymbols, h.marked.1]
  · rw [← h.marked.2, ← hsymbols]
    exact (Piece.slotsFrom_eq 0 e.pieces).symm

/-- Only what stands at a place is nested among the pieces. -/
theorem mem_params_of_nested_mem_pieces {f : Expression} (h : .nested f ∈ e.pieces) :
    .expression f ∈ e.params := by
  have hfill : ∀ (xs : List Symbol) (read : List Char) (args : List Param),
      .nested f ∈ Piece.fill read xs (args.map fun p => [p.piece]) → .expression f ∈ args := by
    have hflush : ∀ (read : List Char) (ps : List Piece),
        .nested f ∈ Piece.flush read ps → .nested f ∈ ps := by
      intro read ps hm
      cases read <;> simpa [Piece.flush] using hm
    intro xs
    induction xs with
    | nil =>
      intro read args hm
      cases hflush read [] hm
    | cons x xs ih =>
      intro read args hm
      cases x with
      | char c => exact ih _ _ hm
      | hole =>
        cases args with
        | nil => exact ih _ [] hm
        | cons a args =>
          rw [List.map_cons, Piece.fill] at hm
          rcases List.mem_cons.mp (hflush _ _ hm) with ha | hm
          · cases a with
            | value v => cases ha
            | expression e =>
              cases ha
              exact List.mem_cons_self
          · exact List.mem_cons_of_mem _ (ih _ _ hm)
  exact hfill _ _ _ h

/-- The places of a template that is read as it is meant are found by scanning it. -/
theorem placeholders_of_reads {ps : List Piece} {Q : Template.Place → Prop}
    (h : Template.Reads Template.Outside Q (ps.flatMap Piece.symbols)) :
    Template.placeholders (ofPieces ps).template = (ofPieces ps).slots := by
  have ht : (ofPieces ps).template =
      String.ofList ((ps.flatMap Piece.symbols).map Symbol.toChar) := by
    rw [← toList_template_ofPieces, String.ofList_toList]
  unfold Template.placeholders
  rw [ht, Template.symbols_of_reads h]
  exact (Piece.slotsFrom_eq 0 ps).symm

end

end Expression

/-! ## Templates cut at their holes -/

/-- The texts in front of the holes of symbols, and the one behind the last. `read` holds the text
since the last hole, last character first. -/
def Template.cut (read : List Char) : List Symbol → List (List Char)
  | [] => [read.reverse]
  | .char c :: xs => cut (c :: read) xs
  | .hole :: xs => read.reverse :: cut [] xs

namespace Piece

/-- Texts with what comes to the places between them. -/
def weave : List (List Char) → List Param → List Piece
  | [], _ => []
  | cs :: _, [] => [.text (.ofList cs)]
  | cs :: texts, a :: args => .text (.ofList cs) :: a.piece :: weave texts args

/-- Symbols are filled by cutting them at their holes. -/
theorem fill_eq_normal_weave (xs : List Symbol) : ∀ (read : List Char) (args : List Param),
    xs.count .hole = args.length →
      fill read xs (args.map fun p => [p.piece]) = normal (weave (Template.cut read xs) args) := by
  induction xs with
  | nil =>
    intro read args h
    obtain rfl := List.length_eq_zero_iff.mp h.symm
    exact flush_nil read
  | cons x xs ih =>
    intro read args h
    cases x with
    | char c =>
      rw [List.count_cons_of_ne (by simp)] at h
      exact ih (c :: read) args h
    | hole =>
      rw [List.count_cons_self] at h
      obtain ⟨a, args, rfl⟩ := List.exists_cons_of_length_eq_add_one h.symm
      have ha : ∀ s, a.piece ≠ .text s := by cases a <;> exact fun s h => by cases h
      have hcons : ∀ ps : List Piece, cons a.piece ps = a.piece :: ps := by
        cases a <;> exact fun _ => rfl
      rw [List.map_cons, fill, ih [] args (Nat.succ.inj h), List.singleton_append,
        flush_eq_cons read ha, Template.cut, weave, normal_cons, normal_cons, hcons]

theorem mem_weave {a : Param} {args : List Param} (ha : a ∈ args) :
    ∀ {texts : List (List Char)}, args.length < texts.length → a.piece ∈ weave texts args := by
  induction args with
  | nil => cases ha
  | cons b args ih =>
    intro texts h
    cases texts with
    | nil => cases h
    | cons cs texts =>
      rw [weave]
      rcases List.mem_cons.mp ha with rfl | ha
      · exact List.mem_cons_of_mem _ List.mem_cons_self
      · exact List.mem_cons_of_mem _ (List.mem_cons_of_mem _ (ih ha (Nat.lt_of_succ_lt_succ h)))

/-- Behind what comes to the last place stands the last text. -/
theorem weave_eq_append {cs : List Char} {args : List Param} : ∀ {texts : List (List Char)},
    texts.length = args.length + 1 → texts.getLast? = some cs →
      ∃ ps, weave texts args = ps ++ [.text (.ofList cs)] := by
  induction args with
  | nil =>
    intro texts h hl
    obtain ⟨ds, rfl⟩ := List.length_eq_one_iff.mp h
    cases hl
    exact ⟨[], rfl⟩
  | cons a args ih =>
    intro texts h hl
    obtain ⟨ds, texts, rfl⟩ := List.exists_cons_of_length_eq_add_one h
    have hne : texts ≠ [] := by
      rintro rfl
      cases h
    rw [List.getLast?_cons_of_ne_nil hne] at hl
    obtain ⟨ps, hps⟩ := ih (Nat.succ.inj h) hl
    exact ⟨.text (.ofList ds) :: a.piece :: ps, by rw [weave, hps]; rfl⟩

/-- Among woven pieces are texts and what came to the places. -/
theorem forall_mem_weave {P : Piece → Prop} {texts : List (List Char)} {args : List Param}
    (ht : ∀ cs ∈ texts, P (.text (.ofList cs))) (ha : ∀ a ∈ args, P a.piece) :
    ∀ p ∈ weave texts args, P p := by
  induction texts generalizing args with
  | nil => exact fun _ h => by cases h
  | cons cs texts ih =>
    obtain ⟨hcs, ht⟩ := List.forall_mem_cons.mp ht
    cases args with
    | nil => exact List.forall_mem_singleton.mpr hcs
    | cons a args =>
      obtain ⟨ha, hargs⟩ := List.forall_mem_cons.mp ha
      exact List.forall_mem_cons.mpr ⟨hcs, List.forall_mem_cons.mpr ⟨ha, ih ht hargs⟩⟩

end Piece

theorem Template.length_cut (xs : List Symbol) : ∀ read : List Char,
    (cut read xs).length = xs.count .hole + 1 := by
  induction xs with
  | nil => exact fun _ => rfl
  | cons x xs ih =>
    intro read
    cases x with
    | char c => rw [cut, ih, List.count_cons_of_ne (by simp)]
    | hole => rw [cut, List.length_cons, ih, List.count_cons_self]

namespace Expression

/-- **A template that is given as many parameters as it has placeholders is its texts with these
between them.** -/
theorem new_eq_weave {template : String} {params : List Param}
    (h : (Template.placeholders template).length = params.length) :
    new template params =
      ofPieces (Piece.weave (Template.cut [] (Template.symbols template)) params) := by
  have hplaced : (new template params).Placed := placed_new h
  have hsymbols : (new template params).symbols = Template.symbols template := by
    change symbolsAt 0 template.toList (holesFrom 0 (Template.symbols template)) = _
    rw [← Template.map_toChar_scan none template.toList]
    exact Template.symbolsAt_holesFrom 0 _
  have hcount : (Template.symbols template).count .hole = params.length := by
    rw [← h, Template.placeholders, Template.length_holesFrom]
  have hpieces : (new template params).pieces =
      Piece.fill [] (Template.symbols template) (params.map fun p => [p.piece]) := by
    rw [pieces, hsymbols]
    rfl
  rw [hplaced.eq_ofPieces, hpieces, Piece.fill_eq_normal_weave _ _ _ hcount, ofPieces_normal]

/-! ## Filling the places of a fragment -/

/-- Pieces with a text for each place among them. -/
def fillPieces : List Piece → List String → String
  | [], _ => ""
  | .text s :: ps, texts => s ++ fillPieces ps texts
  | _ :: ps, t :: texts => t ++ fillPieces ps texts
  | _ :: ps, [] => "?" ++ fillPieces ps []

theorem fill_chars (s : String) (xs : List Symbol) (texts : List String) :
    Template.fill (chars s ++ xs) texts = s.toList ++ Template.fill xs texts := by
  unfold chars
  induction s.toList with
  | nil => rfl
  | cons c cs ih =>
    rw [List.cons_append, ← ih]
    cases texts <;> rfl

theorem toList_fillPieces (ps : List Piece) : ∀ texts : List String,
    (fillPieces ps texts).toList = Template.fill (ps.flatMap Piece.symbols) texts := by
  induction ps with
  | nil => exact fun _ => String.toList_empty
  | cons p ps ih =>
    intro texts
    rw [List.flatMap_cons]
    cases p with
    | text s => rw [fillPieces, Piece.symbols, fill_chars, String.toList_append, ih]
    | bound v => cases texts <;> simp [fillPieces, ih, Piece.symbols, Template.fill, Symbol.toChar]
    | nested e =>
      cases texts <;> simp [fillPieces, ih, Piece.symbols, Template.fill, Symbol.toChar]

/-- Joining text changes nothing of what is filled in. -/
theorem fillPieces_normal (ps : List Piece) (texts : List String) :
    fillPieces (Piece.normal ps) texts = fillPieces ps texts := by
  rw [← String.toList_inj, toList_fillPieces, toList_fillPieces, Piece.flatMap_symbols_normal]

/-- **Filling the places of a template is filling the places among its pieces.** -/
theorem replaceAt_ofPieces (ps : List Piece) {texts : List String}
    (h : texts.length = (Piece.params ps).length) :
    Template.replaceAt (ofPieces ps).template (ofPieces ps).slots texts = fillPieces ps texts := by
  have hs : (ofPieces ps).slots = holesFrom 0 (ps.flatMap Piece.symbols) := Piece.slotsFrom_eq 0 ps
  unfold Template.replaceAt
  rw [toList_template_ofPieces, hs,
    Template.replaceFrom_holesFrom _ _ _ (h.trans (Piece.length_params ps)), ← toList_fillPieces,
    String.ofList_toList]

theorem Placed.replaceAt {e : Expression} (he : e.Placed) {texts : List String}
    (h : texts.length = e.params.length) :
    Template.replaceAt e.template e.slots texts = fillPieces e.pieces texts := by
  rw [he.eq_ofPieces] at h
  have hr := replaceAt_ofPieces e.pieces h
  rwa [← he.eq_ofPieces] at hr

end Expression
end SqlWeave
