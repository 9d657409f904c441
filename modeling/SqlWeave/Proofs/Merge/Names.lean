import Mathlib.Data.Set.Finite.Lemmas
import SqlWeave.Proofs.Template.Word
import SqlWeave.Text.Ascii

/-!
# Two ways to quote a name

A name is quoted as a whole (`Dialect.quotePart`), or cut at its dots into parts that lose the
blanks around them and are quoted one by one (`Dialect.quote`), unless it claims to be quoted
already. The two agree on *simple* names: those of one part, without blanks around it, that do not
claim to be quoted.

Results:
* `doubled_cancel`: a text whose closing quotes are doubled ends in one place only.
* `quotePart_injective`: a name quoted as a whole can be read back.
* `trimmed_of_quote_eq`: what the second way writes as the first does has one part, and the first
  is given it without its blanks.
* `simple_congr`: letter case has no part in whether a name is simple.
* `declared_iff`: names quoted the first way are all found among names quoted the second way
  exactly if the names are simple and found as they are spelled.
-/

namespace SqlWeave

open Text

/-! ## Doubled quotes -/

namespace Text

theorem doubled_cons_self (q : Char) (cs : List Char) :
    doubled (· == q) (q :: cs) = q :: q :: doubled (· == q) cs := by
  simp [doubled]

theorem doubled_cons_of_ne {q c : Char} (h : c ≠ q) (cs : List Char) :
    doubled (· == q) (c :: cs) = c :: doubled (· == q) cs := by
  simp [doubled, h]

theorem length_le_doubled (twice : Char → Bool) (cs : List Char) :
    cs.length ≤ (doubled twice cs).length := by
  induction cs with
  | nil => exact Nat.le_refl 0
  | cons c cs ih =>
    unfold doubled
    split
    · exact Nat.le_succ_of_le (Nat.succ_le_succ ih)
    · exact Nat.succ_le_succ ih

/-- **A text whose closing quotes are doubled ends where a closing quote stands alone**, so it is
told from what follows in one way only. -/
theorem doubled_cancel {q : Char} {rest rest' : List Char} (hr : rest.head? ≠ some q)
    (hr' : rest'.head? ≠ some q) : ∀ {cs ds : List Char},
    doubled (· == q) cs ++ q :: rest = doubled (· == q) ds ++ q :: rest' → cs = ds ∧ rest = rest'
  | [], [], h => ⟨rfl, (List.cons.inj h).2⟩
  | [], d :: ds, h => by
    by_cases hd : d = q
    · -- the quote is doubled on the right, so the rest on the left would start with one
      subst hd
      rw [doubled_cons_self] at h
      exact absurd (congrArg List.head? (List.cons.inj h).2) hr
    · rw [doubled_cons_of_ne hd] at h
      exact absurd (List.cons.inj h).1.symm hd
  | c :: cs, [], h => by
    by_cases hc : c = q
    · subst hc
      rw [doubled_cons_self] at h
      exact absurd (congrArg List.head? (List.cons.inj h).2).symm hr'
    · rw [doubled_cons_of_ne hc] at h
      exact absurd (List.cons.inj h).1 hc
  | c :: cs, d :: ds, h => by
    by_cases hc : c = q
    · by_cases hd : d = q
      · subst hc hd
        rw [doubled_cons_self, doubled_cons_self] at h
        obtain ⟨he, hrest⟩ := doubled_cancel hr hr' (List.cons.inj (List.cons.inj h).2).2
        exact ⟨congrArg (d :: ·) he, hrest⟩
      · subst hc
        rw [doubled_cons_self, doubled_cons_of_ne hd] at h
        exact absurd (List.cons.inj h).1.symm hd
    · by_cases hd : d = q
      · subst hd
        rw [doubled_cons_of_ne hc, doubled_cons_self] at h
        exact absurd (List.cons.inj h).1 hc
      · rw [doubled_cons_of_ne hc, doubled_cons_of_ne hd] at h
        obtain ⟨hcd, h⟩ := List.cons.inj h
        obtain ⟨he, hrest⟩ := doubled_cancel hr hr' h
        exact ⟨congrArg₂ List.cons hcd he, hrest⟩

/-! ## Letter case -/

/-- A capital has a lower case of its own. -/
theorem toNat_toLower {c : Char} (h : 65 ≤ c.toNat ∧ c.toNat ≤ 90) :
    c.toLower.toNat = c.toNat + 32 := by
  have hc : c.val.toNat ≤ 90 := h.2
  have hl : c.toLower.val = c.val + ('a'.val - 'A'.val) := congrArg Char.val (dif_pos h)
  change c.toLower.val.toNat = c.val.toNat + 32
  rw [hl]
  rw [UInt32.toNat_add]
  change (c.val.toNat + 32) % 2 ^ 32 = _
  omega

theorem toLower_of_not_capital {c : Char} (h : ¬ (65 ≤ c.toNat ∧ c.toNat ≤ 90)) :
    c.toLower = c := dif_neg h

/-- A character that is no ASCII letter is the lower case of itself alone. -/
theorem toLower_eq_iff {c k : Char} (hk : k.toNat < 65 ∨ (90 < k.toNat ∧ k.toNat < 97)) :
    c.toLower = k ↔ c = k := by
  by_cases hc : 65 ≤ c.toNat ∧ c.toNat ≤ 90
  · have hn := toNat_toLower hc
    refine ⟨fun h => ?_, fun h => ?_⟩
    · rw [h] at hn
      omega
    · rw [h] at hc
      omega
  · rw [toLower_of_not_capital hc]

theorem isBlank_toLower (c : Char) : isBlank c.toLower = isBlank c := by
  by_cases hc : 65 ≤ c.toNat ∧ c.toNat ≤ 90
  · have hn := toNat_toLower hc
    have hf : ∀ x : Char, 65 ≤ x.toNat → x.toNat ≤ 122 → isBlank x = false := by
      intro x hx hx'
      simp only [isBlank, Bool.or_eq_false_iff, Bool.and_eq_false_iff, decide_eq_false_iff_not,
        beq_eq_false_iff_ne]
      omega
    rw [hf c hc.1 (by omega), hf _ (by omega) (by omega)]
  · rw [toLower_of_not_capital hc]

theorem trimChars_map_toLower (cs : List Char) :
    trimChars (cs.map Char.toLower) = (trimChars cs).map Char.toLower := by
  have hb : isBlank ∘ Char.toLower = isBlank := funext isBlank_toLower
  unfold trimChars trimStart
  rw [List.dropWhile_map, hb, ← List.map_reverse, List.dropWhile_map, hb, List.map_reverse]

/-- Trimming takes characters away. -/
theorem trimChars_sublist (cs : List Char) : (trimChars cs).Sublist cs := by
  have hs : (trimChars cs).Sublist (trimStart cs).reverse.reverse :=
    (List.dropWhile_sublist isBlank).reverse
  rw [List.reverse_reverse] at hs
  exact hs.trans (List.dropWhile_sublist isBlank)

theorem trimChars_eq_iff (cs : List Char) :
    trimChars cs = cs ↔ cs.length ≤ (trimChars cs).length :=
  ⟨fun h => h.symm ▸ Nat.le_refl _, (trimChars_sublist cs).eq_of_length_le⟩

end Text

/-! ## Names in quotes -/

namespace Dialect

variable {d : Dialect} {m n : String}

theorem toList_quotePart (h : n ≠ "*") :
    (d.quotePart n).toList = d.quotes.1 :: (doubled (· == d.quotes.2) n.toList ++ [d.quotes.2]) := by
  unfold quotePart
  rw [if_neg h, String.toList_ofList]
  rfl

theorem length_lt_quotePart (h : n ≠ "*") : n.toList.length < (d.quotePart n).toList.length := by
  have hl := length_le_doubled (· == d.quotes.2) n.toList
  rw [toList_quotePart h, List.length_cons, List.length_append]
  exact Nat.lt_succ_of_le (Nat.le_add_right_of_le hl)

theorem toList_quotePart_star : (d.quotePart "*").toList = ['*'] := by
  rw [quotePart_star]
  decide

theorem quotePart_ne_nil : (d.quotePart n).toList ≠ [] := by
  by_cases h : n = "*"
  · rw [h, toList_quotePart_star]
    exact List.cons_ne_nil _ _
  · rw [toList_quotePart h]
    exact List.cons_ne_nil _ _

/-- Only the star is written as the star is. -/
theorem head_quotePart (h : n ≠ "*") :
    (d.quotePart n).toList.head? ≠ (d.quotePart "*").toList.head? := by
  rw [toList_quotePart h, toList_quotePart_star, List.head?_cons, List.head?_cons]
  cases d <;> decide

/-- **What follows a quoted name is told from it**, unless it starts with a closing quote. -/
theorem quotePart_cancel {rest : List Char} (hr : rest.head? ≠ some d.quotes.2)
    (h : (d.quotePart m).toList ++ rest = (d.quotePart n).toList) : m = n ∧ rest = [] := by
  have hh : (d.quotePart m).toList.head? = (d.quotePart n).toList.head? := by
    rw [← h, List.head?_append_of_ne_nil _ quotePart_ne_nil]
  by_cases hm : m = "*"
  · by_cases hn : n = "*"
    · subst hm hn
      exact ⟨rfl, List.append_right_eq_self.mp h⟩
    · subst hm
      exact absurd hh.symm (head_quotePart hn)
  · by_cases hn : n = "*"
    · subst hn
      exact absurd hh (head_quotePart hm)
    · rw [toList_quotePart hm, toList_quotePart hn, List.cons_append, List.append_assoc] at h
      have hc := doubled_cancel hr (by simp) (List.cons.inj h).2
      exact ⟨String.toList_inj.mp hc.1, hc.2⟩

theorem quotePart_injective (h : d.quotePart m = d.quotePart n) : m = n := by
  have hl : (d.quotePart m).toList ++ [] = (d.quotePart n).toList := by
    rw [List.append_nil, h]
  exact (quotePart_cancel (by simp) hl).1

/-! ## Simple names -/

/-- A name of one part, without blanks around it, that does not claim to be quoted. -/
structure Simple (d : Dialect) (name : String) : Prop where
  unquoted : d.Unquoted name
  undotted : '.' ∉ name.toList
  trimmed : trimChars name.toList = name.toList

instance (d : Dialect) (name : String) : Decidable (d.Simple name) :=
  decidable_of_iff
    (d.Unquoted name ∧ '.' ∉ name.toList ∧ trimChars name.toList = name.toList)
    ⟨fun ⟨hu, hd, ht⟩ => ⟨hu, hd, ht⟩, fun h => ⟨h.unquoted, h.undotted, h.trimmed⟩⟩

theorem simple_star (d : Dialect) : d.Simple "*" := by cases d <;> decide

/-- A name without dots that does not claim to be quoted loses the blanks around it. -/
theorem quote_of_undotted (hu : d.Unquoted n) (hn : '.' ∉ n.toList) :
    d.quote n = d.quotePart (trim n) := by
  unfold quote
  rw [if_neg hu, List.splitOn_eq_singleton hn]
  exact String.intercalate_singleton

/-- On simple names the two ways to quote agree. -/
theorem quote_of_simple (h : d.Simple n) : d.quote n = d.quotePart n := by
  rw [quote_of_undotted h.unquoted h.undotted, trim, h.trimmed, String.ofList_toList]

/-- **A name that is cut at its dots is never written as a name quoted as a whole**, and one that
is not cut loses only the blanks around it. -/
theorem trimmed_of_quote_eq (hu : d.Unquoted m) (h : d.quote m = d.quotePart n) :
    '.' ∉ m.toList ∧ trim m = n := by
  by_cases hm : '.' ∈ m.toList
  · exfalso
    obtain ⟨first, rest, hs, hf⟩ := List.eq_append_cons_of_mem hm
    unfold quote at h
    rw [if_neg hu, hs, List.splitOn_append_cons_self_of_not_mem hf, List.map_cons,
      String.intercalate_cons_of_ne_nil (by simp [List.splitOn_ne_nil])] at h
    -- the first part is followed by a dot
    have hl := congrArg String.toList h
    rw [String.toList_append, String.toList_append, List.append_assoc] at hl
    have hc := quotePart_cancel (by cases d <;> simp [quotes]) hl
    simp at hc
  · rw [quote_of_undotted hu hm] at h
    exact ⟨hm, quotePart_injective h⟩

theorem eq_of_simple (hm : d.Simple m) (h : d.quote m = d.quotePart n) : m = n :=
  quotePart_injective ((quote_of_simple hm).symm.trans h)

/-- **A name that is not simple is written by a longer one only**, which is not simple either. -/
theorem longer_of_not_simple (hn : ¬ d.Simple n) (h : d.quote m = d.quotePart n) :
    ¬ d.Simple m ∧ n.toList.length < m.toList.length := by
  have hm : ¬ d.Simple m := fun hm => hn (eq_of_simple hm h ▸ hm)
  refine ⟨hm, ?_⟩
  by_cases hu : d.Unquoted m
  · obtain ⟨hd, rfl⟩ := trimmed_of_quote_eq hu h
    rw [trim, String.toList_ofList]
    by_contra hl
    exact hm ⟨hu, hd, (trimChars_eq_iff _).mpr (Nat.le_of_not_lt hl)⟩
  · -- what claims to be quoted is written as it is
    have hq : d.quote m = m := if_pos (not_not.mp hu)
    rw [← hq, h]
    exact length_lt_quotePart fun hs => hn (hs ▸ d.simple_star)

/-! ## Letter case -/

theorem simple_iff_map_toLower :
    d.Simple n ↔ (n.toList.map Char.toLower).head? ≠ some d.quotes.1 ∧
      '.' ∉ n.toList.map Char.toLower ∧
      (n.toList.map Char.toLower).length ≤ (trimChars (n.toList.map Char.toLower)).length := by
  have hu : d.Unquoted n ↔ (n.toList.map Char.toLower).head? ≠ some d.quotes.1 := by
    unfold Unquoted
    cases n.toList with
    | nil => simp
    | cons c cs =>
      have hq := toLower_eq_iff (c := c) (k := d.quotes.1) (by cases d <;> decide)
      simp [hq]
  have hd : '.' ∉ n.toList ↔ '.' ∉ n.toList.map Char.toLower := by
    have hk : ∀ c : Char, c.toLower = '.' ↔ c = '.' := fun c => toLower_eq_iff (by decide)
    simp [hk]
  have ht : trimChars n.toList = n.toList ↔ (n.toList.map Char.toLower).length ≤
      (trimChars (n.toList.map Char.toLower)).length := by
    rw [trimChars_map_toLower, List.length_map, List.length_map, trimChars_eq_iff]
  rw [← hu, ← hd, ← ht]
  exact ⟨fun h => ⟨h.unquoted, h.undotted, h.trimmed⟩, fun ⟨hu, hd, ht⟩ => ⟨hu, hd, ht⟩⟩

theorem simple_congr (h : sameIgnoringCase m n = true) : d.Simple m ↔ d.Simple n := by
  rw [simple_iff_map_toLower, simple_iff_map_toLower, sameIgnoringCase_iff.mp h]

theorem length_congr (h : sameIgnoringCase m n = true) : m.toList.length = n.toList.length := by
  rw [← List.length_map Char.toLower, sameIgnoringCase_iff.mp h, List.length_map]

/-! ## Names among names -/

/-- Names quoted as a whole are all found among names quoted part by part only if they are
simple: a name that is not is found under a longer name, and so on without end. -/
theorem simple_of_declared {names declared : List String}
    (hc : ∀ m ∈ declared, ∃ n ∈ names, sameIgnoringCase m n = true)
    (h : ∀ n ∈ names, d.quotePart n ∈ declared.map d.quote) : ∀ n ∈ names, d.Simple n := by
  by_contra hs
  push Not at hs
  obtain ⟨n, hn, hns⟩ := hs
  have hfin : {n | n ∈ names ∧ ¬ d.Simple n}.Finite :=
    names.finite_toSet.subset fun _ hm => hm.1
  -- the longest of those that are not simple
  obtain ⟨n, ⟨hn, hns⟩, hmax⟩ :=
    Set.exists_max_image _ (fun n : String => n.toList.length) hfin ⟨n, hn, hns⟩
  obtain ⟨m, hm, hq⟩ := List.mem_map.mp (h n hn)
  obtain ⟨hms, hl⟩ := longer_of_not_simple hns hq
  obtain ⟨n', hn', hcase⟩ := hc m hm
  have hle := hmax n' ⟨hn', fun hs => hms ((simple_congr hcase).mpr hs)⟩
  rw [← length_congr hcase] at hle
  omega

/-- **Names quoted as a whole are found among names quoted part by part exactly if the names are
simple and found as they are spelled.** -/
theorem declared_iff {names declared used : List String} (hn : ∀ n ∈ names, n ∈ declared)
    (hc : ∀ m ∈ declared, ∃ n ∈ names, sameIgnoringCase m n = true) :
    (∀ n ∈ used ++ names, d.quotePart n ∈ declared.map d.quote) ↔
      (∀ n ∈ names, d.Simple n) ∧ ∀ n ∈ used, n ∈ declared := by
  have hs : (∀ n ∈ names, d.Simple n) → ∀ m ∈ declared, d.Simple m := by
    intro hs m hm
    obtain ⟨n, hn, hcase⟩ := hc m hm
    exact (simple_congr hcase).mpr (hs n hn)
  constructor
  · intro h
    have hsimple := simple_of_declared hc fun n hn => h n (List.mem_append_right _ hn)
    refine ⟨hsimple, fun n hu => ?_⟩
    obtain ⟨m, hm, hq⟩ := List.mem_map.mp (h n (List.mem_append_left _ hu))
    exact eq_of_simple (hs hsimple m hm) hq ▸ hm
  · rintro ⟨hsimple, hused⟩ n hmem
    have hd : n ∈ declared := (List.mem_append.mp hmem).elim (hused n) (hn n)
    exact List.mem_map.mpr ⟨n, hd, quote_of_simple (hs hsimple n hd)⟩

end Dialect
end SqlWeave
