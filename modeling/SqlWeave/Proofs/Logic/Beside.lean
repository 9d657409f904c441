import Mathlib.Data.List.Chain
import SqlWeave.Proofs.Logic.Reading

/-!
# Texts beside others

A text that is read by itself may stand beside others, with a word between them. `OR` keeps the
texts beside it apart, whatever they are. `AND` binds before an `OR` inside of the texts beside it,
so a sum beside `AND` is torn: its first product goes to the word in front of it and its last
product to the word behind it.

Results:
* `Reads.product_and`, `Reads.sum_or`: products beside `AND` are a product, sums beside `OR` a sum.
* `reads_joined_of_apart`: texts with words between them are read as operands of the words if those
  beside `AND` are products.
* `exists_reads_between`: what a sum between two `AND` is read as.
-/

namespace SqlWeave.Logic

variable {α : Type}

/-- A text that is read as a product: no `OR` stands outside of parentheses. -/
def IsProduct (ts : List (Token α)) : Prop := ∃ f, Reads .product ts f

/-! ## Two texts -/

section

variable {ts us : List (Token α)} {f g : Formula α}

/-- **Products beside `AND` are a product.** -/
theorem Reads.product_and (h : Reads .product ts f) (k : Reads .product us g) :
    ∃ χ, Reads .product (ts ++ .and :: us) χ ∧ ∀ v, χ.eval v = (f.eval v && g.eval v) := by
  generalize hl : Level.product = l at k
  induction k with
  | @product us g k => exact ⟨_, .and h k, fun v => rfl⟩
  | @and us us' g g' _ k ih =>
    obtain ⟨χ, hχ, hv⟩ := ih hl
    refine ⟨.and χ g', ?_, fun v => ?_⟩
    · simpa using Reads.and hχ k
    · rw [Formula.eval, hv, Formula.eval, Bool.and_assoc]
  | atom | not | enclosed | sum | or => cases hl

/-- **Sums beside `OR` are a sum.** -/
theorem Reads.sum_or (h : Reads .sum ts f) (k : Reads .sum us g) :
    ∃ χ, Reads .sum (ts ++ .or :: us) χ ∧ ∀ v, χ.eval v = (f.eval v || g.eval v) := by
  generalize hl : Level.sum = l at k
  induction k with
  | @sum us g k => exact ⟨_, .or h k, fun v => rfl⟩
  | @or us us' g g' _ k ih =>
    obtain ⟨χ, hχ, hv⟩ := ih hl
    refine ⟨.or χ g', ?_, fun v => ?_⟩
    · simpa using Reads.or hχ k
    · rw [Formula.eval, hv, Formula.eval, Bool.or_assoc]
  | atom | not | enclosed | product | and => cases hl

/-- `AND` in front of a sum takes the first product of it: where the product in front holds the sum
is left, and elsewhere a part of it. -/
theorem Reads.and_sum (h : Reads .product ts f) (k : Reads .sum us g) :
    ∃ χ, Reads .sum (ts ++ .and :: us) χ ∧
      ∀ v, (f.eval v = true → χ.eval v = g.eval v) ∧ (χ.eval v = true → g.eval v = true) := by
  generalize hl : Level.sum = l at k
  induction k with
  | @sum us g k =>
    obtain ⟨χ, hχ, hv⟩ := h.product_and k
    refine ⟨χ, .sum hχ, fun v => ?_⟩
    rw [hv]
    constructor
    · intro hf
      rw [hf, Bool.true_and]
    · intro hg
      exact (Bool.and_eq_true_iff.mp hg).2
  | @or us us' g g' _ k ih =>
    obtain ⟨χ, hχ, hv⟩ := ih hl
    refine ⟨.or χ g', ?_, fun v => ⟨fun hf => ?_, fun hc => ?_⟩⟩
    · simpa using Reads.or hχ k
    · rw [Formula.eval, (hv v).1 hf, Formula.eval]
    · rw [Formula.eval, Bool.or_eq_true] at hc ⊢
      exact hc.imp_left (hv v).2
  | atom | not | enclosed | product | and => cases hl

/-- A text is a product or ends with `OR` and one. -/
theorem Reads.product_or_split (h : Reads .sum ts f) :
    Reads .product ts f ∨ ∃ ls rs l r, ts = ls ++ .or :: rs ∧ f = .or l r ∧
      Reads .sum ls l ∧ Reads .product rs r := by
  cases h with
  | sum h => exact .inl h
  | or h k => exact .inr ⟨_, _, _, _, rfl, rfl, h, k⟩

/-- The formula of a product is that of the sum. -/
theorem IsProduct.reads (hp : IsProduct ts) (h : Reads .sum ts f) : Reads .product ts f := by
  obtain ⟨g, hg⟩ := hp
  rwa [h.unique (.sum hg)]

end

/-- What a text says is the truth of the formula that it is read as. -/
theorem Says.eq_eval {ts : List (Token α)} {truth : (α → Bool) → Option Bool} {χ : Formula α}
    (h : Says ts truth) (k : Reads .sum ts χ) (v : α → Bool) : truth v = some (χ.eval v) := by
  rcases h with ⟨rfl, -⟩ | ⟨φ, hφ, hv⟩
  · cases read_of_reads k
  · rw [k.unique hφ]
    exact hv v

/-! ## Texts with words between them -/

/-- Two texts may stand beside each other: if `AND` stands between them, both are products. -/
def Apart (u w : Connective × List (Token α)) : Prop :=
  w.1 = .and → IsProduct u.2 ∧ IsProduct w.2

/-- A text is read as a formula and stands behind the same word. -/
def SumReads (u : Connective × List (Token α)) (f : Connective × Formula α) : Prop :=
  u.1 = f.1 ∧ Reads .sum u.2 f.2

theorem reads_following_of_apart {rest : List (Connective × List (Token α))}
    {fs : List (Connective × Formula α)} (hr : List.Forall₂ SumReads rest fs) :
    ∀ {u : Connective × List (Token α)} {f : Formula α}, Reads .sum u.2 f →
      (u :: rest).IsChain Apart →
      ∃ χ, Reads .sum (u.2 ++ following rest) χ ∧
        ∀ v, χ.eval v = truthFrom (f.eval v) (fs.map fun f => (f.1, f.2.eval v)) := by
  induction hr with
  | nil =>
    intro u f hu _
    refine ⟨f, ?_, fun v => rfl⟩
    rwa [following, List.flatMap_nil, List.append_nil]
  | @cons w g rest fs hw _ ih =>
    intro u f hu hc
    obtain ⟨word, us⟩ := w
    obtain ⟨word', g⟩ := g
    obtain ⟨rfl, hw⟩ := hw
    obtain ⟨ha, hc⟩ := List.isChain_cons_cons.mp hc
    cases word with
    | and =>
      -- both are products, and together they are one that stands where the second stood
      obtain ⟨hpu, hpw⟩ := ha rfl
      obtain ⟨χ, hχ, hv⟩ := (hpu.reads hu).product_and (hpw.reads hw)
      have hc' : ((.and, u.2 ++ .and :: us) :: rest).IsChain Apart := by
        cases rest with
        | nil => exact List.isChain_singleton _
        | cons x rest =>
          obtain ⟨hx, hc⟩ := List.isChain_cons_cons.mp hc
          exact List.isChain_cons_cons.mpr ⟨fun h => ⟨⟨χ, hχ⟩, (hx h).2⟩, hc⟩
      obtain ⟨ψ, hψ, hv'⟩ := ih (.sum hχ) hc'
      refine ⟨ψ, ?_, fun v => ?_⟩
      · simpa [following, Token.ofConnective] using hψ
      · rw [hv', hv]
        rfl
    | or =>
      obtain ⟨χ, hχ, hv⟩ := ih hw hc
      obtain ⟨ψ, hψ, hv'⟩ := hu.sum_or hχ
      refine ⟨ψ, hψ, fun v => ?_⟩
      rw [hv', hv]
      rfl

/-- **Texts with words between them are read as operands of the words**, if those beside `AND` are
products. -/
theorem reads_joined_of_apart {us : List (Connective × List (Token α))}
    {fs : List (Connective × Formula α)} (hu : List.Forall₂ SumReads us fs)
    (hc : us.IsChain Apart) (hn : us ≠ []) :
    ∃ χ, Reads .sum (joined us) χ ∧
      ∀ v, joinedTruth (fs.map fun f => (f.1, f.2.eval v)) = some (χ.eval v) := by
  cases hu with
  | nil => exact absurd rfl hn
  | @cons u f rest fs hu hr =>
    obtain ⟨χ, hχ, hv⟩ := reads_following_of_apart hr hu.2 hc
    exact ⟨χ, hχ, fun v => congrArg some (hv v).symm⟩

/-! ## A sum between two `AND` -/

/-- **A sum between two `AND` is torn.** The product in front of it goes to what is left of its last
`OR`, and the product behind it to what is right of that. -/
theorem exists_reads_between {ts ls rs us : List (Token α)} {f l r g : Formula α}
    (h : Reads .product ts f) (hl : Reads .sum ls l) (hr : Reads .product rs r)
    (k : Reads .product us g) :
    ∃ χ, Reads .sum (ts ++ .and :: (ls ++ .or :: rs) ++ .and :: us) χ ∧
      ∀ v, (f.eval v = true → χ.eval v = (l.eval v || (r.eval v && g.eval v))) ∧
        ((r.eval v && g.eval v) = true → χ.eval v = true) ∧
        (χ.eval v = true → l.eval v = true ∨ r.eval v = true) := by
  obtain ⟨χ, hχ, hc⟩ := h.and_sum hl
  obtain ⟨ψ, hψ, hv⟩ := hr.product_and k
  refine ⟨.or χ ψ, ?_, fun v => ⟨fun hf => ?_, fun hg => ?_, fun he => ?_⟩⟩
  · simpa using Reads.or hχ hψ
  · rw [Formula.eval, (hc v).1 hf, hv]
  · rw [Formula.eval, hv, hg, Bool.or_true]
  · rw [Formula.eval, Bool.or_eq_true, hv, Bool.and_eq_true] at he
    exact he.imp (hc v).2 (·.1)

end SqlWeave.Logic
