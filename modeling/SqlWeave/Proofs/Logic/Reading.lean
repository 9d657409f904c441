import Mathlib.Data.List.Forall2
import Mathlib.Logic.Function.Iterate
import SqlWeave.Query.Condition

/-!
# Reading a text of truth values

A condition is written as atoms with `AND`, `OR`, `NOT` and parentheses between them. `Reads` is the
grammar by which such a text is read: `NOT` binds a factor, `AND` joins factors to a product, and
`OR` joins products to a sum. `read` reads a text from left to right on a stack of open parentheses;
it settles what a text means, and that some texts mean nothing.

Results:
* `read_of_reads`, `Reads.unique`: a text is read in one way.
* `reads_joined`: factors joined by words of their own are read as sums of products.
* `not_says_of_isStuck`: a text with an operand left out has no reading.
-/

namespace SqlWeave.Logic

/-- A word of a text of truth values. -/
inductive Token (α : Type) where
  | atom (a : α)
  | and
  | or
  | not
  | opening
  | closing

/-- The word that joins two conditions. -/
def Token.ofConnective {α : Type} : Connective → Token α
  | .and => and
  | .or => or

/-- What a text says of its atoms. -/
inductive Formula (α : Type) where
  | atom (a : α)
  | and (f g : Formula α)
  | or (f g : Formula α)
  | not (f : Formula α)

/-- The truth of a formula when the truth of its atoms is given. -/
def Formula.eval {α : Type} (v : α → Bool) : Formula α → Bool
  | atom a => v a
  | and f g => f.eval v && g.eval v
  | or f g => f.eval v || g.eval v
  | not f => !f.eval v

/-- What a text can be read as. -/
inductive Level where
  | factor
  | product
  | sum

variable {α : Type}

/-- The grammar of texts: `NOT` before `AND` before `OR`. -/
inductive Reads : Level → List (Token α) → Formula α → Prop
  | atom (a : α) : Reads .factor [.atom a] (.atom a)
  | not {ts : List (Token α)} {f : Formula α} (h : Reads .factor ts f) :
    Reads .factor (.not :: ts) (.not f)
  | enclosed {ts : List (Token α)} {f : Formula α} (h : Reads .sum ts f) :
    Reads .factor (.opening :: ts ++ [.closing]) f
  | product {ts : List (Token α)} {f : Formula α} (h : Reads .factor ts f) : Reads .product ts f
  | and {ts us : List (Token α)} {f g : Formula α} (h : Reads .product ts f)
    (k : Reads .factor us g) : Reads .product (ts ++ .and :: us) (.and f g)
  | sum {ts : List (Token α)} {f : Formula α} (h : Reads .product ts f) : Reads .sum ts f
  | or {ts us : List (Token α)} {f g : Formula α} (h : Reads .sum ts f)
    (k : Reads .product us g) : Reads .sum (ts ++ .or :: us) (.or f g)

/-! ## A reader -/

/-- What was read since an open parenthesis: the products before the last `OR`, the factors behind
it, and the number of `NOT` before the operand to come. -/
structure Frame (α : Type) where
  sum : Option (Formula α) := none
  product : Option (Formula α) := none
  nots : Nat := 0

namespace Frame

/-- An operand with the `NOT` before it. -/
def negated (f : Frame α) (x : Formula α) : Formula α := Formula.not^[f.nots] x

/-- The frame behind an operand. -/
def ready (f : Frame α) : Frame α := { f with nots := 0 }

/-- The product that ends with an operand. -/
def times (f : Frame α) (x : Formula α) : Formula α :=
  match f.product with
  | none => x
  | some p => .and p x

/-- The sum that ends with an operand. -/
def plus (f : Frame α) (x : Formula α) : Formula α :=
  match f.sum with
  | none => f.times x
  | some s => .or s (f.times x)

end Frame

mutual

/-- Reads on where an operand must follow. -/
def operand (f : Frame α) (outer : List (Frame α)) : List (Token α) → Option (Formula α)
  | .atom a :: ts => operator (f.negated (.atom a)) f.ready outer ts
  | .not :: ts => operand { f with nots := f.nots + 1 } outer ts
  | .opening :: ts => operand {} (f :: outer) ts
  | _ => none

/-- Reads on behind an operand. -/
def operator (x : Formula α) (f : Frame α) (outer : List (Frame α)) :
    List (Token α) → Option (Formula α)
  | [] => if outer.isEmpty then some (f.plus x) else none
  | .and :: ts => operand ⟨f.sum, some (f.times x), 0⟩ outer ts
  | .or :: ts => operand ⟨some (f.plus x), none, 0⟩ outer ts
  | .closing :: ts =>
    match outer with
    | [] => none
    | g :: outer => operator (g.negated (f.plus x)) g.ready outer ts
  | _ => none

end

/-- Reads a text. -/
def read (ts : List (Token α)) : Option (Formula α) := operand {} [] ts

/-- What the reader does with a text that is read at a level, whatever stands behind it. -/
def Passes : Level → List (Token α) → Formula α → Prop
  | .factor, ts, φ => ∀ (f : Frame α) (outer : List (Frame α)) (rest : List (Token α)),
    operand f outer (ts ++ rest) = operator (f.negated φ) f.ready outer rest
  | .product, ts, φ => ∀ (s : Option (Formula α)) (outer : List (Frame α)),
    ∃ p x, Frame.times ⟨s, p, 0⟩ x = φ ∧ ∀ rest : List (Token α),
      operand ⟨s, none, 0⟩ outer (ts ++ rest) = operator x ⟨s, p, 0⟩ outer rest
  | .sum, ts, φ => ∀ outer : List (Frame α),
    ∃ s p x, Frame.plus ⟨s, p, 0⟩ x = φ ∧ ∀ rest : List (Token α),
      operand {} outer (ts ++ rest) = operator x ⟨s, p, 0⟩ outer rest

theorem passes_of_reads {l : Level} {ts : List (Token α)} {φ : Formula α} (h : Reads l ts φ) :
    Passes l ts φ := by
  induction h with
  | atom a => intro f outer rest; rfl
  | @not ts g _ ih =>
    intro f outer rest
    exact ih { f with nots := f.nots + 1 } outer rest
  | @enclosed ts g _ ih =>
    intro f outer rest
    obtain ⟨s, p, x, hx, hr⟩ := ih (f :: outer)
    rw [List.cons_append, List.cons_append, List.append_assoc, operand, hr]
    rw [List.singleton_append, operator, hx]
  | product _ ih =>
    intro s outer
    exact ⟨none, _, rfl, fun rest => ih ⟨s, none, 0⟩ outer rest⟩
  | @and ts us g g' _ _ ih ih' =>
    intro s outer
    obtain ⟨p, x, hx, hr⟩ := ih s outer
    refine ⟨some g, g', rfl, fun rest => ?_⟩
    rw [List.append_assoc, hr, List.cons_append, operator, hx]
    exact ih' _ outer rest
  | sum _ ih =>
    intro outer
    obtain ⟨p, x, hx, hr⟩ := ih none outer
    exact ⟨none, p, x, hx, hr⟩
  | @or ts us g g' _ _ ih ih' =>
    intro outer
    obtain ⟨s, p, x, hx, hr⟩ := ih outer
    obtain ⟨p', x', hx', hr'⟩ := ih' (some g) outer
    refine ⟨some g, p', x', ?_, fun rest => ?_⟩
    · exact congrArg (Formula.or g) hx'
    · rw [List.append_assoc, hr, List.cons_append, operator, hx]
      exact hr' rest

/-- **The reader reads what the grammar allows.** -/
theorem read_of_reads {ts : List (Token α)} {φ : Formula α} (h : Reads .sum ts φ) :
    read ts = some φ := by
  obtain ⟨s, p, x, hx, hr⟩ := passes_of_reads h []
  have h := hr []
  rw [List.append_nil] at h
  rw [read, h, operator, hx]
  rfl

/-- **A text is read in one way.** -/
theorem Reads.unique {ts : List (Token α)} {φ ψ : Formula α} (h : Reads .sum ts φ)
    (k : Reads .sum ts ψ) : φ = ψ :=
  Option.some.inj ((read_of_reads h).symm.trans (read_of_reads k))

/-! ## Operands with words between them -/

/-- Operands, each behind its word. -/
def following (units : List (Connective × List (Token α))) : List (Token α) :=
  units.flatMap fun u => .ofConnective u.1 :: u.2

/-- Operands with the words between them; the word of the first is left out. -/
def joined : List (Connective × List (Token α)) → List (Token α)
  | [] => []
  | u :: rest => u.2 ++ following rest

/-- The truth of operands with words between them, `OR` after `AND`, behind a product. -/
def truthFrom (product : Bool) : List (Connective × Bool) → Bool
  | [] => product
  | (.and, b) :: rest => truthFrom (product && b) rest
  | (.or, b) :: rest => product || truthFrom b rest

/-- The truth of operands with words between them, if there are any; the word of the first is left
out. -/
def joinedTruth : List (Connective × Bool) → Option Bool
  | [] => none
  | u :: rest => some (truthFrom u.2 rest)

theorem truthFrom_and (b : Bool) (bs : List Bool) :
    truthFrom b (bs.map fun b => (.and, b)) = (b && bs.all id) := by
  induction bs generalizing b with
  | nil => exact (Bool.and_true b).symm
  | cons c bs ih =>
    rw [List.map_cons, truthFrom, ih, List.all_cons]
    exact Bool.and_assoc ..

theorem truthFrom_or (b : Bool) (bs : List Bool) :
    truthFrom b (bs.map fun b => (.or, b)) = (b || bs.any id) := by
  induction bs generalizing b with
  | nil => exact (Bool.or_false b).symm
  | cons c bs ih =>
    rw [List.map_cons, truthFrom, ih, List.any_cons]
    rfl

/-- A unit of tokens is read as a factor that stands behind the same word. -/
def UnitReads (u : Connective × List (Token α)) (f : Connective × Formula α) : Prop :=
  u.1 = f.1 ∧ Reads .factor u.2 f.2

/-- The operands that are left are read on. `before` is what the products before the last `OR` do to
a product behind them: nothing if there are none, and a sum otherwise. -/
theorem reads_following {rest : List (Connective × List (Token α))}
    {fs : List (Connective × Formula α)} (hr : List.Forall₂ UnitReads rest fs) :
    ∀ (before : List (Token α)) (acc : (α → Bool) → Bool) {ts : List (Token α)} {p : Formula α},
      (∀ {us : List (Token α)} {g : Formula α}, Reads .product us g →
        ∃ χ, Reads .sum (before ++ us) χ ∧ ∀ v, χ.eval v = (acc v || g.eval v)) →
      Reads .product ts p →
      ∃ χ, Reads .sum (before ++ ts ++ following rest) χ ∧
        ∀ v, χ.eval v = (acc v || truthFrom (p.eval v) (fs.map fun f => (f.1, f.2.eval v))) := by
  induction hr with
  | nil =>
    intro before acc ts p hb hp
    obtain ⟨χ, hχ, hv⟩ := hb hp
    refine ⟨χ, ?_, hv⟩
    rwa [following, List.flatMap_nil, List.append_nil]
  | @cons u f rest fs hu _ ih =>
    intro before acc ts p hb hp
    obtain ⟨w, us⟩ := u
    obtain ⟨w', g⟩ := f
    obtain ⟨rfl, hu⟩ := hu
    have hf : following ((w, us) :: rest) = .ofConnective w :: us ++ following rest := rfl
    cases w with
    | and =>
      obtain ⟨χ, hχ, hv⟩ := ih before acc hb (Reads.and hp hu)
      refine ⟨χ, ?_, hv⟩
      rw [hf]
      simpa [Token.ofConnective] using hχ
    | or =>
      obtain ⟨σ, hσ, hs⟩ := hb hp
      -- the product ends, so what was read so far stands before the last `OR`
      have hb' : ∀ {us : List (Token α)} {g : Formula α}, Reads .product us g →
          ∃ χ, Reads .sum ((before ++ ts ++ [.or]) ++ us) χ ∧
            ∀ v, χ.eval v = ((acc v || p.eval v) || g.eval v) := fun {us g} h => by
        refine ⟨.or σ g, ?_, fun v => ?_⟩
        · simpa using Reads.or hσ h
        · rw [Formula.eval, hs]
      obtain ⟨χ, hχ, hv⟩ := ih _ _ hb' (.product hu)
      refine ⟨χ, ?_, fun v => ?_⟩
      · rw [hf]
        simpa [Token.ofConnective] using hχ
      · rw [hv, List.map_cons, truthFrom, Bool.or_assoc]

/-- **Factors with words between them are read as the sum of products that the words make.** -/
theorem reads_joined {units : List (Connective × List (Token α))}
    {fs : List (Connective × Formula α)} (hu : List.Forall₂ UnitReads units fs)
    (hn : units ≠ []) :
    ∃ χ, Reads .sum (joined units) χ ∧
      ∀ v, joinedTruth (fs.map fun f => (f.1, f.2.eval v)) = some (χ.eval v) := by
  cases hu with
  | nil => exact absurd rfl hn
  | @cons u f rest fs hu hr =>
    obtain ⟨χ, hχ, hv⟩ := reads_following hr [] (fun _ => false)
      (fun {us g} h => ⟨g, .sum h, fun v => rfl⟩) (.product hu.2)
    exact ⟨χ, hχ, fun v => congrArg some (hv v).symm⟩

/-! ## Texts with an operand left out -/

/-- No operand follows. -/
def ends : List (Token α) → Bool
  | [] | .and :: _ | .or :: _ | .closing :: _ => true
  | _ => false

/-- Nothing can be read where the text stands for an operand. -/
def IsStuck (ts : List (Token α)) : Prop :=
  ∀ (f : Frame α) (outer : List (Frame α)) (rest : List (Token α)), ends rest = true →
    operand f outer (ts ++ rest) = none

theorem isStuck_nil : IsStuck ([] : List (Token α)) := by
  intro f outer rest h
  cases rest with
  | nil => rfl
  | cons t rest =>
    cases t with
    | and | or | closing => rfl
    | atom | not | opening => cases h

theorem IsStuck.not {ts : List (Token α)} (h : IsStuck ts) : IsStuck (.not :: ts) := by
  intro f outer rest hr
  rw [List.cons_append, operand]
  exact h _ outer rest hr

theorem IsStuck.enclosed {ts : List (Token α)} (h : IsStuck ts) :
    IsStuck (.opening :: ts ++ [.closing]) := by
  intro f outer rest _
  rw [List.cons_append, List.cons_append, List.append_assoc, operand]
  exact h _ _ _ rfl

/-- Nothing can be read where one operand among others cannot be. -/
theorem isStuck_joined {units : List (Connective × List (Token α))}
    (hu : ∀ u ∈ units, (∃ φ, Reads .factor u.2 φ) ∨ IsStuck u.2) (hs : ∃ u ∈ units, IsStuck u.2) :
    IsStuck (joined units) := by
  induction units with
  | nil =>
    obtain ⟨u, h, -⟩ := hs
    cases h
  | cons u rest ih =>
    intro f outer tail ht
    -- what stands behind the first operand ends it, be it a word or the rest of the text
    have he : ends (following rest ++ tail) = true := by
      cases rest with
      | nil => exact ht
      | cons w rest => obtain ⟨(_ | _), _⟩ := w <;> rfl
    rw [joined, List.append_assoc]
    obtain ⟨w, hw, hs⟩ := hs
    rcases List.mem_cons.mp hw with rfl | hw
    · exact hs f outer _ he
    · rcases hu u List.mem_cons_self with ⟨φ, hφ⟩ | h
      · have ih := ih (fun u hu' => hu u (List.mem_cons_of_mem _ hu')) ⟨w, hw, hs⟩
        rw [passes_of_reads hφ f outer]
        cases rest with
        | nil => cases hw
        | cons x rest =>
          obtain ⟨word, us⟩ := x
          have hi := fun g => ih g outer tail ht
          rw [joined] at hi
          cases word <;> exact hi _
      · exact h f outer _ he

/-! ## What a text says -/

/-- A text says a truth that depends on atoms: it is read as a formula of that truth, or is empty
where there is no truth to say. -/
def Says (ts : List (Token α)) (truth : (α → Bool) → Option Bool) : Prop :=
  (ts = [] ∧ ∀ v, truth v = none) ∨
    ∃ φ, Reads .sum ts φ ∧ ∀ v, truth v = some (φ.eval v)

/-- **A text that is stuck says nothing.** -/
theorem not_says_of_isStuck {ts : List (Token α)} (h : IsStuck ts) (hn : ts ≠ [])
    (truth : (α → Bool) → Option Bool) : ¬ Says ts truth := by
  rintro (⟨ht, -⟩ | ⟨φ, hφ, -⟩)
  · exact hn ht
  · have hr := read_of_reads hφ
    have hs := h {} [] [] rfl
    rw [List.append_nil] at hs
    rw [read, hs] at hr
    cases hr

end SqlWeave.Logic
