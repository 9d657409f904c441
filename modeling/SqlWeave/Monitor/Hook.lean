import SqlWeave.Dialect
import SqlWeave.Monitor.StatementKind
import SqlWeave.Text.Truncate

/-!
# Hooks around statements

A hook sees every statement before it is sent, when it may replace the text or stop the statement,
and again when the outcome is known. Hooks share a state; each statement is shown to them in their
order, a later one seeing the text that an earlier one put in its place.

Several hooks are one hook (`Hook.all`), and a hook on a part of a state is a hook on the whole
(`Hook.within`).

Results:
* `ask_append`: hooks asked in two parts are asked like one list.
-/

namespace SqlWeave

open Number

/-- A statement as hooks see it. -/
structure Context where
  sql : String
  paramCount : Nat
  kind : StatementKind
  dialect : Dialect
  /-- The name of the place that statements come from. -/
  tag : Option String
  deriving DecidableEq, Repr

namespace Context

/-- The context of a statement, its kind read off the text. -/
def new (sql : String) (paramCount : Nat) (d : Dialect) : Context :=
  ⟨sql, paramCount, .ofSql sql, d, none⟩

end Context

/-- What became of a statement. -/
inductive Outcome where
  | rows (n : Nat)
  | affected (n : Nat)
  | scalar
  | error (message : String)
  deriving DecidableEq, Repr

namespace Outcome

/-- The number of bytes that are kept of the wording of a failure. -/
def messageLimit : Nat := 512

/-- The outcome of a statement that failed; a long wording is cut. -/
def failed (message : String) : Outcome := .error (Text.abbreviate messageLimit message)

/-- The statement failed. -/
def isError : Outcome → Bool
  | error _ => true
  | _ => false

/-- The wording of an outcome. -/
def text : Outcome → String
  | rows n => natText n ++ " rows"
  | affected n => natText n ++ " affected"
  | scalar => "scalar"
  | error m => "error: " ++ m

end Outcome

/-- What a hook does with a statement. -/
inductive Action where
  | continue
  /-- Another text is sent instead, with the same values. -/
  | modify (sql : String)
  /-- The statement is not sent. -/
  | abort (reason : String)
  deriving DecidableEq, Repr

/-- A hook over a state. -/
structure Hook (ω : Type) where
  before : Context → ω → Action × ω
  /-- Told the outcome and how many nanoseconds it took. -/
  after : Context → Nat → Outcome → ω → ω

namespace Hook

variable {ω α : Type}

/-- The hook that does nothing. -/
def silent : Hook ω := ⟨fun _ s => (.continue, s), fun _ _ _ s => s⟩

/-- The hook that stops the statements for which there is a reason. -/
def refuse (reason : Context → Option String) : Hook ω :=
  { silent with before := fun c s => (((reason c).map Action.abort).getD .continue, s) }

/-- The hook that puts another text in the place of every statement's. -/
def reword (f : String → String) : Hook ω :=
  { silent with before := fun c s => (.modify (f c.sql), s) }

/-- A hook over a part of a state. -/
def within (get : ω → α) (set : α → ω → ω) (h : Hook α) : Hook ω where
  before c s :=
    let (action, a) := h.before c (get s)
    (action, set a s)
  after c nanos o s := set (h.after c nanos o (get s)) s

/-- Asks hooks in their order. The context with the text that they leave, or the reason of the first
that stops the statement. -/
def ask : List (Hook ω) → Context → ω → Except String Context × ω
  | [], c, s => (.ok c, s)
  | h :: rest, c, s =>
    match h.before c s with
    | (.continue, s) => ask rest c s
    | (.modify sql, s) => ask rest { c with sql := sql } s
    | (.abort reason, s) => (.error reason, s)

/-- Tells hooks the outcome in their order. -/
def tell (hooks : List (Hook ω)) (c : Context) (nanos : Nat) (o : Outcome) (s : ω) : ω :=
  hooks.foldl (fun s h => h.after c nanos o s) s

/-- Several hooks as one. -/
def all (hooks : List (Hook ω)) : Hook ω where
  before c s :=
    match ask hooks c s with
    | (.ok c', s) => (if c'.sql = c.sql then .continue else .modify c'.sql, s)
    | (.error reason, s) => (.abort reason, s)
  after := tell hooks

theorem ask_append (hooks more : List (Hook ω)) (c : Context) (s : ω) :
    ask (hooks ++ more) c s =
      match ask hooks c s with
      | (.ok c', s') => ask more c' s'
      | (.error reason, s') => (.error reason, s') := by
  induction hooks generalizing c s with
  | nil => rfl
  | cons h rest ih =>
    simp only [List.cons_append, ask]
    split
    · exact ih _ _
    · exact ih _ _
    · rfl

theorem tell_append (hooks more : List (Hook ω)) (c : Context) (nanos : Nat) (o : Outcome)
    (s : ω) : tell (hooks ++ more) c nanos o s = tell more c nanos o (tell hooks c nanos o s) := by
  simp [tell]

end Hook
end SqlWeave
