/-!
# Digits

Numbers written and read in base ten, and read in base sixteen.

Results:
* `readDigits_append`: reading two digit strings after each other.
* `length_padded`: a padded number has at least the asked width.
-/

namespace SqlWeave

-- powers and sums of numbers are the same terms in every module, whatever else it imports
attribute [scoped instance (1100)] instPowNat Zero.ofOfNat0
attribute [default_instance 10001] instPowNat

end SqlWeave

namespace SqlWeave.Number

/-- The digit's value, for a character that is an ASCII digit. -/
def digit? (c : Char) : Option Nat := if c.isDigit then some (c.toNat - 48) else none

/-- The value of digits read after those that gave `n`; `none` at a character that is no digit. -/
def readDigits (n : Nat) : List Char → Option Nat
  | [] => some n
  | c :: rest => (digit? c).bind fun d => readDigits (10 * n + d) rest

/-- The value of a hexadecimal digit of either case. -/
def hexDigit? (c : Char) : Option Nat :=
  if c.isDigit then some (c.toNat - 48)
  else if 'a' ≤ c ∧ c ≤ 'f' then some (c.toNat - 87)
  else if 'A' ≤ c ∧ c ≤ 'F' then some (c.toNat - 55)
  else none

/-- The value of hexadecimal digits read after those that gave `n`. -/
def readHex (n : Nat) : List Char → Option Nat
  | [] => some n
  | c :: rest => (hexDigit? c).bind fun d => readHex (16 * n + d) rest

/-- A number in base ten. -/
def natText (n : Nat) : String := String.ofList (Nat.toDigits 10 n)

/-- A signed number in base ten; only negative ones have a sign. -/
def intText : Int → String
  | .ofNat n => natText n
  | .negSucc n => "-" ++ natText (n + 1)

/-- A number in base ten, filled up at the front to `width` characters. -/
def filled (fill : Char) (width n : Nat) : List Char :=
  let ds := Nat.toDigits 10 n
  List.replicate (width - ds.length) fill ++ ds

/-- A number in base ten with leading zeros up to `width` digits. -/
def padded (width n : Nat) : List Char := filled '0' width n

theorem readDigits_append (n : Nat) (cs ds : List Char) :
    readDigits n (cs ++ ds) = (readDigits n cs).bind fun m => readDigits m ds := by
  induction cs generalizing n with
  | nil => rfl
  | cons c rest ih =>
    simp only [List.cons_append, readDigits]
    cases digit? c with
    | none => rfl
    | some d => simp [ih]

theorem length_padded (width n : Nat) : width ≤ (padded width n).length := by
  simp only [padded, filled, List.length_append, List.length_replicate]
  omega

end SqlWeave.Number
