import SqlWeave.Number.Binary64
import SqlWeave.Number.Digits

/-!
# The fewest digits that read back

A float is written with the fewest decimal digits that round to it again, and with the nearest of
the texts of that length. The search is exact: it compares natural numbers only.

* `Decimals` is a digit string with the place of its point: `0.d₁d₂… · 10 ^ point`.
* `shortest` tries 1, 2, … digits. On each grid of decimals only the two neighbours of the value can
  be the nearest, so only they are tested.
* `Layout` holds what a format decides: where positional notation ends, whether a whole number keeps
  a fraction, how an exponent is signed and which of two nearest texts is taken.

Result: `stripZeros_spec`, dropping zeros at the end keeps the value.
-/

namespace SqlWeave.Number

/-- The decimal `0.d₁d₂… · 10 ^ point` with the digits of `digits`. -/
structure Decimals where
  digits : Nat
  point : Int
  deriving DecidableEq, Repr

/-- Drops up to `fuel` zeros at the end of a number and counts them. -/
def stripZeros : Nat → Nat → Nat × Nat
  | 0, n => (n, 0)
  | fuel + 1, n =>
    if n % 10 = 0 ∧ n ≠ 0 then
      let (m, k) := stripZeros fuel (n / 10)
      (m, k + 1)
    else (n, 0)

theorem stripZeros_spec (fuel n : Nat) :
    (stripZeros fuel n).1 * 10 ^ (stripZeros fuel n).2 = n := by
  induction fuel generalizing n with
  | zero => simp [stripZeros]
  | succ fuel ih =>
    simp only [stripZeros]
    split
    · rename_i h
      have := ih (n / 10)
      simp only [Nat.pow_succ]
      rw [← Nat.mul_assoc, this]
      omega
    · simp

/-- The number of decimal digits before the point of `num / den`, zero or less for a value below
one: the least `p` with `num / den < 10 ^ p`, searched from an estimate. -/
def pointOf (num den : Nat) : Int :=
  let below (p : Int) : Bool :=
    if 0 ≤ p then num < den * 10 ^ p.toNat else num * 10 ^ (-p).toNat < den
  let guess : Int := (((num.log2 : Int) - den.log2) * 30103) / 100000
  if below (guess - 1) then guess - 1
  else if below guess then guess
  else if below (guess + 1) then guess + 1
  else guess + 2

/-- The interval of numbers that round to a float, scaled to whole numbers together with the float
itself: least, value, greatest over one denominator, and whether the ends belong to it. -/
structure Rounding where
  low : Nat
  value : Nat
  high : Nat
  den : Nat
  closed : Bool

/-- The interval of the positive float `m · 2 ^ e`. Below a power of two the floats lie twice as
close. -/
def Rounding.of (m : Nat) (e : Int) : Rounding :=
  let (lowGap, value, highGap) : Nat × Nat × Nat :=
    if m = 2 ^ 52 ∧ Binary64.minExponent < e then (1, 4 * m, 2) else (2, 4 * m, 2)
  let e := e - 2
  let scale : Nat := 2 ^ e.toNat
  ⟨(value - lowGap) * scale, value * scale, (value + highGap) * scale, 2 ^ (-e).toNat, m % 2 == 0⟩

/-- The number `c · 10 ^ k` lies in the interval. -/
def Rounding.holds (r : Rounding) (c : Nat) (k : Int) : Bool :=
  let (x, d) : Nat × Nat := if 0 ≤ k then (c * 10 ^ k.toNat, 1) else (c, 10 ^ (-k).toNat)
  let x := x * r.den
  if r.closed then r.low * d ≤ x && x ≤ r.high * d else r.low * d < x && x < r.high * d

/-- Which of two decimals at equal distance is taken. -/
inductive Tie where
  | up
  | even
  deriving DecidableEq, Repr

/-- The lower of two neighbours is taken at equal distance. -/
def Tie.takesLower (t : Tie) (below : Nat) : Bool := t = .even && below % 2 = 0

/-- The neighbour of the value on the grid of multiples of `10 ^ k` that rounds back, the nearer one
if both do. -/
def Rounding.onGrid (r : Rounding) (tie : Tie) (k : Int) : Option Nat :=
  let (num, den) : Nat × Nat :=
    if 0 ≤ k then (r.value, r.den * 10 ^ k.toNat) else (r.value * 10 ^ (-k).toNat, r.den)
  let below := num / den
  let above := below + 1
  let twice := 2 * (num % den)
  match r.holds below k && below != 0, r.holds above k with
  | true, true =>
    some (if twice < den || (twice = den && tie.takesLower below) then below else above)
  | true, false => some below
  | false, true => some above
  | false, false => none

/-- The shortest decimal on the grids of `n`, `n + 1`, … digits, at most `fuel` of them. -/
def Rounding.search (r : Rounding) (tie : Tie) (point : Int) : Nat → Nat → Option (Nat × Int)
  | 0, _ => none
  | fuel + 1, n =>
    match r.onGrid tie (point - n) with
    | some c => some (c, point - n)
    | none => r.search tie point fuel (n + 1)

/-- The shortest decimal that rounds to the positive float `m · 2 ^ e`. Seventeen digits always
suffice. -/
def shortest (tie : Tie) (m : Nat) (e : Int) : Decimals :=
  let r := Rounding.of m e
  let (c, k) := (r.search tie (pointOf r.value r.den) 18 1).getD (0, 0)
  let (c, zeros) := stripZeros 20 c
  ⟨c, (Nat.toDigits 10 c).length + (k + zeros)⟩

/-- What a format decides about the text of a float. -/
structure Layout where
  /-- A whole number keeps the fraction `.0`. -/
  keepsFraction : Bool
  /-- Positional notation is used for a value `0.d₁d₂… · 10 ^ point` with `point` in this range;
  `none` is no limit. -/
  leastPoint : Option Int
  greatestPoint : Option Int
  /-- An exponent that is not negative has a plus. -/
  signsExponent : Bool
  tie : Tie
  deriving DecidableEq, Repr

/-- Positional notation of a decimal. -/
def Decimals.positional (d : Decimals) (keepsFraction : Bool) : List Char :=
  let ds := Nat.toDigits 10 d.digits
  if d.point ≤ 0 then '0' :: '.' :: (List.replicate (-d.point).toNat '0' ++ ds)
  else
    let whole := d.point.toNat
    if ds.length ≤ whole then
      ds ++ List.replicate (whole - ds.length) '0' ++ (if keepsFraction then ['.', '0'] else [])
    else ds.take whole ++ '.' :: ds.drop whole

/-- Scientific notation of a decimal: one digit, the rest as a fraction, `e` and the exponent. -/
def Decimals.scientific (d : Decimals) (signsExponent : Bool) : List Char :=
  let ds := Nat.toDigits 10 d.digits
  let fraction := ds.drop 1
  let sign := if signsExponent && 1 ≤ d.point then ['+'] else []
  ds.take 1 ++ (if fraction.isEmpty then [] else '.' :: fraction) ++
    'e' :: (sign ++ (intText (d.point - 1)).toList)

/-- A positive decimal in a layout. -/
def Layout.write (l : Layout) (d : Decimals) : List Char :=
  if (l.leastPoint.all (· ≤ d.point)) && (l.greatestPoint.all (d.point ≤ ·)) then
    d.positional l.keepsFraction
  else d.scientific l.signsExponent

/-- The text of a float in a layout. -/
def Layout.text (l : Layout) (x : Float) : String :=
  let sign (negative : Bool) : List Char := if negative then ['-'] else []
  String.ofList <|
    match Binary64.ofFloat x with
    | .nan => "NaN".toList
    | .infinite negative => sign negative ++ "inf".toList
    | .finite negative 0 _ =>
      sign negative ++ '0' :: (if l.keepsFraction then ['.', '0'] else [])
    | .finite negative m e => sign negative ++ l.write (shortest l.tie m e)

/-- Numbers in statements and answers are positional and have no fraction of zeros. -/
def Layout.plain : Layout := ⟨false, none, none, false, .up⟩

/-- Numbers in keys keep a fraction and are positional from `0.0001` up to `10 ^ 16`. -/
def Layout.key : Layout := ⟨true, some (-3), some 16, false, .up⟩

/-- Numbers in documents keep a fraction, are positional from `0.00001` up to `10 ^ 16` and have a
sign on every exponent. -/
def Layout.document : Layout := ⟨true, some (-4), some 16, true, .even⟩

end SqlWeave.Number
