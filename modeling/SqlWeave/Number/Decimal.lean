import SqlWeave.Number.Binary64
import SqlWeave.Number.Digits

/-!
# Decimal numbers of 96 bits

A decimal is a sign, a mantissa below `2 ^ 96` and a scale of at most 28 digits behind the point.
The scale is part of the value as written (`1.50`), not of the number it stands for.

* `parse?` reads the text of a decimal. Digits beyond the scale or the mantissa are rounded half up
  at the first one that does not fit; an exponent shifts the point.
* `ofFloat?` turns a float into the decimal of at most sixteen digits next to it.
* `toFloat` adds the whole part and the fraction as floats and rounds the sum at the scale.

Values hold decimals of a kind made elsewhere. Assumed of it are this form and these conversions,
that a decimal is written with all digits of its scale, and that decimals are equal as numbers.

Results:
* `equal_comm`: numeric equality is symmetric.
-/

namespace SqlWeave.Number

/-- A decimal number `± mantissa / 10 ^ scale`. -/
structure Decimal where
  negative : Bool
  mantissa : Nat
  scale : Nat
  mantissa_lt : mantissa < 2 ^ 96 := by omega
  scale_le : scale ≤ 28 := by omega
  deriving DecidableEq, Repr

namespace Decimal

/-- The decimal with these parts, if they are in range. -/
def ofParts? (negative : Bool) (mantissa scale : Nat) : Option Decimal :=
  if h : mantissa < 2 ^ 96 ∧ scale ≤ 28 then some ⟨negative, mantissa, scale, h.1, h.2⟩ else none

/-- A number below `2 ^ 96` with a sign; zero has none. -/
def signed? (negative : Bool) (mantissa scale : Nat) : Option Decimal :=
  ofParts? (negative && mantissa != 0) mantissa scale

instance : Inhabited Decimal := ⟨{ negative := false, mantissa := 0, scale := 0 }⟩

/-- The decimal of a whole number, which is below `2 ^ 96` for every 64-bit integer. -/
def ofInt? (n : Int) : Option Decimal := signed? (n < 0) n.natAbs 0

/-! ## Equality and text -/

/-- Both decimals stand for one number, whatever their scales. -/
def equal (a b : Decimal) : Bool :=
  a.mantissa * 10 ^ b.scale == b.mantissa * 10 ^ a.scale &&
    (a.mantissa == 0 || a.negative == b.negative)

theorem equal_comm (a b : Decimal) : a.equal b = b.equal a := by
  have e : ∀ {x y z w : Nat}, 0 < z → 0 < w → x * z = y * w → (x = 0 ↔ y = 0) := by
    intro x y z w hz hw h
    constructor
    · rintro rfl
      simp only [Nat.zero_mul] at h
      rcases Nat.mul_eq_zero.1 h.symm with h | h
      · exact h
      · omega
    · rintro rfl
      simp only [Nat.zero_mul] at h
      rcases Nat.mul_eq_zero.1 h with h | h
      · exact h
      · omega
  have pos : ∀ k : Nat, 0 < 10 ^ k := fun k => Nat.pow_pos (by decide)
  rw [Bool.eq_iff_iff]
  simp only [equal, Bool.and_eq_true, Bool.or_eq_true, beq_iff_eq]
  constructor
  · rintro ⟨h, hs⟩
    exact ⟨h.symm, hs.imp (e (pos _) (pos _) h).1 Eq.symm⟩
  · rintro ⟨h, hs⟩
    exact ⟨h.symm, hs.imp (e (pos _) (pos _) h).1 Eq.symm⟩

/-- The text of a decimal, with every digit of its scale. -/
def text (d : Decimal) : String :=
  let ds := padded (d.scale + 1) d.mantissa
  let whole := ds.length - d.scale
  String.ofList <|
    (if d.negative then ['-'] else []) ++ ds.take whole ++
      (if d.scale = 0 then [] else '.' :: ds.drop whole)

/-! ## Reading -/

/-- What has been read of a decimal: the mantissa, the digits behind the point, whether the point
and whether a digit has been read. -/
structure Reading where
  mantissa : Nat
  scale : Nat
  pastPoint : Bool
  hasDigit : Bool

/-- Rounds the mantissa by the first digit that does not fit. A mantissa that grows out of range
gives up its last digit. -/
def roundUp? (negative : Bool) (r : Reading) (next : Char) : Option Decimal :=
  let up : Option Bool :=
    if next = '_' ∨ (next = '.' ∧ !r.pastPoint) then some false
    else (digit? next).map (5 ≤ ·)
  up.bind fun up =>
    if !up then signed? negative r.mantissa r.scale
    else if r.mantissa + 1 < 2 ^ 96 then signed? negative (r.mantissa + 1) r.scale
    else if r.scale = 0 then none
    else signed? negative ((r.mantissa + 5) / 10) (r.scale - 1)

/-- Reads the digits of a decimal, its point and the separators between digits. -/
def readFrom? (negative : Bool) (r : Reading) : List Char → Option Decimal
  | [] => if r.hasDigit then signed? negative r.mantissa r.scale else none
  | c :: rest =>
    if r.pastPoint && r.scale == 28 then roundUp? negative r c
    else if c = '.' ∧ !r.pastPoint then readFrom? negative { r with pastPoint := true } rest
    else if c = '_' ∧ r.hasDigit then readFrom? negative r rest
    else
      match digit? c with
      | none => none
      | some d =>
        if 10 * r.mantissa + d < 2 ^ 96 then
          readFrom? negative
            ⟨10 * r.mantissa + d, if r.pastPoint then r.scale + 1 else 0, r.pastPoint, true⟩ rest
        else if r.pastPoint then roundUp? negative r c
        else none

/-- Reads a decimal without an exponent. -/
def parsePlain? (cs : List Char) : Option Decimal :=
  match cs with
  | '-' :: rest => readFrom? true ⟨0, 0, false, false⟩ rest
  | '+' :: rest => readFrom? false ⟨0, 0, false, false⟩ rest
  | _ => readFrom? false ⟨0, 0, false, false⟩ cs

/-- An unsigned exponent of at most 32 bits; a plus sign may stand before it. -/
def readShift? (cs : List Char) : Option Nat :=
  let ds := match cs with
    | '+' :: rest => rest
    | _ => cs
  if ds.isEmpty then none else (readDigits 0 ds).filter (· < 2 ^ 32)

/-- Moves the point of a decimal to the left or to the right. -/
def shift? (d : Decimal) (left : Bool) (places : Nat) : Option Decimal :=
  if left then ofParts? d.negative d.mantissa (d.scale + places)
  else if places ≤ d.scale then ofParts? d.negative d.mantissa (d.scale - places)
  else if 28 < places then none
  else signed? d.negative (d.mantissa * 10 ^ (places - d.scale)) 0

/-- Reads the text of a decimal. -/
def parse? (s : String) : Option Decimal :=
  let isMark (c : Char) : Bool := c == 'e' || c == 'E'
  let cs := s.toList
  match cs.dropWhile (!isMark ·) with
  | [] => parsePlain? cs
  | _ :: exponent =>
    (parsePlain? (cs.takeWhile (!isMark ·))).bind fun d =>
      match exponent with
      | '-' :: ds => (readShift? ds).bind (d.shift? true)
      | ds => (readShift? ds).bind (d.shift? false)

/-! ## Floats -/

/-- A mantissa of at most 96 bits and the power of ten that scales it. -/
abbrev Scaled := Nat × Int

/-- Replaces halvings by fifths and tenths: an odd mantissa is multiplied by five while it fits. -/
def absorbHalvings : Nat → Scaled → Scaled
  | 0, x => x
  | n + 1, (m, e) =>
    if m % 2 = 0 then absorbHalvings n (m / 2, e + 1)
    else if m * 5 < 2 ^ 96 then absorbHalvings n (m * 5, e)
    else absorbHalvings n (m / 2, e + 1)

/-- Replaces doublings: a mantissa that can no longer double is divided by five. -/
def absorbDoublings : Nat → Scaled → Scaled
  | 0, x => x
  | n + 1, (m, e) =>
    if m < 2 ^ 95 then absorbDoublings n (m * 2, e - 1) else absorbDoublings n (m / 5, e)

/-- Takes the last digit off `n` times, rounding half up each time. -/
def dropDigits : Nat → Nat → Nat
  | 0, m => m
  | n + 1, m => dropDigits n (if 5 ≤ m % 10 then m / 10 + 1 else m / 10)

/-- Takes digits off until the scale is at most 28; a mantissa that vanishes ends the loop. -/
def fitScale : Nat → Scaled → Scaled
  | 0, x => x
  | n + 1, (m, e) =>
    if m / 10 = 0 then (0, 0)
    else fitScale n (if 5 ≤ m % 10 then m / 10 + 1 else m / 10, e + 1)

/-- Takes digits off the fraction until the mantissa is below `2 ^ 52`. -/
def fitPrecision : Nat → Scaled → Scaled
  | 0, x => x
  | n + 1, (m, e) =>
    if e < 0 ∧ 2 ^ 52 ≤ m then
      fitPrecision n (if 5 ≤ m % 10 then m / 10 + 1 else m / 10, e + 1)
    else (m, e)

/-- Takes zeros off the end of the fraction. -/
def stripFraction : Nat → Scaled → Scaled
  | 0, x => x
  | n + 1, (m, e) =>
    if e < 0 ∧ m % 10 = 0 then stripFraction n (m / 10, e + 1) else (m, e)

/-- The decimal next to the float `m · 2 ^ e`. -/
def ofBinary? (negative : Bool) (m : Nat) (e : Int) : Option Decimal :=
  if m = 0 then ofParts? negative 0 0
  else
    let (m, e) := absorbDoublings e.toNat (absorbHalvings (-e).toNat (m, e))
    let (m, e) : Scaled := if 0 < e then (m * 10 ^ e.toNat, 0) else (m, e)
    if 2 ^ 96 ≤ m then none
    else
      let (m, e) := fitScale (-28 - e).toNat (m, e)
      let (m, e) := stripFraction 28 (fitPrecision 28 (m, e))
      signed? negative m (-e).toNat

/-- The decimal next to a float; none for a number out of range. -/
def ofFloat? (x : Float) : Option Decimal :=
  match Binary64.ofFloat x with
  | .finite negative m e => ofBinary? negative m e
  | _ => none

/-- `acc · base ^ n` by repeated squaring, in floats, low bits of `n` first. -/
def floatPow (acc base : Float) : Nat → Nat → Float
  | 0, _ => acc
  | fuel + 1, n =>
    if n = 0 then acc
    else floatPow (if n % 2 = 1 then acc * base else acc) (base * base) fuel (n / 2)

/-- The float near a decimal: whole part plus fraction, rounded at the scale. -/
def toFloat (d : Decimal) : Float :=
  let magnitude : Float :=
    if d.scale = 0 then nearest false d.mantissa 1
    else
      let unit := 10 ^ d.scale
      let whole := nearest false (d.mantissa / unit) 1
      let fraction := nearest false (d.mantissa % unit) 1 / nearest false unit 1
      if fraction == 0 then whole
      else
        let p := floatPow 1 10 6 d.scale
        ((whole + fraction) * p).round / p
  if d.negative then -magnitude else magnitude

end Decimal
end SqlWeave.Number
