import SqlWeave.Number.Digits

/-!
# Binary floating-point numbers of 64 bits

What a `Float` stands for, as a natural number times a power of two, and the float nearest to a
ratio of natural numbers.

Results:
* `roundHalfEven_exact`: a ratio without remainder is not changed by rounding.
-/

namespace SqlWeave.Number

/-- The number that a float stands for: `mantissa · 2 ^ exponent`, or none. -/
inductive Binary64 where
  | nan
  | infinite (negative : Bool)
  | finite (negative : Bool) (mantissa : Nat) (exponent : Int)
  deriving DecidableEq, Repr

namespace Binary64

/-- The least exponent of a float's last mantissa bit. -/
def minExponent : Int := -1074

/-- Reads sign, exponent and mantissa from the bits of a float. -/
def ofBits (bits : Nat) : Binary64 :=
  let negative := bits / 2 ^ 63 % 2 == 1
  let biased : Nat := bits / 2 ^ 52 % 2 ^ 11
  let fraction : Nat := bits % 2 ^ 52
  if biased = 0x7ff then
    if fraction = 0 then .infinite negative else .nan
  else if biased = 0 then .finite negative fraction minExponent
  else .finite negative (2 ^ 52 + fraction) (minExponent + ((biased : Int) - 1))

/-- The number that a float stands for. -/
def ofFloat (x : Float) : Binary64 := ofBits x.toBits.toNat

end Binary64

/-- The natural number nearest to `num / den`; the even one of two equally near. -/
def roundHalfEven (num den : Nat) : Nat :=
  let q := num / den
  let r := num % den
  if 2 * r < den then q
  else if 2 * r = den then q + q % 2
  else q + 1

/-- The bits of the float nearest to `num / den` for a positive `den`, infinity above the range.
The last mantissa bit counts `2 ^ e`, and a mantissa that rounds up to the next power of two
carries into the exponent by itself. -/
def nearestBits (num den : Nat) : Nat :=
  if num = 0 then 0
  else
    let guess : Int := (num.log2 : Int) - den.log2 - 52
    let scaled (e : Int) : Nat × Nat :=
      if 0 ≤ e then (num, den * 2 ^ e.toNat) else (num * 2 ^ (-e).toNat, den)
    let small := (scaled guess).1 / (scaled guess).2 < 2 ^ 52
    let e := max Binary64.minExponent (if small then guess - 1 else guess)
    let m := roundHalfEven (scaled e).1 (scaled e).2
    min ((e - Binary64.minExponent).toNat * 2 ^ 52 + m) (0x7ff * 2 ^ 52)

/-- The float nearest to `num / den`, negated on demand. -/
def nearest (negative : Bool) (num den : Nat) : Float :=
  let x := Float.ofBits (UInt64.ofNat (nearestBits num den))
  if negative then -x else x

/-- The float nearest to `mantissa · 10 ^ exponent`. The two bounds cut off exponents that leave
the range whatever the digits are. -/
def nearestDecimal (negative : Bool) (mantissa : Nat) (exponent : Int) : Float :=
  let size : Int := (Nat.toDigits 10 mantissa).length
  if mantissa = 0 ∨ exponent + size < -400 then nearest negative 0 1
  else if 400 < exponent + size then nearest negative (2 ^ 2000) 1
  else if 0 ≤ exponent then nearest negative (mantissa * 10 ^ exponent.toNat) 1
  else nearest negative mantissa (10 ^ (-exponent).toNat)

/-- The float nearest to a whole number. -/
def floatOfInt (n : Int) : Float := nearest (n < 0) n.natAbs 1

theorem roundHalfEven_exact {k den : Nat} (h : 0 < den) : roundHalfEven (k * den) den = k := by
  simp [roundHalfEven, Nat.mul_div_cancel _ h, h]

end SqlWeave.Number
