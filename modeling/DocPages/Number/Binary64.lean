import DocPages.Number.Power

/-!
Floating point numbers of 64 bits, as a sign, a whole number and a power of two. The values are the
finite ones only: reading a decimal answers with the nearest of them, a tie going to the even one,
and with nothing where the nearest would be infinite.
-/

namespace DocPages

/-- A finite binary floating point number: `mantissa * 2 ^ exponent`, with its sign. -/
structure Binary64 where
  negative : Bool
  mantissa : Nat
  exponent : Int
  deriving DecidableEq, Inhabited

namespace Binary64

/-- The least exponent, that of the numbers nearest to zero. -/
def minExponent : Int := -1074

/-- The greatest exponent. -/
def maxExponent : Int := 971

/-- Zero, with a sign. -/
def zero (negative : Bool) : Binary64 := ⟨negative, 0, minExponent⟩

/-- Whether the number is zero, of either sign. -/
def isZero (x : Binary64) : Bool := x.mantissa == 0

/-- A quotient rounded to the nearest whole number, a tie to the even one. -/
def roundQuotient (num den : Nat) : Nat :=
  let q := num / den
  let r := num % den
  if 2 * r < den then q
  else if den < 2 * r then q + 1
  else if q % 2 == 0 then q else q + 1

/-- The quotient of two whole numbers divided by a power of two, as a quotient again. -/
def scaleDown (num den : Nat) (q : Int) : Nat × Nat :=
  if 0 ≤ q then (num, den * twoTo q.toNat) else (num * twoTo (-q).toNat, den)

/-- The number nearest to a positive quotient, unless that would be infinite. -/
def ofQuotient (negative : Bool) (num den : Nat) : Option Binary64 :=
  let estimate : Int := (Nat.log2 num : Int) - (Nat.log2 den : Int) - 53
  let low := max estimate minExponent
  let (n, d) := scaleDown num den low
  let exponent := if twoTo 53 ≤ n / d then low + 1 else low
  let (n, d) := scaleDown num den exponent
  let mantissa := roundQuotient n d
  let (mantissa, exponent) :=
    if mantissa == twoTo 53 then (twoTo 52, exponent + 1) else (mantissa, exponent)
  if maxExponent < exponent then none else some ⟨negative, mantissa, exponent⟩

/-- The number nearest to `digits * 10 ^ power`, unless that would be infinite. -/
def ofDecimal (negative : Bool) (digits : Nat) (power : Int) : Option Binary64 :=
  if digits == 0 then some (zero negative)
  else
    let magnitude := (Nat.log2 digits : Int) / 4 + power
    if 400 < magnitude then none
    else if (Nat.log2 digits : Int) + power < -400 then some (zero negative)
    else if 0 ≤ power then ofQuotient negative (digits * tenTo power.toNat) 1
    else ofQuotient negative digits (tenTo (-power).toNat)

end Binary64

end DocPages
