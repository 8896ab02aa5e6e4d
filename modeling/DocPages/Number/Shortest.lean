import DocPages.Number.Binary64

/-!
The shortest decimal text of a floating point number: the fewest digits that read back as the same
number, and of those the nearest to it.
-/

namespace DocPages.Binary64

/-- A positive quotient between two others, with ends that count or not. -/
structure Interval where
  low : Nat
  high : Nat
  den : Nat
  closed : Bool

/-- The quotients that round to a number that is not zero. -/
def rounding (x : Binary64) : Interval :=
  let wide := x.mantissa == twoTo 52 && minExponent < x.exponent
  let low := 4 * x.mantissa - (if wide then 1 else 2)
  let high := 4 * x.mantissa + 2
  let power := x.exponent - 2
  let closed := x.mantissa % 2 == 0
  if 0 ≤ power then ⟨low * twoTo power.toNat, high * twoTo power.toNat, 1, closed⟩
  else ⟨low, high, twoTo (-power).toNat, closed⟩

/-- Whether `num / den` lies in the interval. -/
def Interval.holds (i : Interval) (num den : Nat) : Bool :=
  let a := num * i.den
  let lo := i.low * den
  let hi := i.high * den
  if i.closed then lo ≤ a && a ≤ hi else lo < a && a < hi

/-- A decimal: `digits * 10 ^ power`. -/
structure Decimal where
  digits : Nat
  power : Int

/-- The decimal as a quotient of whole numbers. -/
def Decimal.quotient (d : Decimal) : Nat × Nat :=
  if 0 ≤ d.power then (d.digits * tenTo d.power.toNat, 1) else (d.digits, tenTo (-d.power).toNat)

/-- Whether the decimal reads back as a number of the interval. -/
def Decimal.within (d : Decimal) (i : Interval) : Bool :=
  i.holds d.quotient.1 d.quotient.2

/-- The absolute value as a quotient of whole numbers. -/
def quotient (x : Binary64) : Nat × Nat :=
  if 0 ≤ x.exponent then (x.mantissa * twoTo x.exponent.toNat, 1)
  else (x.mantissa, twoTo (-x.exponent).toNat)

/-- How many digits stand before the point of `num / den`, counted below zero for a quotient
smaller than a tenth. -/
def magnitude (num den : Nat) : Int :=
  let rough := ((Nat.log2 num : Int) - (Nat.log2 den : Int)) * 30103 / 100000
  let candidates := [rough - 1, rough, rough + 1, rough + 2]
  let reaches (k : Int) : Bool :=
    if 0 ≤ k then den * tenTo k.toNat ≤ num else den ≤ num * tenTo (-k).toNat
  match candidates.reverse.find? reaches with
  | some k => k + 1
  | none => rough - 1

/-- The decimals next to `num / den`, below and above, on the grid of `10 ^ power`. -/
def neighbours (num den : Nat) (power : Int) : Decimal × Decimal :=
  let floor :=
    if 0 ≤ power then num / (den * tenTo power.toNat) else num * tenTo (-power).toNat / den
  (⟨floor, power⟩, ⟨floor + 1, power⟩)

/-- Which of two neighbours is nearer to `num / den`; a tie goes to the even digit. -/
def nearer (num den : Nat) (below above : Decimal) : Decimal :=
  let (n, d) :=
    if 0 ≤ below.power then (num, den * tenTo below.power.toNat)
    else (num * tenTo (-below.power).toNat, den)
  let twice := 2 * (n % d)
  if twice < d then below
  else if d < twice then above
  else if below.digits % 2 == 0 then below else above

/-- The first of the grids with `count`, `count + 1`, … digits that has a point in the interval. -/
def shortestFrom (i : Interval) (num den : Nat) (places : Int) : Nat → Nat → Decimal
  | 0, count => (neighbours num den (places - count)).1
  | more + 1, count =>
    let (below, above) := neighbours num den (places - count)
    match below.within i, above.within i with
    | true, true => nearer num den below above
    | true, false => below
    | false, true => above
    | false, false => shortestFrom i num den places more (count + 1)

/-- A decimal without zeros at the end of its digits. -/
def Decimal.strip (d : Decimal) : Nat → Decimal
  | 0 => d
  | n + 1 =>
    if d.digits != 0 && d.digits % 10 == 0 then Decimal.strip ⟨d.digits / 10, d.power + 1⟩ n
    else d

/-- The shortest decimal that reads back as the number, which is not zero. -/
def shortest (x : Binary64) : Decimal :=
  let (num, den) := x.quotient
  (shortestFrom x.rounding num den (magnitude num den) 17 1).strip 400

/-- The digits of a whole number. -/
def digitChars (n : Nat) : List Char := (Nat.toDigits 10 n)

/-- The text of a number: positional with at least one digit after the point from `0.00001` up to
below `10 ^ 16`, and with an exponent outside. -/
def render (x : Binary64) : List Char :=
  let sign := if x.negative then ['-'] else []
  if x.isZero then sign ++ ['0', '.', '0']
  else
    let d := x.shortest
    let digits := digitChars d.digits
    let point : Int := digits.length + d.power
    sign ++
      if 0 ≤ d.power && point ≤ 16 then
        digits ++ List.replicate d.power.toNat '0' ++ ['.', '0']
      else if 0 < point && point ≤ 16 then
        digits.take point.toNat ++ '.' :: digits.drop point.toNat
      else if -5 < point && point ≤ 0 then
        '0' :: '.' :: (List.replicate (-point).toNat '0' ++ digits)
      else
        let exponent := point - 1
        let tail :=
          'e' :: ((if exponent < 0 then ['-'] else []) ++ digitChars exponent.natAbs)
        match digits with
        | [c] => c :: tail
        | c :: rest => c :: '.' :: (rest ++ tail)
        | [] => tail

end DocPages.Binary64
