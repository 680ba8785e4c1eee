/-!
Binary floating point numbers of 64 bits and their decimal texts. A decimal numeral is read to the
nearest number, and a number is written with the fewest digits that read back to it. Everything is
exact arithmetic on natural numbers.
-/

namespace TrustedRoot

/-- A number of the format: `finite s m q` is `m * 2 ^ q`, negative if `s`, where `m` has at most 53
bits, and all of them unless `q` is the least exponent. -/
inductive Binary64
  | nan
  | infinite (negative : Bool)
  | finite (negative : Bool) (m : Nat) (q : Int)
deriving DecidableEq, Repr

namespace Binary64

/-- The least exponent. -/
def minExponent : Int := -1074

/-- The greatest exponent. -/
def maxExponent : Int := 971

/-- How many bits a number has. -/
def bitLength (n : Nat) : Nat := if n = 0 then 0 else n.log2 + 1

/-- `num / den` to the nearest whole number; a half goes to the even neighbour. -/
def roundQuotient (num den : Nat) : Nat :=
  let whole := num / den
  let twice := 2 * (num % den)
  if twice < den then whole
  else if den < twice then whole + 1
  else if whole % 2 = 0 then whole else whole + 1

/-- The quotient `num / (den * 2 ^ q)` as a numerator and a denominator. -/
def scaled (num den : Nat) (q : Int) : Nat × Nat :=
  if q < 0 then (num * Nat.pow 2 (-q).toNat, den) else (num, den * Nat.pow 2 q.toNat)

/-- The number nearest to `num / den`. -/
def ofQuotient (negative : Bool) (num den : Nat) : Binary64 :=
  if num = 0 then .finite negative 0 minExponent
  else
    let guess : Int := max ((bitLength num : Int) - bitLength den - 53) minExponent
    let (scaledNum, scaledDen) := scaled num den guess
    let q := if Nat.pow 2 53 ≤ scaledNum / scaledDen then guess + 1 else guess
    let m := roundQuotient (scaled num den q).1 (scaled num den q).2
    let (m, q) := if m = Nat.pow 2 53 then (Nat.pow 2 52, q + 1) else (m, q)
    if maxExponent < q then .infinite negative else .finite negative m q

/-- The number nearest to `digits * 10 ^ exponent`. Beyond the range of the format the power of ten
is not computed. -/
def ofDecimal (negative : Bool) (digits : Nat) (exponent : Int) : Binary64 :=
  if digits = 0 then .finite negative 0 minExponent
  else
    let magnitude := (toString digits).length + exponent
    if 400 < magnitude then .infinite negative
    else if magnitude < -400 then .finite negative 0 minExponent
    else if exponent < 0 then ofQuotient negative digits (Nat.pow 10 (-exponent).toNat)
    else ofQuotient negative (digits * Nat.pow 10 exponent.toNat) 1

/-- A decimal numeral, `digits * 10 ^ exponent`. -/
structure Decimal where
  digits : Nat
  exponent : Int
deriving DecidableEq, Repr

/-- The numerals of the grid with step `10 ^ exponent` that lie next to `m * 2 ^ q`, if they read
back to it, the nearer one first; of two at the same distance the greater one comes first. -/
def neighbours (m : Nat) (q : Int) (exponent : Int) : List Decimal :=
  -- Four units to the step of `m`, all in units of `10 ^ exponent` after division by `den`.
  let shift := q - 2
  let num := if shift < 0 then 1 else Nat.pow 2 shift.toNat
  let den := if shift < 0 then Nat.pow 2 (-shift).toNat else 1
  let num := if exponent < 0 then num * Nat.pow 10 (-exponent).toNat else num
  let den := if exponent < 0 then den else den * Nat.pow 10 exponent.toNat
  let value := 4 * m * num
  let low := (4 * m - (if m = Nat.pow 2 52 ∧ minExponent < q then 1 else 2)) * num
  let high := (4 * m + 2) * num
  let readsBack (d : Nat) : Bool :=
    if m % 2 = 0 then low ≤ d * den && d * den ≤ high else low < d * den && d * den < high
  let below := value / den
  let above := below + 1
  let twice := 2 * (value - below * den)
  let order := if twice < den then [below, above] else [above, below]
  (order.filter readsBack).map (⟨·, exponent⟩)

/-- The numeral that reads back to `m * 2 ^ q` on the coarsest grid that has one, of two the nearer,
from the step `10 ^ exponent` on through at most the given number of grids. -/
def shortestFrom (m : Nat) (q exponent : Int) : Nat → Decimal
  | 0 => ⟨m, 0⟩
  | grids + 1 =>
    match neighbours m q exponent with
    | d :: _ => d
    | [] => shortestFrom m q (exponent - 1) grids

/-- The exponent of the first decimal digit of a positive number: the greatest `e` of the range with
`10 ^ e ≤ m * 2 ^ q`. -/
def topExponent (m : Nat) (q : Int) : Int :=
  if q < 0 then
    let whole := m / Nat.pow 2 (-q).toNat
    if whole ≠ 0 then (toString whole).length - 1
    else
      -- Scale by a power of ten above any reciprocal of the format.
      (toString (m * Nat.pow 10 400 / Nat.pow 2 (-q).toNat)).length - 401
  else (toString (m * Nat.pow 2 q.toNat)).length - 1

/-- The numeral with the fewest digits that reads back to a positive `m * 2 ^ q`. One just above may
have its only digit a place higher than the number, and 17 digits are always enough. -/
def shortest (m : Nat) (q : Int) : Decimal := shortestFrom m q (topExponent m q + 1) 18

/-- A numeral written without an exponent. -/
def Decimal.positional (d : Decimal) : String :=
  let digits := toString d.digits
  if 0 ≤ d.exponent then digits ++ String.ofList (List.replicate d.exponent.toNat '0')
  else
    let places := (-d.exponent).toNat
    let padded := List.replicate (places + 1 - digits.length) '0' ++ digits.toList
    let whole := padded.take (padded.length - places)
    String.ofList (whole ++ '.' :: padded.drop (padded.length - places))

/-- A number in decimal without an exponent, always with a point if it is finite. -/
def text : Binary64 → String
  | .nan => "NaN"
  | .infinite negative => if negative then "-inf" else "inf"
  | .finite negative m q =>
    let positional := if m = 0 then "0" else (shortest m q).positional
    let pointed := if positional.toList.contains '.' then positional else positional ++ ".0"
    if negative then "-" ++ pointed else pointed

end Binary64
end TrustedRoot
