import BlockCheck.Number.Binary64

/-!
# The shortest decimal that reads back

Of all decimals nearer to a binary64 number than to any other, the one with the fewest digits,
and of those the nearest.
-/

namespace BlockCheck.Number

/-- The rationals that round to `mantissa * 2 ^ exponent`, as a multiple of a quarter unit: from
`low` to `high`, both ends included iff `closed`. -/
structure RoundingInterval where
  low : Nat
  value : Nat
  high : Nat
  closed : Bool

/-- Below a power of two the neighbours are half as far away. -/
def roundingInterval (mantissa : Nat) (exponent : Int) : RoundingInterval where
  low := if mantissa = Binary64.fullMantissa ∧ exponent > -1074 then 4 * mantissa - 1 else 4 * mantissa - 2
  value := 4 * mantissa
  high := 4 * mantissa + 2
  closed := mantissa % 2 = 0

/-- `digits * 10 ^ place` lies in the interval, whose unit is `num / den`. -/
def RoundingInterval.covers (r : RoundingInterval) (num den : Nat) (digits : Nat) (place : Int) : Bool :=
  let (n, d) := scaled 10 place digits 1
  let x := n * den
  let low := r.low * num * d
  let high := r.high * num * d
  if r.closed then low ≤ x && x ≤ high else low < x && x < high

/-- The decimal on the grid of multiples of `10 ^ place` that is nearest to the value and reads
back, if there is one; of two equally near the even one. -/
def onGrid (r : RoundingInterval) (num den : Nat) (place : Int) : Option Nat :=
  let (n, d) := scaled 10 (-place) (r.value * num) den
  let below := n / d
  let above := below + 1
  let belowFits := r.covers num den below place && below != 0
  let aboveFits := r.covers num den above place
  if belowFits && aboveFits then
    some (if 2 * (n % d) < d || (2 * (n % d) = d && below % 2 = 0) then below else above)
  else if belowFits then some below
  else if aboveFits then some above
  else none

def firstGrid (r : RoundingInterval) (num den : Nat) : Nat → Int → Nat × Int
  | 0, place => (0, place)
  | fuel + 1, place =>
    match onGrid r num den place with
    | some digits => (digits, place)
    | none => firstGrid r num den fuel (place - 1)

def trimZeros : Nat → Nat × Int → Nat × Int
  | 0, d => d
  | fuel + 1, (digits, place) =>
    if digits ≠ 0 ∧ digits % 10 = 0 then trimZeros fuel (digits / 10, place + 1) else (digits, place)

/-- The digits and the place of the last one, for a number that is not zero. -/
def shortestDecimal (mantissa : Nat) (exponent : Int) : Nat × Int :=
  let r := roundingInterval mantissa exponent
  let (num, den) := scaled 2 exponent 1 4
  let (n, d) := scaled 2 exponent mantissa 1
  let top : Int := (Nat.toDigits 10 (n / d)).length
  let place := if n / d = 0 then 0 else top
  trimZeros 20 (firstGrid r num den 400 place)

/-- How a real number is written: positional between 10^-4 and 10^16, always with a point or
an exponent, and an exponent of at least two digits. -/
def Binary64.text : Binary64 → String
  | .notANumber => "nan"
  | .infinite negative => if negative then "-inf" else "inf"
  | .finite negative mantissa exponent =>
    let sign := if negative then "-" else ""
    if mantissa = 0 then sign ++ "0.0"
    else
      let (digits, place) := shortestDecimal mantissa exponent
      let ds := Nat.toDigits 10 digits
      let point : Int := ds.length + place
      if -4 < point ∧ point ≤ 16 then
        if point ≤ 0 then
          sign ++ "0." ++ String.ofList (List.replicate point.natAbs '0' ++ ds)
        else
          let whole := point.toNat
          let padded := ds ++ List.replicate (whole - ds.length) '0'
          let fraction := padded.drop whole
          sign ++ String.ofList (padded.take whole) ++ "."
            ++ (if fraction.isEmpty then "0" else String.ofList fraction)
      else
        let e := point - 1
        let eDigits := Nat.toDigits 10 e.natAbs
        let eText := String.ofList (if eDigits.length < 2 then '0' :: eDigits else eDigits)
        let tail := ds.drop 1
        sign ++ String.ofList (ds.take 1) ++ (if tail.isEmpty then "" else "." ++ String.ofList tail)
          ++ "e" ++ (if e < 0 then "-" else "+") ++ eText

end BlockCheck.Number
