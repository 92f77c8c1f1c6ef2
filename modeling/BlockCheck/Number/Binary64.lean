/-!
# Numbers of 64 bits

A real number written in decimal is kept as the nearest number of the binary64 format: a
natural number below 2^53 times a power of two, an infinity, or no number at all.
-/

namespace BlockCheck.Number

inductive Binary64 where
  | notANumber
  | infinite (negative : Bool)
  /-- The number `mantissa * 2 ^ exponent`, with its sign. -/
  | finite (negative : Bool) (mantissa : Nat) (exponent : Int)
deriving DecidableEq, Repr

/-- The quotient rounded to the nearest natural number; a half goes to the even neighbour. -/
def roundDiv (num den : Nat) : Nat :=
  let q := num / den
  let r := num % den
  if 2 * r < den then q
  else if den < 2 * r then q + 1
  else if q % 2 = 0 then q else q + 1

/-- `num * b ^ e` as a fraction. -/
def scaled (b : Nat) (e : Int) (num den : Nat) : Nat × Nat :=
  if e < 0 then (num, den * b.pow e.natAbs) else (num * b.pow e.natAbs, den)

def bits (n : Nat) : Nat := if n = 0 then 0 else n.log2 + 1

namespace Binary64

/-- A mantissa lies below this power of two. -/
def mantissaLimit : Nat := Nat.pow 2 53

/-- The least mantissa of a number that has all its digits. -/
def fullMantissa : Nat := Nat.pow 2 52

def zero (negative : Bool) : Binary64 := .finite negative 0 (-1074)

/-- The number nearest to `num / den`, which is positive. The first exponent tried may be
one too small, which the carry test mends. -/
def ofFraction (negative : Bool) (num den : Nat) : Binary64 :=
  let guess : Int := (bits num : Int) - bits den - 53
  let e := max guess (-1074)
  let (n, d) := scaled 2 (-e) num den
  let (e, n, d) := if n < mantissaLimit * d then (e, n, d) else (e + 1, n, d * 2)
  let m := roundDiv n d
  let (m, e) := if m = mantissaLimit then (fullMantissa, e + 1) else (m, e)
  if e > 971 then .infinite negative
  else .finite negative m e

/-- The number nearest to `digits * 10 ^ exponent`. Powers far outside the range are told by
their size alone. -/
def ofDecimal (negative : Bool) (digits : Nat) (exponent : Int) : Binary64 :=
  let size : Int := (Nat.toDigits 10 digits).length
  if digits = 0 then zero negative
  else if size + exponent > 400 then .infinite negative
  else if size + exponent < -400 then zero negative
  else
    let (n, d) := scaled 10 exponent digits 1
    ofFraction negative n d

def isZero : Binary64 → Bool
  | .finite _ m _ => m = 0
  | _ => false

end Binary64

end BlockCheck.Number
