import SqlInterchange.Number.Decimal

/-! # Binary floating point numbers of 64 bits

A finite number is a sign and a magnitude. The magnitudes are numbered in order of size: number
`i` is the `i`-th smallest, so that rounding, order and the bits of the interchange format agree.
Decimal numerals are read by exact arithmetic on natural numbers and rounded once, to the nearest
magnitude and on a tie to the even one. Numbers are written with the fewest decimal digits that
read back as the same number, and among those with the digits nearest to it. -/
namespace SqlInterchange

/-- How many magnitudes share a power of two: two to the power of fifty-two. -/
def Binary64.binade : Nat := 0x10000000000000

/-- How many finite magnitudes there are. -/
def Binary64.magnitudes : Nat := 0x7FF * Binary64.binade

/-- A number in the 64-bit binary interchange format; all the values that are not a number count
as one. -/
inductive Binary64 where
  /-- The value that is not a number. -/
  | nan
  /-- An infinity and its sign. -/
  | infinite (negative : Bool)
  /-- A sign and the place of the magnitude among all magnitudes. -/
  | finite (negative : Bool) (magnitude : Fin Binary64.magnitudes)
deriving DecidableEq

namespace Binary64

/-- A magnitude as a significand times a power of two. The first magnitudes are the multiples of
the smallest one. -/
def significand (i : Nat) : Nat := if i < binade then i else binade + i % binade

/-- The exponent of the power of two that goes with the significand. -/
def scale (i : Nat) : Int := if i < binade then -1074 else (i / binade : Nat) - 1075

/-! ## From decimal notation -/

/-- The quotient rounded to the nearest natural number, on a tie to the even one. -/
def roundDiv (num den : Nat) : Nat :=
  let q := num / den
  let r := num % den
  if 2 * r < den then q
  else if den < 2 * r then q + 1
  else if q % 2 = 0 then q else q + 1

/-- The greatest `e` with `2 ^ e ≤ num / den`, both positive. -/
def floorLog2 (num den : Nat) : Int :=
  let e : Int := (num.log2 : Int) - den.log2
  if den * Nat.pow 2 e.toNat ≤ num * Nat.pow 2 (-e).toNat then e else e - 1

/-- The place of the magnitude nearest to `num / den`; it is at least `magnitudes` if the
quotient is too large. -/
def nearest (num den : Nat) : Nat :=
  if num = 0 then 0
  else
    let k : Int := max (-1074) (floorLog2 num den - 52)
    (k + 1074).toNat * binade + roundDiv (num * Nat.pow 2 (-k).toNat) (den * Nat.pow 2 k.toNat)

/-- The number at a place, the infinity if there is no such place. -/
def ofPlace (negative : Bool) (i : Nat) : Binary64 :=
  if h : i < magnitudes then finite negative ⟨i, h⟩ else infinite negative

/-- How many decimal digits a number has. -/
def digitCount (n : Nat) : Nat := (Decimal.digits n).length

/-- The place of the magnitude nearest to `mantissa * 10 ^ exponent`. An exponent so large or so
small that the digits of the mantissa cannot matter is settled without computing the power. -/
def placeOfDecimal (mantissa : Nat) (exponent : Int) : Nat :=
  if mantissa = 0 then 0
  else if 400 < exponent + digitCount mantissa then magnitudes
  else if exponent + digitCount mantissa < -400 then 0
  else nearest (mantissa * Nat.pow 10 exponent.toNat) (Nat.pow 10 (-exponent).toNat)

/-- The number nearest to `mantissa * 10 ^ exponent` with the given sign. -/
def ofDecimal (negative : Bool) (mantissa : Nat) (exponent : Int) : Binary64 :=
  ofPlace negative (placeOfDecimal mantissa exponent)

/-! ## To decimal notation -/

/-- The greatest `e` with `10 ^ e ≤ num / den`, both positive. -/
def floorLog10 (num den : Nat) : Int :=
  if den ≤ num then (digitCount (num / den) : Int) - 1
  else
    let gap := digitCount den - digitCount num
    if den ≤ num * Nat.pow 10 gap then -(gap : Int) else -(gap : Int) - 1

/-- Of the two neighbours of `num / den` among the multiples of `10 ^ e`, the one that reads back
as magnitude `i`. If both do, the nearer one counts, on a tie the one with an even last digit. -/
def neighbour? (i num den : Nat) (e : Int) : Option Nat :=
  let num := num * Nat.pow 10 (-e).toNat
  let den := den * Nat.pow 10 e.toNat
  let below := num / den
  let fits := fun m => placeOfDecimal m e == i
  if fits below && fits (below + 1) then some (roundDiv num den)
  else if fits below then some below
  else if fits (below + 1) then some (below + 1)
  else none

/-- The mantissa and exponent of the shortest decimal that reads back as magnitude `i`, trying
`count` digits, then one more, as long as there is fuel. -/
def shortestFrom (i num den : Nat) (top : Int) (count : Nat) : Nat → Option (Nat × Int)
  | 0 => none
  | fuel + 1 =>
    let e := top - (count - 1 : Nat)
    match neighbour? i num den e with
    | some m => some (m, e)
    | none => shortestFrom i num den top (count + 1) fuel

/-- The mantissa and exponent of the shortest decimal that reads back as magnitude `i`. Seventeen
digits always suffice; the exact value stands behind them. -/
def shortest (i : Nat) : Nat × Int :=
  let m := significand i
  let k := scale i
  let num := m * Nat.pow 2 k.toNat
  let den := Nat.pow 2 (-k).toNat
  if m = 0 then (0, 0)
  else (shortestFrom i num den (floorLog10 num den) 1 17).getD
    (num * Nat.pow 5 (-k).toNat, -((-k).toNat : Int))

/-- The digits of a decimal without the zeros at its end, and the exponent that goes with its
first digit. -/
def normalize (mantissa : Nat) (exponent : Int) : Text × Int :=
  let ds := Decimal.digits mantissa
  let kept := Text.dropEndWhile (· == '0') ds
  (if kept.isEmpty then ['0'] else kept, if kept.isEmpty then 0 else exponent + ds.length - 1)

/-- An exponent with its sign and at least two digits. -/
def exponentText (e : Int) : Text :=
  let ds := Decimal.digits e.natAbs
  (if e < 0 then '-' else '+') :: (if ds.length < 2 then '0' :: ds else ds)

/-- Digits with the point behind the digit of weight one. Numbers from `1e-4` up to `1e16` are
positional and have at least one digit behind the point; all others have an exponent. -/
def layout (ds : Text) (e : Int) : Text :=
  if e < -4 || 16 ≤ e then
    ds.take 1 ++ (if ds.length = 1 then [] else '.' :: ds.drop 1) ++ 'e' :: exponentText e
  else if e < 0 then
    '0' :: '.' :: (List.replicate (-e - 1).toNat '0' ++ ds)
  else
    let whole := (e + 1).toNat
    if ds.length ≤ whole then ds ++ List.replicate (whole - ds.length) '0' ++ ['.', '0']
    else ds.take whole ++ '.' :: ds.drop whole

/-- The text of a number: the shortest digits that read back as it. -/
def toText : Binary64 → Text
  | nan => "nan".toList
  | infinite negative => (if negative then ['-'] else []) ++ "inf".toList
  | finite negative i =>
    let (m, e) := shortest i
    let (ds, top) := normalize m e
    (if negative then ['-'] else []) ++ layout ds top

/-! ## Zero -/

/-- Whether a number is zero, of either sign. -/
def isZero : Binary64 → Bool
  | finite _ i => i.val == 0
  | _ => false

end Binary64
end SqlInterchange
