import SeaChart.Number.Binary64
import SeaChart.Text.Numeral

/-!
The shortest decimal text of a floating-point number: the fewest digits that read back as the same
number, and of those the nearest to it. The text never has an exponent.
-/

namespace SeaChart.Binary64

open SeaChart.Text

abbrev Fraction := Nat × Nat

def Fraction.le (x y : Fraction) : Bool :=
  x.1 * y.2 ≤ y.1 * x.2

def Fraction.lt (x y : Fraction) : Bool :=
  x.1 * y.2 < y.1 * x.2

def ofPowerOfTen (n : Nat) : Int → Fraction
  | .ofNat k => (n * Nat.pow 10 k, 1)
  | .negSucc k => (n, Nat.pow 10 (k + 1))

structure Neighbourhood where
  low : Fraction
  value : Fraction
  high : Fraction
  closed : Bool

def neighbourhood (mantissa : Nat) (exponent : Int) : Neighbourhood where
  low :=
    if mantissa = mantissaBound / 2 ∧ minExponent < exponent then
      fraction (4 * mantissa - 1) (exponent - 2)
    else fraction (2 * mantissa - 1) (exponent - 1)
  value := fraction mantissa exponent
  high := fraction (2 * mantissa + 1) (exponent - 1)
  closed := mantissa % 2 == 0

def Neighbourhood.contains (i : Neighbourhood) (x : Fraction) : Bool :=
  if i.closed then i.low.le x && x.le i.high else i.low.lt x && x.lt i.high

def Neighbourhood.onGrid (i : Neighbourhood) (k : Int) : Option Nat :=
  let (numerator, denominator) :=
    match k with
    | .ofNat k => (i.value.1, i.value.2 * Nat.pow 10 k)
    | .negSucc k => (i.value.1 * Nat.pow 10 (k + 1), i.value.2)
  let below := numerator / denominator
  let upperIsNearer := denominator ≤ 2 * (numerator % denominator)
  match i.contains (ofPowerOfTen below k), i.contains (ofPowerOfTen (below + 1) k) with
  | true, true => some (if upperIsNearer then below + 1 else below)
  | true, false => some below
  | false, true => some (below + 1)
  | false, false => none

def leadingPlace (x : Fraction) : Int :=
  let p : Int := (Nat.toDigits 10 x.1).length - (Nat.toDigits 10 x.2).length
  if x.lt (ofPowerOfTen 1 p) then p else p + 1

def Neighbourhood.search (i : Neighbourhood) (fuel : Nat) (k : Int) : Nat × Int :=
  match fuel with
  | 0 => (0, k)
  | fuel + 1 =>
    match i.onGrid k with
    | some n => (n, k)
    | none => i.search fuel (k - 1)

def shortest (mantissa : Nat) (exponent : Int) : Nat × Int :=
  let i := neighbourhood mantissa exponent
  i.search 18 (leadingPlace i.value - 1)

def trimZeros (cs : List Char) : List Char :=
  (cs.reverse.dropWhile (· == '0')).reverse

def positional (digits : Nat) (k : Int) : List Char :=
  match k with
  | .ofNat k => Nat.toDigits 10 (digits * Nat.pow 10 k)
  | .negSucc k =>
    let unit := Nat.pow 10 (k + 1)
    let places := Nat.toDigits 10 (digits % unit)
    let places := trimZeros (List.replicate (k + 1 - places.length) '0' ++ places)
    Nat.toDigits 10 (digits / unit) ++ if places = [] then [] else '.' :: places

def text : Binary64 → String
  | .nan => "NaN"
  | .infinite negative => if negative then "-inf" else "inf"
  | .finite negative m e =>
    let digits :=
      if m = 0 then ['0']
      else
        let (n, k) := shortest m e
        positional n k
    (if negative then "-" else "") ++ String.ofList digits

instance : ToString Binary64 := ⟨text⟩

end SeaChart.Binary64
