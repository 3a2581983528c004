import SeaChart.Number.Binary64
import SeaChart.Text.Numeral

namespace SeaChart.Binary64

open SeaChart.Text

/--
The number nearest to `± digits * 10 ^ exponent`, where `digits` has `count` digits. Values outside
the powers of ten between which all finite numbers lie are decided without computing them.
-/
def ofDecimal (negative : Bool) (digits count : Nat) (exponent : Int) : Binary64 :=
  if digits = 0 then zero negative
  else if 310 < count + exponent then .infinite negative
  else if count + exponent < -330 then zero negative
  else
    match exponent with
    | .ofNat k => ofFraction negative (digits * Nat.pow 10 k) 1
    | .negSucc k => ofFraction negative digits (Nat.pow 10 (k + 1))

def readUnsigned (negative : Bool) (cs : List Char) : Option Binary64 :=
  let whole := cs.takeWhile isDigit
  let (places, rest) :=
    match cs.dropWhile isDigit with
    | '.' :: cs => (cs.takeWhile isDigit, cs.dropWhile isDigit)
    | cs => ([], cs)
  let digits := whole ++ places
  let value (exponent : Int) : Binary64 :=
    ofDecimal negative (digitsValue digits) (digits.dropWhile (· == '0')).length
      (exponent - places.length)
  if digits = [] then none
  else
    match rest with
    | [] => some (value 0)
    | c :: cs =>
      if c = 'e' ∨ c = 'E' then
        match cs with
        | '-' :: cs => (readNat cs).map fun n => value (-(n : Int))
        | '+' :: cs => (readNat cs).map fun n => value n
        | cs => (readNat cs).map fun n => value n
      else none

def read (s : String) : Option Binary64 :=
  let (negative, cs) :=
    match s.toList with
    | '-' :: cs => (true, cs)
    | '+' :: cs => (false, cs)
    | cs => (false, cs)
  let word := cs.map Char.toLower
  if word = "inf".toList ∨ word = "infinity".toList then some (.infinite negative)
  else if word = "nan".toList then some .nan
  else readUnsigned negative cs

end SeaChart.Binary64
