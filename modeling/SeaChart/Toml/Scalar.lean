import SeaChart.Number.Decimal
import SeaChart.Toml.Lexical
import SeaChart.Toml.Value

namespace SeaChart.Toml

open Text

def readDigits (isDigit : Char → Bool) : Reader (List Char)
  | [] => none
  | c :: cs =>
    if !isDigit c then none
    else
      match cs with
      | '_' :: rest => (readDigits isDigit rest).map fun (ds, rest) => (c :: ds, rest)
      | cs =>
        match cs with
        | [] => some ([c], [])
        | d :: _ =>
          if isDigit d then (readDigits isDigit cs).map fun (ds, rest) => (c :: ds, rest)
          else some ([c], cs)

def readSign : List Char → Bool × List Char
  | '-' :: cs => (true, cs)
  | '+' :: cs => (false, cs)
  | cs => (false, cs)

def readWhole : Reader (List Char)
  | '0' :: cs => some (['0'], cs)
  | cs => readDigits isDigit cs

def smallestInteger : Int := -9223372036854775808

def largestInteger : Int := 9223372036854775807

def checkRange (n : Int) : Option Value :=
  if smallestInteger ≤ n ∧ n ≤ largestInteger then some (.integer n) else none

def valueOf (base : Nat) (digits : List Char) : Nat :=
  digits.foldl (fun n c => base * n + hexValue c) 0

def readBased (base : Nat) (isDigit : Char → Bool) : Reader Value := fun cs => do
  let (digits, rest) ← readDigits isDigit cs
  return (← checkRange (valueOf base digits), rest)

def readExponent (cs : List Char) : Option (List Char × List Char) :=
  match cs with
  | c :: rest =>
    if c = 'e' ∨ c = 'E' then
      let (negative, rest) := readSign rest
      (readDigits isDigit rest).map fun (digits, rest) =>
        ('e' :: (if negative then '-' :: digits else digits), rest)
    else some ([], cs)
  | [] => some ([], [])

def readPlaces (cs : List Char) : Option (List Char × List Char) :=
  match cs with
  | '.' :: rest => (readDigits isDigit rest).map fun (digits, rest) => ('.' :: digits, rest)
  | cs => some ([], cs)

def ofFloat (negative : Bool) (text : List Char) : Option Value :=
  match Binary64.readUnsigned negative text with
  | some (.infinite false) => none
  | some x => some (.float x)
  | none => none

def readDecimal : Reader Value := fun cs => do
  let (negative, cs) := readSign cs
  let (whole, rest) ← readWhole cs
  let (places, rest) ← readPlaces rest
  let (exponent, rest) ← readExponent rest
  if places = [] ∧ exponent = [] then
    let n : Int := digitsValue whole
    return (← checkRange (if negative then -n else n), rest)
  else return (← ofFloat negative (whole ++ places ++ exponent), rest)

def readSpecial : Reader Value := fun cs =>
  let (negative, cs) := readSign cs
  match cs with
  | 'i' :: 'n' :: 'f' :: rest => some (.float (.infinite negative), rest)
  | 'n' :: 'a' :: 'n' :: rest => some (.float .nan, rest)
  | _ => none

def readField (length low high : Nat) : Reader Nat := fun cs =>
  match readNat (cs.take length) with
  | some n =>
    if (cs.take length).length = length ∧ low ≤ n ∧ n ≤ high then some (n, cs.drop length) else none
  | none => none

def daysOf (year month : Nat) : Nat :=
  if month = 2 then
    if year % 4 = 0 ∧ (year % 100 ≠ 0 ∨ year % 400 = 0) then 29 else 28
  else if month = 4 ∨ month = 6 ∨ month = 9 ∨ month = 11 then 30
  else 31

def afterChar? (c : Char) : List Char → Option (List Char)
  | d :: cs => if d = c then some cs else none
  | [] => none

def skipDate (cs : List Char) : Option (List Char) := do
  let (year, cs) ← readField 4 0 9999 cs
  let (month, cs) ← readField 2 1 12 (← afterChar? '-' cs)
  let (_, cs) ← readField 2 1 (daysOf year month) (← afterChar? '-' cs)
  return cs

def skipTime (cs : List Char) : Option (List Char) := do
  let (_, cs) ← readField 2 0 23 cs
  let (_, cs) ← readField 2 0 59 (← afterChar? ':' cs)
  let (_, cs) ← readField 2 0 60 (← afterChar? ':' cs)
  match cs with
  | '.' :: d :: rest => if isDigit d then return rest.dropWhile isDigit else return cs
  | cs => return cs

def skipOffset (cs : List Char) : Option (List Char) :=
  match cs with
  | [] => some []
  | c :: rest =>
    if c = 'Z' ∨ c = 'z' then some rest
    else if c = '+' ∨ c = '-' then do
      let (_, cs) ← readField 2 0 23 rest
      let (_, cs) ← readField 2 0 59 (← afterChar? ':' cs)
      return cs
    else some cs

def skipTimeOfDate (cs : List Char) : List Char :=
  match cs with
  | [] => []
  | c :: rest =>
    if c = 'T' ∨ c = 't' ∨ c = ' ' then ((skipTime rest).bind skipOffset).getD cs else cs

def readMoment : Reader Value := fun cs =>
  match skipDate cs with
  | some rest => some (.moment, skipTimeOfDate rest)
  | none => (skipTime cs).map fun rest => (.moment, rest)

def readNumber : Reader Value := fun cs =>
  match cs with
  | '0' :: 'x' :: rest => readBased 16 isHexDigit rest
  | '0' :: 'o' :: rest => readBased 8 (fun c => '0' ≤ c && c ≤ '7') rest
  | '0' :: 'b' :: rest => readBased 2 (fun c => c == '0' || c == '1') rest
  | cs =>
    match readMoment cs with
    | some r => some r
    | none => (readSpecial cs).or (readDecimal cs)

end SeaChart.Toml
