import SeaChart.Text.Numeral

namespace SeaChart.Toml

abbrev Reader (α : Type) := List Char → Option (α × List Char)

def isBlank (c : Char) : Bool :=
  c == ' ' || c == '\t'

def skipBlanks (cs : List Char) : List Char :=
  cs.dropWhile isBlank

def isPrintable (c : Char) : Bool :=
  c == '\t' || (0x20 ≤ c.toNat && c.toNat ≠ 0x7F)

def afterBreak? : List Char → Option (List Char)
  | '\n' :: cs => some cs
  | '\r' :: '\n' :: cs => some cs
  | _ => none

def skipComment (cs : List Char) : List Char :=
  match cs with
  | '#' :: cs => cs.dropWhile isPrintable
  | cs => cs

def endLine? (cs : List Char) : Option (List Char) :=
  match skipComment (skipBlanks cs) with
  | [] => some []
  | cs => afterBreak? cs

def skipLines (fuel : Nat) (cs : List Char) : List Char :=
  match fuel with
  | 0 => cs
  | fuel + 1 =>
    let cs := skipBlanks cs
    match afterBreak? (skipComment cs) with
    | some rest => skipLines fuel rest
    | none => cs

def skipFiller (cs : List Char) : List Char :=
  skipLines (cs.length + 1) cs

def isHexDigit (c : Char) : Bool :=
  Text.isDigit c || ('a' ≤ c && c ≤ 'f') || ('A' ≤ c && c ≤ 'F')

def hexValue (c : Char) : Nat :=
  if Text.isDigit c then Text.digitValue c
  else if 'a' ≤ c then c.toNat - 'a'.toNat + 10
  else c.toNat - 'A'.toNat + 10

def readCode (length : Nat) : Reader Char := fun cs =>
  let digits := cs.take length
  let n := digits.foldl (fun n c => 16 * n + hexValue c) 0
  if digits.length = length ∧ digits.all isHexDigit ∧ n.isValidChar then
    some (Char.ofNat n, cs.drop length)
  else none

def simpleEscapes : List (Char × Char) :=
  [('b', '\x08'), ('f', '\x0c'), ('n', '\n'), ('r', '\r'), ('t', '\t'), ('"', '"'), ('\\', '\\')]

def readEscape : Reader Char
  | 'u' :: cs => readCode 4 cs
  | 'U' :: cs => readCode 8 cs
  | c :: cs => (simpleEscapes.lookup c).map fun d => (d, cs)
  | [] => none

def skipEmptyLines : List Char → List Char
  | [] => []
  | '\r' :: '\n' :: cs => skipEmptyLines cs
  | c :: cs => if isBlank c || c == '\n' then skipEmptyLines cs else c :: cs

def afterEscapedBreak? (cs : List Char) : Option (List Char) :=
  (afterBreak? (skipBlanks cs)).map skipEmptyLines

structure StringKind where
  delimiter : Char
  escapes : Bool

def basic : StringKind := ⟨'"', true⟩

def literal : StringKind := ⟨'\'', false⟩

def readLineString (k : StringKind) (fuel : Nat) (reversed : List Char) : Reader (List Char) :=
  fun cs =>
  match fuel, cs with
  | 0, _ => none
  | _, [] => none
  | fuel + 1, c :: cs =>
    if c = k.delimiter then some (reversed.reverse, cs)
    else if k.escapes ∧ c = '\\' then
      (readEscape cs).bind fun (d, cs) => readLineString k fuel (d :: reversed) cs
    else if isPrintable c then readLineString k fuel (c :: reversed) cs
    else none

def readBlockString (k : StringKind) (fuel : Nat) (reversed : List Char) : Reader (List Char) :=
  fun cs =>
  match fuel, cs with
  | 0, _ => none
  | _, [] => none
  | fuel + 1, c :: rest =>
    if c = k.delimiter then
      let run := ((c :: rest).take 5).takeWhile (· == k.delimiter)
      let after := (c :: rest).drop run.length
      if run.length < 3 then readBlockString k fuel (run ++ reversed) after
      else some ((run.drop 3 ++ reversed).reverse, after)
    else
      match afterBreak? (c :: rest) with
      | some after => readBlockString k fuel ('\n' :: reversed) after
      | none =>
        if k.escapes ∧ c = '\\' then
          match afterEscapedBreak? rest with
          | some after => readBlockString k fuel reversed after
          | none =>
            (readEscape rest).bind fun (d, after) => readBlockString k fuel (d :: reversed) after
        else if isPrintable c then readBlockString k fuel (c :: reversed) rest
        else none

def readStringOf (k : StringKind) : Reader String := fun cs =>
  let read :=
    match cs with
    | a :: b :: rest =>
      if a = k.delimiter ∧ b = k.delimiter then
        readBlockString k (rest.length + 1) [] ((afterBreak? rest).getD rest)
      else readLineString k (cs.length + 1) [] cs
    | cs => readLineString k (cs.length + 1) [] cs
  read.map fun (s, rest) => (String.ofList s, rest)

def isBareKeyChar (c : Char) : Bool :=
  c.isAlphanum || c == '_' || c == '-'

def readSimpleKey : Reader String := fun cs =>
  match cs with
  | '"' :: rest => (readLineString basic (cs.length + 1) [] rest).map fun (s, r) => (.ofList s, r)
  | '\'' :: rest =>
    (readLineString literal (cs.length + 1) [] rest).map fun (s, r) => (.ofList s, r)
  | cs =>
    let key := cs.takeWhile isBareKeyChar
    if key.isEmpty then none else some (String.ofList key, cs.dropWhile isBareKeyChar)

def depthLimit : Nat := 80

def readKeyParts (fuel : Nat) : Reader (List String) := fun cs =>
  match fuel with
  | 0 => none
  | fuel + 1 => do
    let (part, rest) ← readSimpleKey (skipBlanks cs)
    match skipBlanks rest with
    | '.' :: rest =>
      let (parts, rest) ← readKeyParts fuel rest
      return (part :: parts, rest)
    | rest => return ([part], rest)

def readKey : Reader (List String × String) := fun cs => do
  let (parts, rest) ← readKeyParts (depthLimit - 1) cs
  return ((parts.dropLast, ← parts.getLast?), rest)

end SeaChart.Toml
