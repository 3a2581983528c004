import SeaChart.Markup.Characters
import SeaChart.Text.Numeral

namespace SeaChart.Markup

open Text

def isHexDigit (c : Char) : Bool :=
  c.isDigit || ('a' ≤ c && c ≤ 'f') || ('A' ≤ c && c ≤ 'F')

def hexValue (c : Char) : Nat :=
  if c.isDigit then c.toNat - '0'.toNat
  else if 'a' ≤ c then c.toNat - 'a'.toNat + 10
  else c.toNat - 'A'.toNat + 10

def ofCode (n : Nat) : Option Char :=
  if 0xFFFFFFFF < n then none
  else
    let c := if n.isValidChar then Char.ofNat n else '\uFFFD'
    if isAllowed c then some c else none

def named : List (String × Char) :=
  [("quot", '"'), ("amp", '&'), ("apos", '\''), ("lt", '<'), ("gt", '>')]

def resolve (reference : List Char) : Option Char :=
  match reference with
  | '#' :: 'x' :: digits =>
    if digits ≠ [] ∧ digits.all isHexDigit then
      ofCode (digits.foldl (fun n c => 16 * n + hexValue c) 0)
    else none
  | '#' :: digits => (readNat digits).bind ofCode
  | name => named.lookup (String.ofList name)

inductive Piece where
  | plain (c : Char)
  | referred (c : Char)
deriving DecidableEq, Repr

def referencesFrom (pending : Option (List Char)) : List Char → Option (List Piece)
  | [] => if pending.isNone then some [] else none
  | c :: cs =>
    match pending with
    | none =>
      if c = '&' then referencesFrom (some []) cs
      else (referencesFrom none cs).map (.plain c :: ·)
    | some name =>
      if c = ';' then
        (resolve name.reverse).bind fun d => (referencesFrom none cs).map (.referred d :: ·)
      else referencesFrom (some (c :: name)) cs

def references (cs : List Char) : Option (List Piece) :=
  referencesFrom none cs

def attributeText : List Piece → List Char
  | [] => []
  | .plain '\r' :: .plain '\n' :: ps => attributeText (.plain '\n' :: ps)
  | .plain c :: ps => (if isSpace c then ' ' else c) :: attributeText ps
  | .referred c :: ps => c :: attributeText ps
termination_by ps => ps.length

/--
Puts one character to a text whose line breaks are made line feeds. The text is kept in reverse; a
carriage return at its head waits for what follows it.
-/
def pushText (reversed : List Char) (c : Char) (last : Bool) : List Char :=
  match reversed with
  | '\r' :: before =>
    if last ∧ c = '\r' then '\n' :: '\n' :: before
    else if c = '\n' then '\n' :: before
    else c :: '\n' :: before
  | _ => if last ∧ c = '\r' then '\n' :: reversed else c :: reversed

def textFrom (reversed : List Char) (afterReference : Bool) : List Piece → List Char
  | [] => reversed.reverse
  | .referred c :: ps => textFrom (c :: reversed) true ps
  | .plain c :: ps =>
    if afterReference then textFrom (c :: reversed) false ps
    else textFrom (pushText reversed c ps.isEmpty) false ps

def characterData (cs : List Char) : Option (List Char) :=
  (references cs).map (textFrom [] false)

def literalData (cs : List Char) : List Char :=
  textFrom [] false (cs.map .plain)

end SeaChart.Markup
