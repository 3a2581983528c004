import SeaChart.Instruction.Basic
import SeaChart.Number.Decimal
import SeaChart.Text.Pieces

namespace SeaChart

open Text

def splitArguments (quoted : Bool) (current : List Char) : List Char → List (List Char)
  | [] => [current.reverse]
  | '\'' :: cs => splitArguments (!quoted) current cs
  | c :: cs =>
    if c = ',' ∧ quoted = false then current.reverse :: splitArguments quoted [] cs
    else splitArguments quoted (c :: current) cs

def readArguments (body : List Char) : List String :=
  (splitArguments false [] body).map fun a => String.ofList (trim a)

def argument (arguments : List String) (i : Nat) : String :=
  arguments.getD i ""

def Rotation.read (s : String) : Option Rotation :=
  if s = "" then none
  else
    match Binary64.read s with
    | some angle => some (.fixed angle)
    | none => some (.byAttribute s)

def LineStyle.read (s : String) : LineStyle :=
  if s = "DASH" then .dashed else if s = "DOTT" then .dotted else .solid

namespace Label

def defaultSize : Nat := 10

def sizeOfCode (code : String) : Nat :=
  match splitAtByte 3 code.toList with
  | none => defaultSize
  | some (_, size) => (readWord (String.ofList size)).getD defaultSize

def isBoldCode (code : String) : Bool :=
  code.toList[1]? == some '6'

def ofArguments (wording : Wording) (arguments : List String) : Label :=
  let arg := argument arguments
  let zero := Binary64.zero false
  { wording
    horizontal := (readByte (arg 0)).getD 1
    vertical := (readByte (arg 1)).getD 1
    bold := isBoldCode (arg 3)
    size := sizeOfCode (arg 3)
    offset := ((Binary64.read (arg 4)).getD zero, (Binary64.read (arg 5)).getD zero)
    color := arg 6
    group := (readWord (arg 7)).getD 0 }

end Label

namespace Instruction

def withoutVersion (name : String) : String :=
  String.ofList (name.toList.reverse.dropWhile isDigit).reverse

def literalOrAttribute (body : List Char) (words : String) : Wording :=
  if (trimStart body).head? = some '\'' then .literal words else .byAttribute words

def ofKeyword (keyword : String) (body : List Char) : Option Instruction :=
  let arguments := readArguments body
  let arg := argument arguments
  match keyword with
  | "SY" => some (.symbol (arg 0) (Rotation.read (arg 1)))
  | "LS" => some (.simpleLine (LineStyle.read (arg 0)) ((readWord (arg 1)).getD 1) (arg 2))
  | "LC" => some (.complexLine (arg 0))
  | "AC" => some (.areaColor (arg 0) (min ((readByte (arg 1)).getD 0) 4))
  | "AP" => some (.areaPattern (arg 0) (Rotation.read (arg 1)))
  -- The arguments have lost their quotes, so the body tells whether the words are literal.
  | "TX" =>
    some (.label (Label.ofArguments (literalOrAttribute body (arg 0)) (arguments.drop 1)))
  | "TE" =>
    let wording := .template (arg 0) (trimmedPieces ',' (arg 1))
    some (.label (Label.ofArguments wording (arguments.drop 2)))
  | "CS" => some (.procedure (withoutVersion (arg 0)))
  | _ => none

/--
Cuts a command into its keyword and what stands in its parentheses: blanks, two capital letters, an
opening parenthesis, a body on one line, a closing parenthesis, blanks.
-/
def cutCommand (cs : List Char) : Option (String × List Char) :=
  match trimStart cs with
  | a :: b :: '(' :: rest =>
    match (trimEnd rest).reverse with
    | ')' :: body =>
      if a.isUpper && b.isUpper && !body.contains '\n' then
        some (String.ofList [a, b], body.reverse)
      else none
    | _ => none
  | _ => none

def read (command : String) : Instruction :=
  let known := (cutCommand command.toList).bind fun (keyword, body) => ofKeyword keyword body
  known.getD (.unknown command)

def readAll (text : String) : List Instruction :=
  (filledPieces ';' text).map read

end Instruction

end SeaChart
