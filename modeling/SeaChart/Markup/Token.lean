import SeaChart.Markup.Reference

namespace SeaChart.Markup

structure QualifiedName where
  space : String
  name : String
deriving DecidableEq, Repr

inductive Token where
  | openTag (name : QualifiedName) (attributes : List (QualifiedName × String)) (closed : Bool)
  | closeTag (name : QualifiedName)
  | text (text : String)
  | aside
deriving Repr

def startsName (cs : List Char) : Bool :=
  cs.head?.any isNameStart

def QualifiedName.ofChars (cs : List Char) : Option QualifiedName :=
  match cs.splitOn ':' with
  | [name] => if startsName name then some ⟨"", String.ofList name⟩ else none
  | [space, name] =>
    if startsName name && (space.isEmpty || startsName space) then
      some ⟨String.ofList space, String.ofList name⟩
    else none
  | _ => none

def readName (cs : List Char) : Option (QualifiedName × List Char) :=
  (QualifiedName.ofChars (cs.takeWhile isNameChar)).map fun n => (n, cs.dropWhile isNameChar)

def readValue : List Char → Option (List Char × List Char)
  | '"' :: cs => (until? "\"" cs).filter fun (value, _) => !value.contains '<'
  | '\'' :: cs => (until? "'" cs).filter fun (value, _) => !value.contains '<'
  | _ => none

def readAttribute (cs : List Char) : Option ((QualifiedName × List Char) × List Char) := do
  let (name, cs) ← readName cs
  let cs ← after? "=" (skipSpaces cs)
  let (value, cs) ← readValue (skipSpaces cs)
  return ((name, value), cs)

def readAttributes (fuel : Nat) (cs : List Char) :
    Option (List (QualifiedName × String) × Bool × List Char) :=
  match fuel with
  | 0 => none
  | fuel + 1 =>
    match skipSpaces cs with
    | '/' :: '>' :: rest => some ([], true, rest)
    | '>' :: rest => some ([], false, rest)
    | inner =>
      if cs.head?.any isSpace then do
        let ((name, value), rest) ← readAttribute inner
        let value := String.ofList (attributeText (← references value))
        let (attributes, closed, rest) ← readAttributes fuel rest
        return ((name, value) :: attributes, closed, rest)
      else none

def readTag (fuel : Nat) (cs : List Char) : Option (Token × List Char) :=
  match cs with
  | '/' :: cs => do
    let (name, cs) ← readName cs
    let cs ← after? ">" (skipSpaces cs)
    return (.closeTag name, cs)
  | cs => do
    let (name, cs) ← readName cs
    let (attributes, closed, cs) ← readAttributes fuel cs
    return (.openTag name attributes closed, cs)

def readComment (cs : List Char) : Option (Token × List Char) :=
  match until? "-->" cs with
  | none => none
  | some (text, rest) =>
    if hasLiteral "--" text || text.getLast? == some '-' then none else some (.aside, rest)

def readInstruction (cs : List Char) : Option (Token × List Char) :=
  if (after? "xml " cs).isSome || !startsName cs then none
  else (until? "?>" (skipSpaces (cs.dropWhile isNameChar))).map fun (_, rest) => (.aside, rest)

def readText (cs : List Char) : Option (Token × List Char) :=
  let text := cs.takeWhile (· != '<')
  if text.all isAllowed && !hasLiteral "]]>" text then
    (characterData text).map fun t => (.text (String.ofList t), cs.dropWhile (· != '<'))
  else none

def readLiteral (cs : List Char) : Option (Token × List Char) :=
  (until? "]]>" cs).map fun (text, rest) => (.text (String.ofList (literalData text)), rest)

def readMarkup (fuel : Nat) (cs : List Char) : Option (Token × List Char) :=
  match cs with
  | '<' :: '!' :: '-' :: '-' :: rest => readComment rest
  | '<' :: '?' :: rest => readInstruction rest
  | '<' :: '!' :: _ => none
  | '<' :: rest => readTag fuel rest
  | _ => none

def readContent (fuel : Nat) (cs : List Char) : Option (Token × List Char) :=
  match cs with
  | '<' :: _ =>
    match after? "<![CDATA[" cs with
    | some rest => readLiteral rest
    | none => readMarkup fuel cs
  | _ => readText cs

inductive Place where
  | before
  | inside (depth : Nat)
  | behind
deriving DecidableEq, Repr

def Place.advance : Place → Token → Option Place
  | .before, .openTag _ _ closed => some (if closed then .behind else .inside 0)
  | .before, .closeTag _ => none
  | .behind, .openTag .. => none
  | .behind, .closeTag _ => none
  | .inside d, .openTag _ _ closed => some (.inside (if closed then d else d + 1))
  | .inside 0, .closeTag _ => some .behind
  | .inside (d + 1), .closeTag _ => some (.inside d)
  | p, _ => some p

def Place.read (p : Place) (fuel : Nat) (cs : List Char) : Option (Token × List Char) :=
  match p with
  | .inside _ => readContent fuel cs
  | _ => readMarkup fuel cs

def readTokens (fuel : Nat) (p : Place) (cs : List Char) : Option (List Token) :=
  match fuel with
  | 0 => none
  | fuel + 1 =>
    let cs := match p with
      | .inside _ => cs
      | _ => skipSpaces cs
    match cs with
    | [] => if p = .behind then some [] else none
    | cs => do
      let (token, rest) ← p.read (fuel + 1) cs
      let tokens ← readTokens fuel (← p.advance token) rest
      return token :: tokens

def skipDeclaration (cs : List Char) : Option (List Char) :=
  match after? "<?xml " cs with
  | none => some cs
  | some cs => do
    let spaced (cs : List Char) : Option (List Char) :=
      if cs.head?.any isSpace || (after? "?>" cs).isSome then some (skipSpaces cs) else none
    let optional (word : String) (cs : List Char) : Option (List Char) :=
      if (after? word cs).isSome then (readAttribute cs).map Prod.snd else some cs
    let cs := skipSpaces cs
    let _ ← after? "version" cs
    let (_, cs) ← readAttribute cs
    let cs ← spaced cs
    let cs ←
      if (after? "encoding" cs).isSome then (optional "encoding" cs).bind spaced else some cs
    let cs ← optional "standalone" cs
    after? "?>" (skipSpaces cs)

def tokens (cs : List Char) : Option (List Token) :=
  let cs := if cs.head? = some '\uFEFF' then cs.drop 1 else cs
  (skipDeclaration cs).bind fun cs => readTokens (cs.length + 1) .before cs

end SeaChart.Markup
