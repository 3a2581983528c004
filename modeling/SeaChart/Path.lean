/-!
Paths of files. A path is kept as it was written; its components are what it means.
-/

namespace SeaChart

structure Path where
  text : String
deriving DecidableEq, Repr, Inhabited

namespace Path

inductive Component where
  | root
  | current
  | parent
  | name (name : String)
deriving DecidableEq, Repr

def pieces (p : Path) : List String :=
  (p.text.toList.splitOn '/').map String.ofList

def piecesAbove (p : Path) : List String :=
  ((p.pieces.reverse.dropWhile (· = "")).drop 1).reverse

def isAbsolute (p : Path) : Bool :=
  p.text.toList.head? == some '/'

def ofPiece? (piece : String) : Option Component :=
  if piece = "" ∨ piece = "." then none
  else if piece = ".." then some .parent
  else some (.name piece)

def components (p : Path) : List Component :=
  let inner := p.pieces.filterMap ofPiece?
  if p.isAbsolute then .root :: inner
  else if p.pieces.head? = some "." then .current :: inner
  else inner

def Component.text : Component → String
  | .root => "/"
  | .current => "."
  | .parent => ".."
  | .name n => n

def ofComponents (cs : List Component) : Path :=
  match cs with
  | .root :: rest => ⟨"/" ++ String.intercalate "/" (rest.map Component.text)⟩
  | cs => ⟨String.intercalate "/" (cs.map Component.text)⟩

def join (base p : Path) : Path :=
  if p.isAbsolute then p
  else if base.text = "" ∨ base.text.toList.getLast? = some '/' then ⟨base.text ++ p.text⟩
  else ⟨base.text ++ "/" ++ p.text⟩

def below (base : Path) (name : String) : Path :=
  base.join ⟨name⟩

def fileName? (p : Path) : Option String :=
  match p.components.getLast? with
  | some (.name n) => some n
  | _ => none

def parent? (p : Path) : Option Path :=
  match p.components.getLast? with
  | none => none
  | some .root => none
  | some _ => some (ofComponents p.components.dropLast)

def push (stack : List Component) : Component → List Component
  | .current => stack
  | .parent =>
    match stack with
    | .name _ :: rest => rest
    | .root :: rest => .root :: rest
    | stack => .parent :: stack
  | .root => [.root]
  | .name n => .name n :: stack

def normalComponents (cs : List Component) : List Component :=
  (cs.foldl push []).reverse

def normalize (p : Path) : Path :=
  ofComponents (normalComponents p.components)

def relativeTo (base p : Path) : Path :=
  (base.join p).normalize

def endingIn (p : Path) (directory : String) : Path :=
  if p.fileName? = some directory then p else p.below directory

instance : ToString Path := ⟨Path.text⟩

end Path

end SeaChart
