import SeaChart.Path
import SeaChart.Store.Entry

namespace SeaChart

open Text (Bytes)

inductive FileError where
  | notFound
  | alreadyExists
  | notDirectory
  | isDirectory
  | denied
  | nameTooLong
  | nulInName
  | shortRead
  | invalidText
deriving DecidableEq, Repr

def FileError.message : FileError → String
  | .notFound => "No such file or directory (os error 2)"
  | .alreadyExists => "File exists (os error 17)"
  | .notDirectory => "Not a directory (os error 20)"
  | .isDirectory => "Is a directory (os error 21)"
  | .denied => "Permission denied (os error 13)"
  | .nameTooLong => "File name too long (os error 36)"
  | .nulInName => "file name contained an unexpected NUL byte"
  | .shortRead => "failed to fill whole buffer"
  | .invalidText => "stream did not contain valid UTF-8"

structure Store where
  root : Entry
  workingDirectory : Location := []
deriving Inhabited

namespace Store

def nameLimit : Nat := 255

def pathLimit : Nat := 4095

def textFault (p : Path) : Option FileError :=
  if p.text.toList.contains '\x00' then some .nulInName
  else if p.text = "" then some .notFound
  else if p.text.utf8ByteSize > pathLimit then some .nameTooLong
  else none

def follow (s : Store) (location : Location) (piece : String) : Except FileError Location :=
  match s.root.find? location with
  | none => .error .notFound
  | some (.file _) => .error .notDirectory
  | some (.directory children) =>
    if piece = "" ∨ piece = "." then .ok location
    else if piece = ".." then .ok location.dropLast
    else if piece.utf8ByteSize > nameLimit then .error .nameTooLong
    else if (children.lookup piece).isSome then .ok (location ++ [piece])
    else .error .notFound

def start (s : Store) (p : Path) : Location :=
  if p.isAbsolute then [] else s.workingDirectory

def followAll (s : Store) (p : Path) (pieces : List String) : Except FileError Location :=
  pieces.foldlM s.follow (s.start p)

def locate (s : Store) (p : Path) : Except FileError Location :=
  match textFault p with
  | some e => .error e
  | none => s.followAll p p.pieces

def entry (s : Store) (p : Path) : Except FileError Entry := do
  let location ← s.locate p
  match s.root.find? location with
  | some e => .ok e
  | none => .error .notFound

def contains (s : Store) (p : Path) : Bool :=
  (s.entry p).isOk

def isFile (s : Store) (p : Path) : Bool :=
  match s.entry p with
  | .ok (.file _) => true
  | _ => false

def isDirectory (s : Store) (p : Path) : Bool :=
  match s.entry p with
  | .ok (.directory _) => true
  | _ => false

def absolute (s : Store) (p : Path) : Except FileError Path :=
  (s.locate p).map fun location => ⟨"/" ++ String.intercalate "/" location⟩

def read (s : Store) (p : Path) : Except FileError Bytes := do
  match ← s.entry p with
  | .file contents => .ok contents
  | .directory _ => .error .isDirectory

def readText (s : Store) (p : Path) : Except FileError String := do
  match Text.readUtf8 (← s.read p) with
  | some text => .ok text
  | none => .error .invalidText

def names (s : Store) (p : Path) : Except FileError (List String) := do
  match ← s.entry p with
  | .directory children => .ok (children.map Prod.fst)
  | .file _ => .error .notDirectory

/-- A way to list a directory. A system may refuse to list what is there. -/
abbrev Listing := Store → Path → Except FileError (List String)

def hasEntries (s : Store) (p : Path) (list : Listing := names) : Bool :=
  match list s p with
  | .ok names => !names.isEmpty
  | .error _ => false

def create (s : Store) (p : Path) (e : Entry) : Except FileError Store := do
  let pieces := p.pieces
  let location ← s.followAll p pieces.dropLast
  match pieces.getLast?, s.root.find? location with
  | some name, some (.directory _) =>
    if name = "" ∨ name = "." ∨ name = ".." then .error .notFound
    else .ok { s with root := e.insert (location ++ [name]) s.root }
  | _, some (.file _) => .error .notDirectory
  | _, _ => .error .notFound

def makeDirectory (s : Store) (p : Path) : Except FileError Store :=
  match textFault p with
  | some e => .error e
  | none =>
    match s.followAll p p.pieces with
    | .ok _ => .error .alreadyExists
    | .error .notFound => s.create p (.directory [])
    | .error e => .error e

/--
Makes a directory of the given components, the last one first, and those above it. What is made
before a failure stays.
-/
def makeDirectories (s : Store) : List Path.Component → Except FileError Unit × Store
  | [] => (.ok (), s)
  | c :: above =>
    let p := Path.ofComponents (c :: above).reverse
    match s.makeDirectory p with
    | .ok s => (.ok (), s)
    | .error .notFound =>
      match s.makeDirectories above with
      | (.error e, s) => (.error e, s)
      | (.ok (), s) =>
        match s.makeDirectory p with
        | .ok s => (.ok (), s)
        -- A path that ends in two points is never made, but by now it may lead to a directory.
        | .error e => (if s.isDirectory p then .ok () else .error e, s)
    | .error e => (if s.isDirectory p then .ok () else .error e, s)

def makeDirectoriesAbove (s : Store) (p : Path) : Except FileError Unit × Store :=
  match p.parent? with
  | some directory => s.makeDirectories directory.components.reverse
  | none => (.ok (), s)

def asksForDirectory (p : Path) : Bool :=
  p.pieces.getLast? == some ""

def write (s : Store) (p : Path) (contents : Bytes) : Except FileError Store :=
  match textFault p with
  | some e => .error e
  | none =>
    -- No file has a path that ends in a slash; what is above gives the reason.
    if asksForDirectory p then do
      match s.root.find? (← s.followAll p p.piecesAbove) with
      | some (.file _) => .error .notDirectory
      | _ => .error .isDirectory
    else
      match s.followAll p p.pieces with
      | .ok location =>
        match s.root.find? location with
        | some (.directory _) => .error .isDirectory
        | _ => .ok { s with root := (Entry.file contents).insert location s.root }
      | .error .notFound => s.create p (.file contents)
      | .error e => .error e

/--
Writes a text and makes the directories above it, which stay also if the text cannot be written.
What exists is kept unless `force` is set; tells whether the text was written.
-/
def save (s : Store) (p : Path) (text : String) (force : Bool) : Except FileError Bool × Store :=
  if s.contains p ∧ force = false then (.ok false, s)
  else
    match s.makeDirectoriesAbove p with
    | (.error e, s) => (.error e, s)
    | (.ok (), s) =>
      match s.write p (Text.encodeUtf8 text) with
      | .error e => (.error e, s)
      | .ok s => (.ok true, s)

theorem save_of_contains {s : Store} {p : Path} {text : String} (h : s.contains p = true) :
    s.save p text false = (.ok false, s) := by
  simp [save, h]

def remove (s : Store) (p : Path) : Except FileError Store :=
  (s.locate p).map fun location => { s with root := s.root.erase location }

def filesBelow (s : Store) (location : Location) : List (Location × Bytes) :=
  match s.root.find? location with
  | some e => e.files []
  | none => []

def newDirectories (before after : Store) : List Location :=
  let old := before.root.directories []
  (after.root.directories []).filter fun location => !old.contains location

def changes (before after : Store) (location : Location) : List (Location × Option Bytes) :=
  let old := before.filesBelow location
  let new := after.filesBelow location
  (new.filter fun (l, contents) => old.lookup l ≠ some contents).map
      (fun (l, contents) => (l, some contents)) ++
    (old.filter fun (l, _) => (new.lookup l).isNone).map (fun (l, _) => (l, none))

end Store

end SeaChart
