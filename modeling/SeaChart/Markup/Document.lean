import SeaChart.Markup.Node
import SeaChart.Markup.Token

/-!
Building the tree of a document from its tokens. Tags must match by their written names, prefixes
must be declared and attributes must differ.
-/

namespace SeaChart.Markup

def standardNamespace (path : List String) : String :=
  String.intercalate "/" (["http:", "", "www.w3.org"] ++ path)

def xmlNamespace : String := standardNamespace ["XML", "1998", "namespace"]

def declarationNamespace : String := standardNamespace ["2000", "xmlns", ""]

abbrev Scope := List (String × String)

def declarations (own : Scope) : List (QualifiedName × String) → Option Scope
  | [] => some own
  | (n, uri) :: rest =>
    if n.space = "xmlns" then
      if uri = declarationNamespace ∨ ¬(n.name = "xml" ↔ uri = xmlNamespace) ∨
          (own.lookup n.name).isSome then none
      else if n.name = "xml" then declarations own rest
      else declarations (own ++ [(n.name, uri)]) rest
    else if n.name = "xmlns" then
      if uri = xmlNamespace ∨ uri = declarationNamespace then none
      else declarations (own ++ [("", uri)]) rest
    else declarations own rest

def isDeclaration (n : QualifiedName) : Bool :=
  n.space == "xmlns" || n.name == "xmlns"

def attributeNamespace (scope : Scope) (n : QualifiedName) : Option (Option String) :=
  if n.space = "" then some none
  else if n.space = "xml" then some (some xmlNamespace)
  else (scope.lookup n.space).map some

def resolveAttributes (scope : Scope) :
    List (QualifiedName × String) → Option (List ((Option String × String) × String))
  | [] => some []
  | (n, value) :: rest => do
    let rest ← resolveAttributes scope rest
    if isDeclaration n then return rest
    let uri ← attributeNamespace scope n
    let key := (uri, n.name)
    if (rest.lookup key).isSome then none else return (key, value) :: rest

structure Frame where
  name : QualifiedName
  attributes : List (String × String)
  scope : Scope
  children : List Node

def addChild (children : List Node) (child : Node) : List Node :=
  match child, children with
  | .text t, .text s :: rest => .text (s ++ t) :: rest
  | _, _ => child :: children

def Frame.close (f : Frame) : Node :=
  .element f.name.name f.attributes f.children.reverse

def openFrame (outer : Scope) (name : QualifiedName) (attributes : List (QualifiedName × String)) :
    Option Frame := do
  let own ← declarations [] attributes
  let scope := own ++ outer
  let resolved ← resolveAttributes scope attributes
  let plain := resolved.filterMap fun ((uri, key), value) =>
    if uri = none then some (key, value) else none
  if name.space = "xmlns" ∨ (name.space ≠ "" ∧ (scope.lookup name.space).isNone) then none
  else return { name, attributes := plain, scope, children := [] }

/-- Builds from the open elements, the innermost first; the root is returned when it is closed. -/
def build (frames : List Frame) : List Token → Option Node
  | [] => none
  | token :: tokens =>
    match token, frames with
    | .openTag name attributes closed, _ =>
      match openFrame ((frames.head?.map (·.scope)).getD []) name attributes with
      | none => none
      | some frame =>
        if closed then
          match frames with
          | [] => some frame.close
          | f :: fs => build ({ f with children := addChild f.children frame.close } :: fs) tokens
        else build (frame :: frames) tokens
    | .closeTag name, f :: fs =>
      if name ≠ f.name then none
      else
        match fs with
        | [] => some f.close
        | g :: gs => build ({ g with children := addChild g.children f.close } :: gs) tokens
    | .closeTag _, [] => none
    | .text t, f :: fs => build ({ f with children := addChild f.children (.text t) } :: fs) tokens
    | .text _, [] => none
    | .aside, f :: fs => build ({ f with children := addChild f.children .aside } :: fs) tokens
    | .aside, [] => build [] tokens

def readDocument (text : String) : Option Node :=
  (tokens text.toList).bind (build [])

end SeaChart.Markup
