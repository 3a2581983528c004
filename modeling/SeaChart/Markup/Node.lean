namespace SeaChart.Markup

inductive Node where
  | element (name : String) (attributes : List (String × String)) (children : List Node)
  | text (text : String)
  | aside
deriving Repr, Inhabited

namespace Node

def name : Node → String
  | .element n _ _ => n
  | _ => ""

def children : Node → List Node
  | .element _ _ cs => cs
  | _ => []

def isElement (n : Node) (name : String) : Bool :=
  match n with
  | .element m _ _ => m == name
  | _ => false

def attribute? (n : Node) (key : String) : Option String :=
  match n with
  | .element _ attributes _ => attributes.lookup key
  | _ => none

def text? : Node → Option String
  | .element _ _ (.text t :: _) => some t
  | _ => none

def child? (n : Node) (name : String) : Option Node :=
  n.children.find? (·.isElement name)

def childText? (n : Node) (name : String) : Option String :=
  (n.child? name).map fun c => c.text?.getD ""

mutual

def descendants : Node → List Node
  | .element n as cs => .element n as cs :: descendantsOfAll cs
  | other => [other]

def descendantsOfAll : List Node → List Node
  | [] => []
  | c :: cs => descendants c ++ descendantsOfAll cs

end

def elements (n : Node) (name : String) : List Node :=
  n.descendants.filter (·.isElement name)

end Node

end SeaChart.Markup
