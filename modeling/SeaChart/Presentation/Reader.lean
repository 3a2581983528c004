import SeaChart.Markup.Document
import SeaChart.Presentation.Basic
import SeaChart.Procedure.Expansion

/-!
Reading a presentation library from its document. Elements that lack something are left out.
-/

namespace SeaChart

structure Selection where
  pointTable : String := "Simplified"
  areaTable : String := "Plain"
  categories : Option (List String) := none
  palette : String := "DAY_BRIGHT"
  excluded : Option (List String) := none
  settings : MarinerSettings := {}
deriving Inhabited

namespace Selection

def lineTable : String := "Lines"

def usuallyExcluded : List String := ["M_QUAL"]

def excludes (s : Selection) (feature : String) : Bool :=
  (s.excluded.getD usuallyExcluded).contains feature

def acceptsTable (s : Selection) (table : String) : Bool :=
  table == s.pointTable || table == s.areaTable || table == lineTable

def acceptsCategory (s : Selection) (category : String) : Bool :=
  match s.categories with
  | none => true
  | some categories => categories.contains category

end Selection

namespace Color

def channel? (n : Markup.Node) (key : String) : Option UInt8 :=
  (n.attribute? key).bind fun value => (Text.readByte (Text.trimmed value)).map UInt8.ofNat

def ofMarkup? (n : Markup.Node) : Option (String × Color) := do
  let name ← n.attribute? "name"
  return (name, ⟨← channel? n "r", ← channel? n "g", ← channel? n "b"⟩)

end Color

def Palette.ofMarkup? (n : Markup.Node) : Option Palette := do
  let name ← n.attribute? "name"
  return {
    name
    spriteSheet := (n.child? "graphics-file").bind (·.attribute? "name")
    colors := .ofList ((n.elements "color").filterMap Color.ofMarkup?) }

structure RuleElement where
  feature : String
  id : String
  geometry : String
  table : String
  category : String
  comment : String
  instructions : String
  condition : Condition
  priority : String

namespace RuleElement

def ofMarkup? (n : Markup.Node) : Option RuleElement := do
  let codes := (n.children.filter (·.isElement "attrib-code")).filterMap (·.text?)
  return {
    feature := ← n.attribute? "name"
    id := (n.attribute? "id").getD ""
    geometry := ← n.childText? "type"
    table := ← n.childText? "table-name"
    category := ← n.childText? "display-cat"
    comment := ← n.childText? "comment"
    instructions := ← n.childText? "instruction"
    condition := .both (codes.map Condition.ofCode)
    priority := ← n.childText? "disp-prio" }

def isSelected (e : RuleElement) (s : Selection) : Bool :=
  !s.excludes e.feature && s.acceptsTable (Text.trimmed e.table) &&
    s.acceptsCategory (Text.trimmed e.category)

def unknownPriority (e : RuleElement) : Event :=
  .warning ("lookup " ++ e.id ++ " (" ++ e.feature ++ ") has unknown display priority " ++
    Text.displayed e.priority)

def base (e : RuleElement) (priority : DisplayPriority) : Rule where
  id := e.id
  table := Text.trimmed e.table
  display := Text.trimmed e.category
  comment := Text.trimmed e.comment
  condition := e.condition
  priority := some priority

def rules? (settings : MarinerSettings) (e : RuleElement) : Option (Geometry × List Rule) := do
  let priority ← DisplayPriority.read e.priority
  let geometry ← Geometry.read e.geometry
  return (geometry, Rule.expand settings geometry e.feature (e.base priority) e.instructions)

def log (e : RuleElement) : Log :=
  if (DisplayPriority.read e.priority).isNone then [e.unknownPriority] else []

end RuleElement

namespace Presentation

def carriedSounding : String := "X-SNDG"

def carriedSoundingRules (s : Selection) : List Rule :=
  let base : Rule :=
    { id := carriedSounding
      table := s.pointTable
      comment := "non-SOUNDG features with sounding"
      priority := some .areaSymbol }
  Rule.product [base] (Procedure.alternatives s.settings "SOUNDG" .point carriedSounding)

def selectedElements (s : Selection) (root : Markup.Node) : List RuleElement :=
  ((root.elements "lookup").filterMap RuleElement.ofMarkup?).filter (·.isSelected s)

def addRules (table : Dictionary (List Rule)) (feature : String) (rules : List Rule) :
    Dictionary (List Rule) :=
  table.insert feature ((table.find? feature).getD [] ++ rules)

def compiled (settings : MarinerSettings) (elements : List RuleElement) :
    List (Geometry × String × List Rule) :=
  elements.filterMap fun e => (e.rules? settings).map fun (g, rules) => (g, e.feature, rules)

def tableOf (geometry : Geometry) (rules : List (Geometry × String × List Rule)) :
    Dictionary (List Rule) :=
  (rules.filter fun (g, _) => g = geometry).foldl
    (fun table (_, feature, rules) => addRules table feature rules) .empty

theorem tableOf_eq_foldl (geometry : Geometry) (rules : List (Geometry × String × List Rule)) :
    tableOf geometry rules = (rules.filter fun c => c.1 = geometry).foldl
      (fun table c => addRules table c.2.1 c.2.2) .empty :=
  rfl

def artwork {α : Type} (root : Markup.Node) (name : String) (read : Markup.Node → Option α)
    (nameOf : α → String) : Dictionary α :=
  .ofList (((root.elements name).filterMap read).map fun a => (nameOf a, a))

def ofRoot (s : Selection) (root : Markup.Node) : Presentation :=
  let rules := compiled s.settings (selectedElements s root)
  let points := tableOf .point rules
  { palettes := artwork root "color-table" Palette.ofMarkup? (·.name)
    activePalette := s.palette
    sprites := artwork root "symbol" Sprite.ofMarkup? (·.name)
    lineStyles := artwork root "line-style" Drawing.ofMarkup? (·.name)
    patterns := artwork root "pattern" FillPattern.ofMarkup? (·.name)
    points :=
      if s.excludes carriedSounding then points
      else points.insert carriedSounding (carriedSoundingRules s)
    lines := tableOf .line rules
    areas := tableOf .area rules }

def readingLog (s : Selection) (root : Markup.Node) (p : Presentation) : Log :=
  p.paletteLog s.palette ++ (selectedElements s root).flatMap RuleElement.log

inductive ReadError where
  | malformed
  | unexpectedRoot (name : String)
deriving DecidableEq, Repr

def rootName : String := "chartsymbols"

def ReadError.message : ReadError → String
  | .malformed => "chartsymbols XML is malformed"
  | .unexpectedRoot name =>
    "unexpected root element <" ++ name ++ ">, expected <" ++ rootName ++ ">"

def readRoot (text : String) : Except ReadError Markup.Node :=
  match Markup.readDocument text with
  | none => .error .malformed
  | some root => if root.name = rootName then .ok root else .error (.unexpectedRoot root.name)

def read (s : Selection) (text : String) : Except ReadError (Presentation × Log) :=
  (readRoot text).map fun root =>
    let p := ofRoot s root
    (p, readingLog s root p)

end Presentation

end SeaChart
