import SeaChart.Mapfile.Style

namespace SeaChart

open Mapfile
open Mapfile.Stanza (entry quoted)

structure Layer where
  name : String
  feature : String
  geometry : Geometry
  group : String
  data : String
  maxScale : Nat
  /-- Attributes that the data have, in capitals; `none` if they are not known. -/
  fields : Option (List String)
  rules : List Rule
  describesLights : Bool

namespace Layer

def capitals (s : String) : String :=
  String.ofList (s.toList.map Char.toUpper)

def hasField (fields : Option (List String)) (acronym : String) : Bool :=
  match fields with
  | none => true
  | some names => names.contains acronym

def isApplicable (fields : Option (List String)) (r : Rule) : Bool :=
  r.condition.attributes.all (hasField fields)

def byCount (r s : Rule) : Bool :=
  s.condition.count ≤ r.condition.count

def classOrder (fields : Option (List String)) (rules : List Rule) : List Rule :=
  (rules.filter (isApplicable fields)).mergeSort byCount

def ofFeature (p : Presentation) (level feature : String) (geometry : Geometry) (group : String)
    (maxScale : Nat) (fields : Option (List String)) : Layer :=
  let fields := fields.map (·.map capitals)
  let name := level ++ "-" ++ geometry.name ++ "-" ++ feature
  { name
    feature
    geometry
    group
    data := level ++ "/" ++ name
    maxScale
    fields
    rules := classOrder fields (p.rules geometry feature)
    describesLights := geometry = .point ∧ feature = "LIGHTS" }

def isEmpty (l : Layer) : Bool :=
  l.rules.isEmpty

def priority (l : Layer) : DisplayPriority :=
  (l.rules.map Rule.effectivePriority).foldl DisplayPriority.higher .noData

def canDraw (l : Layer) (i : Instruction) : Bool :=
  i.acronyms.all (hasField l.fields)

def lightCharacteristics : List (String × String) :=
  [("SIGGRP", ""), ("SIGPER", "s"), ("VALNMR", "M")]

def lightDescription (l : Layer) : Option String :=
  let known := lightCharacteristics.filter fun (a, _) => hasField l.fields a
  if known.isEmpty then none
  else
    let parts := known.map fun (a, unit) => Condition.substituted a ++ unit
    some (Text.singleQuoted (String.intercalate " " parts))

def lightLabel (description : String) : Stanza :=
  .block "LABEL"
    [entry "TEXT" description,
      quoted "FONT" "sc",
      entry "SIZE" "8",
      .color "COLOR" "CHBLK",
      entry "POSITION" "cr",
      .line "OFFSET 10 0",
      entry "PARTIALS" "FALSE"]

def lightStanzas (l : Layer) : List Stanza :=
  if l.describesLights then l.lightDescription.toList.map lightLabel else []

def expressionStanzas (c : Condition) : List Stanza :=
  if c.isTrivial then [] else [entry "EXPRESSION" c.expression]

def classStanza (p : Presentation) (l : Layer) (r : Rule) : Stanza :=
  .block "CLASS"
    (quoted "NAME" (l.feature ++ " " ++ r.id) ::
      (expressionStanzas r.condition ++
        (r.instructions.filter l.canDraw).flatMap (·.stanzas p l.geometry) ++
        l.lightStanzas))

def classes (p : Presentation) (l : Layer) : List Stanza :=
  l.rules.map (l.classStanza p)

def metadata (l : Layer) : Stanza :=
  .block "METADATA"
    [.line ("\"ows_title\" \"" ++ l.feature ++ "\""),
      .line "\"gml_include_items\" \"all\"",
      .line "\"wms_feature_mime_type\" \"text/html\""]

def stanzas (p : Presentation) (l : Layer) : List Stanza :=
  if l.isEmpty then []
  else
    [.block "LAYER"
      ([quoted "NAME" l.name,
        quoted "GROUP" l.group,
        entry "TYPE" l.geometry.layerType,
        entry "STATUS" "ON",
        entry "MAXSCALEDENOM" (Text.natText l.maxScale),
        quoted "DATA" l.data,
        l.metadata] ++ l.classes p)]

end Layer

end SeaChart
