import SeaChart.Mapfile.Layer

namespace SeaChart

open Mapfile

namespace RuleSet

def colorLine (name : String) (c : Color) : String :=
  name ++ " " ++ c.channels ++ " " ++ String.ofList c.hexDigits ++ "\n"

def paletteText (p : Palette) : String :=
  String.join (p.colors.entries.map fun (name, c) => colorLine name c)

def paletteFiles (p : Presentation) : List (String × String) :=
  p.palettes.entries.map fun (name, palette) => (name ++ ".txt", paletteText palette)

def layerOf (p : Presentation) (geometry : Geometry) (feature : String) : Layer :=
  Layer.ofFeature p "rules" feature geometry "rules" 0 none

def featureStanzas (p : Presentation) (geometry : Geometry) (feature : String) : List Stanza :=
  let l := layerOf p geometry feature
  .line ("# " ++ feature ++ " (" ++ l.priority.name ++ ")") :: (l.classes p ++ [.blank])

def stanzas (p : Presentation) (geometry : Geometry) : List Stanza :=
  (p.ruleTable geometry).keys.flatMap (featureStanzas p geometry)

def geometries : List Geometry := [.point, .line, .area]

def layerFileName (geometry : Geometry) : String :=
  geometry.name ++ ".txt"

def layerText (p : Presentation) (geometry : Geometry) : String :=
  Stanza.write p.ink 0 (stanzas p geometry)

def log (p : Presentation) (geometry : Geometry) : Log :=
  p.colorLog (Stanza.colorsOfAll (stanzas p geometry))

end RuleSet

end SeaChart
