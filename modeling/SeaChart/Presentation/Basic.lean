import SeaChart.Artwork.FillPattern
import SeaChart.Event
import SeaChart.Palette
import SeaChart.Procedure.Basic
import SeaChart.Text.Displayed

namespace SeaChart

structure Presentation where
  palettes : Dictionary Palette
  activePalette : String
  sprites : Dictionary Sprite
  lineStyles : Dictionary Drawing
  patterns : Dictionary FillPattern
  points : Dictionary (List Rule)
  lines : Dictionary (List Rule)
  areas : Dictionary (List Rule)
deriving Inhabited

namespace Presentation

def ruleTable (p : Presentation) : Geometry → Dictionary (List Rule)
  | .point => p.points
  | .line => p.lines
  | .area => p.areas

def rules (p : Presentation) (geometry : Geometry) (feature : String) : List Rule :=
  ((p.ruleTable geometry).find? feature).getD []

def color? (p : Presentation) (name : String) : Option Color :=
  (p.palettes.find? p.activePalette).bind (·.color? name)

def color (p : Presentation) (name : String) : Color :=
  (p.color? name).getD .missing

def ink (p : Presentation) (name : String) : String :=
  (p.color name).hex

def withPalette (p : Presentation) (name : String) : Presentation :=
  { p with activePalette := name }

def paletteLog (p : Presentation) (name : String) : Log :=
  if p.palettes.contains name then []
  else [.warning ("color table " ++ name ++ " is not defined")]

def colorLog (p : Presentation) (names : List String) : Log :=
  (names.filter fun n => (p.color? n).isNone).map fun n =>
    .warning ("color " ++ Text.displayed n ++ " missing from table " ++ p.activePalette)

theorem rules_withPalette (p : Presentation) (name : String) (g : Geometry) (feature : String) :
    (p.withPalette name).rules g feature = p.rules g feature := by
  cases g <;> rfl

end Presentation

end SeaChart
