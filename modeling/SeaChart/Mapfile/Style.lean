import SeaChart.Condition.Expression
import SeaChart.Instruction.Template
import SeaChart.Mapfile.Stanza
import SeaChart.Presentation.Basic

namespace SeaChart

open Mapfile
open Mapfile.Stanza (entry)

def unitsPerPixel : Int := 32

def pixels (length : Int) : Int :=
  max (length.tdiv unitsPerPixel) 1

def offsetLine (x y : String) : Stanza :=
  .line ("OFFSET " ++ x ++ " " ++ y)

namespace Rotation

def stanza : Rotation → Stanza
  | .fixed angle => entry "ANGLE" angle.text
  | .byAttribute a => entry "ANGLE" (Condition.substituted a)

def stanzas (r : Option Rotation) : List Stanza :=
  (r.map stanza).toList

end Rotation

def LineStyle.dashes : LineStyle → Option String
  | .solid => none
  | .dashed => some "12 6"
  | .dotted => some "2 4"

def LineStyle.stanzas (s : LineStyle) : List Stanza :=
  match s.dashes with
  | none => []
  | some dashes => [.line ("PATTERN " ++ dashes ++ " END"), entry "LINECAP" "BUTT"]

namespace Label

def offsetStanzas (l : Label) : List Stanza :=
  let size := Binary64.ofNat l.size
  let x := l.offset.1.mul size
  let y := l.offset.2.mul size
  if x.isZero && y.isZero then [] else [offsetLine x.round.text y.round.text]

def stanza (l : Label) (geometry : Geometry) : Stanza :=
  .block "LABEL"
    ([entry "TEXT" l.wording.quoted,
      Stanza.quoted "FONT" (if l.bold then "sc-bold" else "sc"),
      entry "SIZE" (Text.natText l.size),
      .color "COLOR" l.color,
      entry "POSITION" l.position] ++
    l.offsetStanzas ++
    (if geometry = .line then [entry "ANGLE" "FOLLOW"] else []) ++
    [entry "PARTIALS" "FALSE"])

end Label

def Sprite.offsetStanzas (s : Sprite) : List Stanza :=
  if s.offset = (0, 0) then []
  else [offsetLine (Text.intText s.offset.1) (Text.intText s.offset.2)]

namespace Drawing

def inkName (d : Drawing) : String :=
  d.mainColor?.getD ""

def lineStanza (d : Drawing) (name : String) : Geometry → Stanza
  | .area =>
    .block "STYLE"
      [.color "OUTLINECOLOR" d.inkName, entry "WIDTH" "1", .line "PATTERN 10 5 END"]
  | _ =>
    .block "STYLE"
      [Stanza.quoted "SYMBOL" name,
        .color "COLOR" d.inkName,
        entry "SIZE" (Text.intText (pixels d.size.2)),
        entry "GAP" (Text.intText (-pixels d.size.1))]

end Drawing

namespace FillPattern

def motifStanzas (p : FillPattern) : List Stanza :=
  match p.motif with
  | .drawing d =>
    [.color "COLOR" d.inkName,
      entry "SIZE" (Text.intText (pixels d.size.2)),
      entry "GAP" (Text.intText (pixels (d.size.1 + p.distance)))]
  | .sprite s => [entry "SIZE" (Text.intText s.size.2)]

def stanza (p : FillPattern) (name : String) (rotation : Option Rotation) : Stanza :=
  .block "STYLE"
    (Stanza.quoted "SYMBOL" name :: (p.motifStanzas ++ Rotation.stanzas rotation))

end FillPattern

namespace Instruction

def symbolStanza (p : Presentation) (name : String) (rotation : Option Rotation)
    (geometry : Geometry) : Stanza :=
  .block "STYLE"
    (Stanza.quoted "SYMBOL" name ::
      ((p.sprites.find? name).toList.flatMap Sprite.offsetStanzas ++
        Rotation.stanzas rotation ++
        if geometry = .area then [Stanza.quoted "GEOMTRANSFORM" "centroid"] else []))

def simpleLineStanza (style : LineStyle) (width : Nat) (color : String) (geometry : Geometry) :
    Stanza :=
  .block "STYLE"
    ([.color (if geometry = .area then "OUTLINECOLOR" else "COLOR") color,
      entry "WIDTH" (Text.natText width)] ++ style.stanzas)

def areaColorStanza (color : String) (transparency : Nat) : Stanza :=
  .block "STYLE"
    (.color "COLOR" color ::
      if transparency = 0 then []
      else [entry "OPACITY" (Text.natText (100 - 25 * transparency))])

def stanzas (p : Presentation) (geometry : Geometry) : Instruction → List Stanza
  | .symbol name rotation => [symbolStanza p name rotation geometry]
  | .simpleLine style width color => [simpleLineStanza style width color geometry]
  | .complexLine name => (p.lineStyles.find? name).toList.map fun d => d.lineStanza name geometry
  | .areaColor color transparency => [areaColorStanza color transparency]
  | .areaPattern name rotation => (p.patterns.find? name).toList.map fun f => f.stanza name rotation
  | .label l => [l.stanza geometry]
  | .procedure _ => []
  | .unknown _ => []

end Instruction

end SeaChart
