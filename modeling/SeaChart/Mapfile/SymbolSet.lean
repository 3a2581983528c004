import SeaChart.Mapfile.Stanza
import SeaChart.Plotter.Points
import SeaChart.Presentation.Basic

namespace SeaChart

open Mapfile
open Mapfile.Stanza (entry quoted write)

structure Theme where
  name : String
  palette : String
deriving DecidableEq, Repr

namespace Theme

def day : Theme := ⟨"day", "DAY_BRIGHT"⟩
def dusk : Theme := ⟨"dusk", "DUSK"⟩
def night : Theme := ⟨"night", "NIGHT"⟩

def all : List Theme := [day, dusk, night]

end Theme

namespace SymbolSet

def imageSymbol (t : Theme) (name : String) : Stanza :=
  .block "SYMBOL"
    [quoted "NAME" name,
      entry "TYPE" "PIXMAP",
      quoted "IMAGE" (t.name ++ "/" ++ name ++ ".png")]

def vectorSymbols (name : String) (d : Drawing) : List Stanza :=
  if d.strokes.isEmpty then []
  else
    [.block "SYMBOL"
      [quoted "NAME" name,
        entry "TYPE" "VECTOR",
        .block "POINTS" [.line (Plotter.pointsText d.pivot d.strokes)],
        entry "FILLED" "FALSE"]]

def patternSymbols (t : Theme) (f : FillPattern) : List Stanza :=
  match f.motif with
  | .sprite _ => [imageSymbol t f.name]
  | .drawing d => vectorSymbols f.name d

def stanza (p : Presentation) (t : Theme) : Stanza :=
  .block "SYMBOLSET"
    (p.sprites.values.map (fun s => imageSymbol t s.name) ++
      p.lineStyles.values.flatMap (fun d => vectorSymbols d.name d) ++
      p.patterns.values.flatMap (patternSymbols t))

def text (p : Presentation) (t : Theme) : String :=
  write p.ink 0 [stanza p t]

end SymbolSet

end SeaChart
