import SeaChart.Artwork.Sprite
import SeaChart.Plotter.Stroke

namespace SeaChart

structure Drawing where
  name : String
  description : Option String
  pens : List (Char × String)
  size : Int × Int
  pivot : Int × Int
  commands : String
deriving DecidableEq, Repr

namespace Drawing

def readPens : List Char → List (Char × String)
  | pen :: a :: b :: c :: d :: e :: rest => (pen, String.ofList [a, b, c, d, e]) :: readPens rest
  | _ => []

def strokes (d : Drawing) : List Plotter.Stroke :=
  Plotter.strokes d.commands

def penColor? (d : Drawing) (pen : Char) : Option String :=
  d.pens.lookup pen

def mainColor? (d : Drawing) : Option String :=
  d.pens.head?.map Prod.snd

def ofMarkup? (n : Markup.Node) : Option Drawing := do
  let name ← n.childText? "name"
  let vector ← n.child? "vector"
  let commands ← (n.elements "HPGL").head?.bind (·.text?)
  let size ← vector.extent?
  let pens := ((n.childText? "color-ref").map fun s => readPens (Text.trim s.toList)).getD []
  return {
    name
    description := n.childText? "description"
    pens
    size
    pivot := (vector.position? "pivot").getD (0, 0)
    commands }

end Drawing

end SeaChart
