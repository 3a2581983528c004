import SeaChart.Artwork.Drawing

namespace SeaChart

inductive Arrangement where
  | staggered
  | linear
deriving DecidableEq, Repr

inductive Motif where
  | drawing (drawing : Drawing)
  | sprite (sprite : Sprite)
deriving DecidableEq, Repr

def Motif.size : Motif → Int × Int
  | .drawing d => d.size
  | .sprite s => s.size

structure FillPattern where
  name : String
  arrangement : Arrangement
  /-- Least distance between two copies, in hundredths of a millimetre. -/
  distance : Int
  motif : Motif
deriving DecidableEq, Repr

namespace FillPattern

def size (p : FillPattern) : Int × Int :=
  p.motif.size

def hasWord (n : Markup.Node) (name text : String) : Bool :=
  (n.childText? name).any fun t => Text.trimmed t == text

def ofMarkup? (n : Markup.Node) : Option FillPattern := do
  let name ← n.childText? "name"
  let (motif, frame) ←
    if hasWord n "definition" "R" then do
      let bitmap ← n.child? "bitmap"
      let sprite ← Sprite.ofBitmap? name bitmap
      pure (Motif.sprite sprite, bitmap)
    else do
      let drawing ← Drawing.ofMarkup? n
      let vector ← n.child? "vector"
      pure (Motif.drawing drawing, vector)
  return {
    name
    arrangement := if hasWord n "filltype" "S" then .staggered else .linear
    distance := ((frame.child? "distance").bind (·.int? "min")).getD 0
    motif }

end FillPattern

end SeaChart
