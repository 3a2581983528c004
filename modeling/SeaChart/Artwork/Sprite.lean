import SeaChart.Markup.Node
import SeaChart.Text.Blank
import SeaChart.Text.Numeral

namespace SeaChart

namespace Markup.Node

def int? (n : Node) (key : String) : Option Int :=
  (n.attribute? key).bind fun value => Text.readInt32 (Text.trimmed value)

def position? (n : Node) (name : String) : Option (Int × Int) := do
  let p ← n.child? name
  return (← p.int? "x", ← p.int? "y")

def extent? (n : Node) : Option (Int × Int) := do
  return (← n.int? "width", ← n.int? "height")

end Markup.Node

structure Sprite where
  name : String
  pivot : Int × Int
  size : Int × Int
  location : Option (Int × Int)
deriving DecidableEq, Repr

namespace Sprite

def offset (s : Sprite) : Int × Int :=
  (s.size.1.tdiv 2 - s.pivot.1, s.size.2.tdiv 2 - s.pivot.2)

def ofBitmap? (name : String) (bitmap : Markup.Node) : Option Sprite := do
  let pivot ← bitmap.position? "pivot"
  let size ← bitmap.extent?
  return { name, pivot, size, location := bitmap.position? "graphics-location" }

def ofMarkup? (n : Markup.Node) : Option Sprite := do
  let name ← n.childText? "name"
  ofBitmap? name (← n.child? "bitmap")

end Sprite

end SeaChart
