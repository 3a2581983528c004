import SeaChart.Plotter.Stroke

namespace SeaChart.Plotter

open Text

def penLift : String := "-99 -99"

def hundredths (x pivot : Int) : Int :=
  let n := 25 * (x - pivot)
  let magnitude : Int := Binary64.roundHalfUp n.natAbs 8
  if n < 0 then -magnitude else magnitude

def hundredthsText (n : Int) : String :=
  let m := n.natAbs
  let places :=
    if m % 100 = 0 then ""
    else if m % 10 = 0 then "." ++ natText (m % 100 / 10)
    else if m % 100 < 10 then ".0" ++ natText (m % 100)
    else "." ++ natText (m % 100)
  (if n < 0 then "-" else "") ++ natText (m / 100) ++ places

def pointText (pivot p : Position) : String :=
  hundredthsText (hundredths p.1 pivot.1) ++ " " ++ hundredthsText (hundredths p.2 pivot.2)

def strokeText (pivot : Position) (s : Stroke) : String :=
  String.intercalate " " (s.points.map (pointText pivot))

def pointsText (pivot : Position) (strokes : List Stroke) : String :=
  String.intercalate (" " ++ penLift ++ " ") (strokes.map (strokeText pivot))

end SeaChart.Plotter
