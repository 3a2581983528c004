import SeaChart.Number.Decimal
import SeaChart.Text.Pieces

/-!
Vector symbols are drawn by a pen that follows plotter commands, in units of a hundredth of a
millimetre. A run of the commands leaves strokes, the paths along which the pen was down.
-/

namespace SeaChart.Plotter

open Text

abbrev Position := Int × Int

structure Stroke where
  pen : Char
  width : Nat
  points : List Position
deriving DecidableEq, Repr

inductive Command where
  | selectPen (pen : Char)
  | setWidth (width : Nat)
  | penUp (numbers : List Int)
  | penDown (numbers : List Int)
  | circle (numbers : List Int)
deriving DecidableEq, Repr

def readNumbers (s : String) : List Int :=
  (pieces ',' s).filterMap fun p => (Binary64.read (trimmed p)).map Binary64.toInt32

def Command.read (s : String) : Option Command :=
  match splitAtByte 2 s.toList with
  | none => none
  | some (code, rest) =>
    let arguments := String.ofList rest
    match String.ofList code with
    | "SP" => some (.selectPen (rest.headD 'A'))
    | "SW" => some (.setWidth ((readWord (trimmed arguments)).getD 1))
    | "PU" => some (.penUp (readNumbers arguments))
    | "PD" => some (.penDown (readNumbers arguments))
    | "CI" => some (.circle (readNumbers arguments))
    | _ => none

def readCommands (s : String) : List Command :=
  (trimmedPieces ';' s).filterMap Command.read

structure State where
  pen : Char := 'A'
  width : Nat := 1
  position : Position := (0, 0)
  current : Option Stroke := none
  finished : List Stroke := []
deriving Repr

def State.lift (s : State) : State :=
  match s.current with
  | none => s
  | some stroke =>
    { s with
      current := none
      finished := if stroke.points.length ≤ 1 then s.finished else s.finished ++ [stroke] }

def pairs : List Int → List Position
  | x :: y :: ns => (x, y) :: pairs ns
  | _ => []

def lastPair (numbers : List Int) : Option Position :=
  match numbers.reverse with
  | y :: x :: _ => some (x, y)
  | _ => none

/--
Cosines and sines of the sixteenths of a turn, in units of `2 ^ -54`, with the rounding of binary
floating-point arithmetic.
-/
def directions : List (Int × Int) :=
  [(18014398509481984, 0),
    (16643134073412236, 6893811853601123),
    (12738103345051546, 12738103345051544),
    (6893811853601124, 16643134073412236),
    (0, 18014398509481984),
    (-6893811853601122, 16643134073412236),
    (-12738103345051544, 12738103345051546),
    (-16643134073412236, 6893811853601125),
    (-18014398509481984, 0),
    (-16643134073412238, -6893811853601121),
    (-12738103345051548, -12738103345051544),
    (-6893811853601133, -16643134073412232),
    (0, -18014398509481984),
    (6893811853601127, -16643134073412234),
    (12738103345051542, -12738103345051548),
    (16643134073412232, -6893811853601134),
    (18014398509481984, 0)]

def along (center distance direction : Int) : Int :=
  let n := distance * direction
  center + (Binary64.ofFraction (n < 0) n.natAbs (Nat.pow 2 54)).toInt32

def circlePath (center : Position) (radius : Int) : List Position :=
  directions.map fun (x, y) => (along center.1 radius x, along center.2 radius y)

theorem length_circlePath (center : Position) (radius : Int) :
    (circlePath center radius).length = 17 := by
  simp [circlePath, directions]

def visited (position : Position) (numbers : List Int) : List Position :=
  if numbers = [] then [position] else pairs numbers

def State.step (s : State) : Command → State
  | .selectPen pen => { s.lift with pen }
  | .setWidth width => { s.lift with width }
  | .penUp numbers =>
    let t := s.lift
    { t with position := (lastPair numbers).getD t.position }
  | .penDown numbers =>
    let stroke := s.current.getD ⟨s.pen, s.width, [s.position]⟩
    let points := visited s.position numbers
    { s with
      position := points.getLastD s.position
      current := some { stroke with points := stroke.points ++ points } }
  | .circle numbers =>
    let t := s.lift
    match numbers with
    | [] => t
    | radius :: _ =>
      { t with finished := t.finished ++ [⟨t.pen, t.width, circlePath t.position radius⟩] }

def strokes (s : String) : List Stroke :=
  ((readCommands s).foldl State.step {}).lift.finished

end SeaChart.Plotter
