import SeaChart.Text.Pieces

/-!
The text of a mapfile as a tree of lines and blocks. Colours stand in it by name and are filled in
when the text is written, so one tree serves all palettes.
-/

namespace SeaChart.Mapfile

inductive Stanza where
  | line (text : String)
  | color (keyword name : String)
  | splice (text : String)
  | blank
  | block (keyword : String) (body : List Stanza)
deriving Repr, Inhabited

namespace Stanza

def entry (keyword value : String) : Stanza :=
  .line (keyword ++ " " ++ value)

def quoted (keyword value : String) : Stanza :=
  .line (keyword ++ " \"" ++ value ++ "\"")

def indentation (depth : Nat) : String :=
  String.ofList (List.replicate (4 * depth) ' ')

def indented (depth : Nat) (text : String) : String :=
  indentation depth ++ text ++ "\n"

def spliced (depth : Nat) (cs : List Char) : String :=
  if Text.isBlankText cs then "\n" else indented depth (String.ofList cs)

mutual

/-- The written lines, each with its line feed. `ink` gives the text of a named colour. -/
def lines (ink : String → String) (depth : Nat) : Stanza → List String
  | .line text => [indented depth text]
  | .color keyword name => [indented depth (keyword ++ " " ++ ink name)]
  | .splice text => (Text.lines text.toList).map (spliced depth)
  | .blank => ["\n"]
  | .block keyword body =>
    indented depth keyword :: (linesOfAll ink (depth + 1) body ++ [indented depth "END"])

def linesOfAll (ink : String → String) (depth : Nat) : List Stanza → List String
  | [] => []
  | s :: ss => lines ink depth s ++ linesOfAll ink depth ss

end

mutual

def colors : Stanza → List String
  | .color _ name => [name]
  | .block _ body => colorsOfAll body
  | _ => []

def colorsOfAll : List Stanza → List String
  | [] => []
  | s :: ss => colors s ++ colorsOfAll ss

end

def write (ink : String → String) (depth : Nat) (stanzas : List Stanza) : String :=
  String.join (linesOfAll ink depth stanzas)

theorem linesOfAll_append (ink : String → String) (depth : Nat) (xs ys : List Stanza) :
    linesOfAll ink depth (xs ++ ys) = linesOfAll ink depth xs ++ linesOfAll ink depth ys := by
  induction xs with
  | nil => rfl
  | cons x xs ih => simp [linesOfAll, ih]

end Stanza

end SeaChart.Mapfile
