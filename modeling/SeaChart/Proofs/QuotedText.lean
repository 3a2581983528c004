import SeaChart.Proofs.ExpressionReading

namespace SeaChart

open Text (escape readQuoted singleQuoted)
open Condition (isClosedText)

def readLiteral (delimiter : Char) : List Char → Option (List Char × List Char)
  | [] => none
  | c :: cs => if c = delimiter then readQuoted delimiter cs else none

/--
A text is a literal between `opening` and `closing`. With `rest` behind the text, the literal is read
as `value` and ends where `closing` begins.
-/
def Encloses (delimiter : Char) (opening value closing text : String) (rest : List Char) : Prop :=
  ∃ literal, text.toList = opening.toList ++ (literal ++ closing.toList) ∧
    readLiteral delimiter (literal ++ (closing.toList ++ rest)) =
      some (value.toList, closing.toList ++ rest)

theorem encloses_iff {d : Char} {opening value closing text : String} {literal : List Char}
    (h : text.toList = opening.toList ++ (literal ++ closing.toList)) (rest : List Char) :
    Encloses d opening value closing text rest ↔
      readLiteral d (literal ++ (closing.toList ++ rest)) =
        some (value.toList, closing.toList ++ rest) := by
  constructor
  · rintro ⟨other, hother, hread⟩
    rw [h] at hother
    have hsame := List.append_cancel_right (List.append_cancel_left hother)
    rwa [hsame]
  · intro hread
    exact ⟨literal, h, hread⟩

theorem readLiteral_escape_iff {d : Char} (hd : d ≠ '\\') (value : String) (rest : List Char) :
    readLiteral d (d :: (escape d value.toList ++ [d]) ++ rest) = some (value.toList, rest) ↔
      isClosedText value = true := by
  rw [isClosedText, decide_eq_true_eq, ← Text.readQuoted_escape_iff hd value.toList rest]
  simp [readLiteral]

theorem encloses_singleQuoted_iff (value : String) (rest : List Char) :
    Encloses '\'' "" value "" (singleQuoted value) rest ↔ isClosedText value = true := by
  have htext : (singleQuoted value).toList =
      "".toList ++ ('\'' :: (escape '\'' value.toList ++ ['\'']) ++ "".toList) := by
    simp [singleQuoted]
  rw [encloses_iff htext]
  exact readLiteral_escape_iff (by decide) value _

theorem encloses_textComparison_iff (acronym operator value : String) (rest : List Char) :
    Encloses '"' ("(\"[" ++ acronym ++ ("]\" " ++ operator ++ " ")) value ")"
        (Condition.textComparison acronym operator value) rest ↔
      isClosedText value = true := by
  have htext : (Condition.textComparison acronym operator value).toList =
      ("(\"[" ++ acronym ++ ("]\" " ++ operator ++ " ")).toList ++
        ('"' :: (escape '"' value.toList ++ ['"']) ++ ")".toList) := by
    simp [Condition.textComparison, Condition.substituted, Text.doubleQuoted]
  rw [encloses_iff htext]
  exact readLiteral_escape_iff (by decide) value _

/--
A text in single quotes, and the value in the expression of a condition, are read as they were and
end at their last delimiter just when they do not end in a backslash.
-/
theorem literal_reread_iff (value : String) (rest : List Char) :
    (Encloses '\'' "" value "" (singleQuoted value) rest ↔ isClosedText value = true) ∧
      ∀ acronym : String,
        (Encloses '"' ("(\"[" ++ acronym ++ "]\" = ") value ")"
            (Condition.equals acronym value).expression rest ↔ isClosedText value = true) ∧
          (Encloses '"' ("(\"[" ++ acronym ++ "]\" ~ ") value ")"
            (Condition.fits acronym value).expression rest ↔ isClosedText value = true) := by
  refine ⟨encloses_singleQuoted_iff value rest, ?_⟩
  intro acronym
  constructor
  · exact encloses_textComparison_iff acronym "=" value rest
  · exact encloses_textComparison_iff acronym "~" value rest

theorem backslash_swallows_quote :
    ¬ Encloses '\'' "" "Fl R\\" "" (singleQuoted "Fl R\\") [] ∧
      readLiteral '\'' ((singleQuoted "Fl R\\").toList ++ "\nFONT \"sc\"\nTEXT 'b'".toList) =
        some ("Fl R'\nFONT \"sc\"\nTEXT ".toList, "b'".toList) ∧
      ¬ Encloses '"' "(\"[OBJNAM]\" = " "a\\" ")" (Condition.ofCode "OBJNAMa\\").expression [] := by
  refine ⟨?_, by decide, ?_⟩
  · rw [encloses_singleQuoted_iff]
    decide
  · have hcode : (Condition.ofCode "OBJNAMa\\").expression =
        Condition.textComparison "OBJNAM" "=" "a\\" := rfl
    intro h
    rw [hcode] at h
    exact absurd ((encloses_textComparison_iff "OBJNAM" "=" "a\\" []).mp h) (by decide)

end SeaChart
