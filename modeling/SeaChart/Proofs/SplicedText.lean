import Mathlib.Data.List.Forall2
import SeaChart.Mapfile.Stanza

namespace SeaChart

open Text

namespace Text

theorem lines_cons {c : Char} (hfeed : c ≠ '\n') (hreturn : c ≠ '\r') {cs l : List Char}
    {ls : List (List Char)} (h : lines cs = l :: ls) : lines (c :: cs) = (c :: l) :: ls := by
  cases cs with
  | nil => cases h
  | cons d ds =>
    rw [lines.eq_def]
    split
    · contradiction
    · next heq => exact absurd (List.cons.inj heq).1 hfeed
    · next heq => exact absurd (List.cons.inj heq).1 hreturn
    · next heq =>
      cases heq
      rw [h]

theorem lines_append_lineFeed {l : List Char} (hfeed : '\n' ∉ l) (hreturn : '\r' ∉ l)
    (cs : List Char) : lines (l ++ '\n' :: cs) = l :: lines cs := by
  induction l with
  | nil => rw [List.nil_append, lines]
  | cons c l ih =>
    have ih := ih (List.not_mem_of_not_mem_cons hfeed) (List.not_mem_of_not_mem_cons hreturn)
    exact lines_cons (List.ne_of_not_mem_cons hfeed).symm (List.ne_of_not_mem_cons hreturn).symm ih

theorem notMem_lines (cs : List Char) : ∀ l ∈ lines cs, '\n' ∉ l ∧ l ⊆ cs := by
  fun_induction lines cs with
  | case1 => simp
  | case2 cs ih =>
    refine List.forall_mem_cons.mpr ⟨by simp, fun l hl => ?_⟩
    exact (ih l hl).imp_right (List.subset_cons_of_subset _)
  | case3 cs ih =>
    refine List.forall_mem_cons.mpr ⟨by simp, fun l hl => ?_⟩
    exact (ih l hl).imp_right (List.subset_cons_of_subset _ ∘ List.subset_cons_of_subset _)
  | case4 c hfeed hreturn ih => simpa using Ne.symm hfeed
  | case5 c hfeed d ds hreturn hlines ih =>
    rw [hlines]
    simpa using Ne.symm hfeed
  | case6 c hfeed d ds l ls hreturn hlines ih =>
    rw [hlines, List.forall_mem_cons] at ih
    rw [hlines]
    obtain ⟨hfirst, hothers⟩ := ih
    refine List.forall_mem_cons.mpr ⟨⟨?_, List.cons_subset_cons c hfirst.2⟩, fun m hm => ?_⟩
    · simpa [hfirst.1] using Ne.symm hfeed
    · exact (hothers m hm).imp_right (List.subset_cons_of_subset _)

end Text

namespace Mapfile

structure Writer where
  text : String := ""
  depth : Nat := 0

namespace Writer

def withDepth (depth : Nat) : Writer :=
  { depth }

def line (w : Writer) (text : String) : Writer :=
  { w with text := w.text ++ Stanza.indented w.depth text }

def blank (w : Writer) : Writer :=
  { w with text := w.text ++ "\n" }

def raw (w : Writer) (text : String) : Writer :=
  (lines text.toList).foldl
    (fun w l => if isBlankText l then w.blank else w.line (String.ofList l)) w

variable (ink : String → String)

mutual

def run (w : Writer) : Stanza → Writer
  | .line text => w.line text
  | .color keyword name => w.line (keyword ++ " " ++ ink name)
  | .splice text => w.raw text
  | .blank => w.blank
  | .block keyword body =>
    let opened := w.line keyword
    let inside := runAll { opened with depth := opened.depth + 1 } body
    { inside with depth := inside.depth - 1 }.line "END"

def runAll (w : Writer) : List Stanza → Writer
  | [] => w
  | s :: ss => runAll (w.run s) ss

end

theorem raw_eq (w : Writer) (text : String) :
    w.raw text = { w with
      text := w.text ++ String.join ((lines text.toList).map (Stanza.spliced w.depth)) } := by
  rw [raw]
  generalize lines text.toList = ls
  induction ls generalizing w with
  | nil => simp
  | cons l ls ih =>
    rw [List.foldl_cons, ih]
    cases hblank : isBlankText l <;>
      simp [hblank, blank, line, Stanza.spliced, String.append_assoc]

mutual

theorem run_eq (w : Writer) (s : Stanza) :
    w.run ink s = { w with text := w.text ++ String.join (Stanza.lines ink w.depth s) } := by
  cases s with
  | line text => simp [run, line, Stanza.lines]
  | color keyword name => simp [run, line, Stanza.lines]
  | splice text => rw [run, raw_eq, Stanza.lines]
  | blank => simp [run, blank, Stanza.lines]
  | block keyword body =>
    rw [run, runAll_eq]
    simp [line, Stanza.lines, Stanza.write, String.append_assoc]

theorem runAll_eq (w : Writer) (ss : List Stanza) :
    w.runAll ink ss = { w with text := w.text ++ Stanza.write ink w.depth ss } := by
  cases ss with
  | nil => simp [runAll, Stanza.write, Stanza.linesOfAll]
  | cons s ss =>
    rw [runAll, run_eq, runAll_eq]
    simp [Stanza.write, Stanza.linesOfAll, String.append_assoc]

end

end Writer

namespace Stanza

structure IsWhole (text : String) : Prop where
  noFeed : '\n' ∉ text.toList
  noReturn : '\r' ∉ text.toList
  notBlank : isBlankText text.toList = false

inductive IsPlain (ink : String → String) : Stanza → Prop
  | line {text : String} (h : IsWhole text) : IsPlain ink (.line text)
  | color {keyword name : String} (h : IsWhole (keyword ++ " " ++ ink name)) :
    IsPlain ink (.color keyword name)
  | splice {text : String} (h : '\r' ∉ text.toList) : IsPlain ink (.splice text)
  | blank : IsPlain ink .blank
  | block {keyword : String} {body : List Stanza} (h : IsWhole keyword)
      (hbody : ∀ s ∈ body, IsPlain ink s) : IsPlain ink (.block keyword body)

theorem IsWhole.append {s t : String} (h : IsWhole s) (hfeed : '\n' ∉ t.toList)
    (hreturn : '\r' ∉ t.toList) : IsWhole (s ++ t) where
  noFeed := by simp [h.noFeed, hfeed]
  noReturn := by simp [h.noReturn, hreturn]
  notBlank := by
    rw [String.toList_append, isBlankText, List.all_append]
    exact Bool.and_eq_false_iff.mpr (.inl h.notBlank)

theorem isPlain_entry (ink : String → String) {keyword value : String} (h : IsWhole keyword)
    (hfeed : '\n' ∉ value.toList) (hreturn : '\r' ∉ value.toList) :
    IsPlain ink (entry keyword value) :=
  .line ((h.append (by decide) (by decide)).append hfeed hreturn)

theorem isPlain_quoted (ink : String → String) {keyword value : String} (h : IsWhole keyword)
    (hfeed : '\n' ∉ value.toList) (hreturn : '\r' ∉ value.toList) :
    IsPlain ink (quoted keyword value) :=
  .line (((h.append (by decide) (by decide)).append hfeed hreturn).append (by decide) (by decide))

def Deepens (blocks : Nat) (s t : String) : Prop :=
  ∃ l : List Char, '\n' ∉ l ∧ '\r' ∉ l ∧ s.toList = l ++ ['\n'] ∧ t = spliced blocks l

theorem indentation_add (j k : Nat) : indentation (j + k) = indentation k ++ indentation j := by
  rw [indentation, indentation, indentation, ← String.ofList_append,
    List.replicate_append_replicate]
  congr 2
  omega

theorem IsWhole.deepens {text : String} (h : IsWhole text) (j k : Nat) :
    Deepens k (indented j text) (indented (j + k) text) := by
  have hspaces {c : Char} (hc : c ≠ ' ') (htext : c ∉ text.toList) :
      c ∉ (indentation j ++ text).toList := by
    simp [indentation, hc, htext]
  have hblank : isBlankText (indentation j ++ text).toList = false := by
    rw [String.toList_append, isBlankText, List.all_append]
    exact (Bool.and_eq_false_iff).mpr (.inr h.notBlank)
  refine ⟨(indentation j ++ text).toList, hspaces (by decide) h.noFeed,
    hspaces (by decide) h.noReturn, ?_, ?_⟩
  · simp [indented]
  · rw [spliced, hblank, String.ofList_toList]
    simp [indented, indentation_add, String.append_assoc]

theorem Deepens.spliced {l : List Char} (hfeed : '\n' ∉ l) (hreturn : '\r' ∉ l) (j k : Nat) :
    Deepens k (spliced j l) (spliced (j + k) l) := by
  cases hblank : isBlankText l with
  | true =>
    have hempty (depth : Nat) : Stanza.spliced depth l = "\n" := if_pos hblank
    exact ⟨[], List.not_mem_nil, List.not_mem_nil, by rw [hempty]; rfl, hempty (j + k)⟩
  | false =>
    have hwhole : IsWhole (String.ofList l) :=
      ⟨by rwa [String.toList_ofList], by rwa [String.toList_ofList], by rwa [String.toList_ofList]⟩
    simpa [Stanza.spliced, hblank] using hwhole.deepens j k

variable {ink : String → String}

theorem deepens_linesOfAll {ss : List Stanza} {j k : Nat}
    (h : ∀ s ∈ ss, List.Forall₂ (Deepens k) (lines ink j s) (lines ink (j + k) s)) :
    List.Forall₂ (Deepens k) (linesOfAll ink j ss) (linesOfAll ink (j + k) ss) := by
  induction ss with
  | nil => exact .nil
  | cons s ss ih =>
    obtain ⟨hfirst, hothers⟩ := List.forall_mem_cons.mp h
    exact List.rel_append hfirst (ih hothers)

theorem IsPlain.deepens_lines {s : Stanza} (h : IsPlain ink s) (j k : Nat) :
    List.Forall₂ (Deepens k) (lines ink j s) (lines ink (j + k) s) := by
  induction h generalizing j with
  | line h => exact .cons (h.deepens j k) .nil
  | color h => exact .cons (h.deepens j k) .nil
  | @splice text h =>
    rw [lines, lines, List.forall₂_map_left_iff, List.forall₂_map_right_iff, List.forall₂_same]
    intro l hl
    obtain ⟨hfeed, hsub⟩ := notMem_lines _ l hl
    exact .spliced hfeed (fun hreturn => h (hsub hreturn)) j k
  | blank => exact .cons (Deepens.spliced List.not_mem_nil List.not_mem_nil j k) .nil
  | @block keyword body h hbody ih =>
    have hend : IsWhole "END" := ⟨by decide, by decide, by decide⟩
    have hinside := deepens_linesOfAll fun s hs => ih s hs (j + 1)
    rw [Nat.add_right_comm] at hinside
    exact .cons (h.deepens j k) (List.rel_append hinside (.cons (hend.deepens j k) .nil))

theorem map_spliced_lines {k : Nat} {ss ts : List String} (h : List.Forall₂ (Deepens k) ss ts) :
    (Text.lines (String.join ss).toList).map (spliced k) = ts := by
  induction h with
  | nil => rfl
  | @cons s t ss ts hst h ih =>
    obtain ⟨l, hfeed, hreturn, hs, rfl⟩ := hst
    rw [String.join_cons, String.toList_append, hs, List.append_assoc, List.singleton_append,
      lines_append_lineFeed hfeed hreturn, List.map_cons, ih]

theorem write_eq_join (ink : String → String) (depth : Nat) (ss : List Stanza) :
    write ink depth ss = String.join (ss.map fun s => write ink depth [s]) := by
  induction ss with
  | nil => rfl
  | cons s ss ih =>
    rw [List.map_cons, String.join_cons, ← ih, write, write, write, ← String.join_append,
      ← linesOfAll_append]
    rfl

/--
Plain stanzas that are spliced at some depth read as if they had been written there. A writer ends
with the depth that it began with and with their text behind its own, and the text of several
stanzas is the text of each, one behind the other.
-/
theorem write_spliced (ink : String → String) {ss : List Stanza} (h : ∀ s ∈ ss, IsPlain ink s)
    (j k : Nat) :
    ((Writer.withDepth k).raw ((Writer.withDepth j).runAll ink ss).text).text =
        ((Writer.withDepth (j + k)).runAll ink ss).text ∧
      write ink k [.splice (write ink j ss)] = write ink (j + k) ss ∧
      (∀ w : Writer, w.runAll ink ss = ⟨w.text ++ write ink w.depth ss, w.depth⟩) ∧
      ∀ depth, write ink depth ss = String.join (ss.map fun s => write ink depth [s]) := by
  have hlines := map_spliced_lines (deepens_linesOfAll fun s hs => (h s hs).deepens_lines j k)
  have hsplice : write ink k [.splice (write ink j ss)] = write ink (j + k) ss := by
    rw [write, linesOfAll, linesOfAll, lines, List.append_nil]
    exact congrArg String.join hlines
  refine ⟨?_, hsplice, fun w => w.runAll_eq ink ss, fun depth => write_eq_join ink depth ss⟩
  simp only [Writer.runAll_eq, Writer.raw_eq, Writer.withDepth, String.empty_append]
  exact congrArg String.join hlines

def nested : List Stanza :=
  [.block "CLASS" [quoted "NAME" "BOYCAR", .blank,
    .block "STYLE" [.splice "WIDTH 2\n \n  GAP 4", entry "OPACITY" "50", .color "COLOR" "CHBLK"]]]

theorem write_spliced_nested :
    (∀ s ∈ nested, IsPlain id s) ∧
      write id 1 [.splice (write id 1 nested)] =
        "        CLASS\n            NAME \"BOYCAR\"\n\n            STYLE\n" ++
          "                WIDTH 2\n\n                  GAP 4\n" ++
          "                OPACITY 50\n                COLOR CHBLK\n" ++
          "            END\n        END\n" := by
  have hplain : ∀ s ∈ nested, IsPlain id s := by
    have hentry : IsPlain id (entry "OPACITY" "50") :=
      isPlain_entry id ⟨by decide, by decide, by decide⟩ (by decide) (by decide)
    have hname : IsPlain id (quoted "NAME" "BOYCAR") :=
      isPlain_quoted id ⟨by decide, by decide, by decide⟩ (by decide) (by decide)
    have hstyle : ∀ s ∈ [splice "WIDTH 2\n \n  GAP 4", entry "OPACITY" "50", color "COLOR" "CHBLK"],
        IsPlain id s := by
      simp only [List.forall_mem_cons]
      exact ⟨.splice (by decide), hentry, .color ⟨by decide, by decide, by decide⟩, by simp⟩
    simp only [nested, List.forall_mem_singleton]
    refine .block ⟨by decide, by decide, by decide⟩ ?_
    simp only [List.forall_mem_cons]
    exact ⟨hname, .blank, .block ⟨by decide, by decide, by decide⟩ hstyle, by simp⟩
  refine ⟨hplain, ?_⟩
  rw [(write_spliced id hplain 1 1).2.1]
  decide +kernel

end Stanza

end Mapfile

end SeaChart
