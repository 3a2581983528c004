import SeaChart.Chart.Level
import SeaChart.Proofs.ExpressionReading
import SeaChart.Proofs.SymbolReferences

namespace SeaChart

open Mapfile
open Mapfile.Stanza (entry quoted)

def BreaksFrom (sources : List String) (text : String) : Prop :=
  '\n' ∈ text.toList → ∃ t ∈ sources, '\n' ∈ t.toList

namespace BreaksFrom

variable {sources : List String}

theorem of_oneLine {text : String} (h : '\n' ∉ text.toList) : BreaksFrom sources text :=
  fun hbreak => absurd hbreak h

theorem of_mem {text : String} (h : text ∈ sources) : BreaksFrom sources text :=
  fun hbreak => ⟨text, h, hbreak⟩

theorem append {s t : String} (hs : BreaksFrom sources s) (ht : BreaksFrom sources t) :
    BreaksFrom sources (s ++ t) := by
  intro h
  rw [String.toList_append] at h
  rcases List.mem_append.mp h with h | h
  · exact hs h
  · exact ht h

theorem spaced {s t : String} (hs : BreaksFrom sources s) (ht : BreaksFrom sources t) :
    BreaksFrom sources (s ++ " " ++ t) :=
  (hs.append (of_oneLine (by decide))).append ht

theorem trans {more : List String} {text : String} (h : BreaksFrom sources text)
    (hsources : ∀ t ∈ sources, BreaksFrom more t) : BreaksFrom more text := by
  intro hbreak
  obtain ⟨t, ht, hbreak⟩ := h hbreak
  exact hsources t ht hbreak

theorem mono {more : List String} {text : String} (h : BreaksFrom sources text)
    (hsub : sources ⊆ more) : BreaksFrom more text :=
  h.trans fun _ ht => of_mem (hsub ht)

theorem intercalate {separator : String} {parts : List String} (hs : '\n' ∉ separator.toList)
    (h : ∀ t ∈ parts, BreaksFrom sources t) :
    BreaksFrom sources (String.intercalate separator parts) := by
  induction parts with
  | nil => exact of_oneLine (by simp)
  | cons t parts ih =>
    obtain ⟨hfirst, hothers⟩ := List.forall_mem_cons.mp h
    cases parts with
    | nil => simpa using hfirst
    | cons u parts =>
      rw [String.intercalate_cons_cons]
      exact (hfirst.append (of_oneLine hs)).append (ih hothers)

theorem natText (n : Nat) : BreaksFrom sources (Text.natText n) :=
  of_oneLine fun h => absurd (Text.isDigit_of_mem_natText h) (by decide)

theorem intText (n : Int) : BreaksFrom sources (Text.intText n) := by
  cases n with
  | ofNat n => exact natText n
  | negSucc n => exact (of_oneLine (by decide)).append (natText (n + 1))

theorem number (x : Binary64) : BreaksFrom sources x.text :=
  of_oneLine fun h => absurd (Binary64.mem_text h) (by decide)

theorem substituted {acronym : String} (h : BreaksFrom sources acronym) :
    BreaksFrom sources (Condition.substituted acronym) :=
  ((of_oneLine (by decide)).append h).append (of_oneLine (by decide))

theorem escaped {d : Char} {s : String} (h : BreaksFrom sources s) :
    BreaksFrom sources (String.ofList (Text.escape d s.toList)) := by
  intro hbreak
  rw [String.toList_ofList] at hbreak
  rcases Text.mem_of_mem_escape hbreak with heq | hbreak
  · exact absurd heq (by decide)
  · exact h hbreak

theorem singleQuoted {s : String} (h : BreaksFrom sources s) :
    BreaksFrom sources (Text.singleQuoted s) :=
  ((of_oneLine (by decide)).append h.escaped).append (of_oneLine (by decide))

theorem doubleQuoted {s : String} (h : BreaksFrom sources s) :
    BreaksFrom sources (Text.doubleQuoted s) :=
  ((of_oneLine (by decide)).append h.escaped).append (of_oneLine (by decide))

end BreaksFrom

namespace Mapfile.Stanza

def blockKeywords : List String := ["LAYER", "METADATA", "CLASS", "STYLE", "LABEL"]

def colorKeywords : List String := ["COLOR", "OUTLINECOLOR"]

def IsEntry (sources : List String) (text : String) : Prop :=
  ∃ word value, word ≠ "" ∧ ' ' ∉ word.toList ∧ '\n' ∉ word.toList ∧ BreaksFrom sources value ∧
    text = word ++ " " ++ value

inductive IsShaped (sources : List String) : Stanza → Prop
  | line {text : String} (h : IsEntry sources text) : IsShaped sources (.line text)
  | color {keyword name : String} (h : keyword ∈ colorKeywords) :
    IsShaped sources (.color keyword name)
  | blank : IsShaped sources .blank
  | block {keyword : String} {body : List Stanza} (h : keyword ∈ blockKeywords)
      (hbody : ∀ s ∈ body, IsShaped sources s) : IsShaped sources (.block keyword body)

variable {sources : List String}

theorem IsShaped.trans {more : List String} {s : Stanza} (h : IsShaped sources s)
    (hsources : ∀ t ∈ sources, BreaksFrom more t) : IsShaped more s := by
  induction h with
  | line h =>
    obtain ⟨word, value, hword, hspace, hline, hvalue, rfl⟩ := h
    exact .line ⟨word, value, hword, hspace, hline, hvalue.trans hsources, rfl⟩
  | color h => exact .color h
  | blank => exact .blank
  | block h hbody ih => exact .block h ih

theorem IsShaped.mono {more : List String} {s : Stanza} (h : IsShaped sources s)
    (hsub : sources ⊆ more) : IsShaped more s :=
  h.trans fun _ ht => .of_mem (hsub ht)

theorem isShaped_entry {word value : String}
    (hword : word ≠ "" ∧ ' ' ∉ word.toList ∧ '\n' ∉ word.toList)
    (hvalue : BreaksFrom sources value) :
    IsShaped sources (entry word value) :=
  .line ⟨word, value, hword.1, hword.2.1, hword.2.2, hvalue, rfl⟩

theorem isShaped_literal {word value : String}
    (hword : word ≠ "" ∧ ' ' ∉ word.toList ∧ '\n' ∉ word.toList) (hvalue : '\n' ∉ value.toList) :
    IsShaped sources (entry word value) :=
  isShaped_entry hword (.of_oneLine hvalue)

theorem isShaped_quoted {word value : String}
    (hword : word ≠ "" ∧ ' ' ∉ word.toList ∧ '\n' ∉ word.toList)
    (hvalue : BreaksFrom sources value) :
    IsShaped sources (quoted word value) := by
  have hquote : BreaksFrom sources "\"" := .of_oneLine (by decide)
  rw [quoted_eq_entry]
  exact isShaped_entry hword ((hquote.append hvalue).append hquote)

end Mapfile.Stanza

open Mapfile.Stanza (IsShaped isShaped_entry isShaped_literal isShaped_quoted)

variable {sources : List String}

namespace Condition

mutual

def texts : Condition → List String
  | .isSet a => [a]
  | .isUnset a => [a]
  | .equals a v => [a, v]
  | .compares a _ _ => [a]
  | .fits a p => [a, p]
  | .conj cs => allTexts cs
  | .disj cs => allTexts cs
  | .neg c => texts c

def allTexts : List Condition → List String
  | [] => []
  | c :: cs => texts c ++ allTexts cs

end

theorem breaksFrom_textComparison {acronym operator value : String}
    (ha : BreaksFrom sources acronym) (hoperator : '\n' ∉ operator.toList)
    (hv : BreaksFrom sources value) :
    BreaksFrom sources (textComparison acronym operator value) := by
  have hlead : BreaksFrom sources ("(\"" ++ substituted acronym ++ "\" ") :=
    ((BreaksFrom.of_oneLine (by decide)).append ha.substituted).append (.of_oneLine (by decide))
  have hvalue := (hlead.append (.of_oneLine hoperator)).spaced hv.doubleQuoted
  exact hvalue.append (.of_oneLine (by decide))

theorem breaksFrom_joined {operator : String} {parts : List String}
    (hoperator : '\n' ∉ (" " ++ operator ++ " ").toList) (h : ∀ t ∈ parts, BreaksFrom sources t) :
    BreaksFrom sources (joined operator parts) := by
  unfold joined
  split
  · exact .of_oneLine (by decide)
  · exact h _ List.mem_cons_self
  · have hparts := BreaksFrom.intercalate hoperator h
    exact ((BreaksFrom.of_oneLine (by decide)).append hparts).append (.of_oneLine (by decide))

mutual

theorem breaksFrom_expression (c : Condition) : BreaksFrom c.texts c.expression := by
  cases c with
  | isSet a =>
    exact breaksFrom_textComparison (.of_mem List.mem_cons_self) (by decide)
      (.of_oneLine (by decide))
  | isUnset a =>
    exact breaksFrom_textComparison (.of_mem List.mem_cons_self) (by decide)
      (.of_oneLine (by decide))
  | equals a v =>
    refine breaksFrom_textComparison (.of_mem List.mem_cons_self) (by decide) (.of_mem ?_)
    exact List.mem_cons_of_mem a List.mem_cons_self
  | compares a comparison value =>
    have ha : BreaksFrom [a] a := .of_mem List.mem_cons_self
    have hlead : BreaksFrom [a] ("(" ++ substituted a) :=
      (BreaksFrom.of_oneLine (by decide)).append ha.substituted
    have hsymbol : '\n' ∉ comparison.symbol.toList := by cases comparison <;> decide
    have hvalue := (hlead.spaced (.of_oneLine hsymbol)).spaced (.number value)
    exact hvalue.append (.of_oneLine (by decide))
  | fits a p =>
    refine breaksFrom_textComparison (.of_mem List.mem_cons_self) (by decide) (.of_mem ?_)
    exact List.mem_cons_of_mem a List.mem_cons_self
  | conj cs => exact breaksFrom_joined (by decide) (breaksFrom_expressions cs)
  | disj cs => exact breaksFrom_joined (by decide) (breaksFrom_expressions cs)
  | neg c =>
    have hc := breaksFrom_expression c
    exact ((BreaksFrom.of_oneLine (by decide)).append hc).append (.of_oneLine (by decide))

theorem breaksFrom_expressions (cs : List Condition) :
    ∀ t ∈ expressions cs, BreaksFrom (allTexts cs) t := by
  cases cs with
  | nil => exact fun t ht => absurd ht List.not_mem_nil
  | cons c cs =>
    have hc := (breaksFrom_expression c).mono (List.subset_append_left c.texts (allTexts cs))
    have hcs : ∀ t ∈ expressions cs, BreaksFrom (allTexts (c :: cs)) t := fun t ht =>
      (breaksFrom_expressions cs t ht).mono (List.subset_append_right c.texts (allTexts cs))
    rw [expressions]
    split
    · exact hcs
    · exact List.forall_mem_cons.mpr ⟨hc, hcs⟩

end

end Condition

theorem isShaped_offsetLine {x y : String} (hx : BreaksFrom sources x) (hy : BreaksFrom sources y) :
    IsShaped sources (offsetLine x y) := by
  have hkeyword : ("OFFSET " : String) = "OFFSET" ++ " " := rfl
  refine .line ⟨"OFFSET", x ++ " " ++ y, by decide, by decide, by decide, hx.spaced hy, ?_⟩
  simp only [hkeyword, String.append_assoc]

theorem Rotation.isShaped_stanzas (r : Option Rotation) :
    ∀ s ∈ Rotation.stanzas r, IsShaped (Rotation.acronyms r) s := by
  intro s hs
  rcases r with _ | angle | a
  · cases hs
  · rw [List.mem_singleton.mp hs]
    exact isShaped_entry (by decide) (.number angle)
  · rw [List.mem_singleton.mp hs]
    exact isShaped_entry (by decide) (BreaksFrom.of_mem List.mem_cons_self).substituted

theorem LineStyle.isShaped_stanzas (style : LineStyle) :
    ∀ s ∈ style.stanzas, IsShaped sources s := by
  have hcap : IsShaped sources (entry "LINECAP" "BUTT") :=
    isShaped_literal (by decide) (by decide)
  cases style with
  | solid => exact fun s hs => absurd hs List.not_mem_nil
  | dashed =>
    have hpattern : IsShaped sources (entry "PATTERN" "12 6 END") :=
      isShaped_literal (by decide) (by decide)
    exact List.forall_mem_cons.mpr ⟨hpattern, by simpa using hcap⟩
  | dotted =>
    have hpattern : IsShaped sources (entry "PATTERN" "2 4 END") :=
      isShaped_literal (by decide) (by decide)
    exact List.forall_mem_cons.mpr ⟨hpattern, by simpa using hcap⟩

def Wording.texts : Wording → List String
  | .byAttribute a => [a]
  | .literal text => [text]
  | .template format acronyms => format :: acronyms

theorem Wording.breaksFrom_quoted (w : Wording) : BreaksFrom w.texts w.quoted := by
  apply BreaksFrom.singleQuoted
  cases w with
  | byAttribute a =>
    have hbody : String.ofList (body (.byAttribute a)) = Condition.substituted a := by
      rw [← String.toList_inj]
      simp [body, Condition.substituted]
    rw [hbody]
    exact (BreaksFrom.of_mem List.mem_cons_self).substituted
  | literal text =>
    rw [body, String.ofList_toList]
    exact .of_mem List.mem_cons_self
  | template format acronyms =>
    intro hbreak
    rw [String.toList_ofList] at hbreak
    rcases mem_of_mem_substitute (Text.mergePairs_subset _ _ hbreak) with h | h | h | ⟨a, ha, h⟩
    · exact absurd h (by decide)
    · exact absurd h (by decide)
    · exact ⟨format, List.mem_cons_self, h⟩
    · exact ⟨a, List.mem_cons_of_mem format ha, h⟩

theorem Label.breaksFrom_position (l : Label) : BreaksFrom sources l.position := by
  apply BreaksFrom.append
  · split
    · exact .of_oneLine (by decide)
    · split <;> exact .of_oneLine (by decide)
  · split
    · exact .of_oneLine (by decide)
    · split <;> exact .of_oneLine (by decide)

theorem Label.isShaped_stanza (l : Label) (g : Geometry) :
    IsShaped l.wording.texts (l.stanza g) := by
  refine .block (by decide) ?_
  simp only [List.forall_mem_append, List.forall_mem_cons, List.not_mem_nil, false_implies,
    implies_true, and_true]
  refine ⟨⟨⟨⟨?text, ?font, ?size, ?color, ?position⟩, ?offset⟩, ?angle⟩, ?partials⟩
  case text => exact isShaped_entry (by decide) l.wording.breaksFrom_quoted
  case font =>
    refine isShaped_quoted (by decide) (.of_oneLine ?_)
    cases l.bold <;> decide
  case size => exact isShaped_entry (by decide) (.natText l.size)
  case color => exact .color (by decide)
  case position => exact isShaped_entry (by decide) l.breaksFrom_position
  case offset =>
    intro s hs
    simp only [Label.offsetStanzas] at hs
    split at hs
    · cases hs
    · rw [List.mem_singleton.mp hs]
      exact isShaped_offsetLine (.number _) (.number _)
  case angle =>
    intro s hs
    split at hs
    · rw [List.mem_singleton.mp hs]
      exact isShaped_literal (by decide) (by decide)
    · cases hs
  case partials => exact isShaped_literal (by decide) (by decide)

namespace Instruction

def texts : Instruction → List String
  | .symbol name rotation => name :: Rotation.acronyms rotation
  | .complexLine name => [name]
  | .areaPattern name rotation => name :: Rotation.acronyms rotation
  | .label l => l.wording.texts
  | _ => []

theorem isShaped_symbolStanza (p : Presentation) (name : String) (rotation : Option Rotation)
    (g : Geometry) :
    IsShaped (name :: Rotation.acronyms rotation) (symbolStanza p name rotation g) := by
  refine .block (by decide) ?_
  simp only [List.forall_mem_append, List.forall_mem_cons, List.mem_flatMap]
  refine ⟨?name, ⟨?offset, ?rotation⟩, ?centroid⟩
  case name => exact isShaped_quoted (by decide) (.of_mem List.mem_cons_self)
  case offset =>
    rintro s ⟨sprite, -, hs⟩
    simp only [Sprite.offsetStanzas] at hs
    split at hs
    · cases hs
    · rw [List.mem_singleton.mp hs]
      exact isShaped_offsetLine (.intText _) (.intText _)
  case rotation =>
    exact fun s hs => (Rotation.isShaped_stanzas rotation s hs).mono (List.subset_cons_self _ _)
  case centroid =>
    intro s hs
    split at hs
    · rw [List.mem_singleton.mp hs]
      exact isShaped_quoted (by decide) (.of_oneLine (by decide))
    · cases hs

theorem isShaped_simpleLineStanza (style : LineStyle) (width : Nat) (color : String)
    (g : Geometry) : IsShaped sources (simpleLineStanza style width color g) := by
  refine .block (by decide) ?_
  simp only [List.forall_mem_append, List.forall_mem_cons, List.not_mem_nil, false_implies,
    implies_true, and_true]
  refine ⟨⟨.color ?_, isShaped_entry (by decide) (.natText width)⟩, style.isShaped_stanzas⟩
  split <;> decide

theorem isShaped_lineStanza (d : Drawing) (name : String) (g : Geometry) :
    IsShaped [name] (d.lineStanza name g) := by
  have hname : BreaksFrom [name] name := .of_mem List.mem_cons_self
  cases g with
  | area =>
    have hpattern : IsShaped [name] (entry "PATTERN" "10 5 END") :=
      isShaped_literal (by decide) (by decide)
    have hwidth : IsShaped [name] (entry "WIDTH" "1") :=
      isShaped_literal (by decide) (by decide)
    refine .block (by decide) ?_
    simp only [List.forall_mem_cons, List.not_mem_nil, false_implies, implies_true, and_true]
    exact ⟨.color (by decide), hwidth, hpattern⟩
  | _ =>
    refine .block (by decide) ?_
    simp only [List.forall_mem_cons, List.not_mem_nil, false_implies, implies_true, and_true]
    exact ⟨isShaped_quoted (by decide) hname, .color (by decide),
      isShaped_entry (by decide) (.intText _), isShaped_entry (by decide) (.intText _)⟩

theorem isShaped_patternStanza (f : FillPattern) (name : String) (rotation : Option Rotation) :
    IsShaped (name :: Rotation.acronyms rotation) (f.stanza name rotation) := by
  refine .block (by decide) ?_
  simp only [List.forall_mem_append, List.forall_mem_cons]
  refine ⟨isShaped_quoted (by decide) (.of_mem List.mem_cons_self), ?motif, ?rotation⟩
  case motif =>
    unfold FillPattern.motifStanzas
    split
    · simp only [List.forall_mem_cons, List.not_mem_nil, false_implies, implies_true, and_true]
      exact ⟨.color (by decide), isShaped_entry (by decide) (.intText _),
        isShaped_entry (by decide) (.intText _)⟩
    · intro s hs
      rw [List.mem_singleton.mp hs]
      exact isShaped_entry (by decide) (.intText _)
  case rotation =>
    exact fun s hs => (Rotation.isShaped_stanzas rotation s hs).mono (List.subset_cons_self _ _)

theorem isShaped_areaColorStanza (color : String) (transparency : Nat) :
    IsShaped sources (areaColorStanza color transparency) := by
  refine .block (by decide) (List.forall_mem_cons.mpr ⟨.color (by decide), ?_⟩)
  intro s hs
  split at hs
  · cases hs
  · rw [List.mem_singleton.mp hs]
    exact isShaped_entry (by decide) (.natText _)

theorem isShaped_stanzas (p : Presentation) (g : Geometry) (i : Instruction) :
    ∀ s ∈ i.stanzas p g, IsShaped i.texts s := by
  intro s hs
  cases i with
  | symbol name rotation =>
    rw [List.mem_singleton.mp hs]
    exact isShaped_symbolStanza p name rotation g
  | simpleLine style width color =>
    rw [List.mem_singleton.mp hs]
    exact isShaped_simpleLineStanza style width color g
  | complexLine name =>
    obtain ⟨d, -, rfl⟩ := List.mem_map.mp hs
    exact isShaped_lineStanza d name g
  | areaColor color transparency =>
    rw [List.mem_singleton.mp hs]
    exact isShaped_areaColorStanza color transparency
  | areaPattern name rotation =>
    obtain ⟨f, -, rfl⟩ := List.mem_map.mp hs
    exact isShaped_patternStanza f name rotation
  | label l =>
    rw [List.mem_singleton.mp hs]
    exact l.isShaped_stanza g
  | procedure name => cases hs
  | unknown text => cases hs

end Instruction

def Rule.texts (r : Rule) : List String :=
  r.id :: (r.condition.texts ++ r.instructions.flatMap Instruction.texts)

namespace Layer

def texts (l : Layer) : List String :=
  [l.name, l.feature, l.group, l.data] ++ l.rules.flatMap Rule.texts

theorem isShaped_lightStanzas (l : Layer) : ∀ s ∈ l.lightStanzas, IsShaped sources s := by
  intro s hs
  unfold lightStanzas at hs
  split at hs
  · obtain ⟨description, hdescription, rfl⟩ := List.mem_map.mp hs
    have hline : BreaksFrom sources description := by
      simp only [lightDescription, Option.mem_toList, Option.ite_none_left_eq_some,
        Option.some.injEq] at hdescription
      rw [← hdescription.2]
      refine BreaksFrom.singleQuoted (.intercalate (by decide) ?_)
      intro t ht
      obtain ⟨⟨a, unit⟩, hknown, rfl⟩ := List.mem_map.mp ht
      have hplain : ∀ c ∈ lightCharacteristics,
          '\n' ∉ (Condition.substituted c.1 ++ c.2).toList := by decide
      exact .of_oneLine (hplain _ (List.mem_filter.mp hknown).1)
    refine .block (by decide) ?_
    have hoffset : IsShaped sources (entry "OFFSET" "10 0") :=
      isShaped_literal (by decide) (by decide)
    simp only [List.forall_mem_cons, List.not_mem_nil, false_implies, implies_true, and_true]
    exact ⟨isShaped_entry (by decide) hline, isShaped_quoted (by decide) (.of_oneLine (by decide)),
      isShaped_literal (by decide) (by decide), .color (by decide),
      isShaped_literal (by decide) (by decide), hoffset,
      isShaped_literal (by decide) (by decide)⟩
  · cases hs

theorem isShaped_classStanza (p : Presentation) (l : Layer) (r : Rule) :
    IsShaped (l.feature :: r.texts) (l.classStanza p r) := by
  refine .block (by decide) ?_
  simp only [List.forall_mem_cons, List.forall_mem_append, List.mem_flatMap]
  refine ⟨?name, ⟨?expression, ?drawn⟩, l.isShaped_lightStanzas⟩
  case name =>
    have hfeature : BreaksFrom (l.feature :: r.texts) l.feature := .of_mem List.mem_cons_self
    have hid : BreaksFrom (l.feature :: r.texts) r.id :=
      .of_mem (List.mem_cons_of_mem l.feature List.mem_cons_self)
    exact isShaped_quoted (by decide) (hfeature.spaced hid)
  case expression =>
    intro s hs
    unfold expressionStanzas at hs
    split at hs
    · cases hs
    · rw [List.mem_singleton.mp hs]
      refine isShaped_entry (by decide) (r.condition.breaksFrom_expression.mono ?_)
      intro t ht
      simp [Rule.texts, ht]
  case drawn =>
    rintro s ⟨i, hi, hs⟩
    refine (i.isShaped_stanzas p l.geometry s hs).mono ?_
    intro t ht
    have hmem : t ∈ r.instructions.flatMap Instruction.texts :=
      List.mem_flatMap.mpr ⟨i, (List.mem_filter.mp hi).1, ht⟩
    simp [Rule.texts, hmem]

theorem isShaped_stanzas (p : Presentation) (l : Layer) :
    ∀ s ∈ l.stanzas p, IsShaped l.texts s := by
  intro s hs
  unfold stanzas at hs
  split at hs
  · cases hs
  rw [List.mem_singleton.mp hs]
  have hname : BreaksFrom l.texts l.name := .of_mem (by simp [texts])
  have hfeature : BreaksFrom l.texts l.feature := .of_mem (by simp [texts])
  have hgroup : BreaksFrom l.texts l.group := .of_mem (by simp [texts])
  have hdata : BreaksFrom l.texts l.data := .of_mem (by simp [texts])
  refine .block (by decide) ?_
  simp only [List.forall_mem_append, List.forall_mem_cons, List.not_mem_nil, false_implies,
    implies_true, and_true]
  refine ⟨⟨?name, ?group, ?type, ?status, ?scale, ?data, ?metadata⟩, ?classes⟩
  case name => exact isShaped_quoted (by decide) hname
  case group => exact isShaped_quoted (by decide) hgroup
  case type =>
    refine isShaped_entry (by decide) (.of_oneLine ?_)
    cases l.geometry <;> decide
  case status => exact isShaped_literal (by decide) (by decide)
  case scale => exact isShaped_entry (by decide) (.natText l.maxScale)
  case data => exact isShaped_quoted (by decide) hdata
  case metadata =>
    have hquote : BreaksFrom l.texts "\"" := .of_oneLine (by decide)
    have hopen : ("\"ows_title\" \"" : String) = "\"ows_title\"" ++ " " ++ "\"" := rfl
    have htitle : IsShaped l.texts (.line ("\"ows_title\" \"" ++ l.feature ++ "\"")) := by
      refine .line ⟨"\"ows_title\"", "\"" ++ l.feature ++ "\"", by decide, by decide, by decide,
        (hquote.append hfeature).append hquote, ?_⟩
      simp only [hopen, String.append_assoc]
    have hitems : IsShaped l.texts (entry "\"gml_include_items\"" "\"all\"") :=
      isShaped_literal (by decide) (by decide)
    have htype : IsShaped l.texts (entry "\"wms_feature_mime_type\"" "\"text/html\"") :=
      isShaped_literal (by decide) (by decide)
    refine .block (by decide) ?_
    simp only [List.forall_mem_cons, List.not_mem_nil, false_implies, implies_true, and_true]
    exact ⟨htitle, hitems, htype⟩
  case classes =>
    intro s hs
    obtain ⟨r, hr, rfl⟩ := List.mem_map.mp hs
    refine (l.isShaped_classStanza p r).mono ?_
    intro t ht
    rcases List.mem_cons.mp ht with rfl | ht
    · simp [texts]
    · have hmem : t ∈ l.rules.flatMap Rule.texts := List.mem_flatMap.mpr ⟨r, hr, ht⟩
      simp [texts, hmem]

end Layer

namespace Level

def texts (p : Presentation) (files : List Shapefile) : List String :=
  files.flatMap fun f => f.feature :: (p.rules f.geometry f.feature).flatMap Rule.texts

theorem exists_file_of_mem_layers {p : Presentation} {level maxScale : Nat}
    {files : List Shapefile} {l : Layer} (h : l ∈ layers p level maxScale files) :
    ∃ f ∈ files, layerOf p level maxScale f = l ∧ l.isEmpty = false := by
  obtain ⟨hmem, hempty⟩ := List.mem_filter.mp (List.mem_mergeSort.mp h)
  obtain ⟨f, hf, rfl⟩ := List.mem_map.mp hmem
  exact ⟨f, hf, rfl, by simpa using hempty⟩

theorem breaksFrom_levelName (level : Nat) : BreaksFrom sources (Shapefile.levelName level) :=
  (BreaksFrom.of_oneLine (by decide)).append (.natText level)

theorem breaksFrom_texts_layerOf {p : Presentation} {level maxScale : Nat} {f : Shapefile}
    {t : String} (h : t ∈ (layerOf p level maxScale f).texts) :
    BreaksFrom (f.feature :: (p.rules f.geometry f.feature).flatMap Rule.texts) t := by
  have hfeature : BreaksFrom (f.feature :: (p.rules f.geometry f.feature).flatMap Rule.texts)
      f.feature := .of_mem List.mem_cons_self
  have hgeometry : '\n' ∉ f.geometry.name.toList := by cases f.geometry <;> decide
  have hdash : '\n' ∉ "-".toList := by decide
  have hname := (((breaksFrom_levelName level).append (.of_oneLine hdash)).append
    (.of_oneLine hgeometry)).append (.of_oneLine hdash) |>.append hfeature
  rcases List.mem_append.mp h with h | h
  · simp only [layerOf, Layer.ofFeature, List.mem_cons, List.not_mem_nil, or_false] at h
    rcases h with rfl | rfl | rfl | rfl
    · exact hname
    · exact hfeature
    · exact breaksFrom_levelName level
    · exact ((breaksFrom_levelName level).append (.of_oneLine (by decide))).append hname
  · obtain ⟨r, hr, ht⟩ := List.mem_flatMap.mp h
    have hrule : r ∈ p.rules f.geometry f.feature :=
      (List.mem_filter.mp (List.mem_mergeSort.mp hr)).1
    exact .of_mem (List.mem_cons_of_mem _ (List.mem_flatMap.mpr ⟨r, hrule, ht⟩))

theorem isShaped_stanzas (p : Presentation) (level maxScale : Nat) (files : List Shapefile) :
    ∀ s ∈ stanzas p level maxScale files, IsShaped (texts p files) s := by
  intro s hs
  obtain ⟨l, hl, hs⟩ := List.mem_flatMap.mp hs
  rcases List.mem_append.mp hs with hs | hs
  · obtain ⟨f, hf, rfl, -⟩ := exists_file_of_mem_layers hl
    refine (Layer.isShaped_stanzas p _ s hs).trans fun t ht => ?_
    refine (breaksFrom_texts_layerOf ht).mono fun u hu => ?_
    exact List.mem_flatMap.mpr ⟨f, hf, hu⟩
  · rw [List.mem_singleton.mp hs]
    exact .blank

end Level

end SeaChart
