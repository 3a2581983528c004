import SeaChart.Proofs.BlockReading
import SeaChart.Proofs.LevelReading

namespace SeaChart

open Mapfile

namespace Mapfile

def valueOf? (keyword line : String) : Option String :=
  let opening := (keyword ++ " \"").toList
  let value := line.toList.drop opening.length
  if opening <+: line.toList ∧ value.getLast? = some '"' then some (String.ofList value.dropLast)
  else none

def entries (keyword text : String) : List String :=
  (text.toList.splitOn '\n').filterMap fun line => valueOf? keyword (bare line)

theorem valueOf?_quoted (keyword value : String) :
    valueOf? keyword (keyword ++ " \"" ++ value ++ "\"") = some value := by
  have htext : (keyword ++ " \"" ++ value ++ "\"").toList =
      (keyword ++ " \"").toList ++ (value.toList ++ ['"']) := by
    simp
  simp only [valueOf?, htext, List.drop_left]
  simp

def Differ (a b : String) : Prop :=
  ((a.toList.zip b.toList).any fun (c, d) => c != d) = true

instance (a b : String) : Decidable (Differ a b) :=
  inferInstanceAs (Decidable (_ = true))

theorem Differ.not_prefix {a b : String} (h : Differ a b) (x y : String) :
    ¬(a ++ x).toList <+: (b ++ y).toList := by
  simp only [Differ, String.toList_append] at h ⊢
  generalize a.toList = as at h ⊢
  generalize b.toList = bs at h ⊢
  induction as generalizing bs with
  | nil => simp at h
  | cons c as ih =>
    cases bs with
    | nil => simp at h
    | cons d bs =>
      simp only [List.cons_append, List.cons_prefix_cons, not_and]
      rintro rfl
      exact ih bs (by simpa using h)

theorem valueOf?_of_differ {keyword other : String} (h : Differ keyword other) (rest : String) :
    valueOf? keyword (other ++ rest) = none := by
  simp only [valueOf?, h.not_prefix, false_and, if_false]

def IsFlush (text : String) : Prop :=
  text.toList.head?.any (· ≠ ' ') = true

instance (text : String) : Decidable (IsFlush text) :=
  inferInstanceAs (Decidable (_ = true))

theorem bare_row_of_isFlush {text : String} (h : IsFlush text) (depth : Nat) (rest : String) :
    bare (row depth (text ++ rest)) = text ++ rest := by
  refine bare_row depth ?_
  unfold IsFlush at h
  rw [String.toList_append]
  cases hlist : text.toList with
  | nil => simp [hlist] at h
  | cons c cs => simpa [hlist] using h

namespace Stanza

variable (ink : String → String) (depth : Nat) {keyword other : String}

def values (keyword : String) (ink : String → String) (depth : Nat) (s : Stanza) : List String :=
  (rows ink depth s).filterMap fun r => valueOf? keyword (bare r)

theorem values_quoted (h : IsFlush keyword) (value : String) :
    values keyword ink depth (quoted keyword value) = [value] := by
  have hbare := bare_row_of_isFlush h depth (" \"" ++ (value ++ "\""))
  simp only [← String.append_assoc] at hbare
  simp [values, quoted, rows, hbare, valueOf?_quoted]

theorem values_line_of_differ (h : Differ keyword other) (hflush : IsFlush other) (rest : String) :
    values keyword ink depth (.line (other ++ rest)) = [] := by
  simp [values, rows, bare_row_of_isFlush hflush, valueOf?_of_differ h]

theorem values_literal_of_differ (h : Differ keyword other) (hflush : IsFlush other) :
    values keyword ink depth (.line other) = [] := by
  simpa using values_line_of_differ ink depth h hflush ""

theorem values_entry_of_differ (h : Differ keyword other) (hflush : IsFlush other)
    (value : String) : values keyword ink depth (entry other value) = [] := by
  rw [entry, String.append_assoc]
  exact values_line_of_differ ink depth h hflush _

theorem values_quoted_of_differ (h : Differ keyword other) (hflush : IsFlush other)
    (value : String) : values keyword ink depth (quoted other value) = [] := by
  rw [quoted, String.append_assoc, String.append_assoc]
  exact values_line_of_differ ink depth h hflush _

theorem values_block_of_differ (h : Differ keyword other) (hflush : IsFlush other)
    (hend : Differ keyword "END") (body : List Stanza) :
    values keyword ink depth (.block other body) = body.flatMap (values keyword ink (depth + 1)) := by
  have hopening : valueOf? keyword (bare (row depth other)) = none := by
    simpa [values, rows] using values_literal_of_differ ink depth h hflush
  have hclosing : valueOf? keyword (bare (row depth "END")) = none := by
    simpa [values, rows] using values_literal_of_differ ink depth hend (by decide)
  have hinside : (body.flatMap (rows ink (depth + 1))).filterMap
      (fun r => valueOf? keyword (bare r)) = body.flatMap (values keyword ink (depth + 1)) :=
    List.filterMap_flatMap
  simp [values, rows, rowsOfAll_eq, hopening, hclosing, ← hinside]

end Stanza

theorem entries_write {ink : String → String} {sources : List String} {s : Stanza}
    (h : Stanza.IsLined sources s) (hsources : ∀ t ∈ sources, '\n' ∉ t.toList)
    (hink : ∀ n, '\n' ∉ (ink n).toList) (keyword : String) :
    entries keyword (Stanza.write ink 0 [s]) = s.values keyword ink 0 := by
  have hblank : valueOf? keyword (bare []) = none := by
    simp [valueOf?, bare]
  rw [entries, splitOn_write (by simpa using h) hsources hink]
  simp [Stanza.rowsOfAll, Stanza.values, hblank]

theorem mem_entries_of_line {keyword value : String} {front line back : String}
    (hline : '\n' ∉ line.toList) (hvalue : valueOf? keyword (bare line.toList) = some value) :
    value ∈ entries keyword (front ++ "\n" ++ line ++ "\n" ++ back) := by
  refine List.mem_filterMap.mpr ⟨line.toList, Text.mem_splitOn_iff.mpr ⟨hline, ?_⟩, hvalue⟩
  refine ⟨(front ++ "\n").toList, ("\n" ++ back).toList, ?_, ?_, ?_⟩
  · simp [String.append_assoc]
  · simp
  · simp

end Mapfile

namespace MainMap

open Mapfile.Stanza

variable (p : Presentation) (s : Settings) (t : Theme) (levels : List Nat)

theorem isLined_stanza (ht : t ∈ Theme.all) :
    IsLined [s.places.data.text] (stanza p s t levels) := by
  have hliteral {text : String} (h : '\n' ∉ text.toList) :
      BreaksFrom [s.places.data.text] text := .of_oneLine h
  have hquote : BreaksFrom [s.places.data.text] "\"" := hliteral (by decide)
  have hname : BreaksFrom [s.places.data.text] t.name := by
    have hall : ∀ t ∈ Theme.all, '\n' ∉ t.name.toList := by decide
    exact hliteral (hall t ht)
  have hentry {keyword value : String} (hkeyword : '\n' ∉ keyword.toList)
      (hvalue : BreaksFrom [s.places.data.text] value) :
      IsLined [s.places.data.text] (entry keyword value) :=
    .line ((hliteral hkeyword).spaced hvalue)
  have hquoted {keyword value : String} (hkeyword : '\n' ∉ keyword.toList)
      (hvalue : BreaksFrom [s.places.data.text] value) :
      IsLined [s.places.data.text] (quoted keyword value) := by
    rw [quoted_eq_entry]
    exact hentry hkeyword ((hquote.append hvalue).append hquote)
  have hdebug : ∀ x ∈ (if s.debug then debugStanzas else []), IsLined [s.places.data.text] x := by
    split
    · exact List.forall_mem_cons.mpr ⟨hentry (by decide) (hliteral (by decide)),
        List.forall_mem_singleton.mpr (.line (hliteral (by decide)))⟩
    · exact fun x hx => absurd hx List.not_mem_nil
  have hprojection : IsLined [s.places.data.text]
      (.block "PROJECTION" [.line "\"init=epsg:4326\""]) :=
    .block (by decide) (List.forall_mem_singleton.mpr (.line (hliteral (by decide))))
  have hweb : IsLined [s.places.data.text] (.block "WEB" [metadata t]) := by
    have hliterals : ∀ text ∈ ["\"wms_srs\" \"EPSG:4326 EPSG:3857 EPSG:900913\"",
        "\"wms_enable_request\" \"*\"", "\"wms_feature_info_mime_type\" \"text/html\""],
        '\n' ∉ text.toList := by decide
    simp only [List.forall_mem_cons] at hliterals
    obtain ⟨hsrs, hrequest, hmime, -⟩ := hliterals
    refine .block (by decide) (List.forall_mem_singleton.mpr (.block (by decide) ?_))
    simp only [List.forall_mem_cons, List.not_mem_nil, false_implies, implies_true, and_true]
    exact ⟨.line (((hliteral (by decide)).append hname).append hquote), .line (hliteral hsrs),
      .line (hliteral hrequest), .line (hliteral hmime)⟩
  have hincludes : ∀ level ∈ levels,
      IsLined [s.places.data.text] (quoted "INCLUDE" (includePath t level)) := by
    intro level _
    refine hquoted (by decide) (.append (.append (.append (.append ?_ hname) ?_) ?_) ?_)
    · exact hliteral (by decide)
    · exact hliteral (by decide)
    · exact Level.breaksFrom_levelName level
    · exact hliteral (by decide)
  refine .block (by decide) ?_
  simp only [List.forall_mem_append, List.forall_mem_cons, List.forall_mem_map, List.not_mem_nil,
    false_implies, implies_true, and_true]
  refine ⟨⟨⟨⟨?name, ?extent, ?units, ?size, ?image, ?ground, ?data, ?symbols, ?fonts⟩, hdebug⟩,
    hprojection, hweb⟩, hincludes⟩
  case name => exact hquoted (by decide) ((hliteral (by decide)).append hname)
  case ground =>
    exact hentry (by decide) (((BreaksFrom.natText _).spaced (.natText _)).spaced (.natText _))
  case data => exact hquoted (by decide) (.of_mem List.mem_cons_self)
  case symbols =>
    exact hquoted (by decide) (((hliteral (by decide)).append hname).append (hliteral (by decide)))
  case fonts => exact hquoted (by decide) (hliteral (by decide))
  all_goals exact hentry (by decide) (hliteral (by decide))

theorem values_debugStanzas (ink : String → String) (depth : Nat) {keyword : String}
    (h : Differ keyword "DEBUG") (h' : Differ keyword "CONFIG") :
    (if s.debug then debugStanzas else []).flatMap (values keyword ink depth) = [] := by
  have hconfig := values_line_of_differ ink depth h' (by decide) " \"MS_ERRORFILE\" \"stderr\""
  have hdebug := values_entry_of_differ ink depth h (by decide) "5"
  split
  · rw [debugStanzas, List.flatMap_cons, hdebug, List.flatMap_singleton]
    exact hconfig
  · rfl

variable {p s t levels}

theorem entries_text (ht : t ∈ Theme.all) (hdata : '\n' ∉ s.places.data.text.toList)
    (keyword : String) :
    entries keyword (text p s t levels) = (stanza p s t levels).values keyword p.ink 0 :=
  entries_write (isLined_stanza p s t levels ht) (by simpa using hdata)
    (fun n => (p.color n).lineFeed_notMem_hex) keyword

theorem entries_include (ht : t ∈ Theme.all) (hdata : '\n' ∉ s.places.data.text.toList) :
    entries "INCLUDE" (text p s t levels) = levels.map (includePath t) := by
  have hdebug : (if s.debug then debugStanzas else []).flatMap (values "INCLUDE" p.ink 1) = [] :=
    values_debugStanzas s p.ink 1 (by decide) (by decide)
  have hlevels : (levels.map fun level => quoted "INCLUDE" (includePath t level)).flatMap
      (values "INCLUDE" p.ink 1) = levels.map (includePath t) := by
    rw [List.flatMap_map, List.map_eq_flatMap]
    simp (disch := decide) only [values_quoted]
  rw [entries_text ht hdata]
  simp (disch := decide) only [stanza, metadata, values_block_of_differ, List.flatMap_append,
    List.flatMap_cons, List.flatMap_nil, values_entry_of_differ, values_quoted_of_differ,
    values_literal_of_differ, values_line_of_differ, String.append_assoc, hdebug, hlevels,
    List.nil_append, List.append_nil]

theorem entries_symbolSet (ht : t ∈ Theme.all) (hdata : '\n' ∉ s.places.data.text.toList) :
    entries "SYMBOLSET" (text p s t levels) = [symbolSetPath t] := by
  have hdebug : (if s.debug then debugStanzas else []).flatMap (values "SYMBOLSET" p.ink 1) = [] :=
    values_debugStanzas s p.ink 1 (by decide) (by decide)
  have hlevels : (levels.map fun level => quoted "INCLUDE" (includePath t level)).flatMap
      (values "SYMBOLSET" p.ink 1) = [] := by
    simp (disch := decide) only [List.flatMap_map, values_quoted_of_differ]
    simp
  rw [entries_text ht hdata]
  simp (disch := decide) only [stanza, metadata, values_block_of_differ, List.flatMap_append,
    List.flatMap_cons, List.flatMap_nil, values_entry_of_differ, values_quoted,
    values_quoted_of_differ, values_literal_of_differ, values_line_of_differ, String.append_assoc,
    hdebug, hlevels, List.nil_append, List.append_nil]

theorem exists_split_block (ink : String → String) (depth : Nat) (keyword : String)
    {body : List Stanza} {x : Stanza} (h : x ∈ body) : ∃ front back,
    String.join (lines ink depth (.block keyword body)) =
      front ++ String.join (lines ink (depth + 1) x) ++ back := by
  obtain ⟨xs, ys, rfl⟩ := List.append_of_mem h
  refine ⟨indented depth keyword ++ String.join (linesOfAll ink (depth + 1) xs),
    String.join (linesOfAll ink (depth + 1) ys) ++ indented depth "END", ?_⟩
  simp [lines, linesOfAll, linesOfAll_append, String.append_assoc]

theorem mem_entries_of_break {front value : String}
    (hdata : s.places.data.text = front ++ "\n" ++ ("INCLUDE" ++ " \"" ++ value))
    (hvalue : '\n' ∉ value.toList) : value ∈ entries "INCLUDE" (text p s t levels) := by
  have hline : '\n' ∉ ("INCLUDE" ++ " \"" ++ value ++ "\"").toList := by
    have hword : '\n' ∉ ("INCLUDE" ++ " \"").toList := by decide
    rw [String.toList_append, String.toList_append]
    simp only [List.mem_append, hword, hvalue, false_or]
    decide
  have hbare : bare ("INCLUDE" ++ " \"" ++ value ++ "\"").toList =
      "INCLUDE" ++ " \"" ++ value ++ "\"" := by
    have hflush : IsFlush "INCLUDE" := by decide
    have hrow := bare_row_of_isFlush hflush 0 (" \"" ++ (value ++ "\""))
    simpa only [row, Nat.mul_zero, List.replicate_zero, List.nil_append,
      ← String.append_assoc] using hrow
  have hsplit : ∃ before after, text p s t levels =
      before ++ String.join (lines p.ink 1 (quoted "SHAPEPATH" s.places.data.text)) ++ after := by
    unfold text write stanza
    rw [linesOfAll, linesOfAll, List.append_nil]
    exact exists_split_block _ _ _ (by simp)
  obtain ⟨before, after, hsplit⟩ := hsplit
  have htext : text p s t levels = before ++ (indentation 1 ++ "SHAPEPATH" ++ " \"" ++ front) ++
      "\n" ++ ("INCLUDE" ++ " \"" ++ value ++ "\"") ++ "\n" ++ after := by
    rw [hsplit, hdata]
    simp [quoted, lines, indented, String.append_assoc]
  rw [htext]
  refine mem_entries_of_line hline ?_
  rw [hbare]
  exact valueOf?_quoted "INCLUDE" value

end MainMap

end SeaChart
