import Mathlib.Data.List.Basic
import SeaChart.Mapfile.Style
import SeaChart.Mapfile.SymbolSet
import SeaChart.Presentation.Reader
import SeaChart.Proofs.DictionaryOrder

namespace SeaChart

open Mapfile
open Mapfile.Stanza (entry quoted)

namespace Mapfile.Stanza

theorem entry_eq_entry {k l : String} (v w : String) (hk : ' ' ∉ k.toList) (hl : ' ' ∉ l.toList) :
    entry k v = entry l w ↔ k = l ∧ v = w := by
  have hblank : (" " : String).toList = [' '] := rfl
  simp only [entry, line.injEq, ← String.toList_inj, String.toList_append, hblank,
    List.append_assoc, List.singleton_append]
  exact Text.append_cons_inj hk hl

theorem quoted_eq_entry (k v : String) : quoted k v = entry k ("\"" ++ v ++ "\"") := by
  have hopen : (" \"" : String) = " " ++ "\"" := rfl
  simp only [quoted, entry, hopen, String.append_assoc]

theorem quoted_symbol_ne_entry {k : String} (v w : String) (hk : ' ' ∉ k.toList)
    (hne : k ≠ "SYMBOL") : quoted "SYMBOL" v ≠ entry k w := by
  rw [quoted_eq_entry, ne_eq, entry_eq_entry _ _ (by decide) hk]
  exact fun h => hne h.1.symm

theorem quoted_inj (k v w : String) : quoted k v = quoted k w ↔ v = w := by
  simp [quoted]

end Mapfile.Stanza

inductive ArtworkKind where
  | sprite
  | lineStyle
  | pattern
deriving DecidableEq

namespace Presentation

structure Named (p : Presentation) : Prop where
  sprites : p.sprites.Keyed (·.name)
  lineStyles : p.lineStyles.Keyed (·.name)
  patterns : p.patterns.Keyed (·.name)

def depicts (p : Presentation) : ArtworkKind → String → Bool
  | .sprite, name => p.sprites.contains name
  | .lineStyle, name => (p.lineStyles.find? name).any fun d => !d.strokes.isEmpty
  | .pattern, name =>
    (p.patterns.find? name).any fun f =>
      match f.motif with
      | .sprite _ => true
      | .drawing d => !d.strokes.isEmpty

theorem keyed_artwork {α : Type} (root : Markup.Node) (name : String)
    (read : Markup.Node → Option α) (nameOf : α → String) :
    (artwork root name read nameOf).Keyed nameOf :=
  Dictionary.keyed_ofList nameOf _

theorem named_ofRoot (s : Selection) (root : Markup.Node) : (ofRoot s root).Named :=
  ⟨keyed_artwork _ _ _ _, keyed_artwork _ _ _ _, keyed_artwork _ _ _ _⟩

theorem Named.withPalette {p : Presentation} (h : p.Named) (palette : String) :
    (p.withPalette palette).Named :=
  ⟨h.sprites, h.lineStyles, h.patterns⟩

end Presentation

namespace SymbolSet

def symbolsOf (p : Presentation) (t : Theme) : ArtworkKind → String → List Stanza
  | .sprite, name => (p.sprites.find? name).toList.map fun s => imageSymbol t s.name
  | .lineStyle, name => (p.lineStyles.find? name).toList.flatMap fun d => vectorSymbols d.name d
  | .pattern, name => (p.patterns.find? name).toList.flatMap (patternSymbols t)

def isNamed (name : String) : Stanza → Bool
  | .block "SYMBOL" (.line text :: _) => text = "NAME \"" ++ name ++ "\""
  | _ => false

def named (p : Presentation) (t : Theme) (name : String) : List Stanza :=
  match stanza p t with
  | .block _ symbols => symbols.filter (isNamed name)
  | _ => []

theorem isNamed_quoted (name other : String) (body : List Stanza) :
    isNamed name (.block "SYMBOL" (quoted "NAME" other :: body)) = decide (other = name) := by
  have htext : (quoted "NAME" other : Stanza) = .line ("NAME \"" ++ other ++ "\"") := by
    have : ("NAME \"" : String) = "NAME" ++ " \"" := rfl
    rw [this]
    rfl
  rw [htext]
  simp [isNamed]

theorem filter_vectorSymbols (name other : String) (d : Drawing) :
    (vectorSymbols other d).filter (isNamed name) =
      if other = name then vectorSymbols other d else [] := by
  unfold vectorSymbols
  split
  · simp
  · by_cases h : other = name <;> simp [isNamed_quoted, h]

theorem filter_imageSymbol (t : Theme) (name other : String) :
    [imageSymbol t other].filter (isNamed name) =
      if other = name then [imageSymbol t other] else [] := by
  by_cases h : other = name <;> simp [imageSymbol, isNamed_quoted, h]

theorem filter_patternSymbols (t : Theme) (name : String) (f : FillPattern) :
    (patternSymbols t f).filter (isNamed name) =
      if f.name = name then patternSymbols t f else [] := by
  unfold patternSymbols
  split
  · exact filter_imageSymbol t name f.name
  · exact filter_vectorSymbols name f.name _

theorem filter_flatMap_values {α : Type} {nameOf : α → String} {d : Dictionary α}
    (hd : d.Keyed nameOf) {symbols : α → List Stanza} {name : String}
    (hsymbols : ∀ v, (symbols v).filter (isNamed name) =
      if nameOf v = name then symbols v else []) :
    (d.values.flatMap symbols).filter (isNamed name) =
      (d.find? name).toList.flatMap symbols := by
  simp only [← hd.filter_values, List.filter_flatMap, hsymbols]
  induction d.values with
  | nil => rfl
  | cons v vs ih => by_cases h : nameOf v = name <;> simp [h, ih]

theorem named_eq {p : Presentation} (hp : p.Named) (t : Theme) (name : String) :
    named p t name =
      symbolsOf p t .sprite name ++ symbolsOf p t .lineStyle name ++
        symbolsOf p t .pattern name := by
  simp only [named, stanza, List.filter_append, symbolsOf, List.map_eq_flatMap]
  rw [filter_flatMap_values hp.sprites fun s => filter_imageSymbol t name s.name,
    filter_flatMap_values hp.lineStyles fun d => filter_vectorSymbols name d.name d,
    filter_flatMap_values hp.patterns (filter_patternSymbols t name)]

theorem length_vectorSymbols (name : String) (d : Drawing) :
    (vectorSymbols name d).length = (!d.strokes.isEmpty).toNat := by
  cases h : d.strokes.isEmpty <;> simp [vectorSymbols, h]

theorem length_symbolsOf (p : Presentation) (t : Theme) (kind : ArtworkKind) (name : String) :
    (symbolsOf p t kind name).length = (p.depicts kind name).toNat := by
  cases kind with
  | sprite =>
    cases h : p.sprites.find? name <;>
      simp [Presentation.depicts, symbolsOf, Dictionary.contains, h]
  | lineStyle =>
    cases h : p.lineStyles.find? name <;>
      simp [Presentation.depicts, symbolsOf, length_vectorSymbols, h]
  | pattern =>
    cases h : p.patterns.find? name with
    | none => simp [Presentation.depicts, symbolsOf, h]
    | some f =>
      cases hmotif : f.motif <;>
        simp [Presentation.depicts, symbolsOf, patternSymbols, length_vectorSymbols, h, hmotif]

theorem named_eq_singleton_iff {p : Presentation} (hp : p.Named) (t : Theme) (kind : ArtworkKind)
    (name : String) :
    (∃ b, named p t name = [b] ∧ symbolsOf p t kind name = [b]) ↔
      p.depicts kind name = true ∧ ∀ other, other ≠ kind → p.depicts other name = false := by
  rw [named_eq hp]
  constructor
  · rintro ⟨b, hnamed, hown⟩
    have hall := congrArg List.length hnamed
    have hone := congrArg List.length hown
    simp only [List.length_append, length_symbolsOf, List.length_singleton] at hall hone
    refine ⟨Bool.toNat_eq_one.mp hone, ?_⟩
    intro other hother
    rw [← Bool.toNat_eq_zero]
    cases kind <;> cases other <;> first | exact absurd rfl hother | omega
  · rintro ⟨hown, hothers⟩
    obtain ⟨b, hb⟩ : ∃ b, symbolsOf p t kind name = [b] := by
      rw [← List.length_eq_one_iff, length_symbolsOf, hown, Bool.toNat_true]
    refine ⟨b, ?_, hb⟩
    have hnone (other : ArtworkKind) (hother : other ≠ kind) : symbolsOf p t other name = [] := by
      rw [← List.length_eq_zero_iff, length_symbolsOf, hothers other hother, Bool.toNat_false]
    cases kind with
    | sprite => simp [hb, hnone .lineStyle, hnone .pattern]
    | lineStyle => simp [hb, hnone .sprite, hnone .pattern]
    | pattern => simp [hb, hnone .sprite, hnone .lineStyle]

end SymbolSet

namespace Instruction

def artwork? : Instruction → Option (ArtworkKind × String)
  | .complexLine name => some (.lineStyle, name)
  | .areaPattern name _ => some (.pattern, name)
  | _ => none

theorem symbol_of_lineStanza {d : Drawing} {name m : String} {g : Geometry} {body : List Stanza}
    (hstyle : .block "STYLE" body = d.lineStanza name g) (hsymbol : quoted "SYMBOL" m ∈ body) :
    m = name := by
  cases g with
  | area =>
    cases hstyle
    have hdashes : (.line "PATTERN 10 5 END" : Stanza) = entry "PATTERN" "10 5 END" := rfl
    simp only [hdashes, List.mem_cons, List.not_mem_nil, or_false] at hsymbol
    rcases hsymbol with h | h | h
    · cases h
    · exact absurd h (Stanza.quoted_symbol_ne_entry m _ (by decide) (by decide))
    · exact absurd h (Stanza.quoted_symbol_ne_entry m _ (by decide) (by decide))
  | _ =>
    cases hstyle
    simp only [List.mem_cons, List.not_mem_nil, or_false] at hsymbol
    rcases hsymbol with h | h | h | h
    · exact (Stanza.quoted_inj _ m name).mp h
    · cases h
    · exact absurd h (Stanza.quoted_symbol_ne_entry m _ (by decide) (by decide))
    · exact absurd h (Stanza.quoted_symbol_ne_entry m _ (by decide) (by decide))

theorem symbol_of_patternStanza {f : FillPattern} {name m : String} {rotation : Option Rotation}
    {body : List Stanza} (hstyle : .block "STYLE" body = f.stanza name rotation)
    (hsymbol : quoted "SYMBOL" m ∈ body) : m = name := by
  cases hstyle
  rcases List.mem_cons.mp hsymbol with h | h
  · exact (Stanza.quoted_inj _ m name).mp h
  rcases List.mem_append.mp h with h | h
  · unfold FillPattern.motifStanzas at h
    split at h
    · simp only [List.mem_cons, List.not_mem_nil, or_false] at h
      rcases h with h | h | h
      · cases h
      · exact absurd h (Stanza.quoted_symbol_ne_entry m _ (by decide) (by decide))
      · exact absurd h (Stanza.quoted_symbol_ne_entry m _ (by decide) (by decide))
    · exact absurd (List.mem_singleton.mp h)
        (Stanza.quoted_symbol_ne_entry m _ (by decide) (by decide))
  · cases rotation with
    | none => cases h
    | some r =>
      have hangle := List.mem_singleton.mp h
      cases r with
      | fixed angle =>
        exact absurd hangle (Stanza.quoted_symbol_ne_entry m _ (by decide) (by decide))
      | byAttribute a =>
        exact absurd hangle (Stanza.quoted_symbol_ne_entry m _ (by decide) (by decide))

theorem symbol_of_style {p : Presentation} {g : Geometry} {i : Instruction} {kind : ArtworkKind}
    {name m : String} {body : List Stanza} (hi : i.artwork? = some (kind, name))
    (hstyle : .block "STYLE" body ∈ i.stanzas p g) (hsymbol : quoted "SYMBOL" m ∈ body) :
    m = name := by
  cases i with
  | complexLine n =>
    cases hi
    obtain ⟨d, -, hd⟩ := List.mem_map.mp hstyle
    exact symbol_of_lineStanza hd.symm hsymbol
  | areaPattern n rotation =>
    cases hi
    obtain ⟨f, -, hf⟩ := List.mem_map.mp hstyle
    exact symbol_of_patternStanza hf.symm hsymbol
  | _ => cases hi

/--
A style of a complex line or a pattern refers to the one symbol of its own artwork just when this
gives a symbol and no other artwork of the name does, whatever document the artwork is read from.
-/
theorem symbolReference_resolves_iff (s : Selection) (root : Markup.Node) (palette : String)
    (t : Theme) {g : Geometry} {i : Instruction} {kind : ArtworkKind} {name m : String}
    {body : List Stanza} (hi : i.artwork? = some (kind, name))
    (hstyle : .block "STYLE" body ∈
      i.stanzas ((Presentation.ofRoot s root).withPalette palette) g)
    (hsymbol : quoted "SYMBOL" m ∈ body) :
    m = name ∧
      ((∃ b, SymbolSet.named ((Presentation.ofRoot s root).withPalette palette) t m = [b] ∧
          SymbolSet.symbolsOf ((Presentation.ofRoot s root).withPalette palette) t kind name =
            [b]) ↔
        (Presentation.ofRoot s root).depicts kind name = true ∧
          ∀ other, other ≠ kind → (Presentation.ofRoot s root).depicts other name = false) := by
  have hm := symbol_of_style hi hstyle hsymbol
  have hp := (Presentation.named_ofRoot s root).withPalette palette
  rw [hm]
  exact ⟨rfl, SymbolSet.named_eq_singleton_iff hp t kind name⟩

def lineStyleElement (name commands : String) : Markup.Node :=
  .element "line-style" []
    [.element "name" [] [.text name],
      .element "vector" [("width", "320"), ("height", "32")] [],
      .element "HPGL" [] [.text commands]]

def boundaries : Markup.Node :=
  .element "chartsymbols" []
    [.element "symbol" []
        [.element "name" [] [.text "ENTRES51"],
          .element "bitmap" [("width", "15"), ("height", "15")]
            [.element "pivot" [("x", "7"), ("y", "7")] []]],
      lineStyleElement "ENTRES51" "SPA;SW1;PU0,0;PD320,0;",
      lineStyleElement "FSHRES51" "SPA;SW1;PU0,0;",
      lineStyleElement "CTYARE51" "SPA;SW1;PU0,0;PD320,0;"]

theorem exists_style_of_isSome {p : Presentation} {name : String}
    (h : (p.lineStyles.find? name).isSome = true) :
    ∃ body, .block "STYLE" body ∈ (complexLine name).stanzas p .line ∧
      quoted "SYMBOL" name ∈ body := by
  obtain ⟨d, hd⟩ := Option.isSome_iff_exists.mp h
  refine ⟨_, List.mem_map.mpr ⟨d, ?_, rfl⟩, List.mem_cons_self⟩
  simp [hd]

theorem symbolReference_resolves_boundaries :
    ∃ m body, .block "STYLE" body ∈ (complexLine "CTYARE51").stanzas
        ((Presentation.ofRoot {} boundaries).withPalette "DUSK") .line ∧
      quoted "SYMBOL" m ∈ body ∧
      m = "CTYARE51" ∧
      ((∃ b, SymbolSet.named ((Presentation.ofRoot {} boundaries).withPalette "DUSK") .dusk m =
            [b] ∧
          SymbolSet.symbolsOf ((Presentation.ofRoot {} boundaries).withPalette "DUSK") .dusk
            .lineStyle "CTYARE51" = [b]) ↔
        (Presentation.ofRoot {} boundaries).depicts .lineStyle "CTYARE51" = true ∧
          ∀ other, other ≠ .lineStyle →
            (Presentation.ofRoot {} boundaries).depicts other "CTYARE51" = false) := by
  obtain ⟨body, hstyle, hsymbol⟩ := exists_style_of_isSome
    (by decide +kernel : (((Presentation.ofRoot {} boundaries).withPalette "DUSK").lineStyles.find?
      "CTYARE51").isSome = true)
  exact ⟨_, body, hstyle, hsymbol,
    symbolReference_resolves_iff {} boundaries "DUSK" .dusk rfl hstyle hsymbol⟩

theorem exists_style_of_length_ne_one {p : Presentation} {t : Theme} {name : String}
    (h : (p.lineStyles.find? name).isSome = true)
    (hlength : (SymbolSet.named p t name).length ≠ 1) :
    ∃ body, .block "STYLE" body ∈ (complexLine name).stanzas p .line ∧
      quoted "SYMBOL" name ∈ body ∧ ¬∃ b, SymbolSet.named p t name = [b] := by
  obtain ⟨body, hstyle, hsymbol⟩ := exists_style_of_isSome h
  refine ⟨body, hstyle, hsymbol, ?_⟩
  rw [← List.length_eq_one_iff]
  exact hlength

/-- One name has the symbols of the sprite and of the line style, the other name has none. -/
theorem symbolReference_unresolved :
    (∃ body, .block "STYLE" body ∈
        (complexLine "ENTRES51").stanzas (Presentation.ofRoot {} boundaries) .line ∧
      quoted "SYMBOL" "ENTRES51" ∈ body ∧
      ¬∃ b, SymbolSet.named (Presentation.ofRoot {} boundaries) .day "ENTRES51" = [b]) ∧
    ∃ body, .block "STYLE" body ∈
        (complexLine "FSHRES51").stanzas (Presentation.ofRoot {} boundaries) .line ∧
      quoted "SYMBOL" "FSHRES51" ∈ body ∧
      ¬∃ b, SymbolSet.named (Presentation.ofRoot {} boundaries) .day "FSHRES51" = [b] := by
  constructor
  · apply exists_style_of_length_ne_one
    · decide +kernel
    · decide +kernel
  · apply exists_style_of_length_ne_one
    · decide +kernel
    · decide +kernel

end Instruction

end SeaChart
