import SeaChart.Proofs.BlockReading

namespace SeaChart

open Mapfile
open Mapfile.Stanza (items itemsOfAll itemsOfAll_eq)

theorem forall₂_flatMap {α : Type} {R : α → Item → Prop} {f : α → List Item} {xs : List α}
    (h : ∀ x ∈ xs, ∃ item, f x = [item] ∧ R x item) : List.Forall₂ R xs (xs.flatMap f) := by
  induction xs with
  | nil => exact .nil
  | cons x xs ih =>
    obtain ⟨hfirst, hothers⟩ := List.forall_mem_cons.mp h
    obtain ⟨item, hitem, hr⟩ := hfirst
    rw [List.flatMap_cons, hitem, List.singleton_append]
    exact .cons hr (ih hothers)

theorem flatMap_filter_of_nil {α β : Type} {f : α → List β} {q : α → Bool}
    (h : ∀ x, q x = false → f x = []) (xs : List α) : (xs.filter q).flatMap f = xs.flatMap f := by
  induction xs with
  | nil => rfl
  | cons x xs ih =>
    cases hx : q x with
    | false => simp [hx, h x hx, ih]
    | true => simp [hx, ih]

theorem Color.lineFeed_notMem_hex (c : Color) : '\n' ∉ c.hex.toList := by
  have hdigit : ∀ n < 16, hexDigit n ≠ '\n' := by decide
  have hhigh (b : UInt8) : '\n' ≠ hexDigit (b.toNat / 16) := by
    have := b.toNat_lt
    exact (hdigit _ (by omega)).symm
  have hlow (b : UInt8) : '\n' ≠ hexDigit (b.toNat % 16) :=
    (hdigit _ (Nat.mod_lt _ (by decide))).symm
  simp [hex, hexDigits, hexPair, hhigh, hlow]

namespace Instruction

def isDrawable (p : Presentation) : Instruction → Bool
  | .complexLine name => p.lineStyles.contains name
  | .areaPattern name _ => p.patterns.contains name
  | .procedure _ => false
  | .unknown _ => false
  | _ => true

def IsDrawnAs (p : Presentation) (g : Geometry) (i : Instruction) (item : Item) : Prop :=
  itemsOfAll p.ink (i.stanzas p g) = [item] ∧
    ∃ body, item = .block (if i.isLabel then "LABEL" else "STYLE") body

theorem exists_isDrawnAs (p : Presentation) (g : Geometry) {i : Instruction}
    (h : i.isDrawable p = true) : ∃ item, i.IsDrawnAs p g item := by
  cases i with
  | symbol name rotation => exact ⟨_, rfl, _, rfl⟩
  | simpleLine style width color => exact ⟨_, rfl, _, rfl⟩
  | complexLine name =>
    obtain ⟨d, hd⟩ := Option.isSome_iff_exists.mp h
    have hstanzas : stanzas p g (.complexLine name) = [d.lineStanza name g] := by
      rw [stanzas, hd]
      rfl
    cases g <;> exact ⟨_, by rw [hstanzas]; rfl, _, rfl⟩
  | areaColor color transparency => exact ⟨_, rfl, _, rfl⟩
  | areaPattern name rotation =>
    obtain ⟨f, hf⟩ := Option.isSome_iff_exists.mp h
    have hstanzas : stanzas p g (.areaPattern name rotation) = [f.stanza name rotation] := by
      rw [stanzas, hf]
      rfl
    exact ⟨_, by rw [hstanzas]; rfl, _, rfl⟩
  | label l => exact ⟨_, rfl, _, rfl⟩
  | procedure name => cases h
  | unknown text => cases h

theorem stanzas_of_not_isDrawable (p : Presentation) (g : Geometry) {i : Instruction}
    (h : i.isDrawable p = false) : i.stanzas p g = [] := by
  cases i with
  | complexLine name =>
    rw [isDrawable, Dictionary.contains, Option.isSome_eq_false_iff, Option.isNone_iff_eq_none] at h
    rw [stanzas, h]
    rfl
  | areaPattern name rotation =>
    rw [isDrawable, Dictionary.contains, Option.isSome_eq_false_iff, Option.isNone_iff_eq_none] at h
    rw [stanzas, h]
    rfl
  | procedure name => rfl
  | unknown text => rfl
  | _ => cases h

end Instruction

namespace Layer

def IsLightLabel (description : String) (item : Item) : Prop :=
  ∃ body, item = .block "LABEL" (.line ("TEXT " ++ description) :: body)

inductive IsClass (p : Presentation) (l : Layer) (r : Rule) : Item → Prop
  | intro {drawn lights : List Item}
      (hdrawn : List.Forall₂ (Instruction.IsDrawnAs p l.geometry)
        (r.instructions.filter fun i => l.canDraw i && i.isDrawable p) drawn)
      (hlights : List.Forall₂ IsLightLabel
        (if l.describesLights then l.lightDescription.toList else []) lights) :
    IsClass p l r
      (.block "CLASS"
        (.line ("NAME \"" ++ (l.feature ++ " " ++ r.id) ++ "\"") ::
          ((if r.condition.isTrivial then []
            else [.line ("EXPRESSION " ++ r.condition.expression)]) ++ drawn ++ lights)))

inductive IsLayer (p : Presentation) (l : Layer) : Item → Prop
  | intro {header metadata : List String} {classes : List Item}
      (hheader : header.head? = some ("NAME \"" ++ l.name ++ "\""))
      (hclasses : List.Forall₂ (IsClass p l) l.rules classes) :
    IsLayer p l
      (.block "LAYER"
        (header.map .line ++ .block "METADATA" (metadata.map .line) :: classes))

theorem forall₂_isDrawnAs (p : Presentation) (l : Layer) (is : List Instruction) :
    List.Forall₂ (Instruction.IsDrawnAs p l.geometry)
      (is.filter fun i => l.canDraw i && i.isDrawable p)
      (itemsOfAll p.ink ((is.filter l.canDraw).flatMap (·.stanzas p l.geometry))) := by
  have hnone (i : Instruction) (hi : i.isDrawable p = false) :
      itemsOfAll p.ink (i.stanzas p l.geometry) = [] := by
    rw [i.stanzas_of_not_isDrawable p l.geometry hi]
    rfl
  have hfilter : (is.filter fun i => l.canDraw i && i.isDrawable p) =
      (is.filter l.canDraw).filter (·.isDrawable p) := by
    rw [List.filter_filter]
    exact List.filter_congr fun i _ => Bool.and_comm _ _
  have hitems : itemsOfAll p.ink ((is.filter l.canDraw).flatMap (·.stanzas p l.geometry)) =
      ((is.filter l.canDraw).filter (·.isDrawable p)).flatMap fun i =>
        itemsOfAll p.ink (i.stanzas p l.geometry) := by
    rw [flatMap_filter_of_nil hnone]
    simp only [itemsOfAll_eq, List.flatMap_assoc]
  rw [hfilter, hitems]
  apply forall₂_flatMap
  intro i hi
  obtain ⟨item, hitem⟩ := i.exists_isDrawnAs p l.geometry (List.mem_filter.mp hi).2
  exact ⟨item, hitem.1, hitem⟩

theorem forall₂_isLightLabel (p : Presentation) (l : Layer) :
    List.Forall₂ IsLightLabel (if l.describesLights then l.lightDescription.toList else [])
      (itemsOfAll p.ink l.lightStanzas) := by
  have hlabels : l.lightStanzas =
      (if l.describesLights then l.lightDescription.toList else []).map lightLabel := by
    unfold lightStanzas
    split <;> rfl
  rw [hlabels, itemsOfAll_eq, List.flatMap_map]
  apply forall₂_flatMap
  intro description _
  exact ⟨_, rfl, _, rfl⟩

theorem isClass_classStanza (p : Presentation) (l : Layer) (r : Rule) :
    ∃ item, items p.ink (l.classStanza p r) = [item] ∧ IsClass p l r item := by
  have hexpression : itemsOfAll p.ink (expressionStanzas r.condition) =
      if r.condition.isTrivial then []
      else [.line ("EXPRESSION " ++ r.condition.expression)] := by
    unfold expressionStanzas
    split <;> rfl
  refine ⟨_, rfl, ?_⟩
  rw [itemsOfAll, itemsOfAll_eq, List.flatMap_append, List.flatMap_append]
  simp only [← itemsOfAll_eq]
  rw [hexpression]
  exact .intro (forall₂_isDrawnAs p l r.instructions) (forall₂_isLightLabel p l)

theorem isLayer_stanzas (p : Presentation) {l : Layer} (h : l.isEmpty = false) :
    ∃ item, itemsOfAll p.ink (l.stanzas p) = [item] ∧ IsLayer p l item := by
  have hclasses : List.Forall₂ (IsClass p l) l.rules
      (l.rules.flatMap fun r => items p.ink (l.classStanza p r)) :=
    forall₂_flatMap fun r _ => isClass_classStanza p l r
  have hbody : itemsOfAll p.ink (l.classes p) =
      l.rules.flatMap fun r => items p.ink (l.classStanza p r) := by
    rw [classes, itemsOfAll_eq, List.flatMap_map]
  rw [stanzas, h]
  refine ⟨_, rfl, ?_⟩
  rw [itemsOfAll_eq, List.flatMap_append, ← itemsOfAll_eq (l.classes p), hbody]
  let header : List String :=
    ["NAME \"" ++ l.name ++ "\"", "GROUP \"" ++ l.group ++ "\"", "TYPE " ++ l.geometry.layerType,
      "STATUS ON", "MAXSCALEDENOM " ++ Text.natText l.maxScale, "DATA \"" ++ l.data ++ "\""]
  let metadata : List String :=
    ["\"ows_title\" \"" ++ l.feature ++ "\"", "\"gml_include_items\" \"all\"",
      "\"wms_feature_mime_type\" \"text/html\""]
  have hheader : header.head? = some ("NAME \"" ++ l.name ++ "\"") := rfl
  exact @IsLayer.intro p l header metadata _ hheader hclasses

end Layer

namespace Level

/--
If no embedded text breaks a line, the text of a level is read as one block for each layer, in
drawing order, and each line that is not blank stands four spaces deep for each block open around
it.
-/
theorem text_read (p : Presentation) (level maxScale : Nat) (files : List Shapefile)
    (h : ∀ t ∈ texts p files, '\n' ∉ t.toList) :
    let written := text p level maxScale files
    IsIndented 0 (written.toList.splitOn '\n') ∧
      ∃ read, readBlocks written = some read ∧
        List.Forall₂ (Layer.IsLayer p) (layers p level maxScale files) read := by
  intro written
  have hshaped := isShaped_stanzas p level maxScale files
  obtain ⟨hread, hindented⟩ := readBlocks_write p.ink hshaped h fun n =>
    (p.color n).lineFeed_notMem_hex
  refine ⟨hindented, _, hread, ?_⟩
  have hlayers : itemsOfAll p.ink (stanzas p level maxScale files) =
      (layers p level maxScale files).flatMap fun l => itemsOfAll p.ink (l.stanzas p) := by
    simp [stanzas, itemsOfAll_eq, List.flatMap_assoc, items]
  rw [hlayers]
  apply forall₂_flatMap
  intro l hl
  obtain ⟨f, -, -, hempty⟩ := exists_file_of_mem_layers hl
  exact l.isLayer_stanzas p hempty

theorem text_read_lights :
    let r : Rule :=
      { id := "34", condition := .conj [.isSet "COLOUR"]
        instructions :=
          [.symbol "LIGHTS11" (some (.byAttribute "ORIENT")), .areaPattern "AIRARE02" none,
            .label (Label.ofArguments (.literal "END") [])] }
    let p : Presentation := { (default : Presentation) with points := ⟨[("LIGHTS", [r])]⟩ }
    let files : List Shapefile := [⟨3, .point, "LIGHTS", none⟩, ⟨3, .line, "COALNE", some []⟩]
    let written := text p 3 1200000 files
    let light : List Item :=
      [.line "NAME \"CL3-Point-LIGHTS\"", .line "GROUP \"CL3\"", .line "TYPE POINT",
        .line "STATUS ON", .line "MAXSCALEDENOM 1200000", .line "DATA \"CL3/CL3-Point-LIGHTS\"",
        .block "METADATA"
          [.line "\"ows_title\" \"LIGHTS\"", .line "\"gml_include_items\" \"all\"",
            .line "\"wms_feature_mime_type\" \"text/html\""],
        .block "CLASS"
          [.line "NAME \"LIGHTS 34\"", .line "EXPRESSION (\"[COLOUR]\" != \"\")",
            .block "STYLE" [.line "SYMBOL \"LIGHTS11\"", .line "ANGLE [ORIENT]"],
            .block "LABEL"
              [.line "TEXT 'END'", .line "FONT \"sc\"", .line "SIZE 10",
                .line "COLOR \"#FF00FF\"", .line "POSITION uc", .line "PARTIALS FALSE"],
            .block "LABEL"
              [.line "TEXT '[SIGGRP] [SIGPER]s [VALNMR]M'", .line "FONT \"sc\"", .line "SIZE 8",
                .line "COLOR \"#FF00FF\"", .line "POSITION cr", .line "OFFSET 10 0",
                .line "PARTIALS FALSE"]]]
    (∀ t ∈ texts p files, '\n' ∉ t.toList) ∧
      IsIndented 0 (written.toList.splitOn '\n') ∧
      (layers p 3 1200000 files).map Layer.name = ["CL3-Point-LIGHTS"] ∧
      readBlocks written = some [.block "LAYER" light] ∧
      List.Forall₂ (Layer.IsLayer p) (layers p 3 1200000 files) [.block "LAYER" light] := by
  intro r p files written light
  have hlines : ∀ t ∈ texts p files, '\n' ∉ t.toList := by decide +kernel
  have hitems : itemsOfAll p.ink (stanzas p 3 1200000 files) = [.block "LAYER" light] := by
    decide +kernel
  have hnames : (layers p 3 1200000 files).map Layer.name = ["CL3-Point-LIGHTS"] := by
    decide +kernel
  have hshaped := isShaped_stanzas p 3 1200000 files
  obtain ⟨hlight, -⟩ := readBlocks_write p.ink hshaped hlines fun n =>
    (p.color n).lineFeed_notMem_hex
  rw [hitems] at hlight
  obtain ⟨hindented, read, hread, hlayers⟩ := text_read p 3 1200000 files hlines
  obtain rfl := Option.some.inj (hlight.symm.trans hread)
  exact ⟨hlines, hindented, hnames, hlight, hlayers⟩

end Level

end SeaChart
