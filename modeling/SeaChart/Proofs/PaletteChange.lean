import SeaChart.Proofs.StanzaShape

namespace SeaChart

open Mapfile

namespace Color

theorem utf8Size_hexDigit {n : Nat} (h : n < 16) : (hexDigit n).utf8Size = 1 := by
  have hall : ∀ n < 16, (hexDigit n).utf8Size = 1 := by decide
  exact hall n h

theorem utf8ByteSize_hex (c : Color) : c.hex.utf8ByteSize = 9 := by
  have hhigh (b : UInt8) : (hexDigit (b.toNat / 16)).utf8Size = 1 := by
    apply utf8Size_hexDigit
    have := b.toNat_lt
    omega
  have hlow (b : UInt8) : (hexDigit (b.toNat % 16)).utf8Size = 1 :=
    utf8Size_hexDigit (Nat.mod_lt _ (by decide))
  have hquote : ("\"" : String).utf8ByteSize = 1 := rfl
  have hsharp : ("#" : String).utf8ByteSize = 1 := rfl
  simp [hex, hexDigits, hexPair, String.ofList_cons, hhigh, hlow, hquote, hsharp]

end Color

namespace Mapfile

inductive Recolored : String → String → Prop
  | nil : Recolored "" ""
  | line (text : String) {s t : String} (h : Recolored s t) :
    Recolored (text ++ "\n" ++ s) (text ++ "\n" ++ t)
  | color {keyword : String} (hkeyword : keyword ∈ Stanza.colorKeywords) (depth : Nat)
      (c d : Color) {s t : String} (h : Recolored s t) :
    Recolored (Stanza.indentation depth ++ keyword ++ " " ++ c.hex ++ "\n" ++ s)
      (Stanza.indentation depth ++ keyword ++ " " ++ d.hex ++ "\n" ++ t)

theorem Recolored.length_eq {s t : String} (h : Recolored s t) : s.length = t.length := by
  induction h with
  | nil => rfl
  | line text h ih => simp only [String.length_append, ih]
  | color hkeyword depth c d h ih => simp only [String.length_append, Color.length_hex, ih]

theorem Recolored.utf8ByteSize_eq {s t : String} (h : Recolored s t) :
    s.utf8ByteSize = t.utf8ByteSize := by
  induction h with
  | nil => rfl
  | line text h ih => simp only [String.utf8ByteSize_append, ih]
  | color hkeyword depth c d h ih =>
    simp only [String.utf8ByteSize_append, Color.utf8ByteSize_hex, ih]

namespace Stanza

variable {sources : List String} (ink ink' : String → Color)

def Recolors (s : Stanza) : Prop :=
  ∀ (depth : Nat) {u v : String}, Recolored u v →
    Recolored (String.join (lines (fun n => (ink n).hex) depth s) ++ u)
      (String.join (lines (fun n => (ink' n).hex) depth s) ++ v)

theorem recolored_linesOfAll {ss : List Stanza} (h : ∀ s ∈ ss, Recolors ink ink' s) (depth : Nat)
    {u v : String} (huv : Recolored u v) :
    Recolored (String.join (linesOfAll (fun n => (ink n).hex) depth ss) ++ u)
      (String.join (linesOfAll (fun n => (ink' n).hex) depth ss) ++ v) := by
  induction ss with
  | nil => simpa [linesOfAll] using huv
  | cons s ss ih =>
    obtain ⟨hfirst, hothers⟩ := List.forall_mem_cons.mp h
    have hwhole := hfirst depth (ih hothers)
    simpa [linesOfAll, String.append_assoc] using hwhole

theorem IsShaped.recolors {s : Stanza} (h : IsShaped sources s) : Recolors ink ink' s := by
  have hline (depth : Nat) (text : String) {u v : String} (huv : Recolored u v) :
      Recolored (indented depth text ++ u) (indented depth text ++ v) :=
    .line (indentation depth ++ text) huv
  induction h with
  | line h =>
    intro depth u v huv
    simpa [lines] using hline depth _ huv
  | @color keyword name hkeyword =>
    intro depth u v huv
    have hcolor := Recolored.color hkeyword depth (ink name) (ink' name) huv
    simpa [lines, indented, String.append_assoc] using hcolor
  | blank =>
    intro depth u v huv
    simpa [lines] using Recolored.line "" huv
  | @block keyword body hkeyword hbody ih =>
    intro depth u v huv
    have hinside := recolored_linesOfAll ink ink' ih (depth + 1) (hline depth "END" huv)
    simpa [lines, String.append_assoc] using hline depth keyword hinside

end Stanza

end Mapfile

namespace Level

theorem layers_withPalette (p : Presentation) (palette : String) (level maxScale : Nat)
    (files : List Shapefile) :
    layers (p.withPalette palette) level maxScale files = layers p level maxScale files := by
  have hlayer : layerOf (p.withPalette palette) level maxScale = layerOf p level maxScale := by
    funext f
    simp only [layerOf, Layer.ofFeature, Presentation.rules_withPalette]
  rw [layers, hlayer, layers]

theorem stanzas_withPalette (p : Presentation) (palette : String) (level maxScale : Nat)
    (files : List Shapefile) :
    stanzas (p.withPalette palette) level maxScale files = stanzas p level maxScale files := by
  have hdrawn (l : Layer) : l.stanzas (p.withPalette palette) = l.stanzas p := by
    rfl
  simp only [stanzas, layers_withPalette, hdrawn]

/--
Drawn with another palette, defined or not, a level has the same layers and the same stanzas, and
its text has the same length and differs only inside the colours behind colour keywords.
-/
theorem text_withPalette (p : Presentation) (a b : String) (level maxScale : Nat)
    (files : List Shapefile) :
    let s := text (p.withPalette a) level maxScale files
    let t := text (p.withPalette b) level maxScale files
    Recolored s t ∧ s.length = t.length ∧ s.utf8ByteSize = t.utf8ByteSize ∧
      layers (p.withPalette a) level maxScale files =
        layers (p.withPalette b) level maxScale files ∧
      stanzas (p.withPalette a) level maxScale files =
        stanzas (p.withPalette b) level maxScale files := by
  intro s t
  have hstanzas (palette : String) := stanzas_withPalette p palette level maxScale files
  have hlayers (palette : String) := layers_withPalette p palette level maxScale files
  have hrecolored : Recolored s t := by
    have hshaped := isShaped_stanzas p level maxScale files
    have hlines := Stanza.recolored_linesOfAll (p.withPalette a).color (p.withPalette b).color
      (fun x hx => (hshaped x hx).recolors _ _) 0 Recolored.nil
    simp only [String.append_empty] at hlines
    simp only [s, t, text, Stanza.write, hstanzas]
    exact hlines
  refine ⟨hrecolored, hrecolored.length_eq, hrecolored.utf8ByteSize_eq, ?_, ?_⟩
  · rw [hlayers a, hlayers b]
  · rw [hstanzas a, hstanzas b]

end Level

end SeaChart
