import Mathlib.Data.List.TakeWhile
import Mathlib.Tactic.SplitIfs
import SeaChart.Text.Utf8

namespace SeaChart.Text

theorem isContinuation_iff (b : UInt8) :
    isContinuation b = true ↔ 0x80 ≤ b.toNat ∧ b.toNat ≤ 0xBF := by
  simp [isContinuation, UInt8.le_iff_toNat_le]

theorem isSecond_iff (lead b : UInt8) :
    isSecond lead b = true ↔ (0x80 ≤ b.toNat ∧ b.toNat ≤ 0xBF) ∧
      (lead.toNat = 0xE0 → 0xA0 ≤ b.toNat) ∧ (lead.toNat = 0xED → b.toNat ≤ 0x9F) ∧
      (lead.toNat = 0xF0 → 0x90 ≤ b.toNat) ∧ (lead.toNat = 0xF4 → b.toNat ≤ 0x8F) := by
  have hlead (n : UInt8) : (lead == n) = true ↔ lead.toNat = n.toNat := by
    rw [beq_iff_eq, UInt8.toNat_inj]
  simp only [isSecond, hlead, UInt8.reduceToNat]
  split_ifs <;>
    simp only [isContinuation_iff, Bool.and_eq_true, decide_eq_true_eq, UInt8.le_iff_toNat_le,
      UInt8.reduceToNat] <;>
    omega

theorem announced_eq (lead : UInt8) : announced lead =
    if lead.toNat < 0x80 then some 0
    else if 0xC2 ≤ lead.toNat ∧ lead.toNat ≤ 0xDF then some 1
    else if 0xE0 ≤ lead.toNat ∧ lead.toNat ≤ 0xEF then some 2
    else if 0xF0 ≤ lead.toNat ∧ lead.toNat ≤ 0xF4 then some 3
    else none := by
  simp [announced, UInt8.le_iff_toNat_le, UInt8.lt_iff_toNat_lt]

theorem decodeUtf8_lead {lead second : UInt8} (others : Bytes)
    (hlead : announced lead = some (others.length + 1)) (hsecond : isSecond lead second = true)
    (hothers : ∀ b ∈ others, isContinuation b = true) (rest : Bytes) :
    decodeUtf8 (lead :: second :: (others ++ rest)) =
      some (Char.ofNat ((second :: others).foldl (fun v b => v * 64 + b.toNat % 64)
        (leadBits lead (others.length + 1)))) :: decodeUtf8 rest := by
  have htail : continuation lead (others.length + 1) (second :: (others ++ rest)) =
      second :: others := by
    rw [continuation, if_pos hsecond, List.take_left, List.takeWhile_eq_self_iff.mpr hothers]
  rw [decodeUtf8, hlead]
  simp [htail]

theorem decodeUtf8_ascii {lead : UInt8} (h : lead.toNat < 0x80) (rest : Bytes) :
    decodeUtf8 (lead :: rest) = some (Char.ofNat lead.toNat) :: decodeUtf8 rest := by
  rw [decodeUtf8, announced_eq, if_pos h]
  simp [continuation, leadBits]

theorem toNat_byte {n : Nat} (h : n < 256) : (UInt8.ofNat n).toNat = n :=
  UInt8.toNat_ofNat_of_lt' h

def lowByte (v : Nat) : UInt8 :=
  UInt8.ofNat (v % 0x40 + 0x80)

theorem toNat_lowByte (v : Nat) : (lowByte v).toNat = v % 0x40 + 0x80 :=
  toNat_byte (by omega)

theorem isContinuation_lowByte (v : Nat) : isContinuation (lowByte v) = true := by
  rw [isContinuation_iff, toNat_lowByte]
  omega

variable {v : Nat} (rest : Bytes)

theorem decodeUtf8_two (hlow : 0x7F < v) (hhigh : v ≤ 0x7FF) :
    decodeUtf8 (UInt8.ofNat (v / 64 % 0x20 + 0xC0) :: lowByte v :: rest) =
      some (Char.ofNat v) :: decodeUtf8 rest := by
  have hlead : (UInt8.ofNat (v / 64 % 0x20 + 0xC0)).toNat = v / 64 % 0x20 + 0xC0 :=
    toNat_byte (by omega)
  generalize UInt8.ofNat (v / 64 % 0x20 + 0xC0) = lead at hlead ⊢
  have hannounced : announced lead = some 1 := by
    rw [announced_eq, hlead, if_neg (by omega), if_pos (by omega)]
  have hsecond : isSecond lead (lowByte v) = true := by
    rw [isSecond_iff, hlead, toNat_lowByte]
    omega
  have hvalue : leadBits lead 1 * 64 + (lowByte v).toNat % 64 = v := by
    rw [leadBits, hlead, toNat_lowByte]
    omega
  have hread := decodeUtf8_lead [] hannounced hsecond (by simp) rest
  simpa [hvalue] using hread

theorem decodeUtf8_three (hlow : 0x7FF < v) (hhigh : v ≤ 0xFFFF)
    (hvalid : v < 0xD800 ∨ 0xDFFF < v) :
    decodeUtf8 (UInt8.ofNat (v / 4096 % 0x10 + 0xE0) :: lowByte (v / 64) :: lowByte v :: rest) =
      some (Char.ofNat v) :: decodeUtf8 rest := by
  have hlead : (UInt8.ofNat (v / 4096 % 0x10 + 0xE0)).toNat = v / 4096 % 0x10 + 0xE0 :=
    toNat_byte (by omega)
  generalize UInt8.ofNat (v / 4096 % 0x10 + 0xE0) = lead at hlead ⊢
  have hannounced : announced lead = some 2 := by
    rw [announced_eq, hlead, if_neg (by omega), if_neg (by omega), if_pos (by omega)]
  have hsecond : isSecond lead (lowByte (v / 64)) = true := by
    rw [isSecond_iff, hlead, toNat_lowByte]
    omega
  have hvalue : (leadBits lead 2 * 64 + (lowByte (v / 64)).toNat % 64) * 64 +
      (lowByte v).toNat % 64 = v := by
    rw [leadBits, hlead, toNat_lowByte, toNat_lowByte]
    omega
  have hread := decodeUtf8_lead [lowByte v] hannounced hsecond
    (by simp [isContinuation_lowByte]) rest
  simpa [hvalue] using hread

theorem decodeUtf8_four (hlow : 0xFFFF < v) (hhigh : v < 0x110000) :
    decodeUtf8 (UInt8.ofNat (v / 262144 % 0x08 + 0xF0) :: lowByte (v / 4096) ::
        lowByte (v / 64) :: lowByte v :: rest) =
      some (Char.ofNat v) :: decodeUtf8 rest := by
  have hlead : (UInt8.ofNat (v / 262144 % 0x08 + 0xF0)).toNat = v / 262144 % 0x08 + 0xF0 :=
    toNat_byte (by omega)
  generalize UInt8.ofNat (v / 262144 % 0x08 + 0xF0) = lead at hlead ⊢
  have hannounced : announced lead = some 3 := by
    rw [announced_eq, hlead, if_neg (by omega), if_neg (by omega), if_neg (by omega),
      if_pos (by omega)]
  have hsecond : isSecond lead (lowByte (v / 4096)) = true := by
    rw [isSecond_iff, hlead, toNat_lowByte]
    omega
  have hvalue : ((leadBits lead 3 * 64 + (lowByte (v / 4096)).toNat % 64) * 64 +
      (lowByte (v / 64)).toNat % 64) * 64 + (lowByte v).toNat % 64 = v := by
    rw [leadBits, hlead, toNat_lowByte, toNat_lowByte, toNat_lowByte]
    · omega
    all_goals simp
  have hread := decodeUtf8_lead [lowByte (v / 64), lowByte v] hannounced hsecond
    (by simp [isContinuation_lowByte]) rest
  simpa [hvalue] using hread

theorem decodeUtf8_encodeChar (c : Char) :
    decodeUtf8 (String.utf8EncodeChar c ++ rest) = some c :: decodeUtf8 rest := by
  have hvalid : c.val.toNat < 0xD800 ∨ 0xDFFF < c.val.toNat ∧ c.val.toNat < 0x110000 := c.valid
  have hc : Char.ofNat c.val.toNat = c := Char.ofNat_toNat c
  fun_cases String.utf8EncodeChar c with
  | case1 v hascii =>
    have hlead : (UInt8.ofNat v).toNat = v := toNat_byte (by omega)
    rw [List.singleton_append, decodeUtf8_ascii (by omega), hlead, hc]
  | case2 v hlow hhigh =>
    have hread := decodeUtf8_two rest (Nat.lt_of_not_le hlow) hhigh
    rwa [hc] at hread
  | case3 v hascii hlow hhigh =>
    have hread := decodeUtf8_three rest (Nat.lt_of_not_le hlow) hhigh (by omega)
    rwa [hc] at hread
  | case4 v hascii htwo hlow =>
    have hread := decodeUtf8_four rest (Nat.lt_of_not_le hlow) (by omega)
    rwa [hc] at hread

theorem eq_ofNat_of_mem_encodeChar {c : Char} {b : UInt8} (h : b ∈ String.utf8EncodeChar c)
    (hascii : b.toNat < 0x80) : c = Char.ofNat b.toNat := by
  have hc : Char.ofNat c.val.toNat = c := Char.ofNat_toNat c
  have hbehind (v : Nat) : b ≠ lowByte v := by
    rintro rfl
    rw [toNat_lowByte] at hascii
    omega
  have hlead {n : Nat} (hn : n < 256) (hlow : 0x80 ≤ n) : b ≠ UInt8.ofNat n := by
    rintro rfl
    rw [toNat_byte hn] at hascii
    omega
  revert h
  fun_cases String.utf8EncodeChar c with
  | case1 v hlow =>
    intro h
    rw [List.mem_singleton.mp h, toNat_byte (by omega), hc]
  | case2 v hlow hhigh =>
    intro h
    rcases List.mem_cons.mp h with h | h
    · exact absurd h (hlead (by omega) (by omega))
    · exact absurd (List.mem_singleton.mp h) (hbehind v)
  | case3 v hlow hmiddle hhigh =>
    intro h
    rcases List.mem_cons.mp h with h | h
    · exact absurd h (hlead (by omega) (by omega))
    rcases List.mem_cons.mp h with h | h
    · exact absurd h (hbehind (v / 64))
    · exact absurd (List.mem_singleton.mp h) (hbehind v)
  | case4 v hlow hmiddle hhigh =>
    intro h
    rcases List.mem_cons.mp h with h | h
    · exact absurd h (hlead (by omega) (by omega))
    rcases List.mem_cons.mp h with h | h
    · exact absurd h (hbehind (v / 4096))
    rcases List.mem_cons.mp h with h | h
    · exact absurd h (hbehind (v / 64))
    · exact absurd (List.mem_singleton.mp h) (hbehind v)

theorem decodeUtf8_encode (cs : List Char) (rest : Bytes) :
    decodeUtf8 (cs.flatMap String.utf8EncodeChar ++ rest) = cs.map some ++ decodeUtf8 rest := by
  induction cs with
  | nil => rfl
  | cons c cs ih => rw [List.flatMap_cons, List.append_assoc, decodeUtf8_encodeChar, ih]; rfl

theorem readUtf8Lossy_encodeUtf8 (s : String) : readUtf8Lossy (encodeUtf8 s) = s := by
  have hdecode : decodeUtf8 (encodeUtf8 s) = s.toList.map some := by
    have h := decodeUtf8_encode s.toList []
    rwa [List.append_nil, decodeUtf8, List.append_nil] at h
  rw [readUtf8Lossy, hdecode, List.map_map]
  simp [Function.comp_def]

end SeaChart.Text
