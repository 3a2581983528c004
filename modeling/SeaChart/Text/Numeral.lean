namespace SeaChart.Text

def isDigit (c : Char) : Bool :=
  '0' ≤ c && c ≤ '9'

def digitValue (c : Char) : Nat :=
  c.toNat - '0'.toNat

def digitsValue (cs : List Char) : Nat :=
  cs.foldl (fun n c => 10 * n + digitValue c) 0

def readNat (cs : List Char) : Option Nat :=
  if cs ≠ [] ∧ cs.all isDigit then some (digitsValue cs) else none

def readUpTo (largest : Nat) (s : String) : Option Nat :=
  let digits :=
    match s.toList with
    | '+' :: cs => cs
    | cs => cs
  (readNat digits).filter (· ≤ largest)

def IsNumeral (s : String) (n : Nat) : Prop :=
  ∃ sign digits : List Char, s.toList = sign ++ digits ∧ (sign = [] ∨ sign = ['+']) ∧
    digits ≠ [] ∧ (∀ d ∈ digits, isDigit d = true) ∧ digitsValue digits = n

theorem readNat_eq_some_iff (cs : List Char) (n : Nat) :
    readNat cs = some n ↔
      cs ≠ [] ∧ (∀ c ∈ cs, isDigit c = true) ∧ digitsValue cs = n := by
  simp [readNat, and_assoc]

theorem readUpTo_eq_some_iff (largest : Nat) (s : String) (n : Nat) :
    readUpTo largest s = some n ↔ IsNumeral s n ∧ n ≤ largest := by
  simp only [readUpTo, Option.filter_eq_some_iff, decide_eq_true_eq, readNat_eq_some_iff]
  apply and_congr_left
  intro _
  split
  · next cs hsign =>
    constructor
    · intro h
      exact ⟨['+'], cs, hsign, .inr rfl, h⟩
    · rintro ⟨sign, digits, htext, rfl | rfl, h⟩
      · -- The sign is no digit.
        have hplus := h.2.1 '+' (by rw [← List.nil_append digits, ← htext, hsign]; simp)
        exact absurd hplus (by decide)
      · rw [hsign, List.singleton_append, List.cons.injEq] at htext
        exact htext.2 ▸ h
  · next hsign =>
    constructor
    · intro h
      exact ⟨[], s.toList, rfl, .inl rfl, h⟩
    · rintro ⟨sign, digits, htext, rfl | rfl, h⟩
      · exact htext ▸ h
      · exact absurd htext (hsign digits)

def readByte : String → Option Nat :=
  readUpTo 255

def readWord : String → Option Nat :=
  readUpTo 4294967295

def readInt32 (s : String) : Option Int :=
  match s.toList with
  | '-' :: cs => ((readNat cs).filter (· ≤ 2147483648)).map fun n => -(n : Int)
  | _ => (readUpTo 2147483647 s).map Int.ofNat

def natText (n : Nat) : String :=
  String.ofList (Nat.toDigits 10 n)

theorem isDigit_of_mem_natText {n : Nat} {c : Char} (h : c ∈ (natText n).toList) :
    c.isDigit = true := by
  rw [natText, String.toList_ofList] at h
  exact Nat.isDigit_of_mem_toDigits (by decide) (by decide) h

theorem isDigit_of_mem_toDigits {n : Nat} {c : Char} (h : c ∈ Nat.toDigits 10 n) :
    isDigit c = true := by
  have hdigit := Nat.isDigit_of_mem_toDigits (by decide) (by decide) h
  simpa [isDigit, Char.isDigit, Char.le_def] using hdigit

theorem readNat_toDigits (n : Nat) : readNat (Nat.toDigits 10 n) = some n := by
  rw [readNat_eq_some_iff]
  refine ⟨List.ne_nil_of_length_pos Nat.length_toDigits_pos, fun c => isDigit_of_mem_toDigits, ?_⟩
  exact Nat.ofDigitChars_ten_toDigits

def intText (n : Int) : String :=
  match n with
  | .ofNat n => natText n
  | .negSucc n => "-" ++ natText (n + 1)

end SeaChart.Text
