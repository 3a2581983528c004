import Mathlib.Algebra.GroupWithZero.Nat
import Mathlib.Data.List.Basic
import SeaChart.Instruction.Reader

/-!
The grammar of symbology instructions. A command is one of eight keywords with a body in
parentheses, and its arguments are read as they were written, with or without quotes and whatever
blanks stand around them. Every other text is kept as it stands.
-/

namespace SeaChart

open Text

theorem splitArguments_quote (quoted : Bool) (current cs : List Char) :
    splitArguments quoted current ('\'' :: cs) = splitArguments (!quoted) current cs := by
  rw [splitArguments]

theorem splitArguments_cons {quoted : Bool} {c : Char} (hquote : c ≠ '\'')
    (hcomma : c = ',' → quoted = true) (current cs : List Char) :
    splitArguments quoted current (c :: cs) = splitArguments quoted (c :: current) cs := by
  rw [splitArguments]
  · apply if_neg
    rintro ⟨heq, hquoted⟩
    exact Bool.false_ne_true (hquoted.symm.trans (hcomma heq))
  · exact hquote

theorem splitArguments_append {quoted : Bool} {text : List Char} (hquote : '\'' ∉ text)
    (hcomma : ',' ∈ text → quoted = true) (current rest : List Char) :
    splitArguments quoted current (text ++ rest) =
      splitArguments quoted (text.reverse ++ current) rest := by
  induction text generalizing current with
  | nil => rfl
  | cons c text ih =>
    have hc : c ≠ '\'' := (List.ne_of_not_mem_cons hquote).symm
    have hcomma' : c = ',' → quoted = true := fun heq => hcomma (heq ▸ List.mem_cons_self)
    have ih := ih (List.not_mem_of_not_mem_cons hquote)
      (fun h => hcomma (List.mem_cons_of_mem c h)) (c :: current)
    rw [List.cons_append, splitArguments_cons hc hcomma', ih, List.reverse_cons,
      List.append_assoc, List.singleton_append]

structure WrittenArgument where
  text : List Char
  quoted : Bool
  before : List Char
  after : List Char
  noQuote : '\'' ∉ text
  oneLine : '\n' ∉ before ++ text ++ after
  solid : IsSolid text
  blank : isBlankText before = true ∧ isBlankText after = true
  comma : ',' ∈ text → quoted = true

namespace WrittenArgument

def enclosed (a : WrittenArgument) : List Char :=
  if a.quoted then '\'' :: (a.text ++ ['\'']) else a.text

def chars (a : WrittenArgument) : List Char :=
  a.before ++ a.enclosed ++ a.after

theorem notMem_of_isBlankText {c : Char} (hc : isBlank c = false) {cs : List Char}
    (h : isBlankText cs = true) : c ∉ cs :=
  fun hmem => Bool.false_ne_true (hc.symm.trans (List.all_eq_true.mp h c hmem))

theorem splitArguments_chars (a : WrittenArgument) (rest : List Char) :
    splitArguments false [] (a.chars ++ rest) =
      splitArguments false (a.before ++ a.text ++ a.after).reverse rest := by
  have hblank {cs : List Char} (h : isBlankText cs = true) (current rest : List Char) :
      splitArguments false current (cs ++ rest) =
        splitArguments false (cs.reverse ++ current) rest :=
    splitArguments_append (notMem_of_isBlankText (by decide) h)
      (fun hcomma => absurd hcomma (notMem_of_isBlankText (by decide) h)) current rest
  have henclosed (current rest : List Char) :
      splitArguments false current (a.enclosed ++ rest) =
        splitArguments false (a.text.reverse ++ current) rest := by
    unfold enclosed
    split
    · rw [List.cons_append, splitArguments_quote, List.append_assoc, Bool.not_false,
        splitArguments_append a.noQuote (fun _ => rfl), List.singleton_append,
        splitArguments_quote, Bool.not_true]
    · next hbare =>
      exact splitArguments_append a.noQuote (fun h => absurd (a.comma h) hbare) current rest
  rw [chars, List.append_assoc, List.append_assoc, hblank a.blank.1, henclosed, hblank a.blank.2]
  simp

def body : WrittenArgument → List WrittenArgument → List Char
  | a, [] => a.chars
  | a, b :: bs => a.chars ++ ',' :: body b bs

theorem splitArguments_body (a : WrittenArgument) (others : List WrittenArgument) :
    splitArguments false [] (body a others) =
      (a :: others).map fun b => b.before ++ b.text ++ b.after := by
  induction others generalizing a with
  | nil =>
    have hlast := a.splitArguments_chars []
    rw [List.append_nil] at hlast
    rw [body, hlast]
    simp [splitArguments]
  | cons b bs ih =>
    rw [body, a.splitArguments_chars]
    have hsplit (current : List Char) : splitArguments false current (',' :: body b bs) =
        current.reverse :: splitArguments false [] (body b bs) := by
      rw [splitArguments]
      · exact if_pos ⟨rfl, rfl⟩
      · decide
    rw [hsplit, ih, List.reverse_reverse]
    rfl

theorem readArguments_body (a : WrittenArgument) (others : List WrittenArgument) :
    readArguments (body a others) = (a :: others).map fun b => String.ofList b.text := by
  have htrim (b : WrittenArgument) : trim (b.before ++ b.text ++ b.after) = b.text :=
    b.solid.trim_between b.blank.1 b.blank.2
  rw [readArguments, splitArguments_body, List.map_map]
  apply List.map_congr_left
  intro b _
  rw [Function.comp_apply, htrim]

theorem lineFeed_notMem_body (a : WrittenArgument) (others : List WrittenArgument) :
    '\n' ∉ body a others := by
  have hchars (b : WrittenArgument) : '\n' ∉ b.chars := by
    have hline := b.oneLine
    simp only [List.mem_append, not_or] at hline
    unfold chars enclosed
    split <;> simp [hline]
  induction others generalizing a with
  | nil => exact hchars a
  | cons b bs ih => simp [body, hchars a, ih b]

theorem head?_trimStart_chars (a : WrittenArgument) (rest : List Char)
    (hrest : (trimStart rest).head? ≠ some '\'') :
    (trimStart (a.chars ++ rest)).head? = some '\'' ↔ a.quoted = true := by
  rw [chars, List.append_assoc, List.append_assoc, trimStart_blanks_append a.blank.1, enclosed]
  split
  · next hquoted =>
    rw [List.cons_append, trimStart_cons_of_not_isBlank (by decide)]
    simp [hquoted]
  · next hbare =>
    simp only [hbare, Bool.false_eq_true, iff_false]
    cases htext : a.text with
    | nil =>
      rw [List.nil_append, trimStart_blanks_append a.blank.2]
      exact hrest
    | cons c cs =>
      have hsolid := a.solid.head c (by rw [htext]; rfl)
      have hquote := a.noQuote
      rw [htext] at hquote
      rw [List.cons_append, trimStart_cons_of_not_isBlank hsolid]
      intro h
      exact List.ne_of_not_mem_cons hquote (Option.some.inj h).symm

theorem head?_trimStart_body (a : WrittenArgument) (others : List WrittenArgument) :
    (trimStart (body a others)).head? = some '\'' ↔ a.quoted = true := by
  cases others with
  | nil =>
    have hend := a.head?_trimStart_chars [] (by simp [trimStart])
    rwa [List.append_nil] at hend
  | cons b bs =>
    apply a.head?_trimStart_chars
    rw [trimStart_cons_of_not_isBlank (by decide)]
    simp

end WrittenArgument

def IsNumberOr (default largest : Nat) (s : String) (n : Nat) : Prop :=
  IsNumeral s n ∧ n ≤ largest ∨ n = default ∧ ∀ m, IsNumeral s m → largest < m

theorem isNumberOr_iff (default largest : Nat) (s : String) (n : Nat) :
    IsNumberOr default largest s n ↔ (readUpTo largest s).getD default = n := by
  have hread := readUpTo_eq_some_iff largest s
  cases hsome : readUpTo largest s with
  | some m =>
    obtain ⟨hm, hle⟩ := (hread m).mp hsome
    constructor
    · rintro (hn | ⟨rfl, hlarge⟩)
      · exact Option.some.inj (hsome.symm.trans ((hread n).mpr hn))
      · exact absurd (hlarge m hm) (Nat.not_lt_of_le hle)
    · rintro rfl
      exact .inl ⟨hm, hle⟩
  | none =>
    have hlarge : ∀ m, IsNumeral s m → largest < m := by
      intro m hm
      by_contra hle
      have hm := (hread m).mpr ⟨hm, Nat.le_of_not_lt hle⟩
      rw [hsome] at hm
      cases hm
    constructor
    · rintro (hn | ⟨rfl, -⟩)
      · exact absurd (hlarge n hn.1) (Nat.not_lt_of_le hn.2)
      · rfl
    · rintro rfl
      exact .inr ⟨rfl, hlarge⟩

def largestByte : Nat := 255

def largestWord : Nat := 4294967295

namespace Label

inductive IsSize (code : String) : Nat → Prop
  | written {weight size : List Char} {n : Nat} :
      code.toList = weight ++ size → (weight.map Char.utf8Size).sum = 3 →
      IsNumberOr defaultSize largestWord (String.ofList size) n → IsSize code n
  | missing :
      (∀ weight size : List Char, code.toList = weight ++ size →
        (weight.map Char.utf8Size).sum ≠ 3) → IsSize code defaultSize

theorem byteCount_eq_sum (cs : List Char) : byteCount cs = (cs.map Char.utf8Size).sum := by
  induction cs with
  | nil => rfl
  | cons c cs ih => rw [byteCount, ih, List.map_cons, List.sum_cons]

theorem isSize_iff (code : String) (n : Nat) : IsSize code n ↔ sizeOfCode code = n := by
  have hcut := splitAtByte_eq_some_iff 3 code.toList
  simp only [byteCount_eq_sum] at hcut
  constructor
  · intro h
    cases h with
    | written hcode hbytes hnumber =>
      rw [sizeOfCode, (hcut _ _).mpr ⟨hcode, hbytes⟩]
      exact (isNumberOr_iff ..).mp hnumber
    | missing hnone =>
      have hshort : splitAtByte 3 code.toList = none := by
        apply Option.eq_none_iff_forall_ne_some.mpr
        rintro ⟨weight, size⟩ hsome
        obtain ⟨hcode, hbytes⟩ := (hcut weight size).mp hsome
        exact hnone weight size hcode hbytes
      rw [sizeOfCode, hshort]
  · rintro rfl
    unfold sizeOfCode
    split
    · next hnone =>
      apply IsSize.missing
      intro weight size hcode hbytes
      have hsome := (hcut weight size).mpr ⟨hcode, hbytes⟩
      rw [hnone] at hsome
      cases hsome
    · next weight size hsome =>
      obtain ⟨hcode, hbytes⟩ := (hcut weight size).mp hsome
      exact .written hcode hbytes ((isNumberOr_iff ..).mpr rfl)

theorem isBoldCode_iff (code : String) :
    isBoldCode code = true ↔ ∃ c cs, code.toList = c :: '6' :: cs := by
  unfold isBoldCode
  cases code.toList with
  | nil => simp
  | cons c cs =>
    cases cs with
    | nil => simp
    | cons d cs => simp

structure IsRead (arg : Nat → String) (first : Nat) (l : Label) : Prop where
  horizontal : IsNumberOr 1 largestByte (arg first) l.horizontal
  vertical : IsNumberOr 1 largestByte (arg (first + 1)) l.vertical
  bold : l.bold = true ↔ ∃ c cs, (arg (first + 3)).toList = c :: '6' :: cs
  size : IsSize (arg (first + 3)) l.size
  offset : l.offset = ((Binary64.read (arg (first + 4))).getD (Binary64.zero false),
    (Binary64.read (arg (first + 5))).getD (Binary64.zero false))
  color : l.color = arg (first + 6)
  group : IsNumberOr 0 largestWord (arg (first + 7)) l.group

theorem isRead_iff (arguments : List String) (first : Nat) (l : Label) :
    IsRead (argument arguments) first l ↔ ofArguments l.wording (arguments.drop first) = l := by
  have harg (i : Nat) : argument (arguments.drop first) i = argument arguments (first + i) := by
    simp [argument, List.getD]
  constructor
  · rintro ⟨hhorizontal, hvertical, hbold, hsize, hoffset, hcolor, hgroup⟩
    rw [isNumberOr_iff] at hhorizontal hvertical hgroup
    rw [isSize_iff] at hsize
    rw [← isBoldCode_iff, ← Bool.eq_iff_iff] at hbold
    cases l
    simp only [ofArguments, harg, mk.injEq]
    exact ⟨trivial, hhorizontal, hvertical, hbold.symm, hsize, hoffset.symm, hcolor.symm, hgroup⟩
  · intro h
    rw [← h]
    constructor <;> simp only [ofArguments, harg, Nat.add_zero]
    · exact (isNumberOr_iff ..).mpr rfl
    · exact (isNumberOr_iff ..).mpr rfl
    · exact isBoldCode_iff _
    · exact (isSize_iff ..).mpr rfl
    · exact (isNumberOr_iff ..).mpr rfl

end Label

namespace Instruction

def keywords : List String :=
  ["SY", "LS", "LC", "AC", "AP", "TX", "TE", "CS"]

inductive Denotes (arg : Nat → String) (quoted : Bool) : String → Instruction → Prop
  | symbol : Denotes arg quoted "SY" (.symbol (arg 0) (Rotation.read (arg 1)))
  | simpleLine {width : Nat} : IsNumberOr 1 largestWord (arg 1) width →
      Denotes arg quoted "LS" (.simpleLine (LineStyle.read (arg 0)) width (arg 2))
  | complexLine : Denotes arg quoted "LC" (.complexLine (arg 0))
  | areaColor {transparency : Nat} : IsNumberOr 0 largestByte (arg 1) transparency →
      Denotes arg quoted "AC" (.areaColor (arg 0) (min transparency 4))
  | areaPattern : Denotes arg quoted "AP" (.areaPattern (arg 0) (Rotation.read (arg 1)))
  | literalText {l : Label} : quoted = true → l.wording = .literal (arg 0) →
      l.IsRead arg 1 → Denotes arg quoted "TX" (.label l)
  | attributeText {l : Label} : quoted = false → l.wording = .byAttribute (arg 0) →
      l.IsRead arg 1 → Denotes arg quoted "TX" (.label l)
  | template {l : Label} : l.wording = .template (arg 0) (trimmedPieces ',' (arg 1)) →
      l.IsRead arg 2 → Denotes arg quoted "TE" (.label l)
  | procedure {name : String} {version : List Char} : (arg 0).toList = name.toList ++ version →
      (∀ d ∈ version, isDigit d = true) → (∀ c ∈ name.toList.getLast?, isDigit c = false) →
      Denotes arg quoted "CS" (.procedure name)

theorem withoutVersion_eq_iff (s name : String) :
    withoutVersion s = name ↔
      ∃ version : List Char, s.toList = name.toList ++ version ∧
        (∀ d ∈ version, isDigit d = true) ∧ ∀ c ∈ name.toList.getLast?, isDigit c = false := by
  constructor
  · rintro rfl
    refine ⟨(s.toList.reverse.takeWhile isDigit).reverse, ?_, ?_, ?_⟩
    · rw [withoutVersion, String.toList_ofList, ← List.reverse_append,
        List.takeWhile_append_dropWhile, List.reverse_reverse]
    · intro d hd
      exact List.all_eq_true.mp List.all_takeWhile d (List.mem_reverse.mp hd)
    · intro c hc
      rw [withoutVersion, String.toList_ofList, List.getLast?_reverse] at hc
      have hhead := List.head?_dropWhile_not isDigit s.toList.reverse
      rw [hc] at hhead
      exact hhead
  · rintro ⟨version, hs, hdigits, hlast⟩
    have hversion : ∀ d ∈ version.reverse, isDigit d = true :=
      fun d hd => hdigits d (List.mem_reverse.mp hd)
    have hname : name.toList.reverse.dropWhile isDigit = name.toList.reverse := by
      rw [← List.head?_reverse] at hlast
      cases hreverse : name.toList.reverse with
      | nil => rfl
      | cons c cs =>
        rw [hreverse] at hlast
        exact List.dropWhile_cons_of_neg (by simp [hlast c rfl])
    rw [withoutVersion, hs, List.reverse_append, List.dropWhile_append_of_pos hversion, hname,
      List.reverse_reverse, String.ofList_toList]

theorem literalOrAttribute_eq {body : List Char} {quoted : Bool}
    (hquoted : (trimStart body).head? = some '\'' ↔ quoted = true) (words : String) :
    literalOrAttribute body words = if quoted then .literal words else .byAttribute words := by
  unfold literalOrAttribute
  exact if_congr hquoted rfl rfl

theorem ofKeyword_eq_some_iff {body : List Char} {quoted : Bool}
    (hquoted : (trimStart body).head? = some '\'' ↔ quoted = true) (keyword : String)
    (i : Instruction) :
    ofKeyword keyword body = some i ↔
      Denotes (argument (readArguments body)) quoted keyword i := by
  constructor
  · intro h
    unfold ofKeyword at h
    split at h
    · cases h
      exact .symbol
    · cases h
      exact .simpleLine ((isNumberOr_iff ..).mpr rfl)
    · cases h
      exact .complexLine
    · cases h
      exact .areaColor ((isNumberOr_iff ..).mpr rfl)
    · cases h
      exact .areaPattern
    · cases h
      rw [literalOrAttribute_eq hquoted]
      cases quoted with
      | true => exact .literalText rfl rfl ((Label.isRead_iff ..).mpr rfl)
      | false => exact .attributeText rfl rfl ((Label.isRead_iff ..).mpr rfl)
    · cases h
      exact .template rfl ((Label.isRead_iff ..).mpr rfl)
    · cases h
      obtain ⟨version, hname, hdigits, hlast⟩ := (withoutVersion_eq_iff ..).mp rfl
      exact .procedure hname hdigits hlast
    · cases h
  · intro h
    cases h with
    | symbol => rfl
    | simpleLine hwidth => rw [← (isNumberOr_iff ..).mp hwidth]; rfl
    | complexLine => rfl
    | areaColor htransparency => rw [← (isNumberOr_iff ..).mp htransparency]; rfl
    | areaPattern => rfl
    | literalText hwords hwording hl =>
      rw [← (Label.isRead_iff ..).mp hl, hwording]
      simp only [ofKeyword, literalOrAttribute_eq hquoted, hwords, if_true]
    | attributeText hwords hwording hl =>
      rw [← (Label.isRead_iff ..).mp hl, hwording]
      simp only [ofKeyword, literalOrAttribute_eq hquoted, hwords, Bool.false_eq_true, if_false]
    | template hwording hl =>
      rw [← (Label.isRead_iff ..).mp hl, hwording]
      rfl
    | procedure hname hdigits hlast =>
      rw [← (withoutVersion_eq_iff ..).mpr ⟨_, hname, hdigits, hlast⟩]
      rfl

theorem ofKeyword_eq_none_iff (keyword : String) (body : List Char) :
    ofKeyword keyword body = none ↔ keyword ∉ keywords := by
  unfold ofKeyword
  split <;> simp_all [keywords]

def IsCut (cs : List Char) (keyword : String) (body : List Char) : Prop :=
  ∃ lead trail : List Char, isBlankText lead = true ∧ isBlankText trail = true ∧ '\n' ∉ body ∧
    cs = lead ++ keyword.toList ++ '(' :: (body ++ ')' :: trail)

theorem cutCommand_eq_some_iff (cs : List Char) (keyword : String) (body : List Char) :
    cutCommand cs = some (keyword, body) ↔
      IsCut cs keyword body ∧ ∃ a b : Char, a.isUpper = true ∧ b.isUpper = true ∧
        keyword = String.ofList [a, b] := by
  constructor
  · intro h
    unfold cutCommand at h
    split at h
    · next a b rest hstart =>
      split at h
      · next reversed hend =>
        split at h
        · next hform =>
          cases h
          simp only [Bool.and_eq_true, Bool.not_eq_true', List.contains_eq_mem,
            decide_eq_false_iff_not] at hform
          obtain ⟨lead, hlead, hcs⟩ := exists_trimStart cs
          obtain ⟨trail, htrail, hrest⟩ := exists_trimEnd rest
          have hclose : trimEnd rest = reversed.reverse ++ [')'] := by
            rw [← List.reverse_reverse (trimEnd rest), hend, List.reverse_cons]
          refine ⟨⟨lead, trail, hlead, htrail, by simpa using hform.2, ?_⟩,
            a, b, hform.1.1, hform.1.2, rfl⟩
          rw [hcs, hstart, hrest, hclose]
          simp
        · cases h
      · cases h
    · cases h
  · rintro ⟨⟨lead, trail, hlead, htrail, hline, rfl⟩, a, b, ha, hb, rfl⟩
    have hstart : trimStart (lead ++ (String.ofList [a, b]).toList ++
        '(' :: (body ++ ')' :: trail)) = a :: b :: '(' :: (body ++ ')' :: trail) := by
      rw [String.toList_ofList, List.append_assoc, trimStart_blanks_append hlead,
        List.cons_append, trimStart_cons_of_not_isBlank (not_isBlank_of_isUpper ha)]
      rfl
    have hend : trimEnd (body ++ ')' :: trail) = body ++ [')'] := by
      rw [List.append_cons, trimEnd_append_blanks htrail,
        trimEnd_append_of_not_isBlank (by decide)]
    rw [cutCommand, hstart]
    simp [hend, ha, hb, hline]

def IsCommand (s : String) : Prop :=
  ∃ keyword ∈ keywords, ∃ body : List Char, IsCut s.toList keyword body

theorem exists_letters {keyword : String} (h : keyword ∈ keywords) :
    ∃ a b : Char, a.isUpper = true ∧ b.isUpper = true ∧ keyword = String.ofList [a, b] := by
  have hall : ∀ k ∈ keywords, k.toList.length = 2 ∧ k.toList.all Char.isUpper = true := by
    decide
  obtain ⟨hlength, hupper⟩ := hall keyword h
  obtain ⟨a, b, hab⟩ := List.length_eq_two.mp hlength
  rw [hab, List.all_eq_true] at hupper
  exact ⟨a, b, hupper a (by simp), hupper b (by simp), by rw [← hab, String.ofList_toList]⟩

theorem read_eq_iff {s keyword : String} {body : List Char} {quoted : Bool}
    (hkeyword : keyword ∈ keywords) (hcut : IsCut s.toList keyword body)
    (hquoted : (trimStart body).head? = some '\'' ↔ quoted = true) (i : Instruction) :
    read s = i ↔ Denotes (argument (readArguments body)) quoted keyword i := by
  have hcommand := (cutCommand_eq_some_iff s.toList keyword body).mpr
    ⟨hcut, exists_letters hkeyword⟩
  rw [← ofKeyword_eq_some_iff hquoted]
  cases hknown : ofKeyword keyword body with
  | none => exact absurd hkeyword ((ofKeyword_eq_none_iff keyword body).mp hknown)
  | some known => simp [read, hcommand, hknown]

theorem read_eq_unknown_iff (s : String) : read s = .unknown s ↔ ¬ IsCommand s := by
  constructor
  · rintro hunknown ⟨keyword, hkeyword, body, hcut⟩
    have hquoted : (trimStart body).head? = some '\'' ↔
        decide ((trimStart body).head? = some '\'') = true := decide_eq_true_iff.symm
    have hdenotes := (read_eq_iff hkeyword hcut hquoted (.unknown s)).mp hunknown
    cases hdenotes
  · intro hno
    cases hcommand : cutCommand s.toList with
    | none => simp [read, hcommand]
    | some cut =>
      obtain ⟨keyword, body⟩ := cut
      have hcut := ((cutCommand_eq_some_iff s.toList keyword body).mp hcommand).1
      have hother : keyword ∉ keywords := fun hkeyword => hno ⟨keyword, hkeyword, body, hcut⟩
      simp [read, hcommand, (ofKeyword_eq_none_iff keyword body).mpr hother]

end Instruction

structure WrittenCommand where
  keyword : String
  first : WrittenArgument
  others : List WrittenArgument
  lead : List Char
  trail : List Char
  known : keyword ∈ Instruction.keywords
  blank : isBlankText lead = true ∧ isBlankText trail = true

namespace WrittenCommand

def body (c : WrittenCommand) : List Char :=
  c.first.body c.others

def text (c : WrittenCommand) : String :=
  String.ofList (c.lead ++ c.keyword.toList ++ '(' :: (c.body ++ ')' :: c.trail))

def argument (c : WrittenCommand) : Nat → String :=
  SeaChart.argument ((c.first :: c.others).map fun a => String.ofList a.text)

end WrittenCommand

namespace Instruction

/--
A command as it is written is read as the one instruction that its arguments denote, and just what
is no command is kept as it stands.
-/
theorem read_grammar :
    (∀ (c : WrittenCommand) (i : Instruction),
      read c.text = i ↔ Denotes c.argument c.first.quoted c.keyword i) ∧
    ∀ s : String, read s = .unknown s ↔ ¬ IsCommand s := by
  refine ⟨fun c i => ?_, read_eq_unknown_iff⟩
  have hcut : IsCut c.text.toList c.keyword c.body := by
    have hline : '\n' ∉ c.body := c.first.lineFeed_notMem_body c.others
    exact ⟨c.lead, c.trail, c.blank.1, c.blank.2, hline, String.toList_ofList⟩
  have harguments : argument (readArguments c.body) = c.argument := by
    rw [WrittenCommand.body, WrittenArgument.readArguments_body]
    rfl
  rw [← harguments]
  exact read_eq_iff c.known hcut (c.first.head?_trimStart_body c.others) i

theorem template_drops_blank_pieces :
    ∃ c : WrittenCommand, c.keyword = "TE" ∧ c.text = "TE('%s','A, B,,C')" ∧
      ∃ l : Label, read c.text = .label l ∧ l.wording = .template "%s" ["A", "B", "C"] ∧
        l.wording ≠ .template (c.argument 0) (pieces ',' (c.argument 1)) := by
  let format : WrittenArgument :=
    { text := ['%', 's'], quoted := true, before := [], after := []
      noQuote := by decide, oneLine := by decide
      solid := ⟨by rintro _ ⟨⟩; rfl, by rintro _ ⟨⟩; rfl⟩
      blank := by decide, comma := fun _ => rfl }
  let attributes : WrittenArgument :=
    { text := ['A', ',', ' ', 'B', ',', ',', 'C'], quoted := true, before := [], after := []
      noQuote := by decide, oneLine := by decide
      solid := ⟨by rintro _ ⟨⟩; rfl, by rintro _ ⟨⟩; rfl⟩
      blank := by decide, comma := fun _ => rfl }
  let c : WrittenCommand :=
    { keyword := "TE", first := format, others := [attributes], lead := [], trail := []
      known := by decide, blank := by decide }
  refine ⟨c, rfl, by decide, Label.ofArguments (.template "%s" ["A", "B", "C"]) [], ?_, rfl, ?_⟩
  · decide +kernel
  · decide +kernel

end Instruction

end SeaChart
