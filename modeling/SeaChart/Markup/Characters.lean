namespace SeaChart.Markup

def isSpace (c : Char) : Bool :=
  c == ' ' || c == '\t' || c == '\n' || c == '\r'

def isAllowed (c : Char) : Bool :=
  if c.toNat < 0x20 then isSpace c else c.toNat != 0xFFFE && c.toNat != 0xFFFF

def inRanges (ranges : List (Nat × Nat)) (n : Nat) : Bool :=
  ranges.any fun (low, high) => low ≤ n && n ≤ high

def nameStartRanges : List (Nat × Nat) :=
  [(0xC0, 0xD6), (0xD8, 0xF6), (0xF8, 0x2FF), (0x370, 0x37D), (0x37F, 0x1FFF), (0x200C, 0x200D),
    (0x2070, 0x218F), (0x2C00, 0x2FEF), (0x3001, 0xD7FF), (0xF900, 0xFDCF), (0xFDF0, 0xFFFD),
    (0x10000, 0xEFFFF)]

def isNameStart (c : Char) : Bool :=
  c.isAlpha || c == ':' || c == '_' || inRanges nameStartRanges c.toNat

def isNameChar (c : Char) : Bool :=
  isNameStart c || c.isDigit || c == '-' || c == '.' ||
    inRanges [(0xB7, 0xB7), (0x300, 0x36F), (0x203F, 0x2040)] c.toNat

def skipSpaces (cs : List Char) : List Char :=
  cs.dropWhile isSpace

def afterAll : List Char → List Char → Option (List Char)
  | [], cs => some cs
  | _ :: _, [] => none
  | w :: ws, c :: cs => if w = c then afterAll ws cs else none

def after? (word : String) (cs : List Char) : Option (List Char) :=
  afterAll word.toList cs

def until? (word : String) : List Char → Option (List Char × List Char)
  | [] => none
  | c :: cs =>
    match after? word (c :: cs) with
    | some rest => some ([], rest)
    | none =>
      if isAllowed c then (until? word cs).map fun (taken, rest) => (c :: taken, rest) else none

def hasLiteral (word : String) : List Char → Bool
  | [] => false
  | c :: cs => (after? word (c :: cs)).isSome || hasLiteral word cs

end SeaChart.Markup
