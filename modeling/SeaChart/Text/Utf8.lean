/-!
The UTF-8 form of text as bytes. Malformed parts are marked where they stand, so that a reader may
refuse them or put a replacement character in their place.
-/

namespace SeaChart.Text

abbrev Bytes := List UInt8

def encodeUtf8 (s : String) : Bytes :=
  s.toList.flatMap String.utf8EncodeChar

def isContinuation (b : UInt8) : Bool :=
  0x80 ≤ b && b ≤ 0xBF

def isSecond (lead b : UInt8) : Bool :=
  if lead == 0xE0 then 0xA0 ≤ b && b ≤ 0xBF
  else if lead == 0xED then 0x80 ≤ b && b ≤ 0x9F
  else if lead == 0xF0 then 0x90 ≤ b && b ≤ 0xBF
  else if lead == 0xF4 then 0x80 ≤ b && b ≤ 0x8F
  else isContinuation b

def announced (lead : UInt8) : Option Nat :=
  if lead < 0x80 then some 0
  else if 0xC2 ≤ lead && lead ≤ 0xDF then some 1
  else if 0xE0 ≤ lead && lead ≤ 0xEF then some 2
  else if 0xF0 ≤ lead && lead ≤ 0xF4 then some 3
  else none

def continuation (lead : UInt8) (n : Nat) (bs : Bytes) : Bytes :=
  match n, bs with
  | 0, _ => []
  | _ + 1, [] => []
  | n + 1, b :: bs =>
    if isSecond lead b then b :: (bs.take n).takeWhile isContinuation else []

def leadBits (lead : UInt8) : Nat → Nat
  | 0 => lead.toNat
  | 1 => lead.toNat % 32
  | 2 => lead.toNat % 16
  | _ => lead.toNat % 8

/--
The characters of a byte sequence. Each longest start of a character that is not completed, and
each byte that starts none, is one malformed part (`none`).
-/
def decodeUtf8 : Bytes → List (Option Char)
  | [] => []
  | lead :: bs =>
    match announced lead with
    | none => none :: decodeUtf8 bs
    | some n =>
      let tail := continuation lead n bs
      let c :=
        if tail.length = n then
          some (Char.ofNat (tail.foldl (fun v b => v * 64 + b.toNat % 64) (leadBits lead n)))
        else none
      c :: decodeUtf8 (bs.drop tail.length)
termination_by bs => bs.length

def readUtf8 (bs : Bytes) : Option String :=
  ((decodeUtf8 bs).mapM id).map String.ofList

def readUtf8Lossy (bs : Bytes) : String :=
  String.ofList ((decodeUtf8 bs).map (·.getD '\uFFFD'))

end SeaChart.Text
