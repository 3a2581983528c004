import SeaChart.Dictionary
import SeaChart.Text.Numeral

namespace SeaChart

structure Color where
  red : UInt8
  green : UInt8
  blue : UInt8
deriving DecidableEq, Repr

namespace Color

def hexDigit (n : Nat) : Char :=
  if n < 10 then Char.ofNat ('0'.toNat + n) else Char.ofNat ('A'.toNat + (n - 10))

def hexPair (b : UInt8) : List Char :=
  [hexDigit (b.toNat / 16), hexDigit (b.toNat % 16)]

def hexDigits (c : Color) : List Char :=
  '#' :: (hexPair c.red ++ hexPair c.green ++ hexPair c.blue)

theorem length_hexDigits (c : Color) : c.hexDigits.length = 7 := rfl

def hex (c : Color) : String :=
  "\"" ++ String.ofList c.hexDigits ++ "\""

theorem length_hex (c : Color) : c.hex.length = 9 := by
  have : "\"".length = 1 := rfl
  simp [hex, length_hexDigits, String.length_append, this]

def channels (c : Color) : String :=
  Text.natText c.red.toNat ++ " " ++ Text.natText c.green.toNat ++ " " ++
    Text.natText c.blue.toNat

def missing : Color := ⟨255, 0, 255⟩

end Color

structure Palette where
  name : String
  spriteSheet : Option String
  colors : Dictionary Color
deriving Repr

def Palette.color? (p : Palette) (name : String) : Option Color :=
  p.colors.find? name

end SeaChart
