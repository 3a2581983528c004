import SeaChart.Store.Basic
import SeaChart.Text.Blank

/-!
The names of the attribute columns of a shapefile, from the header of its table. The header has 32
bytes, one descriptor of 32 bytes for each column, and a terminator; its length stands in it.
-/

namespace SeaChart

open Text (Bytes)

namespace Columns

def headerLength : Nat := 32

def descriptorLength : Nat := 32

def nameLength : Nat := 11

def terminator : UInt8 := 0x0D

def nameOf (descriptor : Bytes) : String :=
  Text.trimmed (Text.readUtf8Lossy ((descriptor.take nameLength).takeWhile (· != 0)))

def names (bytes : Bytes) : List String :=
  if bytes.length < descriptorLength ∨ bytes.head? = some terminator then []
  else nameOf (bytes.take descriptorLength) :: names (bytes.drop descriptorLength)
termination_by bytes.length
decreasing_by
  simp only [List.length_drop, descriptorLength] at *
  omega

def storedLength (header : Bytes) : Nat :=
  match header.drop 8 with
  | low :: high :: _ => low.toNat + 256 * high.toNat
  | _ => 0

def read (bytes : Bytes) : Option (List String) :=
  let length := storedLength bytes
  if bytes.length < headerLength ∨ bytes.length < length then none
  else some (names ((bytes.drop headerLength).take (length - headerLength)))

def load (s : Store) (p : Path) : Except FileError (List String) := do
  match read (← s.read p) with
  | some names => .ok names
  | none => .error .shortRead

end Columns

end SeaChart
