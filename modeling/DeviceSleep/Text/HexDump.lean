import DeviceSleep.Text.Numeral

/-! Bytes as hexadecimal text: in one piece, and as a dump of sixteen bytes to a line. -/
namespace DeviceSleep.Text
set_option autoImplicit false

/-- Two digits a byte and nothing between them. -/
def hexPlain (bytes : List UInt8) : List Char := bytes.flatMap hexByte

/-- Two digits a byte; `none` where a digit is missing or something else stands. -/
def bytes? : List Char → Option (List UInt8)
  | [] => some []
  | [_] => none
  | high :: low :: rest => do
    let h ← digit? high
    let l ← digit? low
    let bytes ← bytes? rest
    return UInt8.ofNat (16 * h + l) :: bytes

namespace HexDump

/-- The bytes line by line: every line but the last is full. -/
def rows : List UInt8 → List (List UInt8)
  | [] => []
  | b :: bytes => (b :: bytes.take 15) :: rows (bytes.drop 15)
termination_by bytes => bytes.length
decreasing_by simp only [List.length_cons, List.length_drop]; omega

/-- One line: the bytes with single spaces between them. -/
def row : List UInt8 → List Char
  | [] => []
  | [b] => hexByte b
  | b :: c :: rest => hexByte b ++ ' ' :: row (c :: rest)

/-- Lines with line feeds between them. -/
def lines : List (List Char) → List Char
  | [] => []
  | [line] => line
  | line :: next :: rest => line ++ '\n' :: lines (next :: rest)

def render (bytes : List UInt8) : List Char := lines ((rows bytes).map row)

end HexDump

end DeviceSleep.Text
