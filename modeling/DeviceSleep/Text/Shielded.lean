import DeviceSleep.Text.Numeral

/-! Text that is safe to print on a terminal: the characters by which a terminal is controlled are
written out instead. Line ends and tabs stay. -/
namespace DeviceSleep.Text
set_option autoImplicit false

/-- The control characters up to `\x7f` that are written out. -/
def controls : List Char := ['\x07', '\x08', '\x0c', '\x1b', '\x7f']

def shieldChar (c : Char) : List Char :=
  if controls.contains c then '\\' :: 'x' :: hexByte c.toUInt8
  else if 0x80 ≤ c.toNat ∧ c.toNat ≤ 0x9f then
    ['\\', 'u', '\x7b'] ++ hexByte c.toUInt8 ++ ['\x7d']
  else [c]

def shielded (s : String) : String := String.ofList (s.toList.flatMap shieldChar)

end DeviceSleep.Text
