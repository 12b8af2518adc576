import DeviceSleep.Text.Blank
import DeviceSleep.Text.Numeral
import DeviceSleep.Text.Split

/-! Sleep flags: a word of 32 bits. One bit has a name; the others are kept as they are, so that a
device that knows more of them can use them. The text of a word and its reading are inverse. -/
namespace DeviceSleep
set_option autoImplicit false

structure Flags where
  bits : UInt32
deriving DecidableEq, Repr

namespace Flags

def empty : Flags := ⟨0⟩

/-- Wait until the cloud has acknowledged the sleep. -/
def waitCloud : Flags := ⟨1⟩

def union (a b : Flags) : Flags := ⟨a.bits ||| b.bits⟩

def contains (a b : Flags) : Bool := a.bits &&& b.bits == b.bits

/-- The bits that have a name. -/
def named (f : Flags) : Flags := ⟨f.bits &&& 1⟩

/-- The bits that have none. -/
def unnamed (f : Flags) : Flags := ⟨f.bits &&& ~~~1⟩

def waitCloudName : List Char := "WAIT_CLOUD".toList

/-! ## Text -/

/-- The named bit, then the others as one number, with bars between; nothing for no bit. -/
def render (f : Flags) : List Char :=
  let rest := '0' :: 'x' :: Text.hex32 f.unnamed.bits
  if f.contains waitCloud then
    if f.unnamed = empty then waitCloudName else waitCloudName ++ ' ' :: '|' :: ' ' :: rest
  else if f.unnamed = empty then [] else rest

def text (f : Flags) : String := String.ofList f.render

/-- One part: a name, or any bits in hexadecimal. -/
def part? : List Char → Option Flags
  | '0' :: 'x' :: digits => (Text.unsigned? 16 0xFFFFFFFF digits).map fun n => ⟨UInt32.ofNat n⟩
  | cs => if cs = waitCloudName then some waitCloud else none

def parts? : List (List Char) → Option Flags
  | [] => some empty
  | p :: ps => do
    let first ← part? (Text.trim p)
    let rest ← parts? ps
    return first.union rest

/-- Reads parts between bars. A blank text is no flag at all, but a blank part is refused. -/
def read? (cs : List Char) : Option Flags :=
  if cs.all Text.isBlank then some empty else parts? (Text.pieces '|' cs)

def parse? (s : String) : Option Flags := read? s.toList

end Flags

end DeviceSleep
