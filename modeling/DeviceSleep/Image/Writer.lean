import DeviceSleep.Builder
import DeviceSleep.Bytes.LittleEndian

/-! The flat image of a request: a fixed head of sixteen bytes and the records after it, newest
first, each a head of eight bytes and its payload. Words are little-endian; bytes without a meaning
are zero. -/
namespace DeviceSleep
set_option autoImplicit false

open Bytes

namespace Payload

def encode : Payload → List UInt8
  | gpio pin trigger => ofWord16 pin ++ [trigger.code, 0]
  | timer ms => ofWord32 ms
  | network i => [i.index, 0, 0, 0]
  | radioLink => []

theorem length_encode (p : Payload) : p.encode.length = p.kind.payloadSize.toNat := by
  cases p <;> rfl

end Payload

namespace Source

def encode (s : Source) : List UInt8 :=
  ofWord16 s.header.kind.code ++ ofWord16 s.header.version ++ ofWord16 s.header.size ++ [0, 0] ++
    s.payload.encode

end Source

namespace Descriptor

/-- The records of the image, one after the other. -/
def area (d : Descriptor) : List UInt8 := d.sources.sources.flatMap Source.encode

def encode (d : Descriptor) : List UInt8 :=
  ofWord16 size ++ ofWord16 layoutVersion ++ [d.mode.code, 0, 0, 0] ++ ofWord32 d.flags.bits ++
    ofWord32 (UInt32.ofNat d.area.length) ++ d.area

theorem length_encode (d : Descriptor) : d.encode.length = 16 + d.area.length := by
  simp [encode]; omega

end Descriptor

end DeviceSleep
