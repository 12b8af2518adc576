import DeviceSleep.Interface
import DeviceSleep.Kind
import DeviceSleep.Trigger

/-! Records of wakeup sources. A record carries a header in front of what it stores, by which a
reader can pass over it; its key says what it is the only record of. -/
namespace DeviceSleep
set_option autoImplicit false

inductive Payload where
  | gpio (pin : UInt16) (trigger : Trigger)
  | timer (ms : UInt32)
  | network (interface : Interface)
  | radioLink
deriving DecidableEq, Repr

/-- What there is at most one record of. -/
inductive Key where
  | gpio (pin : UInt16)
  | timer
  | network (interface : Interface)
  | radioLink
deriving DecidableEq, Repr

namespace Payload

def kind : Payload → Kind
  | gpio _ _ => .gpio
  | timer _ => .timer
  | network _ => .network
  | radioLink => .radioLink

def key : Payload → Key
  | gpio pin _ => .gpio pin
  | timer _ => .timer
  | network i => .network i
  | radioLink => .radioLink

end Payload

/-- The version of the layout, the same for a request and its records. -/
def layoutVersion : UInt16 := 1

structure Header where
  kind : Kind
  version : UInt16
  size : UInt16
deriving DecidableEq, Repr

namespace Header

/-- Bytes of the header itself. -/
def length : UInt16 := 8

/-- The header of a new record; its size counts the header too. -/
def ofKind (kind : Kind) : Header := ⟨kind, layoutVersion, length + kind.payloadSize⟩

end Header

structure Source where
  header : Header
  payload : Payload
deriving DecidableEq, Repr

namespace Source

def ofPayload (payload : Payload) : Source := ⟨.ofKind payload.kind, payload⟩

def kind (s : Source) : Kind := s.header.kind

def key (s : Source) : Key := s.payload.key

end Source

end DeviceSleep
