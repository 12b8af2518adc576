import DeviceSleep.Flags
import DeviceSleep.Mode
import DeviceSleep.Registry

/-! Building a sleep request call by call. The first refused record freezes the request: later calls
leave it as it is, except that its records can still be released. -/
namespace DeviceSleep
set_option autoImplicit false

/-- A finished request. -/
structure Descriptor where
  mode : Mode
  flags : Flags
  sources : Registry
deriving DecidableEq, Repr

namespace Descriptor

/-- Bytes of the fixed part of a request. -/
def size : UInt16 := 16

def empty : Descriptor := ⟨.none, .empty, .empty⟩

/-- Whether traffic on the interface ends the sleep. -/
def wakesOn (d : Descriptor) (i : Interface) : Bool :=
  (d.sources.featured .network).any fun hit => hit.2.payload == .network i

/-- Whether the session with the cloud has to be closed before the sleep, as it has unless an interface of
the platform can wake the device. -/
def cloudMustPersist (has : Capabilities) (d : Descriptor) : Bool :=
  !(Interface.compiledIn has).any d.wakesOn

end Descriptor

/-- A span of time, to the nanosecond. -/
structure Span where
  seconds : UInt64
  nanos : Nat
deriving DecidableEq, Repr

/-- Whole milliseconds, as many as 32 bits hold. -/
def Span.milliseconds (t : Span) : UInt32 :=
  UInt32.ofNat (min (t.seconds.toNat * 1000 + t.nanos / 1000000) 0xFFFFFFFF)

inductive Call where
  | mode (mode : Mode)
  | flag (flags : Flags)
  | gpio (pin : UInt16) (trigger : Trigger)
  | duration (span : Span)
  | durationMs (ms : UInt32)
  | network (interface : Interface)
  | radioLink
  | clear
deriving DecidableEq, Repr

/-- Only a build with Bluetooth has a radio link. -/
def Call.available (has : Capabilities) : Call → Bool
  | radioLink => has.ble
  | _ => true

structure Builder where
  descriptor : Descriptor
  /-- No record has been refused. -/
  intact : Bool
deriving DecidableEq, Repr

namespace Builder

def fresh : Builder := ⟨.empty, true⟩

/-- A request that asks for no mode is not valid either. Whether a mode can do without a wakeup
source is for the platform to say. -/
def valid (b : Builder) : Bool := b.intact && b.descriptor.mode != .none

def sources (b : Builder) : Registry := b.descriptor.sources

/-- Puts changed records back; a refusal freezes the request. -/
def settle (b : Builder) (result : Registry × Change) : Builder × Change :=
  let descriptor := { b.descriptor with sources := result.1 }
  match result.2 with
  | .refused kind => (⟨descriptor, false⟩, .refused kind)
  | change => (⟨descriptor, b.intact⟩, change)

/-- What a call does to a request that nothing has frozen. -/
def perform (grant : Bool) (b : Builder) : Call → Builder × Change
  | .mode mode => ({ b with descriptor.mode := mode }, .kept)
  | .flag flags => ({ b with descriptor.flags := b.descriptor.flags.union flags }, .kept)
  | .gpio pin trigger => b.settle (b.sources.setGpio grant pin trigger)
  | .duration span => b.settle (b.sources.setTimer grant span.milliseconds)
  | .durationMs ms => b.settle (b.sources.setTimer grant ms)
  | .network i => b.settle (b.sources.addNetwork grant i)
  | .radioLink => b.settle (b.sources.addRadioLink grant)
  | .clear => b.settle b.sources.releaseAll

/-- A frozen request can only be cleared, and stays frozen. -/
def apply (grant : Bool) (b : Builder) (call : Call) : Builder × Change :=
  if b.intact || call == .clear then b.perform grant call else (b, .kept)

/-- The request as it is, and a fresh one in its place. -/
def take (b : Builder) : Builder × Builder := (b, fresh)

/-- What is reported of a call. -/
def events : Change → List Event
  | .refused kind =>
    [⟨.warn, .builder, s!"Sleep configuration invalidated: {Change.refusal kind}"⟩]
  | change => change.events

end Builder

end DeviceSleep
