import DeviceSleep.Image.Writer
import DeviceSleep.Inspection
import DeviceSleep.Platform

/-! Going to sleep. A recorder stands in for the device: it judges a request by its platform, reads
the image of it as a device would, keeps what it read, and tells at once why it woke: the reason
scripted for this sleep, or else the likeliest one. A request that is turned down leaves no trace. -/
namespace DeviceSleep
set_option autoImplicit false

/-- What ended a sleep. -/
inductive WakeReason where
  | gpio (pin : UInt16)
  | timer
  | network (interface : Interface)
  | radioLink
  | unknown
deriving DecidableEq, Repr

def WakeReason.inspect : WakeReason → String
  | gpio pin => inspectFields "Gpio" [("pin", toString pin.toNat)]
  | timer => "Timer"
  | network i => inspectFields "Network" [("index", i.inspect)]
  | radioLink => "RadioLink"
  | unknown => "Unknown"

/-- One sleep as the device saw it. -/
structure SleepRecord where
  mode : Mode
  flags : Flags
  sources : List Payload
  /-- Records of kinds the device does not know. -/
  skipped : Nat
  imageLength : Nat
deriving DecidableEq, Repr

namespace SleepRecord

/-- Sorts records into known payloads and a count of the others; the first fault ends it. -/
def collect : List (Except Image.Fault Image.RawRecord) → Except Image.Fault (List Payload × Nat)
  | [] => .ok ([], 0)
  | item :: items => do
    let raw ← item
    let payload ← raw.decode
    let (payloads, skipped) ← collect items
    match payload with
    | some p => .ok (p :: payloads, skipped)
    | none => .ok (payloads, skipped + 1)

def ofImage (bytes : List UInt8) : Except Image.Fault SleepRecord := do
  let view ← Image.View.parse bytes
  let (sources, skipped) ← collect view.records
  return ⟨view.mode, view.flags, sources, skipped, bytes.length⟩

/-- A timer is likelier than anything else to end a sleep, and then the newest source is. -/
def likelyReason (r : SleepRecord) : WakeReason :=
  if r.sources.any fun p => p.kind == .timer then .timer
  else
    match r.sources with
    | [] => .unknown
    | .gpio pin _ :: _ => .gpio pin
    | .timer _ :: _ => .timer
    | .network i :: _ => .network i
    | .radioLink :: _ => .radioLink

/-- What is reported when the device accepts. -/
def accepted (r : SleepRecord) : Event :=
  ⟨.debug, .recorder,
    s!"Mock {r.mode.name} sleep accepted: {r.sources.length} source(s), {r.imageLength} " ++
      "byte image"⟩

end SleepRecord

structure Recorder where
  platform : Platform
  /-- The accepted sleeps, the latest last. -/
  history : List SleepRecord
  /-- The reasons to tell, the next one first. -/
  scripted : List WakeReason
deriving DecidableEq, Repr

/-- What came of a request, and the recorder after it. -/
structure Attempt where
  hal : Recorder
  answer : Except Refusal WakeReason
  events : List Event

namespace Recorder

def fresh (p : Platform) : Recorder := ⟨p, [], []⟩

def script (hal : Recorder) (reason : WakeReason) : Recorder :=
  { hal with scripted := hal.scripted ++ [reason] }

/-- Keeps an accepted sleep and tells why it ended. -/
def accept (hal : Recorder) (r : SleepRecord) : Attempt :=
  let history := hal.history ++ [r]
  match hal.scripted with
  | [] => ⟨{ hal with history }, .ok r.likelyReason, [r.accepted]⟩
  | reason :: later => ⟨⟨hal.platform, history, later⟩, .ok reason, [r.accepted]⟩

def enter (hal : Recorder) (d : Descriptor) : Attempt :=
  match hal.platform.check d with
  | .error refusal => ⟨hal, .error refusal, []⟩
  | .ok () =>
    match SleepRecord.ofImage d.encode with
    | .error fault => ⟨hal, .error (.malformedImage fault), []⟩
    | .ok r => hal.accept r

/-- Asks for a sleep on behalf of a builder; one that is not valid never reaches the device. -/
def enterSleep (hal : Recorder) (b : Builder) : Attempt :=
  if b.valid then
    let attempt := hal.enter b.descriptor
    let asked : Event :=
      ⟨.info, .hal,
        s!"Entering {b.descriptor.mode.name} sleep with {b.sources.size} wakeup source(s)"⟩
    let woke : List Event :=
      match attempt.answer with
      | .ok reason => [⟨.info, .hal, s!"Woke up: {reason.inspect}"⟩]
      | .error _ => []
    { attempt with events := asked :: attempt.events ++ woke }
  else
    ⟨hal, .error .invalidConfiguration,
      [⟨.error, .hal, "Refusing to sleep with an invalid configuration"⟩]⟩

end Recorder

end DeviceSleep
