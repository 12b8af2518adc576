import DeviceSleep.Builder
import DeviceSleep.Reading.Names

/-! Sleep profiles: requests written down as data. Building one makes its calls in a fixed order:
mode, flag, pins, timer, networks, radio link. -/
namespace DeviceSleep
set_option autoImplicit false

structure GpioEntry where
  pin : UInt16
  trigger : Trigger
deriving DecidableEq, Repr

structure Profile where
  mode : Mode
  /-- Wait for the cloud to close its session before sleeping. -/
  waitCloud : Bool
  gpio : List GpioEntry
  durationMs : Option UInt32
  /-- Names or indices of interfaces. -/
  networks : List String
  radioLink : Bool
deriving DecidableEq, Repr

/-- What is wrong with a configuration that could be read. -/
inductive Problem where
  /-- Two profiles have names that differ in letter case only; the later one is meant. -/
  | repeatedProfile (name : String)
  | noProfileSelected
  | unknownInterface (name : String)
  | radioLinkUnavailable
deriving DecidableEq, Repr

def Problem.message : Problem → String
  | repeatedProfile name => s!"sleep profile {name} is defined more than once"
  | noProfileSelected => "no sleep profile selected"
  | unknownInterface name => s!"unknown network interface: {name}"
  | radioLinkUnavailable => "radio link wakeup is not available in this build"

/-! ## Building -/

namespace Builder

/-- Makes calls one after the other with an allocator that always grants. -/
def performAll (b : Builder) : List Call → Builder × List Event
  | [] => (b, [])
  | call :: calls =>
    let (after, change) := b.apply true call
    let (last, more) := performAll after calls
    (last, events change ++ more)

end Builder

namespace Profile

/-- The interfaces that the names mean, or the first name that means none. -/
def resolve : List String → Except Problem (List Interface)
  | [] => .ok []
  | name :: names =>
    match Interface.parse? name with
    | none => .error (.unknownInterface name)
    | some i => (resolve names).map (i :: ·)

def interfaces (p : Profile) : Except Problem (List Interface) := resolve p.networks

/-- The calls up to the radio link. -/
def calls (p : Profile) (networks : List Interface) : List Call :=
  [.mode p.mode] ++ (if p.waitCloud then [.flag .waitCloud] else []) ++
    p.gpio.map (fun entry => .gpio entry.pin entry.trigger) ++
    p.durationMs.toList.map .durationMs ++ networks.map .network

/-- What is reported of a finished request. -/
def built (p : Profile) (b : Builder) : Event :=
  ⟨.debug, .profile, s!"Built {p.mode.name} profile with {b.sources.size} wakeup source(s)"⟩

/-- Builds the request. The interfaces are looked up before anything else; a radio link that the
build lacks is found last, when the other calls have been made and reported. -/
def build (has : Capabilities) (p : Profile) : Except Problem Builder × List Event :=
  match p.interfaces with
  | .error problem => (.error problem, [])
  | .ok networks =>
    let (b, events) := Builder.fresh.performAll (p.calls networks)
    if !p.radioLink then (.ok b, events ++ [p.built b])
    else if has.ble then
      let (linked, more) := b.performAll [.radioLink]
      (.ok linked, events ++ more ++ [p.built linked])
    else (.error .radioLinkUnavailable, events)

end Profile

/-! ## Reading -/

namespace GpioEntry

def fieldNames : List String := ["pin", "trigger"]

/-- A pin without a trigger wakes on the rising edge. -/
def read (rules : Rules) (t : Tree) : Option GpioEntry := do
  let fields : Fields ← rules.fields? fieldNames t
  let pin ← fields.required "pin" (rules.natural? 0xFFFF)
  let trigger ← fields.withDefault "trigger" .rising (Trigger.read rules)
  return ⟨UInt16.ofNat pin, trigger⟩

end GpioEntry

namespace Profile

def fieldNames : List String :=
  ["mode", "wait_cloud", "gpio", "duration_ms", "networks", "radio_link"]

def read (rules : Rules) (t : Tree) : Option Profile := do
  let fields : Fields ← rules.fields? fieldNames t
  let mode ← fields.required "mode" (Mode.read rules)
  let waitCloud ← fields.withDefault "wait_cloud" false rules.bool?
  let gpio ← fields.withDefault "gpio" [] (Tree.listOf? (GpioEntry.read rules))
  let duration ← fields.optional "duration_ms" rules (rules.natural? 0xFFFFFFFF)
  let networks ← fields.withDefault "networks" [] (Tree.listOf? rules.text?)
  let radioLink ← fields.withDefault "radio_link" false rules.bool?
  return ⟨mode, waitCloud, gpio, duration.map UInt32.ofNat, networks, radioLink⟩

end Profile

end DeviceSleep
