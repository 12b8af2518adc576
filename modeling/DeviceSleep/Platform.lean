import DeviceSleep.Builder
import DeviceSleep.Refusal
import DeviceSleep.Text.Word

/-! What a board can do: the modes it has, and for each the wakeup sources it accepts. A request is
judged against it record by record, the newest first, and the first thing amiss is reported. -/
namespace DeviceSleep
set_option autoImplicit false

structure ModeSupport where
  mode : Mode
  wakeupKinds : List Kind
  /-- The mode may be entered although nothing would end it. -/
  allowNoWakeup : Bool
deriving DecidableEq, Repr

structure Platform where
  id : String
  name : String
  /-- Pins below this number can wake the device. -/
  pinCount : UInt16
  modes : List ModeSupport
deriving DecidableEq, Repr

namespace Platform

def supports (p : Platform) (mode : Mode) : Option ModeSupport :=
  p.modes.find? fun s => s.mode == mode

/-- The first of the records, newest first, that the mode does not accept. -/
def firstViolation (p : Platform) (s : ModeSupport) : List Source → Option Refusal
  | [] => none
  | source :: older =>
    if !s.wakeupKinds.contains source.kind then
      some (.unsupportedWakeupSource s.mode source.kind)
    else
      match source.payload with
      | .gpio pin _ => if pin < p.pinCount then firstViolation p s older else some (.invalidPin pin)
      | _ => firstViolation p s older

def check (p : Platform) (d : Descriptor) : Except Refusal Unit :=
  if d.mode = .none then .error .invalidConfiguration
  else
    match p.supports d.mode with
    | none => .error (.unsupportedMode d.mode)
    | some s =>
      if d.sources.isEmpty && !s.allowNoWakeup then .error (.wakeupSourceRequired d.mode)
      else
        match p.firstViolation s d.sources.sources with
        | some refusal => .error refusal
        | none => .ok ()

/-! ## Built-in boards -/

/-- A cellular board with a Bluetooth radio. -/
def cellular : Platform where
  id := "cellular"
  name := "Cellular module"
  pinCount := 24
  modes :=
    [⟨.stop, [.gpio, .timer, .network, .radioLink], false⟩,
     ⟨.ultraLowPower, [.gpio, .timer, .network, .radioLink], false⟩,
     ⟨.hibernate, [.gpio], true⟩]

/-- A Wi-Fi board, which the network cannot wake from the deeper modes. -/
def wifi : Platform where
  id := "wifi"
  name := "Wi-Fi module"
  pinCount := 30
  modes :=
    [⟨.stop, [.gpio, .timer, .network, .radioLink], false⟩,
     ⟨.ultraLowPower, [.gpio, .timer, .radioLink], false⟩,
     ⟨.hibernate, [.gpio, .timer], true⟩]

def builtins : List Platform := [cellular, wifi]

def builtinIds : List String := builtins.map (·.id)

/-- Why there is no such platform. -/
inductive Failure where
  /-- No built-in board has this id. -/
  | unknown (id : String)
  /-- The text describes no board. -/
  | malformed
  /-- The board lists the mode in which it does not sleep. -/
  | listsNone (id : String)
  /-- The file could not be read. -/
  | unreadable
deriving DecidableEq, Repr

namespace Failure

/-- The text of a failure; that of an unreadable text or file is not fixed. -/
def message? : Failure → Option String
  | unknown id => some s!"Unknown platform: {id}"
  | listsNone id =>
    some s!"Invalid platform profile: {id}: mode 'none' cannot be listed as supported"
  | malformed => none
  | unreadable => none

end Failure

/-- Looks a built-in board up by its id, in any letter case. -/
def builtin (id : String) : Except Failure Platform :=
  let word := Text.lower id
  match builtins.find? fun p => p.id == word with
  | some p => .ok p
  | none => .error (.unknown word)

/-- A described board sleeps in every mode it lists. -/
def admitted (p : Platform) : Except Failure Platform :=
  if p.modes.any fun s => s.mode == .none then .error (.listsNone p.id) else .ok p

/-- What is reported when a description has been loaded. -/
def loaded (p : Platform) : Event := ⟨.debug, .platform, s!"Loaded platform profile {p.id}"⟩

end Platform

end DeviceSleep
