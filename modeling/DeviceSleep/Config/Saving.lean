import DeviceSleep.Config
import DeviceSleep.Files
import DeviceSleep.Toml.Writer

/-! A configuration as a TOML text, and the file that holds it. -/
namespace DeviceSleep
set_option autoImplicit false

open Toml

/-- The header of a profile, or of a table below it. -/
def Profile.path (name : String) : List Char := "profiles.".toList ++ writeKey name.toList

def GpioEntry.render (name : String) (entry : GpioEntry) : List Char :=
  "\n[[".toList ++ Profile.path name ++ ".gpio]]\n".toList ++
    writePair "pin" (writeNat entry.pin.toNat) ++
    writePair "trigger" (writeText entry.trigger.name.toList)

namespace Profile

/-- The fields in order; pins follow as tables of their own, unless there are none. -/
def render (name : String) (p : Profile) : List Char :=
  "\n[".toList ++ path name ++ "]\n".toList ++
    writePair "mode" (writeText p.mode.name.toList) ++
    writePair "wait_cloud" (writeBool p.waitCloud) ++
    (if p.gpio.isEmpty then writePair "gpio" (writeTexts []) else []) ++
    (match p.durationMs with
      | none => []
      | some ms => writePair "duration_ms" (writeNat ms.toNat)) ++
    writePair "networks" (writeTexts (p.networks.map String.toList)) ++
    writePair "radio_link" (writeBool p.radioLink) ++
    p.gpio.flatMap (GpioEntry.render name)

end Profile

namespace Config

def render (c : Config) : List Char :=
  writePair "platform" (writeText c.platform.toList) ++
    (match c.defaultProfile with
      | none => []
      | some name => writePair "default_profile" (writeText name.toList)) ++
    (if c.profiles.isEmpty then "\n[profiles]\n".toList
      else c.profiles.flatMap fun entry => entry.2.render entry.1)

def text (c : Config) : String := String.ofList c.render

/-- What is reported of a saved configuration. -/
def saved (path : String) : Event := ⟨.info, .config, s!"Configuration saved to {path}"⟩

/-- The texts that are written as values. -/
def texts (c : Config) : List String :=
  c.platform :: c.defaultProfile.toList ++ c.profiles.flatMap fun entry => entry.2.networks

/-- Writes the file, with the directories that its path needs. -/
def save (c : Config) (files : Surroundings) (path : String) : Except Failure Surroundings :=
  if c.texts.all fun text => Toml.isCountable text.toList then
    match files.write path c.text with
    | none => .error .unreadable
    | some files => .ok files
  else .error (.broken .tooManyQuotes)

end Config

end DeviceSleep
