import DeviceSleep.Files
import DeviceSleep.Platform
import DeviceSleep.Reading.Names
import DeviceSleep.Toml.Document

/-! Boards described by a text or an exchanged value. -/
namespace DeviceSleep
set_option autoImplicit false

namespace ModeSupport

def fieldNames : List String := ["mode", "wakeup_kinds", "allow_no_wakeup"]

def read (rules : Rules) (t : Tree) : Option ModeSupport := do
  let fields : Fields ← rules.fields? fieldNames t
  let mode ← fields.required "mode" (Mode.read rules)
  let kinds ← fields.required "wakeup_kinds" (Tree.listOf? (Kind.read rules))
  let allowNoWakeup ← fields.withDefault "allow_no_wakeup" false rules.bool?
  return ⟨mode, kinds, allowNoWakeup⟩

end ModeSupport

namespace Platform

def fieldNames : List String := ["id", "name", "pin_count", "modes"]

def read (rules : Rules) (t : Tree) : Option Platform := do
  let fields : Fields ← rules.fields? fieldNames t
  let id ← fields.required "id" rules.text?
  let name ← fields.required "name" rules.text?
  let pinCount ← fields.required "pin_count" (rules.natural? 0xFFFF)
  let modes ← fields.required "modes" (Tree.listOf? (ModeSupport.read rules))
  return ⟨id, name, UInt16.ofNat pinCount, modes⟩

/-- A load and what it reports. -/
abbrev Loading := Except Failure Platform × List Event

def ofText (text : String) : Loading :=
  match (Toml.parse? text).bind (read .file) with
  | none => (.error .malformed, [])
  | some p =>
    match p.admitted with
    | .error e => (.error e, [])
    | .ok p => (.ok p, [p.loaded])

def load (disk : Disk) (path : String) : Loading :=
  match disk path with
  | .text text => ofText text
  | _ => (.error .unreadable, [])

end Platform

end DeviceSleep
