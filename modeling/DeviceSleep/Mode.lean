import DeviceSleep.Text.Word

/-! The sleep modes a device can be asked for, from none to the deepest. -/
namespace DeviceSleep
set_option autoImplicit false

inductive Mode where
  | none
  | stop
  | ultraLowPower
  | hibernate
deriving DecidableEq, Repr

namespace Mode

def all : List Mode := [none, stop, ultraLowPower, hibernate]

def name : Mode → String
  | none => "none"
  | stop => "stop"
  | ultraLowPower => "ultra_low_power"
  | hibernate => "hibernate"

def code : Mode → UInt8
  | none => 0
  | stop => 1
  | ultraLowPower => 2
  | hibernate => 3

def ofCode? (code : UInt8) : Option Mode := all.find? fun m => m.code == code

/-- The mode of exactly this name. -/
def ofName? (name : String) : Option Mode := all.find? fun m => m.name == name

/-- Reads a mode as a person writes it: any letter case, blanks around it, or the short `ulp`. -/
def parse? (s : String) : Option Mode :=
  let word := Text.folded s
  if word = "ulp" then some ultraLowPower else ofName? word

@[simp] theorem ofCode?_code (m : Mode) : ofCode? m.code = some m := by cases m <;> rfl

@[simp] theorem ofName?_name (m : Mode) : ofName? m.name = some m := by cases m <;> decide +kernel

end Mode

end DeviceSleep
