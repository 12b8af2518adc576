import DeviceSleep.Text.Word

/-! Which edge of a pin's signal ends the sleep. -/
namespace DeviceSleep
set_option autoImplicit false

inductive Trigger where
  | change
  | rising
  | falling
deriving DecidableEq, Repr

namespace Trigger

def all : List Trigger := [change, rising, falling]

def name : Trigger → String
  | change => "change"
  | rising => "rising"
  | falling => "falling"

def code : Trigger → UInt8
  | change => 0
  | rising => 1
  | falling => 2

def ofCode? (code : UInt8) : Option Trigger := all.find? fun t => t.code == code

def ofName? (name : String) : Option Trigger := all.find? fun t => t.name == name

def parse? (s : String) : Option Trigger := ofName? (Text.folded s)

@[simp] theorem ofCode?_code (t : Trigger) : ofCode? t.code = some t := by cases t <;> rfl

end Trigger

end DeviceSleep
