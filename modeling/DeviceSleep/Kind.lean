/-! The kinds of wakeup source, their numbers, and how much each stores. -/
namespace DeviceSleep
set_option autoImplicit false

inductive Kind where
  | gpio
  | timer
  | network
  | radioLink
deriving DecidableEq, Repr

namespace Kind

def all : List Kind := [gpio, timer, network, radioLink]

def name : Kind → String
  | gpio => "gpio"
  | timer => "timer"
  | network => "network"
  | radioLink => "radio_link"

/-- The numbers leave room for kinds that other devices know. -/
def code : Kind → UInt16
  | gpio => 1
  | timer => 4
  | network => 12
  | radioLink => 13

def ofCode? (code : UInt16) : Option Kind := all.find? fun k => k.code == code

def ofName? (name : String) : Option Kind := all.find? fun k => k.name == name

/-- Bytes of a record's payload. -/
def payloadSize : Kind → UInt16
  | gpio => 4
  | timer => 4
  | network => 4
  | radioLink => 0

@[simp] theorem ofCode?_code (k : Kind) : ofCode? k.code = some k := by cases k <;> rfl

end Kind

end DeviceSleep
