import DeviceSleep.Kind
import DeviceSleep.Mode
import DeviceSleep.Reading.Rules
import DeviceSleep.Trigger

/-! Modes, triggers and kinds as values of a configuration: by their names, under the rules of the
place they come from. -/
namespace DeviceSleep
set_option autoImplicit false

def Mode.read (rules : Rules) (t : Tree) : Option Mode :=
  (rules.choice? (Mode.all.map Mode.name) t).bind Mode.ofName?

def Trigger.read (rules : Rules) (t : Tree) : Option Trigger :=
  (rules.choice? (Trigger.all.map Trigger.name) t).bind Trigger.ofName?

def Kind.read (rules : Rules) (t : Tree) : Option Kind :=
  (rules.choice? (Kind.all.map Kind.name) t).bind Kind.ofName?

end DeviceSleep
