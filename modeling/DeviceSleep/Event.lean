/-! What an operation reports while it works: a severity, the part that reports, and a text. -/
namespace DeviceSleep
set_option autoImplicit false

inductive Level where
  | error
  | warn
  | info
  | debug
  | trace
deriving DecidableEq, Repr

namespace Level

def name : Level → String
  | error => "ERROR"
  | warn => "WARN"
  | info => "INFO"
  | debug => "DEBUG"
  | trace => "TRACE"

/-- Detail grows with the rank: a reader who asks for rank `n` sees the ranks up to `n`. -/
def rank : Level → Nat
  | error => 1
  | warn => 2
  | info => 3
  | debug => 4
  | trace => 5

end Level

/-- The parts that report. -/
inductive Origin where
  | registry
  | builder
  | hal
  | recorder
  | platform
  | mesh
  | config
  | profile
  | control
deriving DecidableEq, Repr

/-- The name under which reports of a part can be asked for; a part of a part continues its name. -/
def Origin.path : Origin → String
  | registry => "dormant_hal::registry"
  | builder => "dormant_hal::config"
  | hal => "dormant_hal::hal"
  | recorder => "dormant_hal::mock"
  | platform => "dormant_hal::platform"
  | mesh => "dormant::mesh"
  | config => "dormant_config"
  | profile => "dormant_config::profile"
  | control => "dormant_ctl"

structure Event where
  level : Level
  origin : Origin
  text : String
deriving DecidableEq, Repr

end DeviceSleep
