/-! Which radios and links a build of the firmware has. -/
namespace DeviceSleep
set_option autoImplicit false

structure Capabilities where
  ble : Bool
  wifi : Bool
  cellular : Bool
  mesh : Bool
  ethernet : Bool
deriving DecidableEq, Repr

namespace Capabilities

/-- A board with Bluetooth and Wi-Fi, the usual build. -/
def standard : Capabilities := ⟨true, true, false, false, false⟩

def full : Capabilities := ⟨true, true, true, true, true⟩

def bare : Capabilities := ⟨false, false, false, false, false⟩

end Capabilities

end DeviceSleep
