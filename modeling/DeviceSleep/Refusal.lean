import DeviceSleep.Image.Reader

/-! Why a device does not go to sleep although it was asked to. -/
namespace DeviceSleep
set_option autoImplicit false

inductive Refusal where
  | invalidConfiguration
  | unsupportedMode (mode : Mode)
  | unsupportedWakeupSource (mode : Mode) (kind : Kind)
  | wakeupSourceRequired (mode : Mode)
  | invalidPin (pin : UInt16)
  | malformedImage (fault : Image.Fault)
deriving DecidableEq, Repr

namespace Refusal

def message : Refusal → String
  | invalidConfiguration => "Sleep configuration is not valid"
  | unsupportedMode mode => s!"Sleep mode {mode.name} is not supported on this platform"
  | unsupportedWakeupSource mode kind =>
    s!"{kind.name} wakeup source is not supported in {mode.name} mode"
  | wakeupSourceRequired mode => s!"{mode.name} mode requires at least one wakeup source"
  | invalidPin pin => s!"GPIO pin {pin.toNat} cannot wake the device"
  | malformedImage fault => s!"Malformed descriptor image: {fault.message}"

end Refusal

end DeviceSleep
