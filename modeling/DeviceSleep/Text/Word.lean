import DeviceSleep.Text.Blank
import DeviceSleep.Text.Lowercase

/-! The form in which words are compared: without blanks at the ends, and in lowercase. -/
namespace DeviceSleep.Text
set_option autoImplicit false

def folded (s : String) : String := String.ofList (lowercase (trim s.toList))

/-- Whether two texts differ in letter case only. -/
def sameWord (s t : String) : Bool := lower s == lower t

end DeviceSleep.Text
