/-! Why work breaks off without an answer: a number leaves the bounds within which it is counted. -/
namespace DeviceSleep
set_option autoImplicit false

inductive Breakdown where
  /-- An index points before the beginning of a list. -/
  | beforeList
  /-- A list would have more places than there can be. -/
  | tooManyPlaces
  /-- A text has more quotes in a row than are counted. -/
  | tooManyQuotes
deriving DecidableEq, Repr

namespace Breakdown

def message : Breakdown → String
  | beforeList => "attempt to subtract with overflow"
  | tooManyPlaces => "capacity overflow"
  | tooManyQuotes => "attempt to add with overflow"

end Breakdown

end DeviceSleep
