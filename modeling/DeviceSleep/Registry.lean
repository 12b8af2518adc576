import DeviceSleep.Event
import DeviceSleep.Source

/-! The wakeup sources of one request. There is at most one record for each key: a second call for a
key amends its record in place. Records are listed newest first, and each keeps its number, counted
from the oldest, until all are released. A new record needs leave from an allocator, which is asked
only then. -/
namespace DeviceSleep
set_option autoImplicit false

/-- Where a record stands, counted from the oldest. -/
structure SourceId where
  position : Nat
deriving DecidableEq, Repr

/-- What a call did to the records. -/
inductive Change where
  /-- Nothing had to be done. -/
  | kept
  /-- A record that was there has a new content. -/
  | amended (payload : Payload)
  /-- The allocator granted a new record; there are now `total`. -/
  | added (kind : Kind) (total : Nat)
  /-- The allocator refused a new record. -/
  | refused (kind : Kind)
  /-- Records went back to the allocator, the oldest first. -/
  | released (kinds : List Kind)
deriving DecidableEq, Repr

/-- The records, newest first. -/
structure Registry where
  sources : List Source
deriving DecidableEq, Repr

namespace Registry

def empty : Registry := ⟨[]⟩

def size (r : Registry) : Nat := r.sources.length

def isEmpty (r : Registry) : Bool := r.sources.isEmpty

def payloads (r : Registry) : List Payload := r.sources.map (·.payload)

def keys (r : Registry) : List Key := r.sources.map (·.key)

/-! ## Looking records up -/

/-- The newest record of a kind in a list, with its number. -/
def newest (kind : Kind) : List Source → Option (SourceId × Source)
  | [] => none
  | s :: older => if s.kind = kind then some (⟨older.length⟩, s) else newest kind older

def head (r : Registry) : Option (SourceId × Source) :=
  match r.sources with
  | [] => none
  | s :: older => some (⟨older.length⟩, s)

def find (r : Registry) (kind : Kind) : Option (SourceId × Source) := newest kind r.sources

/-- The records older than a number. A number beyond the newest record leaves them all. -/
def olderThan (r : Registry) (id : SourceId) : List Source :=
  r.sources.drop (r.size - id.position)

def findAfter (r : Registry) (kind : Kind) (id : SourceId) : Option (SourceId × Source) :=
  newest kind (r.olderThan id)

def get? (r : Registry) (id : SourceId) : Option Source := r.sources.reverse[id.position]?

/-- From a first hit on through the older ones; `steps` bounds their number. -/
def follow (r : Registry) (kind : Kind) :
    Nat → Option (SourceId × Source) → List (SourceId × Source)
  | 0, _ => []
  | _, none => []
  | steps + 1, some (id, s) => (id, s) :: follow r kind steps (r.findAfter kind id)

/-- All records of a kind, each found from the one before. -/
def featured (r : Registry) (kind : Kind) : List (SourceId × Source) :=
  follow r kind r.size (r.find kind)

def pins (r : Registry) : List (UInt16 × Trigger) :=
  r.payloads.filterMap fun
    | .gpio pin trigger => some (pin, trigger)
    | _ => none

def interfaces (r : Registry) : List Interface :=
  r.payloads.filterMap fun
    | .network i => some i
    | _ => none

def timer (r : Registry) : Option UInt32 :=
  r.payloads.findSome? fun
    | .timer ms => some ms
    | _ => none

/-! ## Changing them -/

/-- Adds a record in front, if the allocator grants it. -/
def allocate (grant : Bool) (payload : Payload) (r : Registry) : Registry × Change :=
  if grant then
    (⟨.ofPayload payload :: r.sources⟩, .added payload.kind (r.size + 1))
  else (r, .refused payload.kind)

/-- Gives the newest record of a pin another trigger. -/
def retrigger (pin : UInt16) (trigger : Trigger) : List Source → Option (List Source)
  | [] => none
  | s :: older =>
    match s.payload with
    | .gpio p _ =>
      if p = pin then some (⟨s.header, .gpio p trigger⟩ :: older)
      else (retrigger pin trigger older).map (s :: ·)
    | _ => (retrigger pin trigger older).map (s :: ·)

/-- Gives the newest timer another duration. -/
def retime (ms : UInt32) : List Source → Option (List Source)
  | [] => none
  | s :: older =>
    match s.payload with
    | .timer _ => some (⟨s.header, .timer ms⟩ :: older)
    | _ => (retime ms older).map (s :: ·)

def setGpio (grant : Bool) (pin : UInt16) (trigger : Trigger) (r : Registry) :
    Registry × Change :=
  match retrigger pin trigger r.sources with
  | some sources => (⟨sources⟩, .amended (.gpio pin trigger))
  | none => r.allocate grant (.gpio pin trigger)

def setTimer (grant : Bool) (ms : UInt32) (r : Registry) : Registry × Change :=
  match retime ms r.sources with
  | some sources => (⟨sources⟩, .amended (.timer ms))
  | none => r.allocate grant (.timer ms)

def addNetwork (grant : Bool) (i : Interface) (r : Registry) : Registry × Change :=
  if r.interfaces.contains i then (r, .kept) else r.allocate grant (.network i)

def addRadioLink (grant : Bool) (r : Registry) : Registry × Change :=
  if (r.find .radioLink).isSome then (r, .kept) else r.allocate grant .radioLink

def releaseAll (r : Registry) : Registry × Change :=
  (empty, .released (r.sources.reverse.map (·.kind)))

end Registry

namespace Change

/-- What is reported of a change to the records. -/
def events : Change → List Event
  | kept => []
  | amended (.gpio pin trigger) =>
    [⟨.debug, .registry, s!"Updating GPIO {pin.toNat} wakeup to {trigger.name}"⟩]
  | amended (.timer ms) => [⟨.debug, .registry, s!"Updating timer wakeup to {ms.toNat} ms"⟩]
  | amended _ => []
  | added kind total => [⟨.debug, .registry, s!"Added {kind.name} wakeup source ({total} total)"⟩]
  | refused _ => []
  | released _ => []

/-- The text for a refused record. -/
def refusal (kind : Kind) : String := s!"failed to allocate {kind.name} wakeup source"

end Change

end DeviceSleep
