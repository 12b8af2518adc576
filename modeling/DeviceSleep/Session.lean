import DeviceSleep.Allocator
import DeviceSleep.Hal

/-! Several builders at once. They stand in numbered slots and may share allocators; whatever leaves
a slot, because it is replaced or dropped, gives its records back to the allocator it came from. -/
namespace DeviceSleep
set_option autoImplicit false

structure Slot where
  /-- The number of the allocator, or none for one that always grants and does not count. -/
  owner : Option Nat
  builder : Builder
deriving DecidableEq, Repr

structure Session where
  slots : List (Nat × Slot)
  allocators : List Allocator
  hals : List Recorder
deriving DecidableEq, Repr

inductive Action where
  /-- A fresh builder in a slot. -/
  | create (slot : Nat) (owner : Option Nat)
  /-- The content goes to the slot `target`; a fresh builder with the same allocator stays. -/
  | take (slot target : Nat)
  /-- The content goes to the slot `target`; the slot is empty then. -/
  | move (slot target : Nat)
  | drop (slot : Nat)
  | call (slot : Nat) (call : Call)
  | script (hal : Nat) (reason : WakeReason)
  | enter (slot hal : Nat)
  | enterSleep (slot hal : Nat)
deriving DecidableEq, Repr

inductive Reply where
  | done
  | noSlot
  | noHal
  /-- The number of scripted reasons waiting. -/
  | queued (count : Nat)
  | slept (answer : Except Refusal WakeReason)

namespace Session

/-! ## Slots -/

def find? (s : Session) (slot : Nat) : Option Slot := s.slots.lookup slot

/-- Empties a slot without giving anything back. -/
def without (s : Session) (slot : Nat) : Session :=
  { s with slots := s.slots.filter fun entry => entry.1 != slot }

/-- Fills an empty slot. -/
def fill (s : Session) (slot : Nat) (content : Slot) : Session :=
  { s with slots := (slot, content) :: s.slots }

/-! ## Allocators -/

/-- What the allocator of a slot answers to the next acquisition. -/
def grants (s : Session) (owner : Option Nat) : Bool :=
  match owner.bind fun n => s.allocators[n]? with
  | none => true
  | some a => a.grants

/-- Books a change with the allocator it concerns. -/
def account (s : Session) (owner : Option Nat) (change : Change) : Except OverRelease Session :=
  match owner with
  | none => .ok s
  | some n =>
    match s.allocators[n]? with
    | none => .ok s
    | some a => do
      let booked ← a.account change
      return { s with allocators := s.allocators.set n booked }

/-- Gives the records of a slot's content back. -/
def giveBack (s : Session) (content : Slot) : Except OverRelease Session :=
  s.account content.owner content.builder.sources.releaseAll.2

/-- Empties a slot and gives its records back; an empty slot stays empty. -/
def vacate (s : Session) (slot : Nat) : Except OverRelease Session :=
  match s.find? slot with
  | none => .ok s
  | some content => (s.without slot).giveBack content

/-- Puts a content into a slot in place of what was there. -/
def put (s : Session) (slot : Nat) (content : Slot) : Except OverRelease Session := do
  let vacated ← s.vacate slot
  return vacated.fill slot content

/-! ## Steps -/

/-- Replaces the content of a slot by what a call made of it. -/
def refill (s : Session) (slot : Nat) (content : Slot) : Session :=
  (s.without slot).fill slot content

/-- Lets a device answer a request. -/
def consult (s : Session) (slot hal : Nat) (ask : Recorder → Builder → Attempt) :
    Session × Reply × List Event :=
  match s.find? slot with
  | none => (s, .noSlot, [])
  | some content =>
    match s.hals[hal]? with
    | none => (s, .noHal, [])
    | some recorder =>
      let attempt := ask recorder content.builder
      ({ s with hals := s.hals.set hal attempt.hal }, .slept attempt.answer, attempt.events)

def step (s : Session) (action : Action) :
    Except OverRelease (Session × Reply × List Event) :=
  match action with
  | .create slot owner => do
    let after ← s.put slot ⟨owner, .fresh⟩
    return (after, .done, [])
  | .take slot target =>
    match s.find? slot with
    | none => .ok (s, .noSlot, [])
    | some content => do
      let (taken, left) := content.builder.take
      let after ← (s.refill slot ⟨content.owner, left⟩).put target ⟨content.owner, taken⟩
      return (after, .done, [])
  | .move slot target =>
    match s.find? slot with
    | none => .ok (s, .noSlot, [])
    | some content => do
      let after ← (s.without slot).put target content
      return (after, .done, [])
  | .drop slot =>
    match s.find? slot with
    | none => .ok (s, .noSlot, [])
    | some _ => do
      let after ← s.vacate slot
      return (after, .done, [])
  | .call slot call =>
    match s.find? slot with
    | none => .ok (s, .noSlot, [])
    | some content => do
      let (builder, change) := content.builder.apply (s.grants content.owner) call
      let after ← (s.refill slot ⟨content.owner, builder⟩).account content.owner change
      return (after, .done, Builder.events change)
  | .script hal reason =>
    match s.hals[hal]? with
    | none => .ok (s, .noHal, [])
    | some recorder =>
      let scripted := recorder.script reason
      .ok ({ s with hals := s.hals.set hal scripted }, .queued scripted.scripted.length, [])
  | .enter slot hal => .ok (s.consult slot hal fun recorder b => recorder.enter b.descriptor)
  | .enterSleep slot hal => .ok (s.consult slot hal Recorder.enterSleep)

/-- A whole session of steps. -/
def run (s : Session) : List Action → Except OverRelease Session
  | [] => .ok s
  | action :: actions => do
    let (after, _) ← s.step action
    run after actions

/-- Empties every slot. -/
def close (s : Session) : Except OverRelease Session :=
  s.slots.foldlM (fun state entry => state.vacate entry.1) s

/-- A session with no slot filled. -/
def start (failFrom : List (Option Nat)) (platforms : List Platform) : Session :=
  ⟨[], failFrom.map Allocator.fresh, platforms.map Recorder.fresh⟩

end Session

end DeviceSleep
