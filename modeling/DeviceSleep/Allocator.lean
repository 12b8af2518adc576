import DeviceSleep.Registry

/-! An allocator that counts the records it gave out and took back, and that can run dry at a chosen
attempt. Taking back more than was given out is an error of whoever releases. -/
namespace DeviceSleep
set_option autoImplicit false

structure Allocator where
  /-- The attempt, counted from one, from which on every acquisition fails. -/
  failFrom : Option Nat
  attempts : Nat
  acquired : Nat
  released : Nat
deriving DecidableEq, Repr

/-- A release without an acquisition; the counters include it. -/
structure OverRelease where
  kind : Kind
  counters : Allocator
deriving DecidableEq, Repr

def OverRelease.message (e : OverRelease) : String :=
  s!"{e.kind.name} wakeup source released more often than acquired"

namespace Allocator

def fresh (failFrom : Option Nat) : Allocator := ⟨failFrom, 0, 0, 0⟩

/-- Whether the next acquisition succeeds. -/
def grants (a : Allocator) : Bool :=
  match a.failFrom with
  | none => true
  | some n => a.attempts + 1 < n

/-- Records given out and not taken back. -/
def live (a : Allocator) : Nat := a.acquired - a.released

def attempt (a : Allocator) : Allocator := { a with attempts := a.attempts + 1 }

/-- One acquisition and whether it succeeded. -/
def acquire (a : Allocator) : Allocator × Bool :=
  if a.grants then ({ a.attempt with acquired := a.acquired + 1 }, true) else (a.attempt, false)

def release (a : Allocator) (kind : Kind) : Except OverRelease Allocator :=
  let after := { a with released := a.released + 1 }
  if after.released ≤ after.acquired then .ok after else .error ⟨kind, after⟩

/-- Books what a call did to the records of a registry. -/
def account (a : Allocator) : Change → Except OverRelease Allocator
  | .kept => .ok a
  | .amended _ => .ok a
  | .added _ _ => .ok a.acquire.1
  | .refused _ => .ok a.acquire.1
  | .released kinds => kinds.foldlM release a

end Allocator

end DeviceSleep
