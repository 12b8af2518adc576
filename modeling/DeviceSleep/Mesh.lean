import DeviceSleep.Event
import DeviceSleep.Text.Numeral

/-! Notices of a mesh network. The stack reports what changed as a set of bits together with the
state at that time; a notice names each change once, and three of them with the new state. Bits that
are not declared say nothing. -/
namespace DeviceSleep.Mesh
set_option autoImplicit false

inductive Role where
  | disabled
  | detached
  | child
  | router
  | leader
deriving DecidableEq, Repr

inductive Commissioner where
  | disabled
  | petition
  | active
deriving DecidableEq, Repr

inductive Joiner where
  | idle
  | discover
  | connect
  | connected
  | entrust
  | joined
deriving DecidableEq, Repr

namespace Role

def all : List Role := [disabled, detached, child, router, leader]

def name : Role → String
  | disabled => "disabled"
  | detached => "detached"
  | child => "child"
  | router => "router"
  | leader => "leader"

def ofName? (name : String) : Option Role := all.find? fun r => r.name == name

end Role

namespace Commissioner

def all : List Commissioner := [disabled, petition, active]

def name : Commissioner → String
  | disabled => "disabled"
  | petition => "petition"
  | active => "active"

def ofName? (name : String) : Option Commissioner := all.find? fun c => c.name == name

end Commissioner

namespace Joiner

def all : List Joiner := [idle, discover, connect, connected, entrust, joined]

def name : Joiner → String
  | idle => "idle"
  | discover => "discover"
  | connect => "connect"
  | connected => "connected"
  | entrust => "entrust"
  | joined => "joined"

def ofName? (name : String) : Option Joiner := all.find? fun j => j.name == name

end Joiner

/-- The state of a node when a notice is given. -/
structure Snapshot where
  role : Role
  commissioner : Commissioner
  joiner : Joiner
deriving DecidableEq, Repr

/-- A set of changes, one bit each. -/
structure Changes where
  bits : UInt32
deriving DecidableEq, Repr

namespace Changes

def bit (n : Nat) : Changes := ⟨1 <<< UInt32.ofNat n⟩

def role : Changes := bit 2
def commissioner : Changes := bit 23
def joiner : Changes := bit 24

def contains (a b : Changes) : Bool := a.bits &&& b.bits == b.bits

def union (a b : Changes) : Changes := ⟨a.bits ||| b.bits⟩

/-- The declared changes, by ascending bit. -/
def declared : List (Changes × String) :=
  [(bit 0, "IP6_ADDRESS_ADDED"), (bit 1, "IP6_ADDRESS_REMOVED"), (role, "ROLE"),
   (bit 3, "LINK_LOCAL_ADDR"), (bit 4, "MESH_LOCAL_ADDR"), (bit 5, "RLOC_ADDED"),
   (bit 6, "RLOC_REMOVED"), (bit 7, "PARTITION_ID"), (bit 8, "KEY_SEQUENCE_COUNTER"),
   (bit 9, "NETWORK_DATA"), (bit 10, "CHILD_ADDED"), (bit 11, "CHILD_REMOVED"),
   (bit 12, "IP6_MULTICAST_SUBSCRIBED"), (bit 13, "IP6_MULTICAST_UNSUBSCRIBED"),
   (bit 14, "CHANNEL"), (bit 15, "PAN_ID"), (bit 16, "NETWORK_NAME"), (bit 17, "EXT_PAN_ID"),
   (bit 18, "MASTER_KEY"), (bit 19, "PSKC"), (bit 20, "SECURITY_POLICY"),
   (commissioner, "COMMISSIONER_STATE"), (joiner, "JOINER_STATE")]

/-- What is said of a change that has no state of its own. -/
def descriptions : List (Changes × String) :=
  [(bit 0, "IPv6 address was added"), (bit 1, "IPv6 address was removed"),
   (bit 3, "Link-local address changed"), (bit 4, "Mesh-local address changed"),
   (bit 5, "RLOC was added"), (bit 6, "RLOC was removed"), (bit 7, "Partition ID changed"),
   (bit 8, "Key sequence changed"), (bit 9, "Network data changed"), (bit 10, "Child was added"),
   (bit 11, "Child was removed"), (bit 12, "Subscribed to IPv6 multicast address"),
   (bit 13, "Unsubscribed from IPv6 multicast address"), (bit 14, "Network channel changed"),
   (bit 15, "PAN ID changed"), (bit 16, "Network name changed"),
   (bit 17, "Extended PAN ID changed"), (bit 18, "Master key changed"), (bit 19, "PSKc changed"),
   (bit 20, "Security policy changed")]

/-- The entries of a table whose change has happened. -/
def pick (table : List (Changes × String)) (c : Changes) : List String :=
  (table.filter fun entry => c.contains entry.1).map (·.2)

def names (c : Changes) : List String := pick declared c

def describe (c : Changes) : List String := pick descriptions c

/-- All declared bits. -/
def mask : Changes := declared.foldl (fun m entry => m.union entry.1) ⟨0⟩

/-- The bits that are not declared. -/
def undeclared (c : Changes) : UInt32 := c.bits &&& ~~~mask.bits

def isDeclared (c : Changes) : Bool := c.undeclared == 0

/-- Names and, for the other bits together, a number in hexadecimal. -/
def inspect (c : Changes) : String :=
  let rest := if c.isDeclared then [] else ["0x" ++ String.ofList (Text.hex32 c.undeclared)]
  let parts := c.names ++ rest
  "MeshStateChange(" ++ (if parts.isEmpty then "0x0" else " | ".intercalate parts) ++ ")"

end Changes

namespace Snapshot

def render (s : Snapshot) : String := s!"{s.role.name} {s.commissioner.name} {s.joiner.name}"

/-- The messages that tell a new state. -/
def messages (s : Snapshot) (c : Changes) : List String :=
  (if c.contains .role then [s!"Role changed: {s.role.name}"] else []) ++
    (if c.contains .commissioner then
      [s!"Commissioner state changed: {s.commissioner.name}"] else []) ++
    (if c.contains .joiner then [s!"Joiner state changed: {s.joiner.name}"] else [])

end Snapshot

/-- The events of one notice. -/
def notice (c : Changes) (s : Snapshot) : List Event :=
  c.describe.map (fun text => ⟨.trace, .mesh, text⟩) ++
    (s.messages c).map fun text => ⟨.info, .mesh, text⟩

end DeviceSleep.Mesh
