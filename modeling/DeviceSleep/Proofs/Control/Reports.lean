import DeviceSleep.Control.Report
import DeviceSleep.Proofs.Flags.Text
import DeviceSleep.Proofs.Image.Contents
import DeviceSleep.Proofs.Reading.Values

/-! What a request looks like from outside: in a report, where words and texts stand under names, and in
an image, where they stand at places. Each is read on its own terms, and both say the same. -/
namespace DeviceSleep
set_option autoImplicit false

/-! ## Reading JSON values -/

namespace Json

def member? (name : String) : Json → Option Json
  | .object members => members.lookup name
  | _ => none

/-- A number below a bound. -/
def below? (bound : Nat) : Json → Option Nat
  | .num n => if n < bound then some n else none
  | _ => none

def text? : Json → Option String
  | .text s => some s
  | _ => none

def items? : Json → Option (List Json)
  | .list items => some items
  | _ => none

/-- The member of a name, read in some way. -/
def field? {α : Type} (name : String) (read : Json → Option α) (j : Json) : Option α :=
  (j.member? name).bind read

end Json

namespace Payload

/-- The members besides the kind are those that the kind has. -/
def ofJson? (j : Json) : Option Payload := do
  let kind ← j.field? "kind" fun k => k.text?.bind Kind.ofName?
  match kind with
  | .gpio =>
    let pin ← j.field? "pin" (Json.below? UInt16.size)
    let trigger ← j.field? "mode" fun t => t.text?.bind Trigger.ofName?
    return .gpio (.ofNat pin) trigger
  | .timer => return .timer (.ofNat (← j.field? "ms" (Json.below? UInt32.size)))
  | .network => return .network ⟨.ofNat (← j.field? "index" (Json.below? UInt8.size))⟩
  | .radioLink => return .radioLink

end Payload

def Header.ofJson? (j : Json) : Option Header := do
  let kind ← j.field? "kind" fun k => k.text?.bind Kind.ofName?
  let version ← j.field? "version" (Json.below? UInt16.size)
  let size ← j.field? "size" (Json.below? UInt16.size)
  return ⟨kind, .ofNat version, .ofNat size⟩

def Source.ofJson? (j : Json) : Option Source := do
  let header ← j.field? "header" Header.ofJson?
  let payload ← j.field? "payload" Payload.ofJson?
  return ⟨header, payload⟩

/-- What is shown of a request, whatever the format. -/
structure Shown where
  size : UInt16
  version : UInt16
  mode : Mode
  flags : Flags
  /-- The records with the headers that they say they have. -/
  records : List Source
deriving DecidableEq, Repr

namespace Shown

def ofJson? (j : Json) : Option Shown := do
  let size ← j.field? "size" (Json.below? UInt16.size)
  let version ← j.field? "version" (Json.below? UInt16.size)
  let mode ← j.field? "mode" fun m => m.text?.bind Mode.ofName?
  let flags ← j.field? "flags" fun f => f.text?.bind Flags.parse?
  let records ← j.field? "wakeup_sources" fun l => l.items?.bind fun items => items.mapM Source.ofJson?
  return ⟨.ofNat size, .ofNat version, mode, flags, records⟩

/-- A record of an image, if it is sound and of a known kind. -/
def record? (item : Except Image.Fault Image.RawRecord) : Option Source := do
  let raw ← item.toOption
  let kind ← Kind.ofCode? raw.kind
  let payload ← (← raw.decode.toOption)
  return ⟨⟨kind, raw.version, raw.size⟩, payload⟩

def ofView? (view : Image.View) : Option Shown := do
  let records ← view.records.mapM record?
  return ⟨view.size, view.version, view.mode, view.flags, records⟩

end Shown

/-- What a request shows. -/
def Descriptor.shown (d : Descriptor) : Shown :=
  ⟨Descriptor.size, layoutVersion, d.mode, d.flags, d.sources.sources⟩

/-! ## Reports -/

@[simp] theorem Kind.ofName?_name (k : Kind) : ofName? k.name = some k := by
  cases k <;> decide +kernel

@[simp] theorem Trigger.ofName?_name (t : Trigger) : ofName? t.name = some t := by
  cases t <;> decide +kernel

namespace Json

variable {α : Type}

theorem below?_num {n bound : Nat} (h : n < bound) : below? bound (.num n) = some n := if_pos h

@[simp] theorem field?_self (name : String) (read : Json → Option α) (value : Json)
    (members : List (String × Json)) :
    field? name read (.object ((name, value) :: members)) = read value := by
  rw [field?, member?, List.lookup_cons_self, Option.bind_some]

theorem field?_of_ne {name other : String} (h : name ≠ other) (read : Json → Option α)
    (value : Json) (members : List (String × Json)) :
    field? name read (.object ((other, value) :: members)) =
      field? name read (.object members) := by
  rw [field?, member?, List.lookup_cons, beq_false_of_ne h]
  rfl

end Json

theorem Payload.ofJson?_json (p : Payload) : ofJson? p.json = some p := by
  cases p with
  | gpio pin trigger =>
    simp [ofJson?, json, fields, kind, Json.field?_of_ne, Json.text?, Json.below?_num pin.toNat_lt]
  | timer ms =>
    simp [ofJson?, json, fields, kind, Json.field?_of_ne, Json.text?, Json.below?_num ms.toNat_lt]
  | network i =>
    simp [ofJson?, json, fields, kind, Json.field?_of_ne, Json.text?,
      Json.below?_num i.index.toNat_lt]
  | radioLink => simp [ofJson?, json, fields, kind, Json.text?]

theorem Header.ofJson?_json (h : Header) : ofJson? h.json = some h := by
  simp [ofJson?, json, Json.field?_of_ne, Json.text?, Json.below?_num h.version.toNat_lt,
    Json.below?_num h.size.toNat_lt]

theorem Source.ofJson?_json (s : Source) : ofJson? s.json = some s := by
  simp [ofJson?, json, Json.field?_of_ne, Header.ofJson?_json, Payload.ofJson?_json]

/-- The report of a request says what it is. -/
theorem Descriptor.ofJson?_json (d : Descriptor) : Shown.ofJson? d.json = some d.shown := by
  have hrecords : (d.sources.sources.map Source.json).mapM Source.ofJson? =
      some d.sources.sources :=
    mapM_map_eq_some fun s _ => s.ofJson?_json
  have hsize := Json.below?_num Descriptor.size.toNat_lt
  have hversion := Json.below?_num layoutVersion.toNat_lt
  simp [Shown.ofJson?, json, Json.field?_of_ne, Json.text?, Json.items?, hrecords, hsize, hversion,
    shown]

/-! ## Images -/

theorem Source.record?_encode {s : Source} (hstamped : s.header = .ofKind s.payload.kind) :
    Shown.record? (.ok (.ofBytes s.encode)) = some s := by
  have hkind : s.header.kind = s.payload.kind := by rw [hstamped]; rfl
  have hdecode := decode_encode s.payload s.header.version s.header.size
  rw [← hkind] at hdecode
  rw [ofBytes_encode]
  simp [Shown.record?, Except.toOption, hdecode]

/-- The image of a request says what it is. -/
theorem Descriptor.ofView?_encode {d : Descriptor} (h : d.sources.Sound) :
    ∃ view, Image.View.parse d.encode = .ok view ∧ Shown.ofView? view = some d.shown := by
  refine ⟨_, parse_of_sound h, ?_⟩
  have hrecords : (Image.walk d.area).mapM Shown.record? = some d.sources.sources := by
    rw [walk_area h]
    exact mapM_map_eq_some fun s hs => Source.record?_encode (h.stamped s hs)
  simp only [Shown.ofView?, Image.View.records, hrecords]
  rfl

end DeviceSleep
