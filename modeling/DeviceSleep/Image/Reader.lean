import DeviceSleep.Builder
import DeviceSleep.Bytes.LittleEndian

/-! Reading the image of a request from any bytes. The head may have grown, records may be of kinds
not known here or longer than known, and bytes may follow; the sizes written in the image say where
the next record begins. -/
namespace DeviceSleep.Image
set_option autoImplicit false

open Bytes

/-- Why an image cannot be read. -/
inductive Fault where
  | truncated (needed available : Nat)
  | badDescriptorSize (size : UInt16)
  | badRecordSize (size : UInt16)
  | unknownMode (code : UInt8)
  | unknownTrigger (code : UInt8)
  | shortPayload (kind : Kind) (length : Nat)
deriving DecidableEq, Repr

namespace Fault

def message : Fault → String
  | truncated needed available => s!"image truncated: need {needed} bytes, have {available}"
  | badDescriptorSize size => s!"descriptor size {size.toNat} is smaller than the fixed header"
  | badRecordSize size => s!"record size {size.toNat} is smaller than the record header"
  | unknownMode code => s!"unknown sleep mode {code.toNat}"
  | unknownTrigger code => s!"unknown interrupt mode {code.toNat}"
  | shortPayload kind length => s!"{kind.name} record payload too short: {length} bytes"

end Fault

/-! ## The head -/

/-- An image whose head has been read. -/
structure View where
  size : UInt16
  version : UInt16
  mode : Mode
  flags : Flags
  /-- The bytes of the records. -/
  area : List UInt8
deriving DecidableEq, Repr

/-- Reads the head. Of several faults the first in reading order counts: too short for a head, a head
that says it is shorter than it must be, an unknown mode, too short for the records. -/
def View.parse (bytes : List UInt8) : Except Fault View :=
  match bytes with
  | s₀ :: s₁ :: v₀ :: v₁ :: m :: _ :: _ :: _ :: f₀ :: f₁ :: f₂ :: f₃ :: n₀ :: n₁ :: n₂ :: n₃ :: _ =>
    let size := word16 s₀ s₁
    let areaLength := (word32 n₀ n₁ n₂ n₃).toNat
    if size < Descriptor.size then .error (.badDescriptorSize size)
    else
      match Mode.ofCode? m with
      | none => .error (.unknownMode m)
      | some mode =>
        if bytes.length < size.toNat + areaLength then
          .error (.truncated (size.toNat + areaLength) bytes.length)
        else
          .ok ⟨size, word16 v₀ v₁, mode, ⟨word32 f₀ f₁ f₂ f₃⟩,
            (bytes.drop size.toNat).take areaLength⟩
  | _ => .error (.truncated 16 bytes.length)

/-! ## The records -/

/-- A record as it stands in the image. -/
structure RawRecord where
  kind : UInt16
  version : UInt16
  size : UInt16
  payload : List UInt8
deriving DecidableEq, Repr

/-- Reads the record at the front and leaves the bytes behind it; after a fault nothing is left. -/
def next (bytes : List UInt8) : Option (Except Fault RawRecord × List UInt8) :=
  match bytes with
  | [] => none
  | k₀ :: k₁ :: v₀ :: v₁ :: s₀ :: s₁ :: _ :: _ :: _ =>
    let size := word16 s₀ s₁
    if size < Header.length then some (.error (.badRecordSize size), [])
    else if bytes.length < size.toNat then
      some (.error (.truncated size.toNat bytes.length), [])
    else
      some (.ok ⟨word16 k₀ k₁, word16 v₀ v₁, size, (bytes.take size.toNat).drop 8⟩,
        bytes.drop size.toNat)
  | _ => some (.error (.truncated 8 bytes.length), [])

/-- Each step consumes bytes. -/
theorem next_shorter {bytes rest : List UInt8} {item : Except Fault RawRecord}
    (h : next bytes = some (item, rest)) : rest.length < bytes.length := by
  unfold next at h
  split at h
  · cases h
  · dsimp only at h
    split at h
    · cases h; simp
    · split at h
      · cases h; simp
      · rename_i hsize _
        cases h
        rw [List.length_drop]
        have : Header.length.toNat = 8 := rfl
        rw [UInt16.lt_iff_toNat_lt] at hsize
        simp only [List.length_cons] at *
        omega
  · rename_i hne _
    cases h
    cases bytes with
    | nil => exact absurd rfl hne
    | cons b bs => simp

/-- The records of an area in order, and at the end the fault that stopped the reading, if any. -/
def walk (bytes : List UInt8) : List (Except Fault RawRecord) :=
  match _h : next bytes with
  | none => []
  | some (item, rest) => item :: walk rest
termination_by bytes.length
decreasing_by exact next_shorter (by assumption)

def View.records (v : View) : List (Except Fault RawRecord) := walk v.area

/-- What a record says; nothing for a kind not known here. Only as many bytes count as the kind
needs. -/
def RawRecord.decode (r : RawRecord) : Except Fault (Option Payload) :=
  match Kind.ofCode? r.kind with
  | none => .ok none
  | some .gpio =>
    match r.payload with
    | p₀ :: p₁ :: t :: _ :: _ =>
      match Trigger.ofCode? t with
      | none => .error (.unknownTrigger t)
      | some trigger => .ok (some (.gpio (word16 p₀ p₁) trigger))
    | _ => .error (.shortPayload .gpio r.payload.length)
  | some .timer =>
    match r.payload with
    | m₀ :: m₁ :: m₂ :: m₃ :: _ => .ok (some (.timer (word32 m₀ m₁ m₂ m₃)))
    | _ => .error (.shortPayload .timer r.payload.length)
  | some .network =>
    match r.payload with
    | i :: _ :: _ :: _ :: _ => .ok (some (.network ⟨i⟩))
    | _ => .error (.shortPayload .network r.payload.length)
  | some .radioLink => .ok (some .radioLink)

end DeviceSleep.Image
