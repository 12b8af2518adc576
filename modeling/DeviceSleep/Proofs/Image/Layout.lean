import DeviceSleep.Image.Writer
import DeviceSleep.Proofs.Image.Grammar

/-! Where everything stands in an image, whoever wrote it. A reader goes by the sizes that it finds:
a head may be longer than it knows, a record longer than the payload in it, and bytes that have no
meaning may have any value. -/
namespace DeviceSleep
set_option autoImplicit false

open Bytes Image

/-- Bytes that begin with a payload. Reserved bytes may have any value, and more may follow. -/
inductive Payload.Opens : Payload → List UInt8 → Prop
  | gpio (pin : UInt16) (trigger : Trigger) (reserved : UInt8) (extra : List UInt8) :
    Opens (.gpio pin trigger) (ofWord16 pin ++ [trigger.code, reserved] ++ extra)
  | timer (ms : UInt32) (extra : List UInt8) : Opens (.timer ms) (ofWord32 ms ++ extra)
  | network (i : Interface) (r₁ r₂ r₃ : UInt8) (extra : List UInt8) :
    Opens (.network i) ([i.index, r₁, r₂, r₃] ++ extra)
  | radioLink (extra : List UInt8) : Opens .radioLink extra

theorem Payload.opens_encode (p : Payload) : p.Opens p.encode := by
  cases p with
  | gpio pin trigger => exact .gpio pin trigger 0 []
  | timer ms => exact .timer ms []
  | network i => exact .network i 0 0 0 []
  | radioLink => exact .radioLink []

namespace Image

/-! ## Records -/

section Record

variable (kind version size reserved : UInt16) (payload : List UInt8)

/-- A head of four words, and what is behind it. -/
def recordBytes : List UInt8 :=
  ofWord16 kind ++ ofWord16 version ++ ofWord16 size ++ ofWord16 reserved ++ payload

theorem length_recordBytes :
    (recordBytes kind version size reserved payload).length = 8 + payload.length := by
  simp only [recordBytes, List.length_append, length_ofWord16]

theorem ofBytes_recordBytes :
    RawRecord.ofBytes (recordBytes kind version size reserved payload) =
      ⟨kind, version, size, payload⟩ := by
  have hkind : field (recordBytes kind version size reserved payload) 0 2 = kind.toNat :=
    value_ofWord16 kind
  have hversion : field (recordBytes kind version size reserved payload) 2 2 = version.toNat :=
    value_ofWord16 version
  have hsize : field (recordBytes kind version size reserved payload) 4 2 = size.toNat :=
    value_ofWord16 size
  unfold RawRecord.ofBytes
  rw [hkind, hversion, hsize, UInt16.ofNat_toNat, UInt16.ofNat_toNat, UInt16.ofNat_toNat]
  rfl

variable {size payload}

theorem isRecord_recordBytes (h : size.toNat = 8 + payload.length) :
    IsRecord (recordBytes kind version size reserved payload) := by
  have hsize : field (recordBytes kind version size reserved payload) 4 2 = size.toNat :=
    value_ofWord16 size
  refine ⟨?_, ?_⟩
  · rw [length_recordBytes]
    omega
  · rw [hsize, h, length_recordBytes]

end Record

/-- A known payload is read, whatever stands in its reserved bytes and behind it. -/
theorem decode_of_opens {p : Payload} {payload : List UInt8} (h : p.Opens payload)
    (version size : UInt16) :
    RawRecord.decode ⟨p.kind.code, version, size, payload⟩ = .ok (some p) := by
  unfold RawRecord.decode
  cases h with
  | gpio pin trigger reserved extra =>
    simp only [Payload.kind, Kind.ofCode?_code, ofWord16, List.cons_append, List.nil_append,
      Trigger.ofCode?_code, word16_ofWord16]
  | timer ms extra =>
    simp only [Payload.kind, Kind.ofCode?_code, ofWord32, List.cons_append, List.nil_append,
      word32_ofWord32]
  | network i r₁ r₂ r₃ extra => rfl
  | radioLink extra => rfl

/-! ## The head -/

/-- The known fields of a head. -/
def headBytes (size version : UInt16) (mode : Mode) (r₁ r₂ r₃ : UInt8) (flags : Flags)
    (areaLength : UInt32) : List UInt8 :=
  ofWord16 size ++ ofWord16 version ++ [mode.code, r₁, r₂, r₃] ++ ofWord32 flags.bits ++
    ofWord32 areaLength

theorem parse_headBytes (version : UInt16) (mode : Mode) (r₁ r₂ r₃ : UInt8) (flags : Flags)
    {size : UInt16} {grown area : List UInt8} (hsize : size.toNat = 16 + grown.length)
    (harea : area.length < 4294967296) (trailing : List UInt8) :
    View.parse (headBytes size version mode r₁ r₂ r₃ flags (.ofNat area.length) ++
      (grown ++ (area ++ trailing))) = .ok ⟨size, version, mode, flags, area⟩ := by
  generalize hb : headBytes size version mode r₁ r₂ r₃ flags (.ofNat area.length) ++
    (grown ++ (area ++ trailing)) = bytes
  have hfield : field bytes 0 2 = size.toNat ∧ field bytes 2 2 = version.toNat ∧
      field bytes 4 1 = mode.code.toNat ∧ field bytes 8 4 = flags.bits.toNat := by
    rw [← hb]
    exact ⟨value_ofWord16 _, value_ofWord16 _, Nat.add_zero _, value_ofWord32 _⟩
  have hcount : field bytes 12 4 = area.length := by
    have hword : field bytes 12 4 = (UInt32.ofNat area.length).toNat := by
      rw [← hb]
      exact value_ofWord32 _
    rw [hword, UInt32.toNat_ofNat', Nat.mod_eq_of_lt harea]
  have hskip : bytes.drop 16 = grown ++ (area ++ trailing) := by
    rw [← hb]
    rfl
  have hlength : bytes.length = 16 + grown.length + area.length + trailing.length := by
    have hhead : (headBytes size version mode r₁ r₂ r₃ flags (.ofNat area.length)).length = 16 := rfl
    rw [← hb]
    simp only [List.length_append, hhead]
    omega
  have hcode : mode.code.toNat ≤ 3 := by cases mode <;> decide
  have hname : Mode.all.getD mode.code.toNat .none = mode := by cases mode <;> rfl
  -- The reader skips as many bytes as the head says it has, known or not.
  have hdrop : (bytes.drop (16 + grown.length)).take area.length = area := by
    rw [← List.drop_drop, hskip, List.drop_left, List.take_left]
  obtain ⟨h0, h2, h4, h8⟩ := hfield
  rw [parse_eq_readHead, readHead, h0, h2, h4, h8, hcount, hsize, hlength, if_neg (by omega),
    if_neg (by omega), if_neg (by omega), if_neg (by omega), hname, hdrop, ← hsize,
    UInt16.ofNat_toNat, UInt16.ofNat_toNat, UInt32.ofNat_toNat]

end Image

end DeviceSleep
