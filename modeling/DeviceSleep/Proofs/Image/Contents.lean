import DeviceSleep.Hal
import DeviceSleep.Proofs.Image.RoundTrip

/-! What an image says to a device: its mode, its flags and, record by record, a payload that the
device knows or nothing. The image of a sound request says the request; the device sorts what it is
told into known payloads and a number of others. -/
namespace DeviceSleep
set_option autoImplicit false

open Bytes Image

namespace Image

/-- What the records of an image say, one after the other. -/
def View.contents (v : View) : List (Except Fault (Option Payload)) :=
  v.records.map fun item => item.bind RawRecord.decode

theorem walk_flatten {records : List (List UInt8)} (h : ∀ r ∈ records, IsRecord r) :
    walk records.flatten = records.map fun r => .ok (.ofBytes r) := by
  have ht : Tiling records.flatten records [] := ⟨List.append_nil _, h, Or.inl rfl⟩
  rw [ht.walk_eq, closing, if_pos rfl, List.append_nil]

end Image

/-- Where no record is faulty, a device keeps the known payloads in order and counts the others. -/
theorem SleepRecord.collect_eq {items : List (Except Fault RawRecord)}
    {found : List (Option Payload)}
    (h : items.map (fun item => item.bind RawRecord.decode) = found.map .ok) :
    collect items = .ok (found.filterMap id, found.countP Option.isNone) := by
  induction items generalizing found with
  | nil =>
    cases found with
    | nil => rfl
    | cons payload found => cases h
  | cons item items ih =>
    cases found with
    | nil => cases h
    | cons payload found =>
      obtain ⟨hitem, hitems⟩ := List.cons.inj h
      obtain ⟨raw, rfl, hraw⟩ : ∃ raw, item = .ok raw ∧ raw.decode = .ok payload := by
        cases item with
        | error fault => cases hitem
        | ok raw => exact ⟨raw, rfl, hitem⟩
      have hrest := ih hitems
      cases payload with
      | none =>
        rw [List.filterMap_cons_none rfl, List.countP_cons_of_pos rfl]
        simp only [collect, bind, Except.bind, hraw, hrest]
      | some p =>
        simp only [collect, bind, Except.bind, hraw, hrest]
        rfl

namespace Descriptor

variable {d : Descriptor}

/-- What a device keeps of a sleep that was asked for in this way. -/
def record (d : Descriptor) : SleepRecord :=
  ⟨d.mode, d.flags, d.sources.payloads, 0, d.encode.length⟩

theorem parse_of_sound (h : d.sources.Sound) :
    View.parse d.encode = .ok ⟨size, layoutVersion, d.mode, d.flags, d.area⟩ := by
  have hlength := length_area_le h
  have hsize := h.size_le
  exact parse_encode (by omega)

theorem walk_area (h : d.sources.Sound) :
    walk d.area = d.sources.sources.map fun s => .ok (.ofBytes s.encode) := by
  rw [(tiling_area h).walk_eq, closing, if_pos rfl, List.append_nil, List.map_map]
  rfl

/-- Every record of a sound request is read as its payload. -/
theorem contents_area (h : d.sources.Sound) :
    (walk d.area).map (fun item => item.bind RawRecord.decode) =
      (d.sources.payloads.map some).map .ok := by
  rw [walk_area h, Registry.payloads, List.map_map, List.map_map, List.map_map]
  refine List.map_congr_left fun s hs => ?_
  have hkind : s.header.kind = s.payload.kind := by rw [h.stamped s hs]; rfl
  change RawRecord.decode (.ofBytes s.encode) = .ok (some s.payload)
  rw [Source.ofBytes_encode, hkind]
  exact Source.decode_encode s.payload _ _

/-- A device reads the request that was written, and nothing in it is unknown. -/
theorem ofImage_encode (h : d.sources.Sound) : SleepRecord.ofImage d.encode = .ok d.record := by
  have hcollect := SleepRecord.collect_eq (contents_area h)
  have hknown : (d.sources.payloads.map some).filterMap id = d.sources.payloads := by
    rw [List.filterMap_map]
    exact List.filterMap_some
  have hnone : (d.sources.payloads.map some).countP Option.isNone = 0 := by
    rw [List.countP_map]
    exact List.countP_eq_zero.mpr fun p _ => Bool.false_ne_true
  rw [hknown, hnone] at hcollect
  simp only [SleepRecord.ofImage, bind, Except.bind, parse_of_sound h, View.records, hcollect]
  rfl

end Descriptor

end DeviceSleep
