import DeviceSleep.Proofs.Image.Contents

/-! Images from a newer writer. It may have grown the head, put other versions and other bytes in
place of reserved ones, made the records of known payloads longer, and put records of its own
between them. A reader finds every record by its size, and takes from it what it knows: the mode,
the flags and the payloads of the request, in order, and nothing from the records of unknown kinds. -/
namespace DeviceSleep
set_option autoImplicit false

open Bytes Image

/-! ## Records -/

/-- A record as a newer writer lays it out: any kind and version, any bytes in the reserved place. -/
structure NewerRecord where
  kind : UInt16
  version : UInt16
  reserved : UInt16
  payload : List UInt8
  fits : 8 + payload.length ≤ 65535

namespace NewerRecord

def size (r : NewerRecord) : UInt16 := .ofNat (8 + r.payload.length)

def bytes (r : NewerRecord) : List UInt8 :=
  recordBytes r.kind r.version r.size r.reserved r.payload

/-- The record as a reader finds it. -/
def raw (r : NewerRecord) : RawRecord := ⟨r.kind, r.version, r.size, r.payload⟩

/-- The kind is none that is known here. -/
def Foreign (r : NewerRecord) : Prop := ∀ kind : Kind, r.kind ≠ kind.code

variable {r : NewerRecord}

theorem toNat_size (r : NewerRecord) : r.size.toNat = 8 + r.payload.length := by
  have hfits := r.fits
  rw [size, UInt16.toNat_ofNat', Nat.mod_eq_of_lt (by omega)]

theorem isRecord_bytes (r : NewerRecord) : IsRecord r.bytes :=
  isRecord_recordBytes _ _ _ r.toNat_size

theorem ofBytes_bytes (r : NewerRecord) : RawRecord.ofBytes r.bytes = r.raw :=
  ofBytes_recordBytes _ _ _ _ _

theorem decode_of_opens {p : Payload} (hcode : r.kind = p.kind.code) (h : p.Opens r.payload) :
    r.raw.decode = .ok (some p) := by
  rw [raw, hcode]
  exact Image.decode_of_opens h r.version r.size

theorem decode_of_foreign (h : r.Foreign) : r.raw.decode = .ok none := by
  have hnone : Kind.ofCode? r.kind = none := by
    refine List.find?_eq_none.mpr ?_
    intro kind _ hkind
    exact h kind (eq_of_beq hkind).symm
  unfold raw RawRecord.decode
  simp only [hnone]

theorem not_foreign {kind : Kind} (h : r.kind = kind.code) : ¬ r.Foreign := fun hf => hf kind h

end NewerRecord

/-- One record for each payload, in order, and records of unknown kinds anywhere between them. -/
inductive Carries : List Payload → List NewerRecord → Prop
  | nil : Carries [] []
  | known {p : Payload} {r : NewerRecord} {payloads : List Payload} {records : List NewerRecord}
    (code : r.kind = p.kind.code) (opens : p.Opens r.payload) (rest : Carries payloads records) :
    Carries (p :: payloads) (r :: records)
  | unknown {r : NewerRecord} {payloads : List Payload} {records : List NewerRecord}
    (foreign : r.Foreign) (rest : Carries payloads records) : Carries payloads (r :: records)

/-- The payloads are found in order, and nothing is found in exactly the records between them. -/
theorem Carries.decoded {payloads : List Payload} {records : List NewerRecord}
    (h : Carries payloads records) :
    ∃ found : List (Option Payload), records.map (fun r => r.raw.decode) = found.map .ok ∧
      found.filterMap id = payloads ∧
      List.Forall₂ (fun r payload? => payload? = none ↔ r.Foreign) records found := by
  induction h with
  | nil => exact ⟨[], rfl, rfl, .nil⟩
  | @known p r payloads records code opens rest ih =>
    obtain ⟨found, hdecoded, hknown, hforeign⟩ := ih
    refine ⟨some p :: found, ?_, ?_, .cons ?_ hforeign⟩
    · rw [List.map_cons, NewerRecord.decode_of_opens code opens, hdecoded]
      rfl
    · exact congrArg (p :: ·) hknown
    · exact iff_of_false nofun (NewerRecord.not_foreign code)
  | @unknown r payloads records foreign rest ih =>
    obtain ⟨found, hdecoded, hknown, hforeign⟩ := ih
    refine ⟨none :: found, ?_, ?_, .cons (iff_of_true rfl foreign) hforeign⟩
    · rw [List.map_cons, NewerRecord.decode_of_foreign foreign, hdecoded]
      rfl
    · rw [List.filterMap_cons_none rfl, hknown]

/-! ## Images -/

/-- What a newer writer adds to a request: a version, bytes in the reserved place, bytes behind the
known head, the records, and bytes behind them. -/
structure NewerImage where
  version : UInt16
  reserved : UInt8 × UInt8 × UInt8
  grown : List UInt8
  records : List NewerRecord
  trailing : List UInt8
  head_fits : 16 + grown.length ≤ 65535
  area_fits : (records.flatMap NewerRecord.bytes).length < 4294967296

namespace NewerImage

def area (w : NewerImage) : List UInt8 := w.records.flatMap NewerRecord.bytes

def headSize (w : NewerImage) : UInt16 := .ofNat (16 + w.grown.length)

/-- The known fields of the head. -/
def head (w : NewerImage) (d : Descriptor) : List UInt8 :=
  headBytes w.headSize w.version d.mode w.reserved.1 w.reserved.2.1 w.reserved.2.2 d.flags
    (.ofNat w.area.length)

/-- The image that the writer makes of a request. -/
def bytes (w : NewerImage) (d : Descriptor) : List UInt8 :=
  w.head d ++ (w.grown ++ (w.area ++ w.trailing))

theorem toNat_headSize (w : NewerImage) : w.headSize.toNat = 16 + w.grown.length := by
  have hfits := w.head_fits
  rw [headSize, UInt16.toNat_ofNat', Nat.mod_eq_of_lt (by omega)]

theorem parse_bytes (w : NewerImage) (d : Descriptor) :
    View.parse (w.bytes d) = .ok ⟨w.headSize, w.version, d.mode, d.flags, w.area⟩ :=
  parse_headBytes _ _ _ _ _ _ w.toNat_headSize w.area_fits w.trailing

theorem walk_area (w : NewerImage) : walk w.area = w.records.map fun r => .ok r.raw := by
  have hwhole : ∀ r ∈ w.records.map NewerRecord.bytes, IsRecord r := by
    intro r hr
    obtain ⟨s, -, rfl⟩ := List.mem_map.mp hr
    exact s.isRecord_bytes
  have hwalk : walk w.area = (w.records.map NewerRecord.bytes).map fun r => .ok (.ofBytes r) :=
    walk_flatten hwhole
  rw [hwalk, List.map_map]
  exact List.map_congr_left fun r _ => congrArg Except.ok r.ofBytes_bytes

/-- An image that a newer writer made of a request is read: the mode and every bit of the flags are
those of the request, the cursor gives the records one by one without a fault and then nothing, and
of what they say, the payloads are those of the request in order; nothing is said by the records of
unknown kinds, and by no others. -/
theorem newer_image_is_read (w : NewerImage) (d : Descriptor)
    (h : Carries d.sources.payloads w.records) :
    ∃ view, View.parse (w.bytes d) = .ok view ∧ view.mode = d.mode ∧ view.flags = d.flags ∧
      (∀ n, nth n view.area = (w.records.map fun r => .ok r.raw)[n]?) ∧
      ∃ found : List (Option Payload), view.contents = found.map .ok ∧
        found.filterMap id = d.sources.payloads ∧
        List.Forall₂ (fun r payload? => payload? = none ↔ r.Foreign) w.records found := by
  obtain ⟨found, hdecoded, hknown, hforeign⟩ := h.decoded
  refine ⟨_, w.parse_bytes d, rfl, rfl, ?_, found, ?_, hknown, hforeign⟩
  · intro n
    rw [nth_eq_getElem?, w.walk_area]
  · rw [← hdecoded, View.contents, View.records, w.walk_area, List.map_map]
    rfl

/-- A writer of version 7, with four bytes more in the head, two kinds of its own, and more to say
about the sources of the sample. -/
def sample : NewerImage where
  version := 7
  reserved := (1, 2, 3)
  grown := [0xAA, 0xBB, 0xCC, 0xDD]
  records :=
    [⟨99, 1, 0, [1, 2, 3], by decide⟩, ⟨13, 2, 0xFFFF, [9], by decide⟩,
      ⟨12, 2, 0, [4, 5, 6, 7], by decide⟩, ⟨4, 1, 0, [136, 19, 0, 0, 8, 8], by decide⟩,
      ⟨2, 1, 0, [], by decide⟩, ⟨1, 3, 5, [7, 0, 0, 9, 1], by decide⟩]
  trailing := [0]
  head_fits := by decide
  area_fits := by decide

theorem carries_sample : Carries Builder.sample.sources.payloads sample.records := by
  have hpayloads : Builder.sample.sources.payloads =
      [.radioLink, .network .cellular, .timer 5000, .gpio 7 .change] := by decide
  rw [hpayloads]
  refine .unknown (fun kind => by cases kind <;> decide) (.known rfl (.radioLink [9]) ?_)
  refine .known rfl (.network .cellular 5 6 7 []) (.known rfl (.timer 5000 [8, 8]) ?_)
  exact .unknown (fun kind => by cases kind <;> decide)
    (.known rfl (.gpio 7 .change 9 [1]) .nil)

theorem newer_image_is_read_sample :
    Carries Builder.sample.sources.payloads sample.records ∧
    ∃ view, View.parse (sample.bytes Builder.sample.descriptor) = .ok view ∧
      view.mode = .stop ∧ view.flags = ⟨0x80000001⟩ ∧
      (∀ n, nth n view.area = (sample.records.map fun r => .ok r.raw)[n]?) ∧
      ∃ found : List (Option Payload), view.contents = found.map .ok ∧
        found.filterMap id = Builder.sample.sources.payloads ∧
        List.Forall₂ (fun r payload? => payload? = none ↔ r.Foreign) sample.records found :=
  ⟨carries_sample, newer_image_is_read sample Builder.sample.descriptor carries_sample⟩

end NewerImage

end DeviceSleep
