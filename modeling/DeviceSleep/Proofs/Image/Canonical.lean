import DeviceSleep.Proofs.Builder.Replay
import DeviceSleep.Proofs.Image.Contents

/-! The images that are written. A byte string is canonical if its fields have the values that a
writer gives them, bytes without a meaning are zero, and no two records have the same key. The
canonical byte strings are the images of the requests that builders make, one for each request; read
and made again, the request of a canonical byte string has the same image. -/
namespace DeviceSleep
set_option autoImplicit false

open Bytes Image

namespace Image

/-- The bytes are a record of this kind as it is written. -/
structure CanonicalRecord (kind : Kind) (r : List UInt8) : Prop where
  length : r.length = 8 + kind.payloadSize.toNat
  code : field r 0 2 = kind.code.toNat
  version : field r 2 2 = 1
  size : field r 4 2 = 8 + kind.payloadSize.toNat
  reserved : field r 6 2 = 0
  payload :
    match kind with
    | .gpio => field r 10 1 ≤ 2 ∧ field r 11 1 = 0
    | .timer => True
    | .network => field r 9 3 = 0
    | .radioLink => True

/-- What a record is the only one of, by its fields. -/
def keyOf (r : List UInt8) : Option Key :=
  (Kind.ofCode? (.ofNat (field r 0 2))).map fun
    | .gpio => .gpio (.ofNat (field r 8 2))
    | .timer => .timer
    | .network => .network ⟨.ofNat (field r 8 1)⟩
    | .radioLink => .radioLink

/-- The bytes are an image as it is written. -/
structure Canonical (bytes : List UInt8) : Prop where
  size : field bytes 0 2 = 16
  version : field bytes 2 2 = 1
  mode : field bytes 4 1 ≤ 3
  reserved : field bytes 5 3 = 0
  areaLength : 16 + field bytes 12 4 = bytes.length
  area : ∃ records : List (List UInt8), records.flatten = bytes.drop 16 ∧
    (∀ r ∈ records, ∃ kind, CanonicalRecord kind r) ∧ (records.map keyOf).Nodup

end Image

/-! ## What is written is canonical -/

theorem Header.toNat_size_ofKind (kind : Kind) :
    (ofKind kind).size.toNat = 8 + kind.payloadSize.toNat := by
  cases kind <;> rfl

theorem Payload.canonicalRecord_encode (p : Payload) :
    CanonicalRecord p.kind (Source.ofPayload p).encode := by
  have hsize := Header.toNat_size_ofKind p.kind
  refine ⟨?_, value_ofWord16 _, value_ofWord16 _, ?_, rfl, ?_⟩
  · rw [Source.length_encode rfl]
    exact hsize
  · rw [Source.field_size_encode]
    exact hsize
  · cases p with
    | gpio pin trigger =>
      refine ⟨?_, rfl⟩
      change trigger.code.toNat + 256 * 0 ≤ 2
      cases trigger <;> decide
    | timer ms => trivial
    | network i => rfl
    | radioLink => trivial

theorem Payload.keyOf_encode (p : Payload) : keyOf (Source.ofPayload p).encode = some p.key := by
  have hcode : field (Source.ofPayload p).encode 0 2 = p.kind.code.toNat := value_ofWord16 _
  rw [keyOf, hcode, UInt16.ofNat_toNat, Kind.ofCode?_code, Option.map_some]
  cases p with
  | gpio pin trigger =>
    have hpin : field (Source.ofPayload (.gpio pin trigger)).encode 8 2 = pin.toNat :=
      value_ofWord16 pin
    change some (Key.gpio (.ofNat (field (Source.ofPayload (.gpio pin trigger)).encode 8 2))) = _
    rw [hpin, UInt16.ofNat_toNat]
    rfl
  | timer ms => rfl
  | network i =>
    have hindex : field (Source.ofPayload (.network i)).encode 8 1 = i.index.toNat := Nat.add_zero _
    change some (Key.network ⟨.ofNat (field (Source.ofPayload (.network i)).encode 8 1)⟩) = _
    rw [hindex, UInt8.ofNat_toNat]
    rfl
  | radioLink => rfl

theorem Descriptor.canonical_encode {d : Descriptor} (h : d.sources.Sound) :
    Canonical d.encode := by
  have hlength := length_area_le h
  have hcount := h.size_le
  refine ⟨value_ofWord16 size, value_ofWord16 layoutVersion, ?_, rfl, ?_, ?_⟩
  · change d.mode.code.toNat + 256 * 0 ≤ 3
    cases d.mode <;> decide
  · have harea : field d.encode 12 4 = (UInt32.ofNat d.area.length).toNat := value_ofWord32 _
    rw [harea, UInt32.toNat_ofNat', Nat.mod_eq_of_lt (by omega), length_encode]
  · refine ⟨d.sources.payloads.map fun p => (Source.ofPayload p).encode, ?_, ?_, ?_⟩
    · change _ = d.area
      rw [area, ← h.sources_eq, List.flatMap_map]
      rfl
    · intro r hr
      obtain ⟨p, -, rfl⟩ := List.mem_map.mp hr
      exact ⟨p.kind, p.canonicalRecord_encode⟩
    · have hkeys : (d.sources.payloads.map fun p => (Source.ofPayload p).encode).map keyOf =
          d.sources.keys.map some := by
        rw [← Registry.keys_eq_map_payloads, List.map_map, List.map_map]
        exact List.map_congr_left fun p _ => p.keyOf_encode
      rw [hkeys]
      exact List.Pairwise.map some (fun _ _ hne heq => hne (Option.some.inj heq)) h.distinct

/-! ## What is canonical has been written -/

theorem Mode.exists_code {n : Nat} (h : n ≤ 3) : ∃ mode : Mode, mode.code.toNat = n := by
  obtain rfl | rfl | rfl | rfl : n = 0 ∨ n = 1 ∨ n = 2 ∨ n = 3 := by omega
  · exact ⟨.none, rfl⟩
  · exact ⟨.stop, rfl⟩
  · exact ⟨.ultraLowPower, rfl⟩
  · exact ⟨.hibernate, rfl⟩

theorem Trigger.exists_code {n : Nat} (h : n ≤ 2) : ∃ trigger : Trigger, trigger.code.toNat = n := by
  obtain rfl | rfl | rfl : n = 0 ∨ n = 1 ∨ n = 2 := by omega
  · exact ⟨.change, rfl⟩
  · exact ⟨.rising, rfl⟩
  · exact ⟨.falling, rfl⟩

theorem Image.CanonicalRecord.exists_payload {kind : Kind} {r : List UInt8}
    (h : CanonicalRecord kind r) : ∃ p : Payload, r = (Source.ofPayload p).encode := by
  have hlength := h.length
  -- The head is the same for all kinds; what is behind it depends on the kind.
  have hkind : r.drop 0 = ofWord16 kind.code ++ r.drop 2 :=
    drop_eq_append (by rw [hlength, length_ofWord16]; omega) (h.code.trans (value_ofWord16 _).symm)
  have hversion : r.drop 2 = ofWord16 layoutVersion ++ r.drop 4 :=
    drop_eq_append (by rw [hlength, length_ofWord16]; omega)
      (h.version.trans (value_ofWord16 layoutVersion).symm)
  have hsize : r.drop 4 = ofWord16 (Header.ofKind kind).size ++ r.drop 6 := by
    refine drop_eq_append (by rw [hlength, length_ofWord16]; omega) ?_
    rw [value_ofWord16, Header.toNat_size_ofKind]
    exact h.size
  have hreserved : r.drop 6 = [0, 0] ++ r.drop 8 :=
    drop_eq_append (by rw [hlength]; change 8 ≤ _; omega) h.reserved
  have hend : r.drop (8 + kind.payloadSize.toNat) = [] := List.drop_of_length_le (Nat.le_of_eq hlength)
  suffices hpayload : ∃ p : Payload, p.kind = kind ∧ r.drop 8 = p.encode by
    obtain ⟨p, rfl, hp⟩ := hpayload
    refine ⟨p, ?_⟩
    rw [← List.drop_zero (l := r), hkind, hversion, hsize, hreserved, hp]
    simp only [Source.encode, Source.ofPayload, Header.ofKind, List.append_assoc]
  cases kind with
  | gpio =>
    change r.length = 12 at hlength
    change r.drop 12 = [] at hend
    obtain ⟨hcode, hzero⟩ := h.payload
    obtain ⟨trigger, htrigger⟩ := Trigger.exists_code hcode
    have hpin : r.drop 8 = _ ++ r.drop 10 := drop_eq_ofWord16 (by omega)
    have htrigger : r.drop 10 = [trigger.code] ++ r.drop 11 :=
      drop_eq_byte (by omega) htrigger.symm
    have hzero : r.drop 11 = [0] ++ r.drop 12 := drop_eq_byte (by omega) hzero
    refine ⟨.gpio (.ofNat (field r 8 2)) trigger, rfl, ?_⟩
    rw [hpin, htrigger, hzero, hend]
    rfl
  | timer =>
    change r.length = 12 at hlength
    change r.drop 12 = [] at hend
    have hms : r.drop 8 = _ ++ r.drop 12 := drop_eq_ofWord32 (by omega)
    refine ⟨.timer (.ofNat (field r 8 4)), rfl, ?_⟩
    rw [hms, hend, List.append_nil]
    rfl
  | network =>
    change r.length = 12 at hlength
    change r.drop 12 = [] at hend
    have hindex : r.drop 8 = [.ofNat (field r 8 1)] ++ r.drop 9 := by
      refine drop_eq_byte (by omega) ?_
      have hlt : field r 8 1 < 2 ^ 8 := field_lt r 8 1
      rw [UInt8.toNat_ofNat']
      exact (Nat.mod_eq_of_lt hlt).symm
    have hzero : r.drop 9 = [0, 0, 0] ++ r.drop 12 := drop_eq_append (Nat.le_of_eq hlength.symm) h.payload
    refine ⟨.network ⟨.ofNat (field r 8 1)⟩, rfl, ?_⟩
    rw [hindex, hzero, hend]
    rfl
  | radioLink => exact ⟨.radioLink, rfl, hend⟩

theorem Image.exists_payloads {records : List (List UInt8)}
    (h : ∀ r ∈ records, ∃ kind, CanonicalRecord kind r) :
    ∃ payloads : List Payload, records = payloads.map fun p => (Source.ofPayload p).encode := by
  induction records with
  | nil => exact ⟨[], rfl⟩
  | cons r records ih =>
    obtain ⟨kind, hr⟩ := h r List.mem_cons_self
    obtain ⟨p, rfl⟩ := hr.exists_payload
    obtain ⟨payloads, rfl⟩ := ih fun s hs => h s (List.mem_cons_of_mem _ hs)
    exact ⟨p :: payloads, rfl⟩

theorem Image.Canonical.exists_descriptor {bytes : List UInt8} (h : Canonical bytes) :
    ∃ d : Descriptor, d.sources.Sound ∧ bytes = d.encode := by
  obtain ⟨records, harea, hrecords, hkeys⟩ := h.area
  obtain ⟨payloads, rfl⟩ := exists_payloads hrecords
  have hdistinct : (payloads.map Payload.key).Nodup := by
    rw [List.map_map] at hkeys
    refine List.pairwise_map.mpr ((List.pairwise_map.mp hkeys).imp fun {p q} hne heq => hne ?_)
    rw [Function.comp_apply, Function.comp_apply, p.keyOf_encode, q.keyOf_encode, heq]
  obtain ⟨mode, hmode⟩ := Mode.exists_code h.mode
  refine ⟨⟨mode, ⟨.ofNat (field bytes 8 4)⟩, ⟨payloads.map Source.ofPayload⟩⟩,
    Registry.sound_ofPayloads hdistinct, ?_⟩
  have hlong := h.areaLength
  have hsize : bytes.drop 0 = ofWord16 Descriptor.size ++ bytes.drop 2 :=
    drop_eq_append (by rw [length_ofWord16]; omega)
      (h.size.trans (value_ofWord16 Descriptor.size).symm)
  have hversion : bytes.drop 2 = ofWord16 layoutVersion ++ bytes.drop 4 :=
    drop_eq_append (by rw [length_ofWord16]; omega)
      (h.version.trans (value_ofWord16 layoutVersion).symm)
  have hcode : bytes.drop 4 = [mode.code] ++ bytes.drop 5 := drop_eq_byte (by omega) hmode.symm
  have hreserved : bytes.drop 5 = [0, 0, 0] ++ bytes.drop 8 :=
    drop_eq_append (by change 8 ≤ _; omega) h.reserved
  have hflags : bytes.drop 8 = _ ++ bytes.drop 12 := drop_eq_ofWord32 (by omega)
  have hlength : bytes.drop 12 = _ ++ bytes.drop 16 := drop_eq_ofWord32 (by omega)
  have hrest : field bytes 12 4 = (bytes.drop 16).length := by
    rw [List.length_drop]
    omega
  have hwritten : bytes.drop 16 = (payloads.map Source.ofPayload).flatMap Source.encode := by
    rw [← harea, List.flatMap_map]
    rfl
  rw [hrest] at hlength
  calc
    bytes = bytes.drop 0 := List.drop_zero.symm
    _ = _ := by
      rw [hsize, hversion, hcode, hreserved, hflags, hlength, hwritten]
      simp only [Descriptor.encode, Descriptor.area, List.append_assoc, List.cons_append,
        List.nil_append]

/-! ## Reading and making again -/

/-- Read from its image and made again, a request is the same. -/
theorem Descriptor.read_replay {d : Descriptor} (h : d.sources.Sound) :
    ∃ view payloads, View.parse d.encode = .ok view ∧
      view.contents = payloads.map (fun p => .ok (some p)) ∧
      (Builder.replay view.mode view.flags payloads).descriptor = d := by
  refine ⟨_, d.sources.payloads, parse_of_sound h, ?_, Builder.replay_descriptor h⟩
  have hcontents := contents_area h
  rw [List.map_map] at hcontents
  exact hcontents

theorem Descriptor.encode_inj {d d' : Descriptor} (h : d.sources.Sound) (h' : d'.sources.Sound)
    (heq : d.encode = d'.encode) : d = d' := by
  have hparse := parse_of_sound h
  rw [heq, parse_of_sound h'] at hparse
  obtain ⟨-, -, hmode, hflags, harea⟩ := View.mk.inj (Except.ok.inj hparse)
  have hpayloads : d'.sources.payloads = d.sources.payloads := by
    have hcontents := contents_area h
    rw [← harea, contents_area h', List.map_map, List.map_map] at hcontents
    exact List.map_injective_iff.mpr
      (fun p q heq => Option.some.inj (Except.ok.inj heq)) hcontents
  rw [← Builder.replay_descriptor h, ← Builder.replay_descriptor h', hmode, hflags, hpayloads]

/-- The images of the requests that builders make are the canonical byte strings. A canonical byte
string can be read, and the mode, flags and payloads that it says, given to a fresh builder, the last
payload first, make a request whose image it is. In this way every request of a builder is made again
from its image, so no other request of a builder has the same. -/
theorem written_iff_canonical (bytes : List UInt8) :
    ((∃ b : Builder, b.Reachable ∧ b.descriptor.encode = bytes) ↔ Canonical bytes) ∧
    (Canonical bytes → ∃ view payloads, View.parse bytes = .ok view ∧
      view.contents = payloads.map (fun p => .ok (some p)) ∧
      (Builder.replay view.mode view.flags payloads).descriptor.encode = bytes) ∧
    (∀ b : Builder, b.Reachable → ∃ view payloads,
      View.parse b.descriptor.encode = .ok view ∧
      view.contents = payloads.map (fun p => .ok (some p)) ∧
      (Builder.replay view.mode view.flags payloads).descriptor = b.descriptor) ∧
    ∀ b b' : Builder, b.Reachable → b'.Reachable →
      b.descriptor.encode = b'.descriptor.encode →
      b.descriptor.mode = b'.descriptor.mode ∧ b.descriptor.flags = b'.descriptor.flags ∧
        b.sources.payloads = b'.sources.payloads := by
  refine ⟨⟨?_, ?_⟩, ?_, ?_, ?_⟩
  · rintro ⟨b, hb, rfl⟩
    exact Descriptor.canonical_encode hb.sound
  · intro h
    obtain ⟨d, hd, rfl⟩ := h.exists_descriptor
    refine ⟨Builder.replay d.mode d.flags d.sources.payloads, Builder.reachable_replay _ _ _, ?_⟩
    rw [Builder.replay_descriptor hd]
  · intro h
    obtain ⟨d, hd, rfl⟩ := h.exists_descriptor
    obtain ⟨view, payloads, hparse, hcontents, hagain⟩ := Descriptor.read_replay hd
    exact ⟨view, payloads, hparse, hcontents, congrArg Descriptor.encode hagain⟩
  · exact fun b hb => Descriptor.read_replay hb.sound
  · intro b b' hb hb' heq
    have hsame := Descriptor.encode_inj hb.sound hb'.sound heq
    exact ⟨congrArg Descriptor.mode hsame, congrArg Descriptor.flags hsame,
      congrArg (fun d => d.sources.payloads) hsame⟩

end DeviceSleep
