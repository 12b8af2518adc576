import DeviceSleep.Proofs.Builder.Calls
import DeviceSleep.Proofs.Image.Layout

/-! Reading the image of a request gives the request back. The image of a sound registry is a tiling
by the images of its records, so a reader's cursor finds them one by one; and there are so few keys
that the length of the area fits its field. -/
namespace DeviceSleep
set_option autoImplicit false

open Bytes Image

/-! ## One record -/

theorem Header.size_ofKind (kind : Kind) :
    8 ≤ (ofKind kind).size.toNat ∧ (ofKind kind).size.toNat ≤ 12 := by
  cases kind <;> decide

namespace Source

variable {s : Source}

theorem encode_eq (s : Source) :
    s.encode = recordBytes s.header.kind.code s.header.version s.header.size 0 s.payload.encode := rfl

theorem length_encode (h : s.header = .ofKind s.payload.kind) :
    s.encode.length = s.header.size.toNat := by
  rw [encode_eq, length_recordBytes, Payload.length_encode, h]
  cases s.payload <;> rfl

theorem field_size_encode (s : Source) : field s.encode 4 2 = s.header.size.toNat :=
  value_ofWord16 s.header.size

theorem isRecord_encode (h : s.header = .ofKind s.payload.kind) : IsRecord s.encode := by
  have hsize : s.header.size.toNat = 8 + s.payload.encode.length := by
    rw [← length_encode h, encode_eq, length_recordBytes]
  rw [encode_eq]
  exact isRecord_recordBytes _ _ _ hsize

/-- A reader sees the header and the bytes of the content. -/
theorem ofBytes_encode (s : Source) :
    RawRecord.ofBytes s.encode =
      ⟨s.header.kind.code, s.header.version, s.header.size, s.payload.encode⟩ :=
  ofBytes_recordBytes _ _ _ 0 _

/-- The content is read back from its bytes. -/
theorem decode_encode (p : Payload) (version size : UInt16) :
    RawRecord.decode ⟨p.kind.code, version, size, p.encode⟩ = .ok (some p) :=
  decode_of_opens p.opens_encode version size

end Source

/-! ## The whole image -/

namespace Descriptor

variable {d : Descriptor}

theorem tiling_area (h : d.sources.Sound) :
    Tiling d.area (d.sources.sources.map Source.encode) [] := by
  refine ⟨?_, ?_, Or.inl rfl⟩
  · rw [List.append_nil]
    rfl
  · intro r hr
    obtain ⟨s, hs, rfl⟩ := List.mem_map.mp hr
    exact Source.isRecord_encode (h.stamped s hs)

theorem length_area_le (h : d.sources.Sound) : d.area.length ≤ 12 * d.sources.size := by
  have hrecord : ∀ s ∈ d.sources.sources, s.encode.length ≤ 12 := by
    intro s hs
    rw [Source.length_encode (h.stamped s hs), h.stamped s hs]
    exact (Header.size_ofKind _).2
  unfold area Registry.size
  generalize d.sources.sources = sources at hrecord
  induction sources with
  | nil => simp
  | cons s older ih =>
    have hs := hrecord s List.mem_cons_self
    have ho := ih fun t ht => hrecord t (List.mem_cons_of_mem s ht)
    rw [List.flatMap_cons, List.length_append, List.length_cons]
    omega

theorem parse_encode (h : d.area.length < 4294967296) :
    View.parse d.encode = .ok ⟨size, layoutVersion, d.mode, d.flags, d.area⟩ := by
  have hplain : d.encode =
      headBytes size layoutVersion d.mode 0 0 0 d.flags (.ofNat d.area.length) ++
        ([] ++ (d.area ++ [])) := by
    rw [List.append_nil]
    rfl
  rw [hplain]
  exact parse_headBytes layoutVersion d.mode 0 0 0 d.flags rfl h []

end Descriptor

/-! ## Reading what a builder wrote -/

/-- An image that has been read shows a request: its mode, every bit of its flags, and at each call
of the cursor the next of its records with header and content, none of them faulty, then nothing. -/
structure Image.View.Shows (view : View) (d : Descriptor) : Prop where
  size : view.size = 16
  version : view.version = 1
  mode : view.mode = d.mode
  flags : view.flags = d.flags
  records : ∀ n, match d.sources.sources[n]? with
    | some s => ∃ raw, nth n view.area = some (.ok raw) ∧
        raw.kind = s.header.kind.code ∧ raw.version = s.header.version ∧
        raw.size = s.header.size ∧ raw.decode = .ok (some s.payload)
    | none => nth n view.area = none

theorem Descriptor.nth_area {d : Descriptor} (h : d.sources.Sound) (n : Nat) :
    match d.sources.sources[n]? with
    | some s => ∃ raw, nth n d.area = some (.ok raw) ∧
        raw.kind = s.header.kind.code ∧ raw.version = s.header.version ∧
        raw.size = s.header.size ∧ raw.decode = .ok (some s.payload)
    | none => nth n d.area = none := by
  have hnth := (tiling_area h).nth_eq n
  rw [closing, if_pos rfl, List.append_nil, List.map_map, List.getElem?_map] at hnth
  cases hn : d.sources.sources[n]? with
  | none =>
    rw [hn] at hnth
    exact hnth
  | some s =>
    rw [hn, Option.map_some, Function.comp_apply, Source.ofBytes_encode] at hnth
    have hkind : s.header.kind = s.payload.kind := by
      rw [h.stamped s (List.mem_of_getElem? hn)]
      rfl
    refine ⟨_, hnth, rfl, rfl, rfl, ?_⟩
    rw [hkind]
    exact Source.decode_encode s.payload _ _

namespace Builder

/-- The image of any builder's request is read and shows the request. -/
theorem Reachable.read_encode {b : Builder} (h : b.Reachable) :
    ∃ view, View.parse b.descriptor.encode = .ok view ∧ view.Shows b.descriptor := by
  have hs : b.descriptor.sources.Sound := h.sound
  have harea : b.descriptor.area.length < 4294967296 := by
    have hle := Descriptor.length_area_le hs
    have hsize := hs.size_le
    omega
  refine ⟨_, Descriptor.parse_encode harea, rfl, rfl, rfl, rfl, ?_⟩
  exact Descriptor.nth_area hs

/-- A builder with a record of every kind, a pin that was set twice and a flag without a name, which
a refused record has frozen. -/
def sample : Builder :=
  fresh.applyAll
    [(true, .mode .stop), (true, .flag ⟨0x80000001⟩), (true, .gpio 7 .rising),
      (true, .durationMs 5000), (true, .network .cellular), (true, .gpio 7 .change),
      (true, .radioLink), (false, .gpio 8 .falling), (true, .mode .hibernate)]

theorem read_encode_sample :
    sample.Reachable ∧
    sample.descriptor.mode = .stop ∧ sample.descriptor.flags = ⟨0x80000001⟩ ∧
    sample.sources.payloads = [.radioLink, .network .cellular, .timer 5000, .gpio 7 .change] ∧
    ∃ view, View.parse sample.descriptor.encode = .ok view ∧ view.Shows sample.descriptor := by
  have h : sample.Reachable := Reachable.fresh.applyAll _
  exact ⟨h, by decide, by decide, by decide, h.read_encode⟩

end Builder

end DeviceSleep
