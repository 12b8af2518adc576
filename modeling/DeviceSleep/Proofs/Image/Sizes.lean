import DeviceSleep.Proofs.Image.RoundTrip
import Mathlib.Algebra.GroupWithZero.Nat

/-! How large an image can become. No header says another size than its record has in the image, and
there are so few keys that the records together are never longer than the head of the image can say,
however many calls were made. -/
namespace DeviceSleep
set_option autoImplicit false

open Bytes Image

/-! ## Records -/

/-- A record has twelve bytes, or eight if it is a radio link. -/
theorem Source.length_encode_add {s : Source} (h : s.header = .ofKind s.payload.kind) :
    s.encode.length + (if s.key = .radioLink then 4 else 0) = 12 := by
  rw [length_encode h, h, key]
  cases s.payload <;> rfl

/-- Without a radio link there is one record less at most. -/
theorem Registry.Sound.size_le_of_notMem {r : Registry} (hr : r.Sound)
    (hlink : Key.radioLink ∉ r.keys) : r.size ≤ 65793 := by
  have hsubset : r.keys ⊆ (List.range 65793).map Key.numbered := by
    intro key hkey
    obtain ⟨n, hn, rfl⟩ := key.exists_numbered
    refine List.mem_map_of_mem (List.mem_range.mpr ?_)
    -- The last number is the radio link's.
    have hne : n ≠ 65793 := by
      rintro rfl
      exact hlink hkey
    omega
  have hle := (hr.distinct.subperm hsubset).length_le
  rw [List.length_map, List.length_range, Registry.keys, List.length_map] at hle
  exact hle

namespace Descriptor

variable {d : Descriptor}

theorem length_flatMap_encode {l : List Source}
    (h : ∀ s ∈ l, s.header = .ofKind s.payload.kind) :
    (l.flatMap Source.encode).length + 4 * (l.map Source.key).count .radioLink = 12 * l.length := by
  induction l with
  | nil => rfl
  | cons s older ih =>
    have hs := Source.length_encode_add (h s List.mem_cons_self)
    have holder := ih fun t ht => h t (List.mem_cons_of_mem s ht)
    rw [List.flatMap_cons, List.length_append, List.map_cons, List.count_cons, List.length_cons]
    by_cases hk : s.key = .radioLink
    · rw [if_pos hk] at hs
      rw [if_pos (beq_iff_eq.mpr hk)]
      omega
    · rw [if_neg hk] at hs
      rw [if_neg (by simpa using hk)]
      omega

/-- Every record is there, and the radio link is the short one. -/
theorem length_area_bound (h : d.sources.Sound) : d.area.length ≤ 789524 := by
  have hlength : d.area.length + 4 * d.sources.keys.count .radioLink = 12 * d.sources.size :=
    length_flatMap_encode h.stamped
  by_cases hlink : Key.radioLink ∈ d.sources.keys
  · have hcount := List.count_pos_iff.mpr hlink
    have hsize := h.size_le
    omega
  · have hcount := List.count_eq_zero.mpr hlink
    have hsize := h.size_le_of_notMem hlink
    omega

theorem length_area_eq_sum (h : d.sources.Sound) :
    d.area.length = (d.sources.sources.map fun s => s.header.size.toNat).sum := by
  rw [area, List.length_flatMap]
  refine congrArg List.sum (List.map_congr_left fun s hs => ?_)
  exact Source.length_encode (h.stamped s hs)

end Descriptor

/-! ## The image of any builder -/

/-- Whatever calls were made and refused, there is a record at most for each pin and each interface, a
timer and a radio link; the header of each has the kind of its content and the version and size of
that kind, which is the number of bytes that are written of it; and the length of all of them fits
its field, so that the image is as long as its headers say together, and as its head says. -/
theorem Builder.Reachable.sizes_are_exact {b : Builder} (h : b.Reachable) :
    b.sources.size ≤ 65536 + 256 + 2 ∧
    (∀ s ∈ b.sources.sources, s.header.kind = s.payload.kind ∧ s.header.version = 1 ∧
      s.header.size.toNat = 8 + s.payload.kind.payloadSize.toNat ∧
      s.encode.length = s.header.size.toNat) ∧
    b.descriptor.area.length ≤ 789524 ∧
    (UInt32.ofNat b.descriptor.area.length).toNat = b.descriptor.area.length ∧
    b.descriptor.encode.length = 16 + (b.sources.sources.map fun s => s.header.size.toNat).sum ∧
    b.descriptor.encode.length = 16 + field b.descriptor.encode 12 4 := by
  have hs : b.descriptor.sources.Sound := h.sound
  have harea : b.descriptor.area.length ≤ 789524 := Descriptor.length_area_bound hs
  have hexact : (UInt32.ofNat b.descriptor.area.length).toNat = b.descriptor.area.length := by
    rw [UInt32.toNat_ofNat', Nat.mod_eq_of_lt (by omega)]
  have hfield : field b.descriptor.encode 12 4 =
      (UInt32.ofNat b.descriptor.area.length).toNat := value_ofWord32 _
  refine ⟨hs.size_le, ?_, harea, hexact, ?_, ?_⟩
  · intro s hmem
    have hstamped := hs.stamped s hmem
    refine ⟨by rw [hstamped]; rfl, by rw [hstamped]; rfl, ?_, Source.length_encode hstamped⟩
    rw [hstamped]
    cases s.payload <;> rfl
  · rw [Descriptor.length_encode, Descriptor.length_area_eq_sum hs]
    rfl
  · rw [Descriptor.length_encode, hfield, hexact]

theorem Builder.sizes_are_exact_sample :
    Builder.sample.Reachable ∧ Builder.sample.descriptor.encode.length = 60 ∧
    Builder.sample.descriptor.area.length ≤ 789524 ∧
    Builder.sample.descriptor.encode.length = 16 + field Builder.sample.descriptor.encode 12 4 := by
  have hsample : Builder.sample.Reachable := Reachable.fresh.applyAll _
  obtain ⟨-, -, harea, -, -, hlength⟩ := hsample.sizes_are_exact
  exact ⟨hsample, by decide, harea, hlength⟩

end DeviceSleep
