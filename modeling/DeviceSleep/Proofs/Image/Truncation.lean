import DeviceSleep.Proofs.Image.Sizes

/-! Images that were cut off. The head of an image says how long it is, so a cut behind the head is
noticed by the length that is missing, and one inside it because a head has sixteen bytes. What is
left of an image is never read as a shorter one; so no image is the beginning of another. -/
namespace DeviceSleep
set_option autoImplicit false

open Bytes

namespace Image

variable {bytes : List UInt8} {view : View}

/-- What the head of an image that is read says. -/
theorem head_of_parse (h : View.parse bytes = .ok view) :
    16 ≤ bytes.length ∧ 16 ≤ field bytes 0 2 ∧ field bytes 4 1 ≤ 3 ∧
      field bytes 0 2 + field bytes 12 4 ≤ bytes.length := by
  rw [parse_eq_readHead, readHead] at h
  split at h
  · cases h
  split at h
  · cases h
  split at h
  · cases h
  split at h
  · cases h
  · omega

/-- The part that is left of an image that ends with its records, where its head is still whole. -/
theorem parse_take (h : View.parse bytes = .ok view)
    (hlength : bytes.length = field bytes 0 2 + field bytes 12 4) {n : Nat} (h16 : 16 ≤ n)
    (hn : n < bytes.length) :
    View.parse (bytes.take n) = .error (.truncated bytes.length n) := by
  obtain ⟨-, hsize, hmode, -⟩ := head_of_parse h
  have htake : (bytes.take n).length = n := List.length_take_of_le (by omega)
  have hfield : ∀ start width, start + width ≤ 16 →
      field (bytes.take n) start width = field bytes start width := by
    intro start width hwithin
    exact field_take (by omega) (by omega)
  rw [parse_eq_readHead, readHead, htake, hfield 0 2 (by omega), hfield 4 1 (by omega),
    hfield 12 4 (by omega), ← hlength, if_neg (by omega), if_neg (by omega), if_neg (by omega),
    if_pos hn]

end Image

/-- The head of an image says how long it is. -/
theorem Descriptor.length_encode_eq_fields {d : Descriptor} (h : d.sources.Sound) :
    d.encode.length = field d.encode 0 2 + field d.encode 12 4 := by
  have harea := length_area_bound h
  have hsize : field d.encode 0 2 = 16 := rfl
  have hcount : field d.encode 12 4 = (UInt32.ofNat d.area.length).toNat := value_ofWord32 _
  rw [hsize, hcount, UInt32.toNat_ofNat', Nat.mod_eq_of_lt (by omega), length_encode]

open Image in
/-- Wherever the image of a builder's request is cut off, the reader says that bytes are missing: how
many a head has if it ends inside it, and else how many the image had. So no image of a builder's
request begins with another one. -/
theorem Builder.Reachable.cuts_are_noticed {b : Builder} (h : b.Reachable) :
    (∀ n < b.descriptor.encode.length,
      View.parse (b.descriptor.encode.take n) =
        .error (if n < 16 then .truncated 16 n else .truncated b.descriptor.encode.length n)) ∧
    ∀ c : Builder, c.Reachable → c.descriptor.encode <+: b.descriptor.encode →
      c.descriptor.encode = b.descriptor.encode := by
  have hcut : ∀ n < b.descriptor.encode.length,
      View.parse (b.descriptor.encode.take n) =
        .error (if n < 16 then .truncated 16 n else .truncated b.descriptor.encode.length n) := by
    intro n hn
    by_cases h16 : n < 16
    · have htake : (b.descriptor.encode.take n).length = n := List.length_take_of_le (by omega)
      rw [parse_short (by omega), htake, if_pos h16]
    · obtain ⟨view, hview, -⟩ := h.read_encode
      have hlength := Descriptor.length_encode_eq_fields h.sound
      rw [parse_take hview hlength (by omega) hn, if_neg h16]
  refine ⟨hcut, ?_⟩
  intro c hc hbegins
  have hle := hbegins.length_le
  rw [List.prefix_iff_eq_take] at hbegins
  by_contra hne
  -- The shorter of two images would be read, and as a cut of the longer one it is not.
  have hlt : c.descriptor.encode.length < b.descriptor.encode.length := by
    refine Nat.lt_of_le_of_ne hle fun heq => hne ?_
    rw [hbegins, heq, List.take_length]
  obtain ⟨view, hview, -⟩ := hc.read_encode
  rw [hbegins, hcut _ hlt] at hview
  cases hview

open Image in
theorem Builder.cuts_are_noticed_sample :
    Builder.sample.Reachable ∧ Builder.sample.descriptor.encode.length = 60 ∧
    View.parse (Builder.sample.descriptor.encode.take 15) = .error (.truncated 16 15) ∧
    View.parse (Builder.sample.descriptor.encode.take 24) = .error (.truncated 60 24) ∧
    Builder.fresh.Reachable ∧
    ¬ Builder.fresh.descriptor.encode <+: Builder.sample.descriptor.encode := by
  have hsample : Builder.sample.Reachable := Reachable.fresh.applyAll _
  have hlength : Builder.sample.descriptor.encode.length = 60 := by decide
  obtain ⟨hcut, hbegins⟩ := hsample.cuts_are_noticed
  refine ⟨hsample, hlength, hcut 15 (by omega), ?_, .fresh, ?_⟩
  · rw [hcut 24 (by omega), hlength]
    rfl
  · intro hfresh
    have heq := congrArg List.length (hbegins .fresh .fresh hfresh)
    rw [hlength] at heq
    revert heq
    decide

end DeviceSleep
