import DeviceSleep.Image.Reader
import DeviceSleep.Proofs.Bytes.Field
import Mathlib.Logic.ExistsUnique

/-! How the bytes of an area fall into records. A record is a stretch of at least eight bytes that
gives its own length in its third word; an area is records one after the other and a rest with which
no record begins, in one way only (`existsUnique_tiling`). A cursor on the area gives these records
in order, then the fault of the rest, if there is one, and then nothing any more (`Tiling.nth_eq`).
-/
namespace DeviceSleep.Image
set_option autoImplicit false

open Bytes

/-! ## The cursor -/

/-- One call of a cursor: what it gives, and the bytes that remain. -/
def advance (remaining : List UInt8) : Option (Except Fault RawRecord) × List UInt8 :=
  match next remaining with
  | none => (none, remaining)
  | some (item, rest) => (some item, rest)

/-- What a cursor gives at a call, counted from zero. -/
def nth : Nat → List UInt8 → Option (Except Fault RawRecord)
  | 0, remaining => (advance remaining).1
  | n + 1, remaining => nth n (advance remaining).2

theorem walk_of_next_none {bytes : List UInt8} (h : next bytes = none) : walk bytes = [] := by
  rw [walk]
  split
  · rfl
  · rename_i hsome
    rw [h] at hsome
    cases hsome

theorem walk_of_next_some {bytes rest : List UInt8} {item : Except Fault RawRecord}
    (h : next bytes = some (item, rest)) : walk bytes = item :: walk rest := by
  rw [walk]
  split
  · rename_i hnone
    rw [h] at hnone
    cases hnone
  · rename_i hsome
    rw [h] at hsome
    cases hsome
    rfl

/-- The calls of a cursor give the items of the list of all records, and nothing behind its end. -/
theorem nth_eq_getElem? (n : Nat) (bytes : List UInt8) : nth n bytes = (walk bytes)[n]? := by
  induction n generalizing bytes with
  | zero =>
    cases h : next bytes with
    | none => rw [walk_of_next_none h, nth, advance, h, List.getElem?_nil]
    | some entry => rw [walk_of_next_some h, nth, advance, h, List.getElem?_cons_zero]
  | succ n ih =>
    rw [nth, ih, advance]
    cases h : next bytes with
    | none => rw [walk_of_next_none h, List.getElem?_nil, List.getElem?_nil]
    | some entry => rw [walk_of_next_some h, List.getElem?_cons_succ]

/-! ## Records -/

/-- The bytes are one record: a head of eight bytes, whose third word is the length of it all. -/
def IsRecord (bytes : List UInt8) : Prop := 8 ≤ bytes.length ∧ field bytes 4 2 = bytes.length

/-- The record that such bytes show to a reader. -/
def RawRecord.ofBytes (bytes : List UInt8) : RawRecord :=
  ⟨.ofNat (field bytes 0 2), .ofNat (field bytes 2 2), .ofNat (field bytes 4 2), bytes.drop 8⟩

/-- Why no record begins with the bytes. -/
def faultOf (bytes : List UInt8) : Fault :=
  if bytes.length < 8 then .truncated 8 bytes.length
  else if field bytes 4 2 < 8 then .badRecordSize (.ofNat (field bytes 4 2))
  else .truncated (field bytes 4 2) bytes.length

theorem next_short {bytes : List UInt8} (hne : bytes ≠ []) (h : bytes.length < 8) :
    next bytes = some (.error (.truncated 8 bytes.length), []) := by
  unfold next
  split
  · exact absurd rfl hne
  · simp only [List.length_cons] at h
    omega
  · rfl

/-- The head of a record, read by its fields. -/
theorem next_long {bytes : List UInt8} (h : 8 ≤ bytes.length) :
    next bytes =
      if field bytes 4 2 < 8 then some (.error (.badRecordSize (.ofNat (field bytes 4 2))), [])
      else if bytes.length < field bytes 4 2 then
        some (.error (.truncated (field bytes 4 2) bytes.length), [])
      else
        some (.ok (.ofBytes (bytes.take (field bytes 4 2))), bytes.drop (field bytes 4 2)) := by
  unfold next
  split
  · simp at h
  · rename_i k₀ k₁ v₀ v₁ s₀ s₁ r₀ r₁ rest
    have hsize : (word16 s₀ s₁).toNat = value [s₀, s₁] := toNat_word16_eq_value s₀ s₁
    have hfield : field (k₀ :: k₁ :: v₀ :: v₁ :: s₀ :: s₁ :: r₀ :: r₁ :: rest) 4 2 =
        value [s₀, s₁] := rfl
    have hsmall : word16 s₀ s₁ < Header.length ↔ value [s₀, s₁] < 8 := by
      rw [UInt16.lt_iff_toNat_lt, hsize]
      rfl
    dsimp only
    rw [hfield, hsize]
    by_cases hlt : value [s₀, s₁] < 8
    · rw [if_pos (hsmall.mpr hlt), if_pos hlt, word16_eq_value]
    · rw [if_neg fun hs => hlt (hsmall.mp hs), if_neg hlt]
      by_cases hrest : (k₀ :: k₁ :: v₀ :: v₁ :: s₀ :: s₁ :: r₀ :: r₁ :: rest).length <
          value [s₀, s₁]
      · rw [if_pos hrest, if_pos hrest]
      · obtain ⟨m, hm⟩ : ∃ m, value [s₀, s₁] = m + 8 := ⟨value [s₀, s₁] - 8, by omega⟩
        rw [if_neg hrest, if_neg hrest, hm]
        rfl
  · rename_i hne
    rcases bytes with _ | ⟨k₀, _ | ⟨k₁, _ | ⟨v₀, _ | ⟨v₁, _ | ⟨s₀, _ | ⟨s₁, _ | ⟨r₀, _ | ⟨r₁,
      rest⟩⟩⟩⟩⟩⟩⟩⟩
    all_goals first | exact (hne _ _ _ _ _ _ _ _ _ rfl).elim | simp at h

/-! ## Tilings -/

/-- An area as records and a rest with which no record begins. -/
structure Tiling (area : List UInt8) (records : List (List UInt8)) (rest : List UInt8) : Prop where
  join : records.flatten ++ rest = area
  whole : ∀ r ∈ records, IsRecord r
  stuck : rest = [] ∨ ∀ r, r <+: rest → ¬ IsRecord r

/-- What a cursor gives for a rest. -/
def closing (rest : List UInt8) : List (Except Fault RawRecord) :=
  if rest = [] then [] else [.error (faultOf rest)]

theorem IsRecord.next_append {r : List UInt8} (hr : IsRecord r) (rest : List UInt8) :
    next (r ++ rest) = some (.ok (.ofBytes r), rest) := by
  obtain ⟨h8, hsize⟩ := hr
  have hfield : field (r ++ rest) 4 2 = r.length := by
    rw [field_append (by omega), hsize]
  have hlen : (r ++ rest).length = r.length + rest.length := List.length_append
  rw [next_long (by omega), hfield, if_neg (by omega), if_neg (by omega), List.take_left,
    List.drop_left]

/-- A record at the front of some bytes is found by its length. -/
theorem isRecord_take {bytes : List UInt8} (h8 : 8 ≤ field bytes 4 2)
    (hlen : field bytes 4 2 ≤ bytes.length) : IsRecord (bytes.take (field bytes 4 2)) := by
  have htake : (bytes.take (field bytes 4 2)).length = field bytes 4 2 := by
    rw [List.length_take]
    omega
  refine ⟨by omega, ?_⟩
  rw [htake]
  conv => rhs; rw [← List.take_append_drop (field bytes 4 2) bytes]
  rw [field_append (by omega)]

theorem next_of_stuck {rest : List UInt8} (hne : rest ≠ [])
    (h : ∀ r, r <+: rest → ¬ IsRecord r) : next rest = some (.error (faultOf rest), []) := by
  by_cases h8 : rest.length < 8
  · rw [next_short hne h8, faultOf, if_pos h8]
  · rw [next_long (by omega), faultOf, if_neg h8]
    by_cases hsmall : field rest 4 2 < 8
    · rw [if_pos hsmall, if_pos hsmall]
    · by_cases hlong : rest.length < field rest 4 2
      · rw [if_neg hsmall, if_neg hsmall, if_pos hlong]
      · have hrecord : IsRecord (rest.take (field rest 4 2)) :=
          isRecord_take (by omega) (by omega)
        exact absurd hrecord (h _ (List.take_prefix _ _))

/-- The records of an area in order, then the fault of the rest. -/
theorem Tiling.walk_eq {area rest : List UInt8} {records : List (List UInt8)}
    (h : Tiling area records rest) :
    walk area = records.map (fun r => .ok (.ofBytes r)) ++ closing rest := by
  obtain ⟨rfl, hwhole, hstuck⟩ := h
  induction records with
  | nil =>
    rw [List.flatten_nil, List.nil_append, List.map_nil, List.nil_append, closing]
    by_cases hne : rest = []
    · rw [if_pos hne, hne]
      exact walk_of_next_none rfl
    · rw [if_neg hne, walk_of_next_some (next_of_stuck hne (hstuck.resolve_left hne)),
        walk_of_next_none rfl]
  | cons r records ih =>
    have hr : IsRecord r := hwhole r List.mem_cons_self
    rw [List.flatten_cons, List.append_assoc, walk_of_next_some (hr.next_append _),
      ih fun s hs => hwhole s (List.mem_cons_of_mem r hs)]
    rfl

/-- Every call of a cursor, by the tiling of the area. -/
theorem Tiling.nth_eq {area rest : List UInt8} {records : List (List UInt8)}
    (h : Tiling area records rest) (n : Nat) :
    nth n area = (records.map (fun r => .ok (.ofBytes r)) ++ closing rest)[n]? := by
  rw [nth_eq_getElem?, h.walk_eq]

/-! ## There is one tiling -/

theorem IsRecord.length_eq_field {r bytes : List UInt8} (hr : IsRecord r) (h : r <+: bytes) :
    r.length = field bytes 4 2 := by
  obtain ⟨rest, rfl⟩ := h
  rw [field_append (by have := hr.1; omega), hr.2]

theorem IsRecord.eq_of_prefix {r s bytes : List UInt8} (hr : IsRecord r) (hs : IsRecord s)
    (hrb : r <+: bytes) (hsb : s <+: bytes) : r = s := by
  have hlen : r.length = s.length := (hr.length_eq_field hrb).trans (hs.length_eq_field hsb).symm
  rw [List.prefix_iff_eq_take.mp hrb, List.prefix_iff_eq_take.mp hsb, hlen]

theorem exists_tiling (area : List UInt8) : ∃ records rest, Tiling area records rest := by
  -- What is left behind a record is shorter, since a record has eight bytes at least.
  by_cases h : ∃ r, r <+: area ∧ IsRecord r
  · obtain ⟨r, ⟨after, rfl⟩, hr⟩ := h
    have hshort : after.length < (r ++ after).length := by
      have := hr.1
      rw [List.length_append]
      omega
    obtain ⟨records, rest, ht⟩ := exists_tiling after
    refine ⟨r :: records, rest, ?_, ?_, ht.stuck⟩
    · rw [List.flatten_cons, List.append_assoc, ht.join]
    · intro s hs
      rcases List.mem_cons.mp hs with rfl | hs
      · exact hr
      · exact ht.whole s hs
  · refine ⟨[], area, rfl, by simp, Or.inr ?_⟩
    intro r hr hrecord
    exact h ⟨r, hr, hrecord⟩
termination_by area.length

theorem Tiling.tail {area r rest : List UInt8} {records : List (List UInt8)}
    (h : Tiling area (r :: records) rest) :
    ∃ after, area = r ++ after ∧ IsRecord r ∧ Tiling after records rest := by
  obtain ⟨rfl, hwhole, hstuck⟩ := h
  refine ⟨records.flatten ++ rest, by rw [List.flatten_cons, List.append_assoc],
    hwhole r List.mem_cons_self, rfl, ?_, hstuck⟩
  exact fun s hs => hwhole s (List.mem_cons_of_mem r hs)

theorem Tiling.not_isRecord {area rest r : List UInt8} (h : Tiling area [] rest)
    (hr : r <+: area) : ¬ IsRecord r := by
  obtain ⟨rfl, -, hstuck⟩ := h
  intro hrecord
  rcases hstuck with rfl | hstuck
  · have hlen := hr.length_le
    have h8 := hrecord.1
    simp only [List.flatten_nil, List.append_nil, List.length_nil] at hlen
    omega
  · exact hstuck r hr hrecord

theorem Tiling.unique {area rest rest' : List UInt8} {records records' : List (List UInt8)}
    (h : Tiling area records rest) (h' : Tiling area records' rest') :
    records = records' ∧ rest = rest' := by
  induction records generalizing area records' with
  | nil =>
    cases records' with
    | nil => exact ⟨rfl, h.join.trans h'.join.symm⟩
    | cons s records' =>
      obtain ⟨after, rfl, hs, -⟩ := h'.tail
      exact absurd hs (h.not_isRecord (List.prefix_append s after))
  | cons r records ih =>
    obtain ⟨after, rfl, hr, ht⟩ := h.tail
    cases records' with
    | nil => exact absurd hr (h'.not_isRecord (List.prefix_append r after))
    | cons s records' =>
      obtain ⟨after', heq, hs, ht'⟩ := h'.tail
      -- Both stand at the front of the same bytes, whose size field is the length of each.
      have hrs : r = s :=
        hr.eq_of_prefix hs (List.prefix_append r after) (heq ▸ List.prefix_append s after')
      subst hrs
      obtain rfl : after = after' := List.append_cancel_left heq
      obtain ⟨rfl, rfl⟩ := ih ht ht'
      exact ⟨rfl, rfl⟩

/-- An area is tiled by records in exactly one way. -/
theorem existsUnique_tiling (area : List UInt8) :
    ∃! parts : List (List UInt8) × List UInt8, Tiling area parts.1 parts.2 := by
  obtain ⟨records, rest, h⟩ := exists_tiling area
  refine ⟨(records, rest), h, ?_⟩
  rintro ⟨records', rest'⟩ h'
  obtain ⟨rfl, rfl⟩ := h'.unique h
  rfl

end DeviceSleep.Image
