import DeviceSleep.Proofs.Image.Meaning

/-! Reading an image is safe. A reader that trusts the sizes in the image takes bytes by their places,
cuts stretches out and adds sizes up in 64 bits, and would break off where a place is not there or a
sum too large. `Guarded` is this reader with every such step checked; it never breaks off, and what it
reads is what is read here by patterns. A cursor ends after at most one item for every eight bytes. -/
namespace DeviceSleep.Image
set_option autoImplicit false

open Bytes

/-! ## Checked steps -/

/-- Why a reader would break off. -/
inductive Lapse where
  | noByte (index length : Nat)
  | noStretch (start stop length : Nat)
  | overflow (sum : Nat)
deriving DecidableEq, Repr

namespace Guarded

def byte (bytes : List UInt8) (i : Nat) : Except Lapse UInt8 :=
  match bytes[i]? with
  | none => .error (.noByte i bytes.length)
  | some b => .ok b

def word16 (bytes : List UInt8) (i : Nat) : Except Lapse UInt16 := do
  let a ← byte bytes i
  let b ← byte bytes (i + 1)
  return Bytes.word16 a b

def word32 (bytes : List UInt8) (i : Nat) : Except Lapse UInt32 := do
  let a ← byte bytes i
  let b ← byte bytes (i + 1)
  let c ← byte bytes (i + 2)
  let d ← byte bytes (i + 3)
  return Bytes.word32 a b c d

def stretch (bytes : List UInt8) (start stop : Nat) : Except Lapse (List UInt8) :=
  if start ≤ stop ∧ stop ≤ bytes.length then .ok ((bytes.take stop).drop start)
  else .error (.noStretch start stop bytes.length)

def sum (m n : Nat) : Except Lapse Nat :=
  if m + n < 2 ^ 64 then .ok (m + n) else .error (.overflow (m + n))

/-! ## The reader -/

def parse (bytes : List UInt8) : Except Lapse (Except Fault View) :=
  if bytes.length < 16 then return .error (.truncated 16 bytes.length)
  else do
    let size ← word16 bytes 0
    if size < Descriptor.size then return .error (.badDescriptorSize size)
    else
      let version ← word16 bytes 2
      let code ← byte bytes 4
      match Mode.ofCode? code with
      | none => return .error (.unknownMode code)
      | some mode =>
        let flags ← word32 bytes 8
        let areaLength ← word32 bytes 12
        let stop ← sum size.toNat areaLength.toNat
        if bytes.length < stop then return .error (.truncated stop bytes.length)
        else
          let area ← stretch bytes size.toNat stop
          return .ok ⟨size, version, mode, ⟨flags⟩, area⟩

/-- One call of a cursor: what it gives, and the bytes that remain. -/
def advance (remaining : List UInt8) :
    Except Lapse (Option (Except Fault RawRecord) × List UInt8) :=
  if remaining.isEmpty then return (none, remaining)
  else if remaining.length < 8 then return (some (.error (.truncated 8 remaining.length)), [])
  else do
    let size ← word16 remaining 4
    if size < Header.length then return (some (.error (.badRecordSize size)), [])
    else if remaining.length < size.toNat then
      return (some (.error (.truncated size.toNat remaining.length)), [])
    else
      let kind ← word16 remaining 0
      let version ← word16 remaining 2
      let payload ← stretch remaining 8 size.toNat
      let rest ← stretch remaining size.toNat remaining.length
      return (some (.ok ⟨kind, version, size, payload⟩), rest)

def decode (r : RawRecord) : Except Lapse (Except Fault (Option Payload)) :=
  match Kind.ofCode? r.kind with
  | none => return .ok none
  | some kind =>
    if r.payload.length < kind.payloadSize.toNat then
      return .error (.shortPayload kind r.payload.length)
    else
      match kind with
      | .gpio => do
        let pin ← word16 r.payload 0
        let code ← byte r.payload 2
        match Trigger.ofCode? code with
        | none => return .error (.unknownTrigger code)
        | some trigger => return .ok (some (.gpio pin trigger))
      | .timer => do
        let ms ← word32 r.payload 0
        return .ok (some (.timer ms))
      | .network => do
        let index ← byte r.payload 0
        return .ok (some (.network ⟨index⟩))
      | .radioLink => return .ok (some .radioLink)

/-! ## No step fails -/

section Steps
variable {bytes : List UInt8} {i : Nat}

theorem byte_eq_getElem (h : i < bytes.length) : byte bytes i = .ok bytes[i] := by
  rw [byte, List.getElem?_eq_getElem h]

theorem byte_eq (h : i < bytes.length) : byte bytes i = .ok (.ofNat (field bytes i 1)) := by
  have hfield : field bytes i 1 = bytes[i].toNat := by
    rw [field, List.drop_eq_getElem_cons h]
    rfl
  rw [byte_eq_getElem h, hfield, UInt8.ofNat_toNat]

theorem word16_eq (h : i + 2 ≤ bytes.length) :
    word16 bytes i = .ok (.ofNat (field bytes i 2)) := by
  have h₀ : i < bytes.length := by omega
  have h₁ : i + 1 < bytes.length := by omega
  have hfield : field bytes i 2 = value [bytes[i], bytes[i + 1]] := by
    rw [field, List.drop_eq_getElem_cons h₀, List.drop_eq_getElem_cons h₁]
    rfl
  rw [word16, byte_eq_getElem h₀, byte_eq_getElem h₁, hfield]
  rfl

theorem word32_eq (h : i + 4 ≤ bytes.length) :
    word32 bytes i = .ok (.ofNat (field bytes i 4)) := by
  have h₀ : i < bytes.length := by omega
  have h₁ : i + 1 < bytes.length := by omega
  have h₂ : i + 2 < bytes.length := by omega
  have h₃ : i + 3 < bytes.length := by omega
  have hfield : field bytes i 4 = value [bytes[i], bytes[i + 1], bytes[i + 2], bytes[i + 3]] := by
    rw [field, List.drop_eq_getElem_cons h₀, List.drop_eq_getElem_cons h₁,
      List.drop_eq_getElem_cons h₂, List.drop_eq_getElem_cons h₃]
    rfl
  rw [word32, byte_eq_getElem h₀, byte_eq_getElem h₁, byte_eq_getElem h₂, byte_eq_getElem h₃,
    hfield, ← word32_eq_value]
  rfl

theorem stretch_eq {start stop : Nat} (h : start ≤ stop) (hstop : stop ≤ bytes.length) :
    stretch bytes start stop = .ok ((bytes.take stop).drop start) :=
  if_pos ⟨h, hstop⟩

end Steps

/-- The greatest size and the greatest length together are far below the limit. -/
theorem sum_eq {m n : Nat} (hm : m < 2 ^ 16) (hn : n < 2 ^ 32) : sum m n = .ok (m + n) :=
  if_pos (by omega)

theorem parse_eq (bytes : List UInt8) : parse bytes = .ok (View.parse bytes) := by
  rw [parse_eq_readHead]
  unfold parse readHead
  dsimp only
  by_cases h16 : bytes.length < 16
  · rw [if_pos h16, if_pos h16]
    rfl
  · have hsize : field bytes 0 2 < 2 ^ 16 := field_lt bytes 0 2
    have hcode : field bytes 4 1 < 2 ^ 8 := field_lt bytes 4 1
    have hlength : field bytes 12 4 < 2 ^ 32 := field_lt bytes 12 4
    have htoSize : (UInt16.ofNat (field bytes 0 2)).toNat = field bytes 0 2 :=
      Nat.mod_eq_of_lt hsize
    have htoCode : (UInt8.ofNat (field bytes 4 1)).toNat = field bytes 4 1 :=
      Nat.mod_eq_of_lt hcode
    have htoLength : (UInt32.ofNat (field bytes 12 4)).toNat = field bytes 12 4 :=
      Nat.mod_eq_of_lt hlength
    have hsmall : UInt16.ofNat (field bytes 0 2) < Descriptor.size ↔ field bytes 0 2 < 16 := by
      rw [UInt16.lt_iff_toNat_lt, htoSize]
      rfl
    rw [if_neg h16, if_neg h16, word16_eq (by omega), word16_eq (by omega), byte_eq (by omega),
      word32_eq (by omega), word32_eq (by omega)]
    simp only [bind, Except.bind, pure, Except.pure, hsmall]
    by_cases hs : field bytes 0 2 < 16
    · rw [if_pos hs, if_pos hs]
    · rw [if_neg hs, if_neg hs]
      by_cases hmode : 3 < field bytes 4 1
      · rw [if_pos hmode, ofCode?_of_lt (by omega)]
      · rw [if_neg hmode, ofCode?_of_le (by omega)]
        simp only [htoSize, htoCode, htoLength, sum_eq hsize hlength]
        by_cases hshort : bytes.length < field bytes 0 2 + field bytes 12 4
        · rw [if_pos hshort, if_pos hshort]
        · rw [if_neg hshort, if_neg hshort, stretch_eq (by omega) (by omega), List.drop_take,
            Nat.add_sub_cancel_left]

theorem advance_eq (remaining : List UInt8) : advance remaining = .ok (Image.advance remaining) := by
  unfold advance Image.advance
  by_cases hne : remaining = []
  · subst hne
    rfl
  · rw [if_neg (by simpa using hne)]
    by_cases h8 : remaining.length < 8
    · rw [if_pos h8, next_short hne h8]
      rfl
    · have hsize : field remaining 4 2 < 2 ^ 16 := field_lt remaining 4 2
      have htoSize : (UInt16.ofNat (field remaining 4 2)).toNat = field remaining 4 2 :=
        Nat.mod_eq_of_lt hsize
      have hsmall : UInt16.ofNat (field remaining 4 2) < Header.length ↔
          field remaining 4 2 < 8 := by
        rw [UInt16.lt_iff_toNat_lt, htoSize]
        rfl
      rw [if_neg h8, next_long (by omega), word16_eq (by omega), word16_eq (by omega),
        word16_eq (by omega)]
      simp only [bind, Except.bind, pure, Except.pure, hsmall, htoSize]
      by_cases hs : field remaining 4 2 < 8
      · rw [if_pos hs, if_pos hs]
      · rw [if_neg hs, if_neg hs]
        by_cases hlong : remaining.length < field remaining 4 2
        · rw [if_pos hlong, if_pos hlong]
        · rw [if_neg hlong, if_neg hlong, stretch_eq (by omega) (by omega),
            stretch_eq (by omega) (Nat.le_refl _), List.take_length]
          dsimp only
          rw [RawRecord.ofBytes, field_take (by omega) (by omega), field_take (by omega) (by omega),
            field_take (by omega) (by omega)]

theorem decode_eq (r : RawRecord) : decode r = .ok r.decode := by
  unfold decode
  cases hkind : Kind.ofCode? r.kind with
  | none =>
    rw [RawRecord.decode, hkind]
    rfl
  | some kind =>
    dsimp only
    by_cases hshort : r.payload.length < kind.payloadSize.toNat
    · rw [if_pos hshort, decode_short (Kind.ofCode?_eq_some_iff.mp hkind) hshort]
      rfl
    · rw [if_neg hshort]
      have hlong : kind.payloadSize.toNat ≤ r.payload.length := Nat.le_of_not_lt hshort
      cases kind with
      | gpio =>
        obtain ⟨a, b, t, d, rest, hbytes⟩ := exists_bytes_of_le hlong
        have hpin : word16 r.payload 0 = .ok (Bytes.word16 a b) := by rw [hbytes]; rfl
        have hcode : byte r.payload 2 = .ok t := by rw [hbytes]; rfl
        rw [hpin, hcode]
        cases htrigger : Trigger.ofCode? t with
        | none =>
          have hread : r.decode = .error (.unknownTrigger t) := by
            simp only [RawRecord.decode, hkind, hbytes, htrigger]
          simp only [hread, bind, Except.bind, pure, Except.pure, htrigger]
        | some trigger =>
          have hread : r.decode = .ok (some (.gpio (Bytes.word16 a b) trigger)) := by
            simp only [RawRecord.decode, hkind, hbytes, htrigger]
          simp only [hread, bind, Except.bind, pure, Except.pure, htrigger]
      | timer =>
        obtain ⟨a, b, c, d, rest, hbytes⟩ := exists_bytes_of_le hlong
        rw [RawRecord.decode, hkind, hbytes]
        rfl
      | network =>
        obtain ⟨a, b, c, d, rest, hbytes⟩ := exists_bytes_of_le hlong
        rw [RawRecord.decode, hkind, hbytes]
        rfl
      | radioLink =>
        rw [RawRecord.decode, hkind]
        rfl

end Guarded

/-! ## The end of a cursor -/

theorem View.length_area {bytes : List UInt8} {view : View} (h : View.parse bytes = .ok view) :
    view.area.length = field bytes 12 4 := by
  rw [parse_eq_readHead, readHead] at h
  split at h
  · cases h
  · split at h
    · cases h
    · split at h
      · cases h
      · split at h
        · cases h
        · cases h
          rw [List.length_take, List.length_drop]
          omega

theorem length_flatten_of_isRecord {records : List (List UInt8)} (h : ∀ r ∈ records, IsRecord r) :
    8 * records.length ≤ records.flatten.length := by
  induction records with
  | nil => exact Nat.zero_le _
  | cons r records ih =>
    have h8 := (h r List.mem_cons_self).1
    have hrest := ih fun s hs => h s (List.mem_cons_of_mem r hs)
    rw [List.flatten_cons, List.length_append, List.length_cons]
    omega

theorem length_closing_le (rest : List UInt8) : 8 * (closing rest).length ≤ rest.length + 7 := by
  rw [closing]
  split
  · exact Nat.zero_le _
  · rename_i hne
    have hpos := List.length_pos_iff.mpr hne
    rw [List.length_singleton]
    omega

/-- An item takes eight bytes, but the last may take fewer. -/
theorem length_walk_le (area : List UInt8) : (walk area).length ≤ (area.length + 7) / 8 := by
  obtain ⟨records, rest, h⟩ := exists_tiling area
  have hrecords := length_flatten_of_isRecord h.whole
  have hrest := length_closing_le rest
  rw [h.walk_eq, ← h.join, List.length_append, List.length_append, List.length_map]
  omega

/-- A fault ends the reading. -/
theorem length_walk_of_error {area : List UInt8} {n : Nat} {fault : Fault}
    (h : (walk area)[n]? = some (.error fault)) : n + 1 = (walk area).length := by
  obtain ⟨records, rest, ht⟩ := exists_tiling area
  rw [ht.walk_eq] at h ⊢
  rw [List.length_append, List.length_map]
  by_cases hn : n < records.length
  · rw [List.getElem?_append_left (by rwa [List.length_map]), List.getElem?_map,
      List.getElem?_eq_getElem hn] at h
    cases h
  · rw [List.getElem?_append_right (by rw [List.length_map]; omega), List.length_map] at h
    have hclosing : closing rest ≠ [] := by
      intro hnil
      rw [hnil] at h
      cases h
    have hone : (closing rest).length = 1 := by
      rw [closing] at hclosing ⊢
      split at hclosing
      · exact absurd rfl hclosing
      · rw [if_neg (by assumption)]
        rfl
    have hlt := (List.getElem?_eq_some_iff.mp h).1
    omega

/-! ## Any bytes -/

/-- Reading never breaks off, whatever the bytes are: no byte is taken and no stretch cut out that is
not there, and no sum is too large. A cursor gives at most one item for every eight bytes of the area
and, if a fault, then as the last. A record says nothing exactly if its kind is not known; it is
too short exactly if it has fewer bytes than its kind needs; its trigger is unknown exactly if it is a
pin's and its third byte is above two; and otherwise it says a payload, for which only as many bytes
count as its kind needs. -/
theorem reading_never_lapses (bytes : List UInt8) :
    (Guarded.parse bytes = .ok (View.parse bytes) ∧
      (∀ remaining, Guarded.advance remaining = .ok (advance remaining)) ∧
      ∀ r, Guarded.decode r = .ok r.decode) ∧
    (∀ view, View.parse bytes = .ok view → ∃ count ≤ (field bytes 12 4 + 7) / 8,
      (∀ n, nth n view.area = none ↔ count ≤ n) ∧
      ∀ n fault, nth n view.area = some (.error fault) → n + 1 = count) ∧
    ∀ r : RawRecord,
      (r.decode = .ok none ↔ r.kind ≠ 1 ∧ r.kind ≠ 4 ∧ r.kind ≠ 12 ∧ r.kind ≠ 13) ∧
      (∀ kind length, r.decode = .error (.shortPayload kind length) ↔
        r.kind = kind.code ∧ r.payload.length = length ∧ length < kind.payloadSize.toNat) ∧
      (∀ third, r.decode = .error (.unknownTrigger third) ↔
        r.kind = 1 ∧ 4 ≤ r.payload.length ∧ r.payload[2]? = some third ∧ 2 < third) ∧
      (r.decode = .ok none ∨ (∃ kind length, r.decode = .error (.shortPayload kind length)) ∨
        (∃ third, r.decode = .error (.unknownTrigger third)) ∨
        ∃ p : Payload, r.decode = .ok (some p) ∧ r.kind = p.kind.code ∧
          ∀ r' : RawRecord, r'.kind = r.kind →
            r'.payload.take p.kind.payloadSize.toNat = r.payload.take p.kind.payloadSize.toNat →
            r'.decode = .ok (some p)) := by
  refine ⟨⟨Guarded.parse_eq bytes, Guarded.advance_eq, Guarded.decode_eq⟩, ?_, ?_⟩
  · intro view hview
    refine ⟨(walk view.area).length, ?_, ?_, ?_⟩
    · rw [← View.length_area hview]
      exact length_walk_le view.area
    · intro n
      rw [nth_eq_getElem?]
      exact List.getElem?_eq_none_iff
    · intro n fault hn
      rw [nth_eq_getElem?] at hn
      exact length_walk_of_error hn
  · intro r
    refine ⟨?_, fun kind length => decode_eq_short_iff,
      fun third => decode_eq_unknownTrigger_iff, ?_⟩
    · rw [decode_eq_none_iff]
      constructor
      · intro h
        exact ⟨h .gpio, h .timer, h .network, h .radioLink⟩
      · rintro ⟨hgpio, htimer, hnetwork, hradio⟩ kind
        cases kind with
        | gpio => exact hgpio
        | timer => exact htimer
        | network => exact hnetwork
        | radioLink => exact hradio
    · obtain ⟨result, h⟩ := exists_says r
      cases h with
      | nothing code => exact .inl (Says.nothing code).decode_eq
      | short code length => exact .inr (.inl ⟨_, _, (Says.short code length).decode_eq⟩)
      | unknownTrigger code length third_eq unknown =>
        exact .inr (.inr (.inl ⟨_, (Says.unknownTrigger code length third_eq unknown).decode_eq⟩))
      | @payload p code opens =>
        have hdecode : r.decode = .ok (some p) := (Says.payload code opens).decode_eq
        exact .inr (.inr (.inr ⟨p, hdecode, code, fun r' => decode_eq_of_take_eq hdecode⟩))

end DeviceSleep.Image
