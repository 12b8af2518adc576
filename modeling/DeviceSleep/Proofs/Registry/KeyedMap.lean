import DeviceSleep.Registry
import Mathlib.Data.List.Perm.Subperm

/-! A registry is a map from keys to payloads that lists its entries newest first. The four calls
that set a record are one operation on this map: a key that is there gets its payload in place, a
key that is not there is added in front if the allocator grants it (`insert_eq`). The calls look for
the first record that fits; that it is the only one is the invariant `Sound`, which every operation
keeps. -/
namespace DeviceSleep
set_option autoImplicit false

namespace Change

/-- Whether the allocator was asked for a record. -/
def asks : Change → Bool
  | added _ _ => true
  | refused _ => true
  | _ => false

/-- The error that the call returns: the kind of the record that was refused. -/
def error? : Change → Option Kind
  | refused kind => some kind
  | _ => none

end Change

namespace Payload

/-- What a record with content `q` holds once `p` has been set. -/
def supersede (p q : Payload) : Payload := if q.key = p.key then p else q

/-- What is reported when a key that is there is set again. -/
def renewal : Payload → Change
  | gpio pin trigger => .amended (gpio pin trigger)
  | timer ms => .amended (timer ms)
  | network _ => .kept
  | radioLink => .kept

@[simp] theorem asks_renewal (p : Payload) : p.renewal.asks = false := by cases p <;> rfl

@[simp] theorem error?_renewal (p : Payload) : p.renewal.error? = none := by cases p <;> rfl

theorem kind_eq_of_key_eq {p q : Payload} (h : q.key = p.key) : q.kind = p.kind := by
  cases p <;> cases q <;> first | rfl | cases h

@[simp] theorem key_supersede (p q : Payload) : (p.supersede q).key = q.key := by
  unfold supersede
  split
  · rename_i h
    exact h.symm
  · rfl

@[simp] theorem kind_supersede (p q : Payload) : (p.supersede q).kind = q.kind :=
  kind_eq_of_key_eq (key_supersede p q)

theorem supersede_of_key_eq {p q : Payload} (h : q.key = p.key) : p.supersede q = p := if_pos h

theorem supersede_of_key_ne {p q : Payload} (h : q.key ≠ p.key) : p.supersede q = q := if_neg h

end Payload

namespace Source

/-- A record after a payload has been set. -/
def amend (p : Payload) (s : Source) : Source := ⟨s.header, p.supersede s.payload⟩

@[simp] theorem key_amend (p : Payload) (s : Source) : (s.amend p).key = s.key :=
  Payload.key_supersede p s.payload

theorem amend_of_key_ne {p : Payload} {s : Source} (h : s.key ≠ p.key) : s.amend p = s := by
  unfold amend
  rw [Payload.supersede_of_key_ne h]

/-- Setting a payload again that its key determines changes no record. -/
theorem amend_eq_self {p : Payload} (hp : ∀ q : Payload, q.key = p.key → q = p) (s : Source) :
    s.amend p = s := by
  by_cases h : s.key = p.key
  · unfold amend
    rw [Payload.supersede_of_key_eq h, ← hp s.payload h]
  · exact amend_of_key_ne h

end Source

namespace Registry

/-- Sets the record of a payload's key, by the call that is meant for it. -/
def insert (grant : Bool) (r : Registry) : Payload → Registry × Change
  | .gpio pin trigger => r.setGpio grant pin trigger
  | .timer ms => r.setTimer grant ms
  | .network i => r.addNetwork grant i
  | .radioLink => r.addRadioLink grant

/-- What holds of the records at any time. -/
structure Sound (r : Registry) : Prop where
  /-- A record's header is the one of its content. -/
  stamped : ∀ s ∈ r.sources, s.header = .ofKind s.payload.kind
  distinct : r.keys.Nodup

theorem sound_empty : empty.Sound := ⟨by simp [empty], by simp [empty, keys]⟩

/-! ## Replacing the first match -/

/-- Gives the newest record of a payload's key that payload. -/
def replace (p : Payload) : List Source → Option (List Source)
  | [] => none
  | s :: older =>
    if s.key = p.key then some (⟨s.header, p⟩ :: older) else (replace p older).map (s :: ·)

theorem retrigger_eq_replace (pin : UInt16) (trigger : Trigger) (l : List Source) :
    retrigger pin trigger l = replace (.gpio pin trigger) l := by
  induction l with
  | nil => rfl
  | cons s older ih =>
    obtain ⟨header, payload⟩ := s
    unfold retrigger replace
    rw [ih]
    cases payload with
    | gpio q t =>
      by_cases h : q = pin
      · subst h
        simp [Source.key, Payload.key]
      · simp [Source.key, Payload.key, h]
    | timer ms => simp [Source.key, Payload.key]
    | network i => simp [Source.key, Payload.key]
    | radioLink => simp [Source.key, Payload.key]

theorem retime_eq_replace (ms : UInt32) (l : List Source) :
    retime ms l = replace (.timer ms) l := by
  induction l with
  | nil => rfl
  | cons s older ih =>
    obtain ⟨header, payload⟩ := s
    unfold retime replace
    rw [ih]
    cases payload <;> simp [Source.key, Payload.key]

theorem replace_of_notMem {p : Payload} {l : List Source} (h : p.key ∉ l.map Source.key) :
    replace p l = none := by
  induction l with
  | nil => rfl
  | cons s older ih =>
    rw [List.map_cons, List.mem_cons, not_or] at h
    rw [replace, if_neg (Ne.symm h.1), ih h.2]
    rfl

theorem map_amend_of_notMem {p : Payload} {l : List Source} (h : p.key ∉ l.map Source.key) :
    l.map (Source.amend p) = l := by
  have hs : ∀ s ∈ l, s.amend p = id s := by
    intro s hs
    refine Source.amend_of_key_ne fun hk => h ?_
    rw [← hk]
    exact List.mem_map_of_mem hs
  rw [List.map_congr_left hs, List.map_id]

/-- Where keys are distinct, the first match is the only one. -/
theorem replace_of_mem {p : Payload} {l : List Source} (hd : (l.map Source.key).Nodup)
    (h : p.key ∈ l.map Source.key) : replace p l = some (l.map (Source.amend p)) := by
  induction l with
  | nil => cases h
  | cons s older ih =>
    rw [List.map_cons, List.nodup_cons] at hd
    rw [replace, List.map_cons]
    by_cases hk : s.key = p.key
    · rw [if_pos hk, map_amend_of_notMem (hk ▸ hd.1), Source.amend,
        Payload.supersede_of_key_eq hk]
    · have ho : p.key ∈ older.map Source.key := (List.mem_cons.mp h).resolve_left (Ne.symm hk)
      rw [if_neg hk, ih hd.2 ho, Source.amend_of_key_ne hk]
      rfl

/-! ## Looking for what is already there -/

theorem interfaces_contains (r : Registry) (i : Interface) :
    r.interfaces.contains i = true ↔ Key.network i ∈ r.keys := by
  rw [List.contains_iff_mem]
  unfold interfaces payloads keys
  rw [List.filterMap_map, List.mem_filterMap, List.mem_map]
  constructor
  · rintro ⟨s, hs, hi⟩
    refine ⟨s, hs, ?_⟩
    simp only [Function.comp_apply] at hi
    cases hp : s.payload <;> rw [hp] at hi <;> cases hi
    rw [Source.key, hp]
    rfl
  · rintro ⟨s, hs, hk⟩
    refine ⟨s, hs, ?_⟩
    rw [Source.key] at hk
    simp only [Function.comp_apply]
    cases hp : s.payload <;> rw [hp] at hk <;> cases hk
    rfl

theorem newest_isSome (kind : Kind) (l : List Source) :
    (newest kind l).isSome = true ↔ ∃ s ∈ l, s.kind = kind := by
  induction l with
  | nil => simp [newest]
  | cons s older ih =>
    by_cases h : s.kind = kind
    · simp [newest, h]
    · simp [newest, h, ih]

theorem Sound.find_radioLink {r : Registry} (hr : r.Sound) :
    (r.find .radioLink).isSome = true ↔ Key.radioLink ∈ r.keys := by
  rw [find, newest_isSome, keys, List.mem_map]
  constructor
  · rintro ⟨s, hs, hk⟩
    refine ⟨s, hs, ?_⟩
    rw [Source.kind, hr.stamped s hs] at hk
    rw [Source.key]
    cases hp : s.payload <;> rw [hp] at hk <;> cases hk
    rfl
  · rintro ⟨s, hs, hk⟩
    refine ⟨s, hs, ?_⟩
    rw [Source.key] at hk
    rw [Source.kind, hr.stamped s hs]
    cases hp : s.payload <;> rw [hp] at hk <;> cases hk
    rfl

/-! ## One operation for the four calls -/

variable {r : Registry}

/-- The four calls are one: set in place what is there, else ask for a new record. -/
theorem Sound.insert_eq (hr : r.Sound) (grant : Bool) (p : Payload) :
    r.insert grant p =
      if p.key ∈ r.keys then (⟨r.sources.map (Source.amend p)⟩, p.renewal)
      else r.allocate grant p := by
  have same (hp : ∀ q : Payload, q.key = p.key → q = p) :
      (⟨r.sources.map (Source.amend p)⟩ : Registry) = r := by
    have hid : r.sources.map (Source.amend p) = r.sources.map id :=
      List.map_congr_left fun s _ => Source.amend_eq_self hp s
    rw [hid, List.map_id]
  cases p with
  | gpio pin trigger =>
    change r.setGpio grant pin trigger = _
    unfold setGpio
    rw [retrigger_eq_replace]
    by_cases h : (Payload.gpio pin trigger).key ∈ r.keys
    · rw [if_pos h, replace_of_mem hr.distinct h]
      rfl
    · rw [if_neg h, replace_of_notMem h]
  | timer ms =>
    change r.setTimer grant ms = _
    unfold setTimer
    rw [retime_eq_replace]
    by_cases h : (Payload.timer ms).key ∈ r.keys
    · rw [if_pos h, replace_of_mem hr.distinct h]
      rfl
    · rw [if_neg h, replace_of_notMem h]
  | network i =>
    change r.addNetwork grant i = _
    unfold addNetwork
    rw [same fun q hq => by cases q <;> cases hq; rfl]
    simp only [interfaces_contains]
    rfl
  | radioLink =>
    change r.addRadioLink grant = _
    unfold addRadioLink
    rw [same fun q hq => by cases q <;> cases hq; rfl]
    simp only [hr.find_radioLink]
    rfl

theorem Sound.insert_of_mem (hr : r.Sound) {p : Payload} (h : p.key ∈ r.keys) (grant : Bool) :
    r.insert grant p = (⟨r.sources.map (Source.amend p)⟩, p.renewal) := by
  rw [hr.insert_eq, if_pos h]

theorem Sound.insert_granted (hr : r.Sound) {p : Payload} (h : p.key ∉ r.keys) :
    r.insert true p = (⟨.ofPayload p :: r.sources⟩, .added p.kind (r.size + 1)) := by
  rw [hr.insert_eq, if_neg h]
  rfl

theorem Sound.insert_refused (hr : r.Sound) {p : Payload} (h : p.key ∉ r.keys) :
    r.insert false p = (r, .refused p.kind) := by
  rw [hr.insert_eq, if_neg h]
  rfl

/-! ## What the list shows -/

@[simp] theorem keys_map_amend (p : Payload) (sources : List Source) :
    keys ⟨sources.map (Source.amend p)⟩ = keys ⟨sources⟩ := by
  unfold keys
  rw [List.map_map]
  exact List.map_congr_left fun s _ => Source.key_amend p s

@[simp] theorem payloads_map_amend (p : Payload) (sources : List Source) :
    payloads ⟨sources.map (Source.amend p)⟩ = (payloads ⟨sources⟩).map p.supersede := by
  unfold payloads
  rw [List.map_map, List.map_map]
  rfl

theorem mem_keys_of_mem_payloads {p : Payload} (h : p ∈ r.payloads) : p.key ∈ r.keys := by
  obtain ⟨s, hs, rfl⟩ := List.mem_map.mp h
  exact List.mem_map_of_mem (f := Source.key) hs

/-! ## Operations keep a registry sound -/

theorem Sound.map_amend (hr : r.Sound) (p : Payload) :
    Sound ⟨r.sources.map (Source.amend p)⟩ := by
  refine ⟨?_, ?_⟩
  · intro s hs
    obtain ⟨t, ht, rfl⟩ := List.mem_map.mp hs
    change t.header = .ofKind (p.supersede t.payload).kind
    rw [Payload.kind_supersede]
    exact hr.stamped t ht
  · rw [keys_map_amend]
    exact hr.distinct

theorem Sound.cons (hr : r.Sound) {p : Payload} (h : p.key ∉ r.keys) :
    Sound ⟨.ofPayload p :: r.sources⟩ := by
  refine ⟨?_, List.nodup_cons.mpr ⟨h, hr.distinct⟩⟩
  intro s hs
  rcases List.mem_cons.mp hs with rfl | hs
  · rfl
  · exact hr.stamped s hs

theorem Sound.insert (hr : r.Sound) (grant : Bool) (p : Payload) : (r.insert grant p).1.Sound := by
  by_cases h : p.key ∈ r.keys
  · rw [hr.insert_of_mem h]
    exact hr.map_amend p
  · cases grant with
    | false =>
      rw [hr.insert_refused h]
      exact hr
    | true =>
      rw [hr.insert_granted h]
      exact hr.cons h

/-! ## What an insertion reports -/

theorem Sound.asks_insert (hr : r.Sound) (grant : Bool) (p : Payload) :
    (r.insert grant p).2.asks = !decide (p.key ∈ r.keys) := by
  by_cases h : p.key ∈ r.keys
  · simp [hr.insert_of_mem h, h]
  · cases grant with
    | true => simp [hr.insert_granted h, Change.asks, h]
    | false => simp [hr.insert_refused h, Change.asks, h]

/-- The answer of the allocator matters only to a key that is not there. -/
theorem Sound.mem_keys_iff_insert_eq (hr : r.Sound) (p : Payload) :
    p.key ∈ r.keys ↔ r.insert true p = r.insert false p := by
  by_cases h : p.key ∈ r.keys
  · simp [hr.insert_of_mem h, h]
  · simp [hr.insert_granted h, hr.insert_refused h, h]

/-- An insertion fails exactly if a record is needed and refused. -/
theorem Sound.error?_insert (hr : r.Sound) (grant : Bool) (p : Payload) (kind : Kind) :
    (r.insert grant p).2.error? = some kind ↔
      kind = p.kind ∧ p.key ∉ r.keys ∧ grant = false := by
  by_cases h : p.key ∈ r.keys
  · simp [hr.insert_of_mem h, h]
  · cases grant with
    | true => simp [hr.insert_granted h, Change.error?]
    | false => simp [hr.insert_refused h, Change.error?, h, eq_comm]

theorem Sound.insert_of_error? (hr : r.Sound) (grant : Bool) (p : Payload)
    (he : (r.insert grant p).2.error? ≠ none) : (r.insert grant p).1 = r := by
  obtain ⟨kind, hkind⟩ := Option.ne_none_iff_exists'.mp he
  obtain ⟨-, habsent, rfl⟩ := (hr.error?_insert grant p kind).mp hkind
  rw [hr.insert_refused habsent]

end Registry

/-! ## How many records there can be -/

/-- The keys counted through: the pins, the timer, the interfaces, the radio link. -/
def Key.numbered (n : Nat) : Key :=
  if n < 65536 then .gpio (.ofNat n)
  else if n = 65536 then .timer
  else if n < 65793 then .network ⟨.ofNat (n - 65537)⟩
  else .radioLink

theorem Key.exists_numbered (key : Key) : ∃ n < 65794, numbered n = key := by
  cases key with
  | gpio pin =>
    have h := pin.toNat_lt
    refine ⟨pin.toNat, by omega, ?_⟩
    rw [numbered, if_pos (by omega), UInt16.ofNat_toNat]
  | timer => exact ⟨65536, by decide, rfl⟩
  | network i =>
    have h := i.index.toNat_lt
    refine ⟨65537 + i.index.toNat, by omega, ?_⟩
    rw [numbered, if_neg (by omega), if_neg (by omega), if_pos (by omega),
      Nat.add_sub_cancel_left, UInt8.ofNat_toNat]
  | radioLink => exact ⟨65793, by decide, rfl⟩

/-- There is a record at most for each pin and each interface, a timer and a radio link. -/
theorem Registry.Sound.size_le {r : Registry} (hr : r.Sound) : r.size ≤ 65794 := by
  have hsubset : r.keys ⊆ (List.range 65794).map Key.numbered := by
    intro key _
    obtain ⟨n, hn, rfl⟩ := key.exists_numbered
    exact List.mem_map_of_mem (List.mem_range.mpr hn)
  have hle := (hr.distinct.subperm hsubset).length_le
  rw [List.length_map, List.length_range, Registry.keys, List.length_map] at hle
  exact hle

end DeviceSleep
