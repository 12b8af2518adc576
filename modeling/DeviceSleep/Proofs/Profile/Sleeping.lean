import DeviceSleep.Proofs.Builder.Replay
import DeviceSleep.Proofs.Hal.Sleeps
import DeviceSleep.Proofs.Platform.Judgement
import DeviceSleep.Proofs.Profile.Building

/-! Sleeping as a profile describes it. What a platform has to say about a request depends on the keys
of its records alone, and so does the reason for which a device without a script wakes; both can be
read off the profile without building it. -/
namespace DeviceSleep
set_option autoImplicit false

namespace Key

def kind : Key → Kind
  | gpio _ => .gpio
  | timer => .timer
  | network _ => .network
  | radioLink => .radioLink

def reason : Key → WakeReason
  | gpio pin => .gpio pin
  | timer => .timer
  | network i => .network i
  | radioLink => .radioLink

end Key

theorem Payload.kind_key (p : Payload) : p.key.kind = p.kind := by cases p <;> rfl

theorem Payload.reason_key (p : Payload) : p.key.reason = p.reason := by cases p <;> rfl

/-! ## Requests by their keys -/

/-- What speaks against a record shows in its key. -/
theorem Platform.violation?_eq_none_iff_key (board : Platform) (s : ModeSupport) {source : Source}
    (hstamped : source.header = .ofKind source.payload.kind) :
    board.violation? s source = none ↔
      source.key.kind ∈ s.wakeupKinds ∧ ∀ pin, source.key = .gpio pin → pin < board.pinCount := by
  have hkind : source.key.kind = source.kind := by
    rw [Source.kind, hstamped]
    exact source.payload.kind_key
  rw [violation?_eq_none_iff, hkind, Source.key]
  refine and_congr_right fun _ => ?_
  cases source.payload <;> simp [Payload.key]

theorem Registry.Sound.clean_iff {r : Registry} (hr : r.Sound) (board : Platform)
    (s : ModeSupport) :
    (∀ source ∈ r.sources, board.violation? s source = none) ↔
      ∀ key ∈ r.keys, key.kind ∈ s.wakeupKinds ∧ ∀ pin, key = .gpio pin → pin < board.pinCount := by
  unfold keys
  rw [List.forall_mem_map]
  exact forall₂_congr fun source hsource =>
    board.violation?_eq_none_iff_key s (hr.stamped source hsource)

/-- A timer is told if there is one, and else the newest key. -/
theorem Descriptor.likelyReason_record (d : Descriptor) :
    d.record.likelyReason =
      if .timer ∈ d.sources.keys then .timer
      else (d.sources.keys.head?.map Key.reason).getD .unknown := by
  have htimer : (d.record.sources.any fun p => p.kind == .timer) = true ↔
      .timer ∈ d.sources.keys := by
    rw [← Registry.keys_eq_map_payloads, List.any_eq_true, List.mem_map]
    refine exists_congr fun p => and_congr_right fun _ => ?_
    cases p <;> simp [Payload.kind, Payload.key]
  by_cases h : Key.timer ∈ d.sources.keys
  · rw [if_pos h]
    exact if_pos (htimer.mpr h)
  · have hreason : Key.reason ∘ Payload.key = Payload.reason := funext Payload.reason_key
    rw [if_neg h, SleepRecord.likelyReason_of_no_timer (mt htimer.mp h),
      ← Registry.keys_eq_map_payloads, List.head?_map, Option.map_map, hreason]
    rfl

namespace Profile

/-! ## What a profile asks for -/

/-- A profile asks for a source of this kind. -/
def Uses (p : Profile) : Kind → Prop
  | .gpio => p.gpio ≠ []
  | .timer => p.durationMs ≠ none
  | .network => p.networks ≠ []
  | .radioLink => p.radioLink = true

/-- What a board and one of its modes must offer to a profile. -/
structure Suits (p : Profile) (board : Platform) (s : ModeSupport) : Prop where
  sleeps : p.mode ≠ .none
  listed : board.supports p.mode = some s
  kinds : ∀ kind, p.Uses kind → kind ∈ s.wakeupKinds
  pins : ∀ entry ∈ p.gpio, entry.pin < board.pinCount
  wakes : (∃ kind, p.Uses kind) ∨ s.allowNoWakeup = true

/-- Why a device wakes: by the timer if there is one, else by the radio link, else over the network
that is named latest for the first time, else by the pin that is. -/
def reason (p : Profile) (networks : List Interface) : WakeReason :=
  if p.durationMs.isSome then .timer
  else if p.radioLink then .radioLink
  else
    match lastNew networks, lastNew (p.gpio.map (·.pin)) with
    | some i, _ => .network i
    | none, some pin => .gpio pin
    | none, none => .unknown

variable {p : Profile} {networks : List Interface}

/-- A profile asks for the record of a key. -/
def AsksFor (p : Profile) (networks : List Interface) : Key → Prop
  | .gpio pin => ∃ entry ∈ p.gpio, entry.pin = pin
  | .timer => p.durationMs ≠ none
  | .network i => i ∈ networks
  | .radioLink => p.radioLink = true

theorem mem_keys_described (key : Key) :
    key ∈ (p.described networks).sources.keys ↔ p.AsksFor networks key := by
  rw [keys_described, List.mem_dedup, List.mem_reverse, keys_request]
  cases key <;> cases hradio : p.radioLink <;> simp [AsksFor, hradio]

theorem uses_iff (hparse : p.networks.map Interface.parse? = networks.map some) (kind : Kind) :
    p.Uses kind ↔ ∃ key, p.AsksFor networks key ∧ key.kind = kind := by
  have hnamed : p.networks ≠ [] ↔ networks ≠ [] := by
    rw [ne_eq, ← List.map_eq_nil_iff (f := Interface.parse?), hparse, List.map_eq_nil_iff]
  constructor
  · cases kind with
    | gpio =>
      intro hpins
      obtain ⟨entry, hentry⟩ := List.exists_mem_of_ne_nil _ hpins
      exact ⟨.gpio entry.pin, ⟨entry, hentry, rfl⟩, rfl⟩
    | timer => exact fun htimer => ⟨.timer, htimer, rfl⟩
    | network =>
      intro hnetworks
      obtain ⟨i, hi⟩ := List.exists_mem_of_ne_nil _ (hnamed.mp hnetworks)
      exact ⟨.network i, hi, rfl⟩
    | radioLink => exact fun hradio => ⟨.radioLink, hradio, rfl⟩
  · rintro ⟨key, hkey, rfl⟩
    cases key with
    | gpio pin =>
      obtain ⟨entry, hentry, -⟩ := hkey
      exact List.ne_nil_of_mem hentry
    | timer => exact hkey
    | network i => exact hnamed.mpr (List.ne_nil_of_mem hkey)
    | radioLink => exact hkey

/-- A board accepts the request of a profile exactly if it offers what the profile asks for. -/
theorem accepts_described (hparse : p.networks.map Interface.parse? = networks.map some)
    {board : Platform} {s : ModeSupport} :
    board.Accepts (p.described networks).descriptor s ↔ p.Suits board s := by
  have hclean := (p.sound_described networks).clean_iff board s
  have hsome : (p.described networks).descriptor.sources.sources ≠ [] ↔ ∃ kind, p.Uses kind := by
    rw [ne_eq, ← List.map_eq_nil_iff (f := Source.key), List.eq_nil_iff_forall_not_mem, not_forall]
    simp only [not_not, uses_iff hparse]
    constructor
    · rintro ⟨key, hkey⟩
      exact ⟨key.kind, key, (mem_keys_described key).mp hkey, rfl⟩
    · rintro ⟨-, key, hkey, -⟩
      exact ⟨key, (mem_keys_described key).mpr hkey⟩
  -- From here on keys stand for records: what is checked of a record its key tells.
  simp only [mem_keys_described] at hclean
  constructor
  · rintro ⟨hsleeps, hlisted, hwakes, hall⟩
    rw [mode_described] at hsleeps hlisted
    have hkeys := hclean.mp hall
    refine ⟨hsleeps, hlisted, ?_, ?_, hwakes.imp_left hsome.mp⟩
    · intro kind hkind
      obtain ⟨key, hkey, rfl⟩ := (uses_iff hparse kind).mp hkind
      exact (hkeys key hkey).1
    · intro entry hentry
      exact (hkeys (.gpio entry.pin) ⟨entry, hentry, rfl⟩).2 entry.pin rfl
  · rintro ⟨hsleeps, hlisted, hkinds, hpins, hwakes⟩
    refine ⟨?_, ?_, hwakes.imp_left hsome.mpr, hclean.mpr fun key hkey => ?_⟩
    · rw [mode_described]
      exact hsleeps
    · rw [mode_described]
      exact hlisted
    · refine ⟨hkinds _ ((uses_iff hparse _).mpr ⟨key, hkey, rfl⟩), ?_⟩
      rintro pin rfl
      obtain ⟨entry, hentry, rfl⟩ := hkey
      exact hpins entry hentry

/-! ## Waking -/

/-- The radio link is newer than the networks, and these are newer than the timer and the pins. -/
theorem lastNew_request (p : Profile) (networks : List Interface) :
    lastNew (Call.keys (p.request networks)) =
      (if p.radioLink then some Key.radioLink else none).or
        (((lastNew networks).map Key.network).or
          ((p.durationMs.map fun _ => Key.timer).or
            ((lastNew (p.gpio.map (·.pin))).map Key.gpio))) := by
  have hgpio : Function.Injective Key.gpio := fun _ _ => Key.gpio.inj
  have hnetwork : Function.Injective Key.network := fun _ _ => Key.network.inj
  have hpins : p.gpio.map (fun entry => Key.gpio entry.pin) =
      (p.gpio.map (·.pin)).map Key.gpio := by
    rw [List.map_map]
    rfl
  rw [keys_request, lastNew_append, lastNew_append, lastNew_append, hpins, lastNew_map hgpio,
    lastNew_map hnetwork]
  -- Keys of different kinds are different, so the blocks are disjoint.
  · cases p.radioLink <;> cases p.durationMs <;> rfl
  · simp [List.Disjoint]
  · intro key hfirst hsecond
    obtain ⟨i, -, rfl⟩ := List.mem_map.mp hsecond
    simp at hfirst
  · intro key hfirst hsecond
    obtain ⟨-, rfl⟩ : p.radioLink = true ∧ key = .radioLink := by simpa using hsecond
    simp at hfirst

/-- A network ends the sleep if it is new latest, and neither a timer nor the radio link is there. -/
theorem reason_eq_network_iff {i : Interface} :
    p.reason networks = .network i ↔ p.durationMs = none ∧ p.radioLink = false ∧
      ∃ before after, networks = before ++ i :: after ∧ i ∉ before ∧
        ∀ j ∈ after, j ∈ i :: before := by
  rw [← lastNew_eq_some_iff, reason]
  cases p.durationMs with
  | some ms => simp
  | none =>
    cases p.radioLink with
    | true => simp
    | false => cases lastNew networks <;> cases lastNew (p.gpio.map (·.pin)) <;> simp

/-- A pin does if it is, and no network is there either. -/
theorem reason_eq_gpio_iff {pin : UInt16} :
    p.reason networks = .gpio pin ↔ p.durationMs = none ∧ p.radioLink = false ∧ networks = [] ∧
      ∃ before after, p.gpio.map (·.pin) = before ++ pin :: after ∧ pin ∉ before ∧
        ∀ other ∈ after, other ∈ pin :: before := by
  rw [← lastNew_eq_some_iff, ← lastNew_eq_none_iff, reason]
  cases p.durationMs with
  | some ms => simp
  | none =>
    cases p.radioLink with
    | true => simp
    | false => cases lastNew networks <;> cases lastNew (p.gpio.map (·.pin)) <;> simp

theorem likelyReason_described (p : Profile) (networks : List Interface) :
    (p.described networks).descriptor.record.likelyReason = p.reason networks := by
  have htimer : .timer ∈ (p.described networks).descriptor.sources.keys ↔
      p.durationMs.isSome = true := by
    rw [Option.isSome_iff_ne_none]
    exact mem_keys_described .timer
  have hnewest : (p.described networks).descriptor.sources.keys.head? =
      lastNew (Call.keys (p.request networks)) := by
    rw [lastNew, ← keys_described]
    rfl
  rw [Descriptor.likelyReason_record, hnewest, lastNew_request, reason]
  cases hduration : p.durationMs with
  | some ms => rw [if_pos (htimer.mpr (by rw [hduration]; rfl))]; rfl
  | none =>
    rw [if_neg (mt htimer.mp (by rw [hduration]; exact Bool.false_ne_true))]
    cases p.radioLink with
    | true => rfl
    | false => cases lastNew networks <;> cases lastNew (p.gpio.map (·.pin)) <;> rfl

end Profile

end DeviceSleep
