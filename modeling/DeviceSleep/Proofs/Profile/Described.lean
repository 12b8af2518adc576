import DeviceSleep.Proofs.Builder.Regrouping
import DeviceSleep.Proofs.Profile.Building

/-! The request that a profile describes, written down without building it. Of calls for one key the first
decides the place of the record and the last one its content (`mergedBy`), so the records can be read
off the lists of the profile: each pin once with its last trigger, each interface once under whatever
names, behind one another as the calls are made. -/
namespace DeviceSleep
set_option autoImplicit false

/-! ## The place of the first, the content of the last -/

section Merging
variable {α β κ κ' : Type} [DecidableEq κ] [DecidableEq κ']

/-- Of the elements with one key the last one, in the place of the first. -/
def mergedBy (key : α → κ) (l : List α) : List α :=
  (l.map key).eraseDups.filterMap fun k => (l.filter fun a => key a = k).getLast?

theorem eraseDups_eq_reverse_dedup (l : List κ) : l.eraseDups = l.reverse.dedup.reverse := by
  induction l using List.reverseRecOn with
  | nil => rfl
  | append_singleton l k ih =>
    rw [List.eraseDups_append, List.reverse_concat, List.dedup_cons, ih]
    by_cases h : k ∈ l
    · simp [List.removeAll, h]
    · simp [List.removeAll, h, List.eraseDups_cons]

theorem eraseDups_map {g : κ → κ'} (hg : Function.Injective g) (l : List κ) :
    (l.map g).eraseDups = l.eraseDups.map g := by
  rw [eraseDups_eq_reverse_dedup, eraseDups_eq_reverse_dedup, ← List.map_reverse,
    List.dedup_map_of_injective hg, List.map_reverse]

theorem eraseDups_append_disjoint {first second : List κ} (h : first.Disjoint second) :
    (first ++ second).eraseDups = first.eraseDups ++ second.eraseDups := by
  have hnew : second.removeAll first = second := by
    refine List.filter_eq_self.mpr fun k hk => ?_
    simpa using fun hfirst => h hfirst hk
  rw [List.eraseDups_append, hnew]

/-- Lists that have no key in common are merged one by one. -/
theorem mergedBy_append {key : α → κ} {first second : List α}
    (h : (first.map key).Disjoint (second.map key)) :
    mergedBy key (first ++ second) = mergedBy key first ++ mergedBy key second := by
  have hnone {l : List α} {k : κ} (hk : k ∉ l.map key) :
      (l.filter fun a => key a = k) = [] := by
    refine List.filter_eq_nil_iff.mpr fun a ha => ?_
    have hne : key a ≠ k := by
      rintro rfl
      exact hk (List.mem_map_of_mem ha)
    simpa using hne
  rw [mergedBy, List.map_append, eraseDups_append_disjoint h, List.filterMap_append]
  refine congrArg₂ _ (List.filterMap_congr fun k hk => ?_) (List.filterMap_congr fun k hk => ?_)
  · have hsecond : k ∉ second.map key := fun hmem => h (List.mem_eraseDups.mp hk) hmem
    rw [List.filter_append, hnone hsecond, List.append_nil]
  · have hfirst : k ∉ first.map key := fun hmem => h hmem (List.mem_eraseDups.mp hk)
    rw [List.filter_append, hnone hfirst, List.nil_append]

theorem mergedBy_map {key : α → κ} {key' : β → κ'} {f : α → β} {g : κ → κ'}
    (hg : Function.Injective g) (hkey : ∀ a, key' (f a) = g (key a)) (l : List α) :
    mergedBy key' (l.map f) = (mergedBy key l).map f := by
  have hkeys : (l.map f).map key' = (l.map key).map g := by
    rw [List.map_map, List.map_map]
    exact List.map_congr_left fun a _ => hkey a
  rw [mergedBy, hkeys, eraseDups_map hg, List.filterMap_map, mergedBy, List.map_filterMap]
  refine List.filterMap_congr fun k _ => ?_
  have hfilter : (l.map f).filter (fun b => key' b = g k) =
      (l.filter fun a => key a = k).map f := by
    rw [List.filter_map]
    refine congrArg (List.map f) (List.filter_congr fun a _ => ?_)
    simp [hkey, hg.eq_iff]
  rw [Function.comp_apply, hfilter, List.getLast?_map]

/-- Where an element is its own key, each is kept once. -/
theorem mergedBy_id (l : List κ) : mergedBy id l = l.eraseDups := by
  have hself : ∀ k ∈ l.eraseDups, (l.filter fun a => id a = k).getLast? = some k := by
    intro k hk
    have hmem : k ∈ l.filter fun a => id a = k :=
      List.mem_filter.mpr ⟨List.mem_eraseDups.mp hk, by simp⟩
    obtain ⟨last, hlast⟩ := Option.ne_none_iff_exists'.mp
      (mt List.getLast?_eq_none_iff.mp (List.ne_nil_of_mem hmem))
    have heq := (List.mem_filter.mp (List.mem_of_getLast? hlast)).2
    rw [hlast, of_decide_eq_true heq |>.symm]
    rfl
  rw [mergedBy, List.map_id, List.filterMap_congr hself, List.filterMap_some]

end Merging

/-- The records that calls make, read off the payloads that they set. -/
theorem Builder.payloads_granted {calls : List Call} (hclear : .clear ∉ calls) :
    (fresh.granted calls).sources.payloads =
      (mergedBy Payload.key (calls.filterMap Call.payload?)).reverse := by
  have hlatest : ∀ p ∈ (fresh.granted calls).sources.payloads,
      Call.latest p.key calls = some p := by
    intro p hp
    rcases (mem_payloads_granted sound_fresh rfl hclear p).mp hp with h | ⟨-, h⟩
    · exact h
    · cases h
  have hkeys : (fresh.granted calls).sources.payloads.map Payload.key =
      ((calls.filterMap Call.payload?).map Payload.key).eraseDups.reverse := by
    rw [Registry.keys_eq_map_payloads, keys_granted hclear, eraseDups_eq_reverse_dedup,
      List.reverse_reverse]
    rfl
  calc (fresh.granted calls).sources.payloads
      = (fresh.granted calls).sources.payloads.filterMap fun p => Call.latest p.key calls := by
        rw [List.filterMap_congr hlatest, List.filterMap_some]
    _ = ((fresh.granted calls).sources.payloads.map Payload.key).filterMap
          fun key => Call.latest key calls := by
        rw [List.filterMap_map]
        rfl
    _ = (mergedBy Payload.key (calls.filterMap Call.payload?)).reverse := by
        rw [hkeys, List.filterMap_reverse]
        rfl

namespace Profile

/-- The records of a profile with these interfaces, newest first: the radio link, the interfaces, each
once, the timer, and the pins, each once with the trigger that it is given last. Interfaces and pins
stand in the order in which they are first named, turned round. -/
def payloads (p : Profile) (networks : List Interface) : List Payload :=
  (if p.radioLink then [.radioLink] else []) ++ (networks.eraseDups.map .network).reverse ++
    p.durationMs.toList.map .timer ++
    ((mergedBy GpioEntry.pin p.gpio).map fun entry => .gpio entry.pin entry.trigger).reverse

/-- Payloads of different kinds have no key in common. -/
theorem disjoint_keys {first second : List Payload}
    (h : ∀ p ∈ first, ∀ q ∈ second, p.kind ≠ q.kind) :
    (first.map Payload.key).Disjoint (second.map Payload.key) := by
  intro key hfirst hsecond
  obtain ⟨p, hp, rfl⟩ := List.mem_map.mp hfirst
  obtain ⟨q, hq, hkey⟩ := List.mem_map.mp hsecond
  exact h p hp q hq (Payload.kind_eq_of_key_eq hkey).symm

variable (p : Profile) (networks : List Interface)

theorem payloads_described : (p.described networks).sources.payloads = p.payloads networks := by
  have hpins : mergedBy Payload.key
      (p.gpio.map fun entry => Payload.gpio entry.pin entry.trigger) =
        (mergedBy GpioEntry.pin p.gpio).map fun entry => .gpio entry.pin entry.trigger := by
    refine mergedBy_map (g := Key.gpio) ?_ ?_ p.gpio
    · exact fun _ _ => Key.gpio.inj
    · exact fun _ => rfl
  have hnetworks : mergedBy Payload.key (networks.map Payload.network) =
      networks.eraseDups.map .network := by
    rw [← mergedBy_id]
    refine mergedBy_map (g := Key.network) ?_ ?_ networks
    · exact fun _ _ => Key.network.inj
    · exact fun _ => rfl
  have htimer : mergedBy Payload.key (p.durationMs.toList.map Payload.timer) =
      p.durationMs.toList.map .timer := by
    cases p.durationMs <;> rfl
  have hlink : mergedBy Payload.key (if p.radioLink then [Payload.radioLink] else []) =
      if p.radioLink then [.radioLink] else [] := by
    cases p.radioLink <;> rfl
  rw [described, Builder.payloads_granted (p.clear_notMem_request networks), payloads_request,
    mergedBy_append, mergedBy_append, mergedBy_append, hpins, hnetworks, htimer, hlink, payloads]
  · simp only [List.reverse_append]
    cases p.durationMs <;> cases p.radioLink <;> simp
  · exact disjoint_keys (by simp [Payload.kind])
  · exact disjoint_keys (by simp [Payload.kind, or_imp, forall_and])
  · exact disjoint_keys (by cases p.radioLink <;> simp [Payload.kind, or_imp, forall_and])

theorem flags_described :
    (p.described networks).descriptor.flags = if p.waitCloud then .waitCloud else .empty := by
  have hpins : (p.gpio.map fun entry => Call.gpio entry.pin entry.trigger).filterMap
      Call.flags? = [] := by
    simp [Call.flags?]
  have hnetworks : (networks.map Call.network).filterMap Call.flags? = [] := by
    simp [Call.flags?]
  rw [described, Builder.flags_granted Builder.sound_fresh rfl]
  unfold request calls
  simp only [List.filterMap_append, hpins, hnetworks]
  cases p.waitCloud <;> cases p.durationMs <;> cases p.radioLink <;> rfl

/-- The whole request, with its records as the profile lists them. -/
theorem described_eq :
    p.described networks =
      ⟨⟨p.mode, if p.waitCloud then .waitCloud else .empty,
        ⟨(p.payloads networks).map .ofPayload⟩⟩, true⟩ := by
  have hsources : (p.described networks).sources = ⟨(p.payloads networks).map .ofPayload⟩ := by
    rw [← payloads_described, (p.sound_described networks).sources_eq]
  have hparts : p.described networks =
      ⟨⟨(p.described networks).descriptor.mode, (p.described networks).descriptor.flags,
        (p.described networks).sources⟩, (p.described networks).intact⟩ := rfl
  rw [hparts, mode_described, flags_described, hsources, intact_described]

/-- The first name that means no interface is refused. -/
theorem resolve_eq (names : List String) :
    resolve names =
      match names.find? fun name => (Interface.parse? name).isNone with
      | some name => .error (.unknownInterface name)
      | none => .ok (names.filterMap Interface.parse?) := by
  induction names with
  | nil => rfl
  | cons name names ih =>
    rw [resolve]
    cases hparse : Interface.parse? name with
    | none =>
      rw [List.find?_cons_of_pos (by simp [hparse])]
    | some i =>
      rw [List.find?_cons_of_neg (by simp [hparse]), List.filterMap_cons_some hparse, ih]
      cases names.find? fun name => (Interface.parse? name).isNone <;> rfl

/-- Building a profile fails at the first name that means no interface, whatever else is wrong, and else
if it asks for a radio link that the build lacks. Otherwise it gives a request with the profile's mode,
with the flag to wait for the cloud if the profile says so, and with exactly the records of the profile,
which are those of the radio link, the interfaces, the timer and the pins, in this order; and the request
is valid exactly if the profile has a mode. -/
theorem build_is_as_described (p : Profile) (has : Capabilities) :
    (p.build has).1 =
      (match p.networks.find? fun name => (Interface.parse? name).isNone with
      | some name => .error (.unknownInterface name)
      | none =>
        if p.radioLink && !has.ble then .error .radioLinkUnavailable
        else .ok ⟨⟨p.mode, if p.waitCloud then .waitCloud else .empty,
          ⟨(p.payloads (p.networks.filterMap Interface.parse?)).map .ofPayload⟩⟩, true⟩) ∧
    ∀ b, (p.build has).1 = .ok b → (b.valid = true ↔ p.mode ≠ .none) := by
  constructor
  · rw [build_fst, interfaces, resolve_eq]
    cases p.networks.find? fun name => (Interface.parse? name).isNone with
    | some name => rfl
    | none =>
      dsimp only
      rw [described_eq]
  · intro b hb
    obtain ⟨networks, -, -, rfl⟩ := build_eq_ok_iff.mp hb
    exact p.valid_described networks

/-- Two pins that are named again, and an interface under three names. -/
example :
    ((⟨.stop, true, [⟨7, .rising⟩, ⟨3, .falling⟩, ⟨7, .change⟩, ⟨3, .rising⟩], some 5,
        ["wifi", "lo", "5", "WIFI_STA"], true⟩ : Profile).build .full).1 =
      .ok ⟨⟨.stop, .waitCloud, ⟨[.radioLink, .network .loopback, .network .wifiStation, .timer 5,
        .gpio 3 .rising, .gpio 7 .change].map .ofPayload⟩⟩, true⟩ := by
  decide +kernel

end Profile

end DeviceSleep
