import DeviceSleep.Image.Writer
import DeviceSleep.Proofs.Builder.Replay
import DeviceSleep.Proofs.Platform.Judgement
import DeviceSleep.Proofs.Registry.Traversal
import Mathlib.Data.List.Nodup

/-! Calls in another order. If all records are granted and none are released, a builder holds for each
key what the last call for the key asked for, and nothing else. So it does not matter to what a
request asks for how calls for different keys are mixed; it matters only to the order of the records,
which nobody can tell who looks for a record, measures the image or asks a platform. -/
namespace DeviceSleep
set_option autoImplicit false

/-! ## One record -/

namespace Registry

variable {r : Registry} {p q : Payload}

/-- After an insertion the registry holds the payload, and the others of other keys. -/
theorem Sound.mem_payloads_insert (hr : r.Sound) (p q : Payload) :
    p ∈ (r.insert true q).1.payloads ↔ p = q ∨ p ∈ r.payloads ∧ p.key ≠ q.key := by
  by_cases h : q.key ∈ r.keys
  · rw [hr.insert_of_mem h]
    show p ∈ payloads ⟨r.sources.map (Source.amend q)⟩ ↔ _
    rw [payloads_map_amend, List.mem_map]
    constructor
    · rintro ⟨p₀, hp₀, rfl⟩
      by_cases hk : p₀.key = q.key
      · exact Or.inl (Payload.supersede_of_key_eq hk)
      · rw [Payload.supersede_of_key_ne hk]
        exact Or.inr ⟨hp₀, hk⟩
    · rintro (rfl | ⟨hp, hk⟩)
      · obtain ⟨s, hs, hkey⟩ := List.mem_map.mp h
        exact ⟨s.payload, List.mem_map_of_mem hs, Payload.supersede_of_key_eq hkey⟩
      · exact ⟨p, hp, Payload.supersede_of_key_ne hk⟩
  · rw [hr.insert_granted h]
    show p ∈ q :: r.payloads ↔ _
    rw [List.mem_cons]
    have hother : p ∈ r.payloads → p.key ≠ q.key := by
      intro hp hk
      exact h (hk ▸ mem_keys_of_mem_payloads hp)
    constructor
    · exact Or.imp_right fun hp => ⟨hp, hother hp⟩
    · exact Or.imp_right And.left

theorem Sound.nodup_payloads (hr : r.Sound) : r.payloads.Nodup := by
  have hkeys := hr.distinct
  rw [← keys_eq_map_payloads] at hkeys
  exact List.Nodup.of_map Payload.key hkeys

/-- Sound registries with the same payloads have the same records, in some order. -/
theorem Sound.perm_of_payloads {r' : Registry} (hr : r.Sound) (hr' : r'.Sound)
    (h : ∀ p, p ∈ r.payloads ↔ p ∈ r'.payloads) : r.sources.Perm r'.sources := by
  have hpayloads : r.payloads.Perm r'.payloads :=
    (List.perm_ext_iff_of_nodup hr.nodup_payloads hr'.nodup_payloads).mpr h
  rw [← hr.sources_eq, ← hr'.sources_eq]
  exact hpayloads.map _

end Registry

/-! ## All records -/

namespace Call

/-- What the last of some calls for a key asks for. -/
def latest (key : Key) (calls : List Call) : Option Payload :=
  ((calls.filterMap payload?).filter fun p => p.key = key).getLast?

theorem latest_cons_of_none {call : Call} (h : call.payload? = none) (key : Key)
    (calls : List Call) : latest key (call :: calls) = latest key calls := by
  rw [latest, List.filterMap_cons_none h, latest]

theorem latest_cons_of_ne {call : Call} {p : Payload} (h : call.payload? = some p) {key : Key}
    (hk : p.key ≠ key) (calls : List Call) : latest key (call :: calls) = latest key calls := by
  rw [latest, List.filterMap_cons_some h, List.filter_cons_of_neg (by simpa using hk), latest]

theorem latest_cons_self {call : Call} {p : Payload} (h : call.payload? = some p)
    (calls : List Call) :
    latest p.key (call :: calls) = some ((latest p.key calls).getD p) := by
  rw [latest, List.filterMap_cons_some h, List.filter_cons_of_pos (by simp), List.getLast?_cons,
    latest]

end Call

namespace Builder

variable {b : Builder} {call : Call} {calls : List Call}

/-- A builder holds what the last call for a key asked for, and what it held of the other keys. -/
theorem mem_payloads_granted (hb : b.sources.Sound) (hi : b.intact = true)
    (hclear : .clear ∉ calls) (p : Payload) :
    p ∈ (b.granted calls).sources.payloads ↔
      Call.latest p.key calls = some p ∨ Call.latest p.key calls = none ∧ p ∈ b.sources.payloads := by
  induction calls generalizing b with
  | nil => simp [granted, applyAll, Call.latest]
  | cons call calls ih =>
    rw [List.mem_cons, not_or] at hclear
    have hrest := ih (sound_apply hb true call) (intact_apply_true hb hi call) hclear.2
    rw [granted_cons, hrest]
    cases hp : call.payload? with
    | none => rw [(apply_of_payload?_none hp (Ne.symm hclear.1)).1, Call.latest_cons_of_none hp]
    | some q =>
      rw [apply_of_payload? hi hp, settle_sources, hb.mem_payloads_insert p q]
      by_cases hk : q.key = p.key
      · rw [← hk, Call.latest_cons_self hp]
        cases Call.latest q.key calls with
        | none => simp [hk, eq_comm]
        | some last => simp
      · have hpq : p ≠ q := fun heq => hk (heq ▸ rfl)
        rw [Call.latest_cons_of_ne hp hk]
        simp [hpq, Ne.symm hk]

/-- Where no record is released, each need is one record more. -/
theorem size_granted (hb : b.sources.Sound) (hi : b.intact = true) (hclear : .clear ∉ calls) :
    (b.granted calls).sources.size = b.sources.size + b.needs calls := by
  induction calls generalizing b with
  | nil => rfl
  | cons call calls ih =>
    rw [List.mem_cons, not_or] at hclear
    rw [granted_cons, ih (sound_apply hb true call) (intact_apply_true hb hi call) hclear.2, needs]
    cases hp : call.payload? with
    | none =>
      rw [(apply_of_payload?_none hp (Ne.symm hclear.1)).1, if_neg (not_asks_of_payload?_none hp),
        Nat.zero_add]
    | some p =>
      have hsources : (b.apply true call).1.sources = (b.sources.insert true p).1 := by
        rw [apply_of_payload? hi hp, settle_sources]
      simp only [asks_iff hi hp]
      rcases insert_cases hb true p with ⟨h, -, hsize⟩ | ⟨h, -, -, hsize⟩ | ⟨-, hg, -⟩
      · rw [hsources, hsize, if_neg (not_not.mpr h), Nat.zero_add]
      · rw [hsources, hsize, if_pos h, Nat.add_assoc]
      · cases hg

end Builder

/-! ## Requests that differ in order only -/

structure Descriptor.Reordered (d e : Descriptor) : Prop where
  mode : d.mode = e.mode
  flags : d.flags = e.flags
  sources : d.sources.sources.Perm e.sources.sources

namespace Descriptor.Reordered

variable {d e : Descriptor}

theorem mem_payloads_iff (h : d.Reordered e) (p : Payload) :
    p ∈ d.sources.payloads ↔ p ∈ e.sources.payloads :=
  (h.sources.map _).mem_iff

theorem length_encode (h : d.Reordered e) : d.encode.length = e.encode.length := by
  have harea : d.area.length = e.area.length := (h.sources.flatMap_right _).length_eq
  rw [Descriptor.length_encode, Descriptor.length_encode, harea]

theorem wakesOn (h : d.Reordered e) (hd : d.sources.Sound) (he : e.sources.Sound) (i : Interface) :
    d.wakesOn i = e.wakesOn i := by
  rw [Bool.eq_iff_iff, wakesOn_iff hd, wakesOn_iff he, h.mem_payloads_iff]

theorem cloudMustPersist (h : d.Reordered e) (hd : d.sources.Sound) (he : e.sources.Sound)
    (has : Capabilities) : d.cloudMustPersist has = e.cloudMustPersist has := by
  rw [Bool.eq_iff_iff, cloudMustPersist_iff hd, cloudMustPersist_iff he]
  simp only [h.mem_payloads_iff]

end Descriptor.Reordered

/-! ## Calls in another order -/

/-- The same modes one after the other, the same flags in all, for each key the same payloads one
after the other, and nothing is released. -/
structure Regrouped (xs ys : List Call) : Prop where
  modes : xs.filterMap Call.mode? = ys.filterMap Call.mode?
  flags : (xs.filterMap Call.flags?).foldl Flags.union .empty =
    (ys.filterMap Call.flags?).foldl Flags.union .empty
  payloads : ∀ key : Key, (xs.filterMap Call.payload?).filter (fun p => p.key = key) =
    (ys.filterMap Call.payload?).filter fun p => p.key = key
  kept : .clear ∉ xs ∧ .clear ∉ ys

namespace Regrouped

variable {xs ys : List Call}

theorem reordered (h : Regrouped xs ys) :
    (Builder.fresh.granted xs).descriptor.Reordered (Builder.fresh.granted ys).descriptor := by
  have hs : Builder.fresh.sources.Sound := Registry.sound_empty
  refine ⟨?_, ?_, ?_⟩
  · rw [Builder.mode_granted hs rfl, Builder.mode_granted hs rfl, h.modes]
  · rw [Builder.flags_granted hs rfl, Builder.flags_granted hs rfl]
    exact h.flags
  · refine (Builder.sound_granted hs xs).perm_of_payloads (Builder.sound_granted hs ys) fun p => ?_
    have hlatest : Call.latest p.key xs = Call.latest p.key ys :=
      congrArg List.getLast? (h.payloads p.key)
    have hxs := Builder.mem_payloads_granted hs rfl h.kept.1 p
    have hys := Builder.mem_payloads_granted hs rfl h.kept.2 p
    rw [hlatest] at hxs
    exact hxs.trans hys.symm

/-- How many records are needed depends on the keys alone. -/
theorem needs_eq (h : Regrouped xs ys) : Builder.fresh.needs xs = Builder.fresh.needs ys := by
  have hs : Builder.fresh.sources.Sound := Registry.sound_empty
  have hxs := Builder.size_granted hs rfl h.kept.1
  have hys := Builder.size_granted hs rfl h.kept.2
  have hsize : (Builder.fresh.granted xs).sources.size = (Builder.fresh.granted ys).sources.size :=
    h.reordered.sources.length_eq
  omega

theorem valid_eq (h : Regrouped xs ys) :
    (Builder.fresh.granted xs).valid = (Builder.fresh.granted ys).valid := by
  have hs : Builder.fresh.sources.Sound := Registry.sound_empty
  rw [Bool.eq_iff_iff, Builder.valid_iff_of_intact (Builder.intact_granted hs rfl xs),
    Builder.valid_iff_of_intact (Builder.intact_granted hs rfl ys), h.reordered.mode]

end Regrouped

end DeviceSleep
