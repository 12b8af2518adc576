import DeviceSleep.Proofs.Builder.Granted

/-! A request made again from what it says. New records go in front, so payloads that are set one
after the other, the last of a list first, stand in the order of the list; and since no two have the
same key, none of them amends another. -/
namespace DeviceSleep
set_option autoImplicit false

def Payload.call : Payload → Call
  | gpio pin trigger => .gpio pin trigger
  | timer ms => .durationMs ms
  | network i => .network i
  | radioLink => .radioLink

@[simp] theorem Payload.payload?_call (p : Payload) : p.call.payload? = some p := by
  cases p <;> rfl

theorem Flags.empty_union (f : Flags) : empty.union f = f := by
  unfold union empty
  rw [UInt32.zero_or]

/-- The records of a sound registry are those of its payloads. -/
theorem Registry.Sound.sources_eq {r : Registry} (h : r.Sound) :
    r.payloads.map Source.ofPayload = r.sources := by
  have hstamped : ∀ s ∈ r.sources, Source.ofPayload s.payload = id s := by
    intro s hs
    unfold Source.ofPayload
    rw [← h.stamped s hs]
    rfl
  rw [payloads, List.map_map]
  exact (List.map_congr_left hstamped).trans (List.map_id _)

theorem Registry.keys_map_ofPayload (payloads : List Payload) :
    keys ⟨payloads.map Source.ofPayload⟩ = payloads.map Payload.key := by
  rw [keys, List.map_map]
  rfl

theorem Registry.keys_eq_map_payloads (r : Registry) : r.payloads.map Payload.key = r.keys := by
  rw [payloads, List.map_map]
  rfl

theorem Registry.sound_ofPayloads {payloads : List Payload}
    (h : (payloads.map Payload.key).Nodup) : Sound ⟨payloads.map Source.ofPayload⟩ := by
  refine ⟨?_, ?_⟩
  · intro s hs
    obtain ⟨p, -, rfl⟩ := List.mem_map.mp hs
    rfl
  · rw [keys_map_ofPayload]
    exact h

namespace Builder

/-- A fresh builder that is given a mode, flags, and payloads, the last of the list first. -/
def replay (mode : Mode) (flags : Flags) (payloads : List Payload) : Builder :=
  fresh.granted (.mode mode :: .flag flags :: payloads.reverse.map Payload.call)

/-- A payload whose key is new gets a record in front. -/
theorem apply_call_new {b : Builder} (hb : b.sources.Sound) (hi : b.intact = true) {p : Payload}
    (h : p.key ∉ b.sources.keys) :
    (b.apply true p.call).1 =
      ⟨{ b.descriptor with sources := ⟨.ofPayload p :: b.sources.sources⟩ }, true⟩ := by
  rw [apply_of_payload? hi p.payload?_call, hb.insert_granted h, settle_accepted rfl, hi]

theorem granted_calls {mode : Mode} {flags : Flags} {payloads : List Payload}
    (h : (payloads.map Payload.key).Nodup) :
    granted ⟨⟨mode, flags, .empty⟩, true⟩ (payloads.reverse.map Payload.call) =
      ⟨⟨mode, flags, ⟨payloads.map Source.ofPayload⟩⟩, true⟩ := by
  induction payloads with
  | nil => rfl
  | cons p older ih =>
    obtain ⟨hnew, hold⟩ := List.nodup_cons.mp h
    have hkey : p.key ∉ Registry.keys ⟨older.map Source.ofPayload⟩ := by
      rw [Registry.keys_map_ofPayload]
      exact hnew
    rw [List.reverse_cons, List.map_append, granted_append, ih hold]
    exact apply_call_new (b := ⟨⟨mode, flags, ⟨older.map Source.ofPayload⟩⟩, true⟩)
      (Registry.sound_ofPayloads hold) rfl hkey

theorem replay_eq {payloads : List Payload} (h : (payloads.map Payload.key).Nodup) (mode : Mode)
    (flags : Flags) :
    replay mode flags payloads = ⟨⟨mode, flags, ⟨payloads.map Source.ofPayload⟩⟩, true⟩ := by
  have hhead : (fresh.apply true (.mode mode)).1.apply true (.flag flags) =
      (⟨⟨mode, Flags.empty.union flags, .empty⟩, true⟩, .kept) := rfl
  rw [replay, granted_cons, granted_cons, hhead, Flags.empty_union]
  exact granted_calls h

theorem reachable_replay (mode : Mode) (flags : Flags) (payloads : List Payload) :
    (replay mode flags payloads).Reachable :=
  Reachable.fresh.applyAll _

/-- Made again from what it says, a request is the same. -/
theorem replay_descriptor {d : Descriptor} (h : d.sources.Sound) :
    (replay d.mode d.flags d.sources.payloads).descriptor = d := by
  have hdistinct : (d.sources.payloads.map Payload.key).Nodup := by
    rw [Registry.keys_eq_map_payloads]
    exact h.distinct
  rw [replay_eq hdistinct, h.sources_eq]

end Builder

end DeviceSleep
