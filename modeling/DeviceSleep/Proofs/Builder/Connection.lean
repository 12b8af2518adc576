import DeviceSleep.Proofs.Builder.Regrouping
import Mathlib.Data.List.Induction

/-! Which traffic ends the sleep, and whether the session with the cloud has to be closed first. Both are
answered by a search through the records of interfaces, which ends and misses none of them. What it
finds is told by the calls that were made: an interface has a record if it was asked for since records
were last released, by a call that left the builder intact. -/
namespace DeviceSleep
set_option autoImplicit false

/-! ## The search for an interface -/

namespace Registry

variable {r : Registry} {i : Interface}

/-- Looks at one hit after the other until one is the record of the interface or there is none; gives
no answer if more hits than `steps` would have to be looked at. -/
def ask? (r : Registry) (i : Interface) : Nat → Option (SourceId × Source) → Option Bool
  | _, none => some false
  | 0, some _ => none
  | steps + 1, some (id, s) =>
    if s.payload = .network i then some true else ask? r i steps (r.findAfter .network id)

theorem ask?_newest {l : List Source} (hl : l <:+ r.sources) {steps : Nat}
    (hsteps : (hits .network l).length ≤ steps) :
    r.ask? i steps (newest .network l) =
      some ((hits .network l).any fun hit => hit.2.payload == .network i) := by
  induction l generalizing steps with
  | nil => cases steps <;> rfl
  | cons s older ih =>
    have holder : older <:+ r.sources := (List.suffix_cons s older).trans hl
    rw [hits] at hsteps ⊢
    rw [newest]
    by_cases hs : s.kind = .network
    · rw [if_pos hs, List.length_cons] at hsteps
      obtain ⟨rest, rfl⟩ : ∃ rest, steps = rest + 1 := ⟨steps - 1, by omega⟩
      rw [if_pos hs, if_pos hs, ask?, findAfter_of_suffix hl, ih holder (by omega),
        List.any_cons]
      by_cases hpayload : s.payload = .network i
      · simp [hpayload]
      · simp [hpayload]
    · rw [if_neg hs] at hsteps
      rw [if_neg hs, if_neg hs]
      exact ih holder hsteps

theorem mem_interfaces_iff : i ∈ r.interfaces ↔ .network i ∈ r.payloads := by
  rw [interfaces, List.mem_filterMap]
  constructor
  · rintro ⟨p, hp, hi⟩
    cases p with
    | network j =>
      cases hi
      exact hp
    | _ => cases hi
  · exact fun h => ⟨_, h, rfl⟩

end Registry

/-- The search is over when the records of interfaces are. -/
theorem Descriptor.ask?_eq_wakesOn (d : Descriptor) (i : Interface) {steps : Nat}
    (hsteps : (d.sources.featured .network).length ≤ steps) :
    d.sources.ask? i steps (d.sources.find .network) = some (d.wakesOn i) := by
  rw [Registry.featured_eq_hits] at hsteps
  rw [wakesOn, Registry.featured_eq_hits]
  exact Registry.ask?_newest (List.suffix_refl _) hsteps

/-! ## What the calls tell -/

theorem Call.payload?_eq_network_iff {call : Call} {i : Interface} :
    call.payload? = some (.network i) ↔ call = .network i := by
  cases call <;> simp [payload?]

namespace Builder

variable {b : Builder} {i : Interface}

/-- The interface was asked for since records were last released, and that call left the builder
intact. -/
def AskedFor (i : Interface) (calls : List (Bool × Call)) : Prop :=
  ∃ before grant after, calls = before ++ (grant, .network i) :: after ∧
    (∀ entry ∈ after, entry.2 ≠ .clear) ∧
    (fresh.applyAll (before ++ [(grant, .network i)])).intact = true

theorem applyAll_concat (b : Builder) (calls : List (Bool × Call)) (grant : Bool) (call : Call) :
    b.applyAll (calls ++ [(grant, call)]) = ((b.applyAll calls).apply grant call).1 := by
  rw [applyAll, List.foldl_concat]
  rfl

theorem askedFor_concat (calls : List (Bool × Call)) (grant : Bool) (call : Call) :
    AskedFor i (calls ++ [(grant, call)]) ↔
      call ≠ .clear ∧ AskedFor i calls ∨
      call = .network i ∧ (fresh.applyAll (calls ++ [(grant, call)])).intact = true := by
  constructor
  · rintro ⟨before, grant', after, hcalls, hafter, hintact⟩
    rcases List.eq_nil_or_concat after with rfl | ⟨after, last, rfl⟩
    · obtain ⟨rfl, hlast⟩ := List.append_inj' hcalls rfl
      cases hlast
      exact .inr ⟨rfl, hintact⟩
    · rw [List.concat_eq_append, ← List.cons_append, ← List.append_assoc] at hcalls
      obtain ⟨rfl, hlast⟩ := List.append_inj' hcalls rfl
      cases hlast
      refine .inl ⟨hafter (grant, call) (by simp), before, grant', after, rfl, ?_, hintact⟩
      exact fun entry hentry => hafter entry (by simp [hentry])
  · rintro (⟨hclear, before, grant', after, rfl, hafter, hintact⟩ | ⟨rfl, hintact⟩)
    · refine ⟨before, grant', after ++ [(grant, call)], by simp, ?_, hintact⟩
      intro entry hentry
      rcases List.mem_append.mp hentry with hentry | hentry
      · exact hafter entry hentry
      · rw [List.mem_singleton.mp hentry]
        exact hclear
    · exact ⟨calls, grant, [], rfl, nofun, hintact⟩

/-- An interface has a record after a call if it had one that was not released, or was asked for by a
call that was not refused. -/
theorem network_mem_apply (hb : b.sources.Sound) (grant : Bool) (call : Call) :
    .network i ∈ (b.apply grant call).1.sources.payloads ↔
      call ≠ .clear ∧ .network i ∈ b.sources.payloads ∨
      call = .network i ∧ (b.apply grant call).1.intact = true := by
  by_cases hclear : call = .clear
  · subst hclear
    rw [apply_clear]
    exact iff_of_false List.not_mem_nil (by simp)
  cases hi : b.intact with
  | false =>
    rw [apply_frozen hi hclear]
    simp [hclear, hi]
  | true =>
    cases hp : call.payload? with
    | none =>
      have hcall : call ≠ .network i := by
        rintro rfl
        cases hp
      rw [(apply_of_payload?_none hp hclear).1]
      simp [hclear, hcall]
    | some p =>
      by_cases hrefused : b.Asks call ∧ grant = false
      · obtain ⟨hasks, rfl⟩ := hrefused
        rw [apply_refused hb hasks]
        show .network i ∈ b.sources.payloads ↔ _
        simp [hclear]
      · -- Whatever the allocator answers, the call does what it does when its record is granted.
        have hgranted : b.apply grant call = b.apply true call := by
          cases grant with
          | true => rfl
          | false => exact apply_eq_of_not_asks hb (fun hasks => hrefused ⟨hasks, rfl⟩) false
        have hcall : call = .network i ↔ Payload.network i = p := by
          rw [← Call.payload?_eq_network_iff, hp, Option.some.injEq, eq_comm]
        have hother : (Payload.network i).key = p.key → Payload.network i = p := by
          intro hkey
          cases p <;> cases hkey
          rfl
        rw [hgranted, intact_apply_true hb hi, hcall, apply_of_payload? hi hp, settle_sources,
          hb.mem_payloads_insert]
        simp only [ne_eq, hclear, not_false_eq_true, true_and, and_true]
        tauto

/-- The calls tell which interfaces have a record. -/
theorem network_mem_applyAll (i : Interface) (calls : List (Bool × Call)) :
    .network i ∈ (fresh.applyAll calls).sources.payloads ↔ AskedFor i calls := by
  induction calls using List.reverseRecOn with
  | nil =>
    refine iff_of_false List.not_mem_nil ?_
    rintro ⟨before, grant, after, hcalls, -⟩
    exact List.append_ne_nil_of_right_ne_nil before (List.cons_ne_nil _ _) hcalls.symm
  | append_singleton calls entry ih =>
    obtain ⟨grant, call⟩ := entry
    have hsound : (fresh.applyAll calls).sources.Sound := (Reachable.fresh.applyAll calls).sound
    rw [askedFor_concat, applyAll_concat, network_mem_apply hsound, ih]

/-- Of any builder the records of a kind are found one behind the other: all of the kind, in order, each
at its own number, which the next one is below; and the call after the last of them finds nothing. So
the question for an interface is answered after at most as many hits as interfaces have records, and
answered by whether the interface is one of them. If calls have made the builder, the session with the
cloud may stay open exactly if an interface of the build was asked for since records were last released,
by a call after which nothing had been refused. -/
theorem Reachable.search_is_complete {b : Builder} (hb : b.Reachable) :
    (∀ kind : Kind,
      let found := b.sources.featured kind
      found.map Prod.snd = b.sources.sources.filter (fun s => s.kind = kind) ∧
      (found.map fun hit => hit.1.position).Pairwise (· > ·) ∧
      (∀ hit ∈ found, b.sources.get? hit.1 = some hit.2) ∧
      ∀ n, b.sources.nthHit kind n = found[n]?) ∧
    (∀ (i : Interface) (steps : Nat), (b.sources.featured .network).length ≤ steps →
      b.sources.ask? i steps (b.sources.find .network) = some (b.descriptor.wakesOn i)) ∧
    (∀ i : Interface, b.descriptor.wakesOn i = true ↔ i ∈ b.sources.interfaces) ∧
    ∀ calls : List (Bool × Call), b = Builder.fresh.applyAll calls → ∀ has : Capabilities,
      b.descriptor.cloudMustPersist has = false ↔
        ∃ i ∈ Interface.compiledIn has, AskedFor i calls := by
  refine ⟨?_, ?_, ?_, ?_⟩
  · intro kind found
    have hfound : found = Registry.hits kind b.sources.sources :=
      b.sources.featured_eq_hits kind
    refine ⟨b.sources.featured_sources kind, ?_, ?_, ?_⟩
    · rw [hfound]
      exact Registry.hits_decreasing kind _
    · intro hit hhit
      exact Registry.getElem?_of_mem_hits (hfound ▸ hhit)
    · intro n
      rw [hfound]
      exact b.sources.nthHit_eq_getElem? kind n
  · exact fun i steps hsteps => b.descriptor.ask?_eq_wakesOn i hsteps
  · intro i
    rw [Descriptor.wakesOn_iff hb.sound, ← Registry.mem_interfaces_iff]
    rfl
  · rintro calls rfl has
    have hnot := (Descriptor.cloudMustPersist_iff hb.sound has).not
    rw [Bool.not_eq_true] at hnot
    rw [hnot]
    simp only [not_forall, not_not, exists_prop]
    exact exists_congr fun i => and_congr_right fun _ => network_mem_applyAll i calls

/-- Two interfaces of the radio board, one of which is released again, and two others at which the
allocator refuses. -/
def wifiThenRefused : List (Bool × Call) :=
  [(true, .network .cellular), (true, .clear), (true, .network .wifiStation),
    (true, .gpio 4 .rising), (true, .network .loopback), (false, .network .mesh),
    (true, .network .ethernet)]

theorem search_is_complete_wifiThenRefused :
    (fresh.applyAll wifiThenRefused).Reachable ∧
    (∀ n, (fresh.applyAll wifiThenRefused).sources.nthHit .network n =
      [(⟨2⟩, Source.ofPayload (.network .loopback)),
        (⟨0⟩, Source.ofPayload (.network .wifiStation))][n]?) ∧
    (fresh.applyAll wifiThenRefused).descriptor.wakesOn .cellular = false ∧
    (fresh.applyAll wifiThenRefused).descriptor.cloudMustPersist .standard = false ∧
    ¬ AskedFor .mesh wifiThenRefused ∧ ¬ AskedFor .ethernet wifiThenRefused := by
  have hb := Reachable.fresh.applyAll wifiThenRefused
  obtain ⟨hfound, -, hwakes, hcloud⟩ := hb.search_is_complete
  have hasked := mt ((hcloud wifiThenRefused rfl ⟨false, false, false, true, true⟩).mpr) (by decide)
  refine ⟨hb, (hfound .network).2.2.2, ?_, ?_, ?_, ?_⟩
  · exact eq_false_of_ne_true (mt (hwakes .cellular).mp (by decide))
  · refine (hcloud wifiThenRefused rfl .standard).mpr ⟨.wifiStation, by decide, ?_⟩
    exact ⟨wifiThenRefused.take 2, true, wifiThenRefused.drop 3, rfl, by decide, rfl⟩
  · exact fun h => hasked ⟨.mesh, by decide, h⟩
  · exact fun h => hasked ⟨.ethernet, by decide, h⟩

end Builder

end DeviceSleep
