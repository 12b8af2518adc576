import DeviceSleep.Builder
import DeviceSleep.Proofs.Registry.KeyedMap

/-! What a call does to a builder, whatever it holds and whatever the allocator answers. Most calls
set a record; the others set the mode or flags, or release all records. `apply_cases` says what each
does to the number of records and what it reports. The builders that come about in any such way are
`Reachable`, and the records of each are sound. -/
namespace DeviceSleep
set_option autoImplicit false

namespace Call

/-- The content of the record that a call sets. -/
def payload? : Call → Option Payload
  | gpio pin trigger => some (.gpio pin trigger)
  | duration span => some (.timer span.milliseconds)
  | durationMs ms => some (.timer ms)
  | network i => some (.network i)
  | radioLink => some .radioLink
  | mode _ | flag _ | clear => none

end Call

namespace Builder

/-- The call needs a new record: the builder is not frozen and has none of the key. -/
def Asks (b : Builder) (call : Call) : Prop :=
  b.intact = true ∧ ∃ p, call.payload? = some p ∧ p.key ∉ b.sources.keys

/-! ## The calls one by one -/

section Calls
variable {b : Builder} {call : Call} {p : Payload} {grant : Bool}

theorem settle_sources (b : Builder) (result : Registry × Change) :
    (b.settle result).1.sources = result.1 := by
  unfold settle
  split <;> rfl

theorem settle_report (b : Builder) (result : Registry × Change) :
    (b.settle result).2 = result.2 := by
  unfold settle
  split
  · rename_i h
    exact h.symm
  · rfl

theorem apply_of_payload? (hi : b.intact = true) (hp : call.payload? = some p) :
    b.apply grant call = b.settle (b.sources.insert grant p) := by
  unfold apply
  rw [hi, Bool.true_or, if_pos rfl]
  cases call <;> cases hp <;> rfl

theorem apply_frozen (hi : b.intact = false) (hc : call ≠ .clear) :
    b.apply grant call = (b, .kept) := by
  unfold apply
  rw [hi, Bool.false_or, if_neg (by simpa using hc)]

theorem apply_clear (grant : Bool) (b : Builder) :
    b.apply grant .clear =
      (⟨{ b.descriptor with sources := .empty }, b.intact⟩,
        .released (b.sources.sources.reverse.map Source.kind)) := by
  unfold apply
  rw [if_pos (by simp)]
  rfl

/-- Setting the mode or flags leaves the records as they are. -/
theorem apply_of_payload?_none (hp : call.payload? = none) (hc : call ≠ .clear) :
    (b.apply grant call).1.sources = b.sources ∧ (b.apply grant call).2 = .kept := by
  unfold apply
  split
  · cases call with
    | mode m => exact ⟨rfl, rfl⟩
    | flag f => exact ⟨rfl, rfl⟩
    | clear => exact absurd rfl hc
    | _ => cases hp
  · exact ⟨rfl, rfl⟩

theorem not_asks_of_payload?_none (hp : call.payload? = none) : ¬ b.Asks call := by
  rintro ⟨-, p, hp', -⟩
  rw [hp] at hp'
  cases hp'

end Calls

/-! ## Records after a call -/

section Records
variable {b : Builder}

theorem sound_apply (hb : b.sources.Sound) (grant : Bool) (call : Call) :
    (b.apply grant call).1.sources.Sound := by
  by_cases hc : call = .clear
  · subst hc
    rw [apply_clear]
    exact Registry.sound_empty
  · cases hp : call.payload? with
    | none =>
      rw [(apply_of_payload?_none hp hc).1]
      exact hb
    | some p =>
      cases hi : b.intact with
      | false =>
        rw [apply_frozen hi hc]
        exact hb
      | true =>
        rw [apply_of_payload? hi hp, settle_sources]
        exact hb.insert grant p

/-- Setting a record, by whether its key is there and what the allocator answers. -/
theorem insert_cases {r : Registry} (hr : r.Sound) (grant : Bool) (p : Payload) :
    (p.key ∈ r.keys ∧ ((r.insert grant p).2 = .kept ∨ ∃ q, (r.insert grant p).2 = .amended q) ∧
      (r.insert grant p).1.size = r.size) ∨
    (p.key ∉ r.keys ∧ grant = true ∧ (∃ kind total, (r.insert grant p).2 = .added kind total) ∧
      (r.insert grant p).1.size = r.size + 1) ∨
    (p.key ∉ r.keys ∧ grant = false ∧ (∃ kind, (r.insert grant p).2 = .refused kind) ∧
      (r.insert grant p).1.size = r.size) := by
  by_cases h : p.key ∈ r.keys
  · rw [hr.insert_of_mem h]
    refine Or.inl ⟨h, ?_, List.length_map _⟩
    cases p with
    | gpio pin trigger => exact Or.inr ⟨_, rfl⟩
    | timer ms => exact Or.inr ⟨_, rfl⟩
    | network i => exact Or.inl rfl
    | radioLink => exact Or.inl rfl
  · cases grant with
    | true =>
      rw [hr.insert_granted h]
      exact Or.inr (Or.inl ⟨h, rfl, ⟨_, _, rfl⟩, rfl⟩)
    | false =>
      rw [hr.insert_refused h]
      exact Or.inr (Or.inr ⟨h, rfl, ⟨_, rfl⟩, rfl⟩)

/-- What a call does to the number of records, and what it reports. -/
theorem apply_cases (hb : b.sources.Sound) (grant : Bool) (call : Call) :
    let after := (b.apply grant call).1
    let report := (b.apply grant call).2
    (b.Asks call ∧ grant = true ∧ (∃ kind total, report = .added kind total) ∧
      after.sources.size = b.sources.size + 1) ∨
    (b.Asks call ∧ grant = false ∧ (∃ kind, report = .refused kind) ∧
      after.sources.size = b.sources.size) ∨
    (¬ b.Asks call ∧ (report = .kept ∨ ∃ q, report = .amended q) ∧
      after.sources.size = b.sources.size) ∨
    (¬ b.Asks call ∧ (∃ kinds, report = .released kinds ∧ kinds.length = b.sources.size) ∧
      after.sources.size = 0) := by
  intro after report
  by_cases hc : call = .clear
  · subst hc
    have happly : (after, report) = _ := apply_clear grant b
    obtain ⟨hafter, hreport⟩ := Prod.mk.inj happly
    refine Or.inr (Or.inr (Or.inr ⟨not_asks_of_payload?_none rfl, ⟨_, hreport, ?_⟩, ?_⟩))
    · rw [List.length_map, List.length_reverse]
      rfl
    · rw [hafter]
      rfl
  · cases hp : call.payload? with
    | none =>
      have happly : after.sources = b.sources ∧ report = .kept := apply_of_payload?_none hp hc
      obtain ⟨hsources, hreport⟩ := happly
      refine Or.inr (Or.inr (Or.inl ⟨not_asks_of_payload?_none hp, Or.inl hreport, ?_⟩))
      exact congrArg Registry.size hsources
    | some p =>
      cases hi : b.intact with
      | false =>
        have happly : (after, report) = _ := apply_frozen hi hc
        obtain ⟨hafter, hreport⟩ := Prod.mk.inj happly
        refine Or.inr (Or.inr (Or.inl ⟨?_, Or.inl hreport, by rw [hafter]⟩))
        rintro ⟨hintact, -⟩
        rw [hi] at hintact
        cases hintact
      | true =>
        have happly : (after, report) = _ := apply_of_payload? hi hp
        have hsources : after.sources = (b.sources.insert grant p).1 := by
          rw [← settle_sources b, ← happly]
        have hreport : report = (b.sources.insert grant p).2 := by
          rw [← settle_report b, ← happly]
        have hasks : b.Asks call ↔ p.key ∉ b.sources.keys := by
          constructor
          · rintro ⟨-, q, hq, hkey⟩
            rw [hp] at hq
            cases hq
            exact hkey
          · exact fun h => ⟨hi, p, hp, h⟩
        rw [hsources, hreport, hasks]
        rcases insert_cases hb grant p with ⟨h, hquiet, hsize⟩ | hadded | hrefused
        · exact Or.inr (Or.inr (Or.inl ⟨fun hn => hn h, hquiet, hsize⟩))
        · exact Or.inl hadded
        · exact Or.inr (Or.inl hrefused)

/-- An allocator that refuses lets no builder grow. -/
theorem size_apply_le (hb : b.sources.Sound) (call : Call) :
    (b.apply false call).1.sources.size ≤ b.sources.size := by
  rcases apply_cases hb false call with ⟨-, hg, -⟩ | ⟨-, -, -, hsize⟩ | ⟨-, -, hsize⟩ |
    ⟨-, -, hsize⟩
  · cases hg
  · exact Nat.le_of_eq hsize
  · exact Nat.le_of_eq hsize
  · rw [hsize]
    exact Nat.zero_le _

end Records

/-! ## Reachable builders -/

/-- Calls one after the other, each with the allocator's answer in case it is asked. -/
def applyAll (b : Builder) (calls : List (Bool × Call)) : Builder :=
  calls.foldl (fun b entry => (b.apply entry.1 entry.2).1) b

/-- A builder as calls and takings make it, with any answers of the allocator. -/
inductive Reachable : Builder → Prop where
  | fresh : Reachable .fresh
  | call {b : Builder} (grant : Bool) (call : Call) : Reachable b → Reachable (b.apply grant call).1
  | taken {b : Builder} : Reachable b → Reachable b.take.1
  | left {b : Builder} : Reachable b → Reachable b.take.2

theorem Reachable.applyAll {b : Builder} (h : b.Reachable) (calls : List (Bool × Call)) :
    (b.applyAll calls).Reachable := by
  induction calls generalizing b with
  | nil => exact h
  | cons entry calls ih => exact ih (h.call entry.1 entry.2)

theorem Reachable.sound {b : Builder} (h : b.Reachable) : b.sources.Sound := by
  induction h with
  | fresh => exact Registry.sound_empty
  | call grant call _ ih => exact sound_apply ih grant call
  | taken _ ih => exact ih
  | left _ _ => exact Registry.sound_empty

end Builder

end DeviceSleep
