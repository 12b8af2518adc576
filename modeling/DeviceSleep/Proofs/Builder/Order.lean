import DeviceSleep.Proofs.Builder.Granted
import Mathlib.Data.List.Dedup
import Mathlib.Data.List.Induction
import Mathlib.Data.List.Nodup

/-! In which order the records of a request stand. A call for a key that is there leaves the record in
its place, and any other puts a new one in front; so the keys are listed by their first occurrence
among the calls, the latest first, and the newest record is that of the key which is `lastNew`. -/
namespace DeviceSleep
set_option autoImplicit false

/-! ## What occurs latest for the first time -/

section LastNew
variable {α β : Type} [DecidableEq α] [DecidableEq β]

/-- Of the elements of a list the one whose first occurrence comes last. -/
def lastNew (l : List α) : Option α := l.reverse.dedup.head?

@[simp] theorem lastNew_nil : lastNew ([] : List α) = none := rfl

theorem lastNew_concat (l : List α) (a : α) :
    lastNew (l ++ [a]) = if a ∈ l then lastNew l else some a := by
  unfold lastNew
  rw [List.reverse_concat, List.dedup_cons]
  by_cases h : a ∈ l
  · rw [if_pos h, if_pos (List.mem_reverse.mpr h)]
  · rw [if_neg h, if_neg (mt List.mem_reverse.mp h), List.head?_cons]

/-- It has not been there before, and whatever comes behind it has. -/
theorem lastNew_eq_some_iff {l : List α} {a : α} :
    lastNew l = some a ↔
      ∃ before after, l = before ++ a :: after ∧ a ∉ before ∧ ∀ b ∈ after, b ∈ a :: before := by
  induction l using List.reverseRecOn with
  | nil => simp
  | append_singleton l x ih =>
    rw [lastNew_concat]
    constructor
    · intro h
      -- An element that was there before belongs to what comes behind the new one.
      by_cases hx : x ∈ l
      · rw [if_pos hx] at h
        obtain ⟨before, after, rfl, hnew, hold⟩ := ih.mp h
        refine ⟨before, after ++ [x], by simp, hnew, ?_⟩
        have hseen : x ∈ a :: before := by
          rcases List.mem_append.mp hx with hx | hx
          · exact List.mem_cons_of_mem a hx
          · rcases List.mem_cons.mp hx with rfl | hx
            · exact List.mem_cons_self
            · exact hold x hx
        intro b hb
        rcases List.mem_append.mp hb with hb | hb
        · exact hold b hb
        · rw [List.mem_singleton.mp hb]
          exact hseen
      · rw [if_neg hx] at h
        cases h
        exact ⟨l, [], rfl, hx, nofun⟩
    · rintro ⟨before, after, hl, hnew, hold⟩
      rcases List.eq_nil_or_concat after with rfl | ⟨after, y, rfl⟩
      · obtain ⟨rfl, rfl⟩ : l = before ∧ x = a := by simpa using hl
        rw [if_neg hnew]
      · have hlast : l ++ [x] = (before ++ a :: after) ++ [y] := by
          rw [hl, List.concat_eq_append, List.append_assoc, List.cons_append]
        obtain ⟨rfl, hx⟩ := List.append_inj' hlast rfl
        obtain rfl := List.singleton_inj.mp hx
        have hseen : x ∈ before ++ a :: after := by
          have hx := hold x (by simp)
          simp only [List.mem_cons, List.mem_append] at hx ⊢
          tauto
        rw [if_pos hseen]
        exact ih.mpr ⟨before, after, rfl, hnew, fun b hb => hold b (by simp [hb])⟩

theorem lastNew_append {first second : List α} (h : first.Disjoint second) :
    lastNew (first ++ second) = (lastNew second).or (lastNew first) := by
  have hreverse : second.reverse.Disjoint first.reverse := by
    intro a hsecond hfirst
    exact h (List.mem_reverse.mp hfirst) (List.mem_reverse.mp hsecond)
  unfold lastNew
  rw [List.reverse_append, hreverse.dedup_append, List.head?_append]

theorem lastNew_map {f : α → β} (hf : Function.Injective f) (l : List α) :
    lastNew (l.map f) = (lastNew l).map f := by
  unfold lastNew
  rw [← List.map_reverse, List.dedup_map_of_injective hf, List.head?_map]

theorem lastNew_eq_none_iff {l : List α} : lastNew l = none ↔ l = [] := by
  unfold lastNew
  rw [List.head?_eq_none_iff, List.dedup_eq_nil, List.reverse_eq_nil_iff]

end LastNew

/-! ## Keys -/

namespace Call

/-- The keys of the records that calls set. -/
def keys (calls : List Call) : List Key := (calls.filterMap payload?).map Payload.key

theorem keys_append (first second : List Call) :
    keys (first ++ second) = keys first ++ keys second := by
  unfold keys
  rw [List.filterMap_append, List.map_append]

end Call

theorem Registry.Sound.keys_insert {r : Registry} (hr : r.Sound) (p : Payload) :
    (r.insert true p).1.keys = if p.key ∈ r.keys then r.keys else p.key :: r.keys := by
  by_cases h : p.key ∈ r.keys
  · rw [hr.insert_of_mem h, if_pos h]
    exact keys_map_amend p r.sources
  · rw [hr.insert_granted h, if_neg h]
    rfl

namespace Builder

theorem sound_fresh : fresh.sources.Sound := Registry.sound_empty

/-- The keys stand in the order of their first calls, the latest in front. -/
theorem keys_granted {calls : List Call} (hclear : .clear ∉ calls) :
    (fresh.granted calls).sources.keys = (Call.keys calls).reverse.dedup := by
  induction calls using List.reverseRecOn with
  | nil => rfl
  | append_singleton calls call ih =>
    rw [List.mem_append, not_or, List.mem_singleton] at hclear
    have hkeys := ih hclear.1
    -- The last call is made by a builder that stands in its invariant and was never refused.
    have hs := sound_granted sound_fresh calls
    have hi := intact_granted sound_fresh rfl calls
    rw [granted_append, Call.keys_append]
    change ((fresh.granted calls).apply true call).1.sources.keys = _
    cases hp : call.payload? with
    | none =>
      have hnone : Call.keys [call] = [] := by
        rw [Call.keys, List.filterMap_cons_none hp]
        rfl
      rw [(apply_of_payload?_none hp (Ne.symm hclear.2)).1, hkeys, hnone, List.append_nil]
    | some p =>
      have hsome : Call.keys [call] = [p.key] := by
        rw [Call.keys, List.filterMap_cons_some hp]
        rfl
      rw [apply_of_payload? hi hp, settle_sources, hs.keys_insert, hkeys, hsome,
        List.reverse_concat, List.dedup_cons]
      simp only [List.mem_dedup]

end Builder

end DeviceSleep
