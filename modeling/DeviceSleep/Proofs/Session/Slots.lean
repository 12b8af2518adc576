import DeviceSleep.Proofs.Session.Books
import Mathlib.Algebra.GroupWithZero.Nat

/-! Builders that move between slots. The allocators are `Balanced` with the builders in the slots
and with those that are on their way: taking a builder out of its slot, putting it into another and
giving back what it holds each keep the balance, whatever the slots hold. -/
namespace DeviceSleep
set_option autoImplicit false

/-- The records of a slot's builder that belong to an allocator. -/
def Slot.share (content : Slot) (k : Nat) : Nat :=
  if content.owner = some k then content.builder.sources.size else 0

namespace Session

variable {s after : Session} {loose : Nat → Nat} {slot : Nat} {content : Slot}

/-! ## Slots -/

theorem mem_of_find? (h : s.find? slot = some content) : (slot, content) ∈ s.slots := by
  obtain ⟨l₁, l₂, hslots, -⟩ := List.lookup_eq_some_iff.mp h
  rw [hslots]
  exact List.mem_append_right _ List.mem_cons_self

theorem without_of_find?_none (h : s.find? slot = none) : s.without slot = s := by
  have hall : ∀ entry ∈ s.slots, (entry.1 != slot) = true := by
    intro entry hentry
    refine bne_iff_ne.mpr fun heq => ?_
    have hne := List.lookup_eq_none_iff.mp h entry hentry
    rw [heq] at hne
    simp at hne
  unfold without
  rw [List.filter_eq_self.mpr hall]

theorem notMem_without (s : Session) (slot : Nat) :
    slot ∉ (s.without slot).slots.map Prod.fst := by
  intro hmem
  obtain ⟨entry, hentry, rfl⟩ := List.mem_map.mp hmem
  have hne := (List.mem_filter.mp hentry).2
  simp at hne

/-- Taking a slot out of a list takes its content out of a sum over it. -/
theorem sum_map_filter {slots : List (Nat × Slot)} (hn : (slots.map Prod.fst).Nodup)
    (h : slots.lookup slot = some content) (f : Slot → Nat) :
    (slots.map fun entry => f entry.2).sum =
      ((slots.filter fun entry => entry.1 != slot).map fun entry => f entry.2).sum + f content := by
  induction slots with
  | nil => cases h
  | cons entry slots ih =>
    obtain ⟨n, c⟩ := entry
    obtain ⟨hnew, hn⟩ := List.nodup_cons.mp hn
    by_cases hslot : slot = n
    · subst hslot
      have hc : c = content := by simpa [List.lookup_cons] using h
      have hrest : slots.filter (fun entry => entry.1 != slot) = slots := by
        refine List.filter_eq_self.mpr fun entry hentry => bne_iff_ne.mpr fun heq => hnew ?_
        exact List.mem_map.mpr ⟨entry, hentry, heq⟩
      have hdrop : ((slot, c) :: slots).filter (fun entry => entry.1 != slot) = slots := by
        rw [List.filter_cons, if_neg (by simp), hrest]
      rw [hdrop, List.map_cons, List.sum_cons, hc, Nat.add_comm]
    · have hlookup : slots.lookup slot = some content := by
        have hne : (slot == n) = false := by simpa using hslot
        rw [List.lookup_cons, hne] at h
        exact h
      have hkeep : ((n, c) :: slots).filter (fun entry => entry.1 != slot) =
          (n, c) :: slots.filter fun entry => entry.1 != slot := by
        rw [List.filter_cons, if_pos (by simpa using Ne.symm hslot)]
      rw [hkeep, List.map_cons, List.map_cons, List.sum_cons, List.sum_cons, ih hn hlookup,
        Nat.add_assoc]

/-! ## The invariant -/

/-- The records of all builders that are bound to an allocator. -/
def held (s : Session) (k : Nat) : Nat := (s.slots.map fun entry => entry.2.share k).sum

/-- The allocators are in balance with the builders in the slots and `loose` further records, those
of a builder on its way from one slot to another. -/
structure Balanced (s : Session) (loose : Nat → Nat) : Prop where
  numbered : (s.slots.map Prod.fst).Nodup
  sound : ∀ entry ∈ s.slots, entry.2.builder.sources.Sound
  balance : ∀ (k : Nat) (a : Allocator), s.allocators[k]? = some a →
    a.Balanced (s.held k + loose k)

/-- In balance with nothing on its way. -/
abbrev Settled (s : Session) : Prop := s.Balanced fun _ => 0

/-- No attempt has been made in between. -/
def SameTallies (s after : Session) : Prop :=
  ∀ k : Nat, after.allocators[k]?.map Allocator.tally = s.allocators[k]?.map Allocator.tally

theorem held_fill (s : Session) (slot : Nat) (content : Slot) (k : Nat) :
    (s.fill slot content).held k = s.held k + content.share k := by
  unfold held fill
  rw [List.map_cons, List.sum_cons, Nat.add_comm]

theorem Balanced.held_eq (h : s.Balanced loose) (hfind : s.find? slot = some content) (k : Nat) :
    s.held k = (s.without slot).held k + content.share k :=
  sum_map_filter h.numbered hfind fun content => content.share k

/-- A builder taken out of its slot is on its way. -/
theorem Balanced.without (h : s.Balanced loose) (hfind : s.find? slot = some content) :
    (s.without slot).Balanced fun k => content.share k + loose k := by
  refine ⟨h.numbered.sublist (List.filter_sublist.map Prod.fst), ?_, ?_⟩
  · exact fun entry hentry => h.sound entry (List.mem_filter.mp hentry).1
  · intro k a ha
    have hbalance := h.balance k a ha
    rw [h.held_eq hfind k, Nat.add_assoc] at hbalance
    exact hbalance

/-- A builder put into an empty slot has arrived. -/
theorem Balanced.fill (h : s.Balanced fun k => content.share k + loose k)
    (hempty : slot ∉ s.slots.map Prod.fst) (hsound : content.builder.sources.Sound) :
    (s.fill slot content).Balanced loose := by
  refine ⟨List.nodup_cons.mpr ⟨hempty, h.numbered⟩, ?_, ?_⟩
  · intro entry hentry
    rcases List.mem_cons.mp hentry with rfl | hentry
    · exact hsound
    · exact h.sound entry hentry
  · intro k a ha
    have hbalance := h.balance k a ha
    rw [held_fill, Nat.add_assoc]
    exact hbalance

theorem Balanced.congr {loose' : Nat → Nat} (h : s.Balanced loose)
    (heq : ∀ k, loose k = loose' k) : s.Balanced loose' := by
  rw [← funext heq]
  exact h

/-! ## Booking and giving back -/

/-- Booking a change gives balance if it gives the allocator of the owner the balance that the
others have already. -/
theorem account_balanced (s : Session) (loose : Nat → Nat) (owner : Option Nat) (change : Change)
    (hnumbered : (s.slots.map Prod.fst).Nodup)
    (hsound : ∀ entry ∈ s.slots, entry.2.builder.sources.Sound)
    (howner : ∀ (k : Nat) (a : Allocator), owner = some k → s.allocators[k]? = some a →
      a.account change = .ok (a.booked change) ∧
        (a.booked change).Balanced (s.held k + loose k))
    (hother : ∀ (k : Nat) (a : Allocator), owner ≠ some k → s.allocators[k]? = some a →
      a.Balanced (s.held k + loose k)) :
    ∃ after, s.account owner change = .ok after ∧ after.slots = s.slots ∧ after.Balanced loose ∧
      ∀ k, after.allocators[k]? =
        if owner = some k then s.allocators[k]?.map (·.booked change) else s.allocators[k]? := by
  obtain ⟨after, hafter, hslots, hallocators⟩ := account_ok fun k a hk ha => (howner k a hk ha).1
  refine ⟨after, hafter, hslots, ⟨by rwa [hslots], by rwa [hslots], ?_⟩, hallocators⟩
  intro k a ha
  have hheld : after.held k = s.held k := by
    unfold held
    rw [hslots]
  rw [hallocators k] at ha
  rw [hheld]
  by_cases hk : owner = some k
  · rw [if_pos hk] at ha
    obtain ⟨b, hb, rfl⟩ := Option.map_eq_some_iff.mp ha
    exact (howner k b hk hb).2
  · rw [if_neg hk] at ha
    exact hother k a hk ha

/-- What is on its way can be given back without an error. -/
theorem Balanced.giveBack (h : s.Balanced fun k => content.share k + loose k) :
    ∃ after, s.giveBack content = .ok after ∧ after.slots = s.slots ∧ after.Balanced loose ∧
      s.SameTallies after := by
  let kinds := content.builder.sources.sources.reverse.map Source.kind
  have hlength : kinds.length = content.builder.sources.size := by
    rw [List.length_map, List.length_reverse]
    rfl
  have howner : ∀ (k : Nat) (a : Allocator), content.owner = some k → s.allocators[k]? = some a →
      a.account (.released kinds) = .ok (a.takeBack kinds.length) ∧
        (a.takeBack kinds.length).Balanced (s.held k + loose k) := by
    intro k a hk ha
    have hbalance := h.balance k a ha
    have hshare : content.share k = kinds.length := by
      unfold Slot.share
      rw [if_pos hk, hlength]
    rw [hshare, Nat.add_comm kinds.length, ← Nat.add_assoc] at hbalance
    exact ⟨hbalance.account_released, hbalance.takeBack⟩
  obtain ⟨after, hafter, hslots, hbalanced, hallocators⟩ :=
    account_balanced s loose content.owner (.released kinds) h.numbered h.sound
      (fun k a hk ha => by
        rw [Allocator.booked_of_account (howner k a hk ha).1]
        exact howner k a hk ha)
      -- The others have no share in what comes back.
      (fun k a hk ha => by
        have hbalance := h.balance k a ha
        have hshare : content.share k = 0 := if_neg hk
        rw [hshare, Nat.zero_add] at hbalance
        exact hbalance)
  refine ⟨after, hafter, hslots, hbalanced, ?_⟩
  intro k
  rw [hallocators k]
  by_cases hk : content.owner = some k
  · rw [if_pos hk]
    cases ha : s.allocators[k]? with
    | none => rfl
    | some a =>
      rw [Option.map_some, Allocator.booked_of_account (howner k a hk ha).1]
      rfl
  · rw [if_neg hk]

theorem Balanced.vacate (h : s.Balanced loose) (slot : Nat) :
    ∃ after, s.vacate slot = .ok after ∧ after.slots = (s.without slot).slots ∧
      after.Balanced loose ∧ s.SameTallies after := by
  unfold Session.vacate
  cases hfind : s.find? slot with
  | none => exact ⟨s, rfl, by rw [without_of_find?_none hfind], h, fun k => rfl⟩
  | some content => exact (h.without hfind).giveBack

/-- A builder on its way arrives in a slot, whatever the slot held before. -/
theorem Balanced.put (h : s.Balanced fun k => content.share k + loose k) (slot : Nat)
    (hsound : content.builder.sources.Sound) :
    ∃ after, s.put slot content = .ok after ∧
      after.slots = (slot, content) :: (s.without slot).slots ∧ after.Balanced loose ∧
      s.SameTallies after := by
  obtain ⟨vacated, hvacated, hslots, hbalanced, htallies⟩ := h.vacate slot
  refine ⟨vacated.fill slot content, ?_, ?_, hbalanced.fill ?_ hsound, htallies⟩
  · unfold Session.put
    rw [hvacated]
    rfl
  · change (slot, content) :: vacated.slots = _
    rw [hslots]
  · rw [hslots]
    exact notMem_without s slot

end Session

end DeviceSleep
