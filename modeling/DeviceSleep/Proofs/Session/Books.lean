import DeviceSleep.Proofs.Builder.Calls
import DeviceSleep.Session

/-! The books of allocators. An allocator is in balance with a number of records if it has given out
that many more than it took back, and if it gave out one for each attempt up to the one at which it
runs dry. Each kind of change to a builder's records keeps the balance. -/
namespace DeviceSleep
set_option autoImplicit false

namespace Allocator

/-- How many of some attempts succeed: all, or those before the one at which the allocator runs dry,
but never fewer than none. -/
def successes (failFrom : Option Nat) (attempts : Nat) : Nat :=
  match failFrom with
  | none => attempts
  | some n => min attempts (max n 1 - 1)

/-- The allocator has `held` records out, and gave out as many as its limit allows. -/
structure Balanced (a : Allocator) (held : Nat) : Prop where
  books : a.acquired = a.released + held
  limit : a.acquired = successes a.failFrom a.attempts

/-- Everything but the counters of records. -/
def tally (a : Allocator) : Option Nat × Nat := (a.failFrom, a.attempts)

/-- The allocator after some records came back. -/
def takeBack (a : Allocator) (count : Nat) : Allocator := { a with released := a.released + count }

/-- The allocator after a change has been booked; as it is if that is an error. -/
def booked (a : Allocator) (change : Change) : Allocator :=
  match a.account change with
  | .ok after => after
  | .error _ => a

variable {a : Allocator} {held : Nat}

theorem booked_of_account {after : Allocator} {change : Change}
    (h : a.account change = .ok after) : a.booked change = after := by
  unfold booked
  rw [h]

theorem balanced_fresh (failFrom : Option Nat) : (fresh failFrom).Balanced 0 := by
  refine ⟨rfl, ?_⟩
  cases failFrom with
  | none => rfl
  | some n => exact (Nat.zero_min _).symm

/-- An allocator that grants is one attempt short of its limit at least. -/
theorem successes_succ_of_grants (h : a.grants = true) :
    successes a.failFrom (a.attempts + 1) = successes a.failFrom a.attempts + 1 := by
  unfold grants at h
  unfold successes
  cases hf : a.failFrom with
  | none => rfl
  | some n =>
    rw [hf] at h
    have hn : a.attempts + 1 < n := of_decide_eq_true h
    dsimp only
    omega

theorem successes_succ_of_refuses (h : a.grants = false) :
    successes a.failFrom (a.attempts + 1) = successes a.failFrom a.attempts := by
  unfold grants at h
  unfold successes
  cases hf : a.failFrom with
  | none =>
    rw [hf] at h
    cases h
  | some n =>
    rw [hf] at h
    have hn : ¬ a.attempts + 1 < n := of_decide_eq_false h
    dsimp only
    omega

/-- Once an attempt has failed, the number of successes stays. -/
theorem successes_eq_of_lt {failFrom : Option Nat} {m n : Nat} (h : successes failFrom m < m)
    (hle : m ≤ n) : successes failFrom n = successes failFrom m := by
  unfold successes at h ⊢
  cases failFrom with
  | none => exact absurd h (Nat.lt_irrefl m)
  | some limit =>
    dsimp only at h ⊢
    omega

/-- After a refusal there is no grant any more. -/
theorem Balanced.grants_eq_false (h : a.Balanced held) (hlt : a.acquired < a.attempts) :
    a.grants = false := by
  have hlimit := h.limit
  unfold grants
  unfold successes at hlimit
  cases hf : a.failFrom with
  | none =>
    rw [hf] at hlimit
    dsimp only at hlimit
    omega
  | some n =>
    rw [hf] at hlimit
    dsimp only at hlimit ⊢
    exact decide_eq_false (by omega)

theorem Balanced.acquire_granted (h : a.Balanced held) (hg : a.grants = true) :
    a.acquire.1.Balanced (held + 1) := by
  have hbooks := h.books
  have hlimit := h.limit
  unfold acquire
  rw [if_pos hg]
  refine ⟨?_, ?_⟩
  · change a.acquired + 1 = a.released + (held + 1)
    omega
  · change a.acquired + 1 = successes a.failFrom (a.attempts + 1)
    rw [successes_succ_of_grants hg, hlimit]

theorem Balanced.acquire_refused (h : a.Balanced held) (hg : a.grants = false) :
    a.acquire.1.Balanced held := by
  unfold acquire
  rw [if_neg (by simp [hg])]
  refine ⟨h.books, ?_⟩
  change a.acquired = successes a.failFrom (a.attempts + 1)
  rw [successes_succ_of_refuses hg, h.limit]

/-- Whatever the answer, an acquisition is one more attempt. -/
theorem tally_acquire (a : Allocator) : a.acquire.1.tally = a.attempt.tally := by
  unfold acquire
  split <;> rfl

theorem Balanced.takeBack {count : Nat} (h : a.Balanced (held + count)) :
    (a.takeBack count).Balanced held := by
  have hbooks := h.books
  refine ⟨?_, h.limit⟩
  change a.acquired = a.released + count + held
  omega

theorem takeBack_takeBack (a : Allocator) (m n : Nat) :
    (a.takeBack m).takeBack n = a.takeBack (n + m) := by
  have hsum : a.released + m + n = a.released + (n + m) := by omega
  exact congrArg (fun released => { a with released := released }) hsum

theorem foldlM_release {kinds : List Kind} (h : a.released + kinds.length ≤ a.acquired) :
    kinds.foldlM release a = .ok (a.takeBack kinds.length) := by
  induction kinds generalizing a with
  | nil => rfl
  | cons kind kinds ih =>
    rw [List.length_cons] at h
    have hone : a.release kind = .ok (a.takeBack 1) := if_pos (by dsimp only; omega)
    have hrest := ih (a := a.takeBack 1) (by change a.released + 1 + _ ≤ a.acquired; omega)
    rw [List.foldlM_cons, hone]
    change kinds.foldlM release (a.takeBack 1) = _
    rw [hrest, takeBack_takeBack, List.length_cons]

/-- Records that are out can come back without an error. -/
theorem Balanced.account_released {kinds : List Kind} (h : a.Balanced (held + kinds.length)) :
    a.account (.released kinds) = .ok (a.takeBack kinds.length) := by
  have hbooks := h.books
  exact foldlM_release (by omega)

/-- Booking what a call did to a builder is no error and keeps the balance, and it counts an attempt
if and only if the call needed a record. -/
theorem Balanced.booked_apply {b : Builder} (h : a.Balanced (held + b.sources.size))
    (hb : b.sources.Sound) (call : Call) :
    let result := b.apply a.grants call
    a.account result.2 = .ok (a.booked result.2) ∧
      (a.booked result.2).Balanced (held + result.1.sources.size) ∧
      (b.Asks call → (a.booked result.2).tally = a.attempt.tally) ∧
      (¬ b.Asks call → (a.booked result.2).tally = a.tally) := by
  intro result
  suffices hex : ∃ after, a.account result.2 = .ok after ∧
      after.Balanced (held + result.1.sources.size) ∧
      (b.Asks call → after.tally = a.attempt.tally) ∧ (¬ b.Asks call → after.tally = a.tally) by
    obtain ⟨after, hafter, hrest⟩ := hex
    rw [booked_of_account hafter]
    exact ⟨hafter, hrest⟩
  -- Added, refused, nothing new, or everything released: an attempt in the first two cases alone.
  rcases Builder.apply_cases hb a.grants call with ⟨hasks, hg, ⟨kind, total, hreport⟩, hsize⟩ |
    ⟨hasks, hg, ⟨kind, hreport⟩, hsize⟩ | ⟨hasks, hreport, hsize⟩ |
    ⟨hasks, ⟨kinds, hreport, hlength⟩, hsize⟩
  · refine ⟨a.acquire.1, ?_, ?_, fun _ => tally_acquire a, fun hn => absurd hasks hn⟩
    · rw [hreport]
      rfl
    · rw [hsize]
      exact h.acquire_granted hg
  · refine ⟨a.acquire.1, ?_, ?_, fun _ => tally_acquire a, fun hn => absurd hasks hn⟩
    · rw [hreport]
      rfl
    · rw [hsize]
      exact h.acquire_refused hg
  · refine ⟨a, ?_, ?_, fun hn => absurd hn hasks, fun _ => rfl⟩
    · rcases hreport with hreport | ⟨q, hreport⟩
      · rw [hreport]
        rfl
      · rw [hreport]
        rfl
    · rw [hsize]
      exact h
  · rw [← hlength] at h
    refine ⟨a.takeBack kinds.length, ?_, ?_, fun hn => absurd hn hasks, fun _ => rfl⟩
    · rw [hreport]
      exact h.account_released
    · rw [hsize]
      exact h.takeBack

end Allocator

namespace Session

/-! ## Booking with a session -/

/-- Booking a change touches the allocator of the owner and nothing else. -/
theorem account_ok {s : Session} {owner : Option Nat} {change : Change}
    (h : ∀ k a, owner = some k → s.allocators[k]? = some a →
      a.account change = .ok (a.booked change)) :
    ∃ after, s.account owner change = .ok after ∧ after.slots = s.slots ∧
      ∀ k, after.allocators[k]? =
        if owner = some k then s.allocators[k]?.map (·.booked change) else s.allocators[k]? := by
  cases owner with
  | none => exact ⟨s, rfl, rfl, fun k => by simp⟩
  | some n =>
    unfold account
    cases hn : s.allocators[n]? with
    | none =>
      refine ⟨s, by simp only [hn], rfl, ?_⟩
      intro k
      by_cases hk : n = k
      · subst hk
        rw [if_pos rfl, hn]
        rfl
      · rw [if_neg (by simpa using hk)]
    | some a =>
      refine ⟨{ s with allocators := s.allocators.set n (a.booked change) }, ?_, rfl, ?_⟩
      · simp only [hn]
        rw [h n a rfl hn]
        rfl
      · intro k
        by_cases hk : n = k
        · subst hk
          have hlt : n < s.allocators.length := (List.getElem?_eq_some_iff.mp hn).1
          rw [if_pos rfl, hn]
          simp [hlt]
        · rw [if_neg (by simpa using hk)]
          exact List.getElem?_set_ne hk

end Session

end DeviceSleep
