import DeviceSleep.Proofs.Builder.Regrouping
import DeviceSleep.Proofs.Session.Freezing

/-! Builders that have an allocator to themselves, and calls to them in another order. Whether a
builder comes through without a refused record is a matter of how many records its calls need and how
many the allocator gives out, and neither depends on the order of calls for different keys. -/
namespace DeviceSleep
set_option autoImplicit false

/-- The allocator gives out so many more records at least. -/
def Allocator.Covers (a : Allocator) (count : Nat) : Prop :=
  ∀ n, a.failFrom = some n → count ≤ n - 1 - a.attempts

theorem Allocator.grants_iff_covers (a : Allocator) : a.grants = true ↔ a.Covers 1 := by
  unfold grants Covers
  cases a.failFrom with
  | none => simp
  | some n =>
    simp only [decide_eq_true_eq, Option.some.injEq, forall_eq']
    omega

/-- A record that is given out is one of those that were to come. -/
theorem Allocator.covers_add {a after : Allocator} {count : Nat} (h : a.Covers count)
    (hfailFrom : after.failFrom = a.failFrom) (hattempts : after.attempts = a.attempts + count)
    (more : Nat) : a.Covers (more + count) ↔ after.Covers more := by
  unfold Covers at h ⊢
  rw [hfailFrom, hattempts]
  refine forall_congr' fun n => forall_congr' fun hn => ?_
  have := h n hn
  omega

namespace Session

variable {b : Builder} {a : Allocator}

/-- A builder comes through its calls if the allocator covers what they need, and then it is the one
that is granted every record. -/
theorem run_alone_covers (hb : b.sources.Sound) (hi : b.intact = true)
    (ha : a.Balanced b.sources.size) (calls : List Call) :
    ∃ left after, (alone b a).run (calls.map (.call 0)) = .ok (alone left after) ∧
      (left.intact = true ↔ a.Covers (b.needs calls)) ∧
      (left.intact = true → left = b.granted calls) := by
  induction calls generalizing b a with
  | nil =>
    refine ⟨b, a, rfl, iff_of_true hi ?_, fun _ => rfl⟩
    exact fun n _ => Nat.zero_le _
  | cons call calls ih =>
    obtain ⟨-, hbalance, hfailFrom, hattempts⟩ := booked_alone hb ha call
    have hrun := run_alone_cons hb ha call calls
    by_cases hrefused : b.Asks call ∧ a.grants = false
    · -- Nothing that follows gives the builder its validity back.
      obtain ⟨hasks, hg⟩ := hrefused
      rw [hg, Builder.apply_refused hb hasks] at hbalance
      rw [hg, Builder.apply_refused hb hasks] at hrun
      obtain ⟨left, after, hlater, hintact, -⟩ :=
        run_alone_frozen (b := { b with intact := false }) hb rfl hbalance calls
      have hnot : ¬ a.Covers (b.needs (call :: calls)) := by
        intro hcovers
        have hone : a.Covers 1 := by
          intro n hn
          have := hcovers n hn
          rw [Builder.needs, if_pos hasks] at this
          omega
        rw [← a.grants_iff_covers, hg] at hone
        cases hone
      refine ⟨left, after, hrun.trans hlater, iff_of_false (by simp [hintact]) hnot, ?_⟩
      intro h
      rw [hintact] at h
      cases h
    · have happly : b.apply a.grants call = b.apply true call := by
        by_cases hasks : b.Asks call
        · have hg : a.grants = true := by simpa [hasks] using hrefused
          rw [hg]
        · exact Builder.apply_eq_of_not_asks hb hasks a.grants
      have hcount : a.Covers (if b.Asks call then 1 else 0) := by
        split
        · rename_i hasks
          rw [← a.grants_iff_covers]
          simpa [hasks] using hrefused
        · exact fun n _ => Nat.zero_le _
      rw [happly] at hbalance hfailFrom hattempts hrun
      obtain ⟨left, after, hlater, hintact, hleft⟩ :=
        ih (Builder.sound_apply hb true call) (Builder.intact_apply_true hb hi call) hbalance
      refine ⟨left, after, hrun.trans hlater, ?_, hleft⟩
      rw [hintact, Builder.needs, Nat.add_comm]
      exact (Allocator.covers_add hcount hfailFrom hattempts _).symm

/-- With an allocator that may run dry, a builder is valid exactly if it would be valid with one that
does not, and its calls need no more records than there are. -/
theorem solo_valid (failFrom : Option Nat) (calls : List Call) :
    ∃ left after, solo failFrom calls = .ok (alone left after) ∧
      (left.valid = true ↔ (Allocator.fresh failFrom).Covers (Builder.fresh.needs calls) ∧
        (Builder.fresh.granted calls).valid = true) := by
  obtain ⟨left, after, hrun, hintact, hleft⟩ :=
    run_alone_covers (b := .fresh) Registry.sound_empty rfl (Allocator.balanced_fresh failFrom) calls
  refine ⟨left, after, hrun, ?_⟩
  rw [← hintact]
  constructor
  · intro hvalid
    have hi : left.intact = true := by
      unfold Builder.valid at hvalid
      exact (Bool.and_eq_true_iff.mp hvalid).1
    exact ⟨hi, hleft hi ▸ hvalid⟩
  · rintro ⟨hi, hvalid⟩
    exact hleft hi ▸ hvalid

theorem solo_unlimited (calls : List Call) :
    ∃ a, solo none calls = .ok (alone (Builder.fresh.granted calls) a) := by
  obtain ⟨left, after, hrun, hintact, hleft⟩ :=
    run_alone_covers (b := .fresh) Registry.sound_empty rfl (Allocator.balanced_fresh none) calls
  have hi : left.intact = true := hintact.mpr nofun
  exact ⟨after, hleft hi ▸ hrun⟩

/-- The order of calls for different keys does not matter. With an allocator that grants every record
the builders have the same mode, flags and validity and the same records in some order, need the session
with the cloud closed or wake on an interface in the same cases, have images of the same length, and are
accepted by the same platforms. With an allocator that runs dry at the same attempt, both are valid or neither. -/
theorem regrouped_requests_agree {xs ys : List Call} (h : Regrouped xs ys) :
    let b := Builder.fresh.granted xs
    let c := Builder.fresh.granted ys
    ((∃ a, solo none xs = .ok (alone b a)) ∧ ∃ a, solo none ys = .ok (alone c a)) ∧
    b.descriptor.mode = c.descriptor.mode ∧ b.descriptor.flags = c.descriptor.flags ∧
    b.valid = c.valid ∧ b.sources.sources.Perm c.sources.sources ∧
    (∀ has, b.descriptor.cloudMustPersist has = c.descriptor.cloudMustPersist has) ∧
    (∀ i, b.descriptor.wakesOn i = c.descriptor.wakesOn i) ∧
    b.descriptor.encode.length = c.descriptor.encode.length ∧
    (∀ p : Platform, (p.check b.descriptor).isOk = (p.check c.descriptor).isOk) ∧
    ∀ n, ∃ left a left' a', solo (some n) xs = .ok (alone left a) ∧
      solo (some n) ys = .ok (alone left' a') ∧ left.valid = left'.valid := by
  intro b c
  have hb : b.descriptor.sources.Sound :=
    Builder.sound_granted (b := .fresh) Registry.sound_empty xs
  have hc : c.descriptor.sources.Sound :=
    Builder.sound_granted (b := .fresh) Registry.sound_empty ys
  have hbc : b.descriptor.Reordered c.descriptor := h.reordered
  refine ⟨⟨solo_unlimited xs, solo_unlimited ys⟩, hbc.mode, hbc.flags, h.valid_eq, hbc.sources,
    hbc.cloudMustPersist hb hc, hbc.wakesOn hb hc, hbc.length_encode,
    Platform.isOk_check_of_perm hbc.mode hbc.sources, ?_⟩
  intro n
  obtain ⟨left, a, hrun, hvalid⟩ := solo_valid (some n) xs
  obtain ⟨left', a', hrun', hvalid'⟩ := solo_valid (some n) ys
  refine ⟨left, a, left', a', hrun, hrun', ?_⟩
  rw [Bool.eq_iff_iff, hvalid, hvalid', h.needs_eq, h.valid_eq]

/-- A pin that is set twice, and a timer between. -/
def pinFirst : List Call :=
  [.mode .stop, .gpio 7 .rising, .durationMs 5000, .mode .hibernate, .gpio 7 .change, .flag ⟨3⟩]

def timerFirst : List Call :=
  [.durationMs 5000, .flag ⟨1⟩, .gpio 7 .rising, .flag ⟨2⟩, .gpio 7 .change, .mode .stop,
    .mode .hibernate]

theorem regrouped_pinFirst : Regrouped pinFirst timerFirst := by
  refine ⟨rfl, rfl, ?_, by decide⟩
  intro key
  by_cases hpin : Key.gpio 7 = key
  · subst hpin
    rfl
  · by_cases htimer : Key.timer = key
    · subst htimer
      rfl
    · have hx : pinFirst.filterMap Call.payload? =
          [.gpio 7 .rising, .timer 5000, .gpio 7 .change] := rfl
      have hy : timerFirst.filterMap Call.payload? =
          [.timer 5000, .gpio 7 .rising, .gpio 7 .change] := rfl
      rw [hx, hy]
      simp [Payload.key, hpin, htimer]

theorem regrouped_requests_agree_pinFirst :
    Regrouped pinFirst timerFirst ∧
    (Builder.fresh.granted pinFirst).sources.payloads = [.timer 5000, .gpio 7 .change] ∧
    (Builder.fresh.granted timerFirst).sources.payloads = [.gpio 7 .change, .timer 5000] ∧
    (∀ p : Platform, (p.check (Builder.fresh.granted pinFirst).descriptor).isOk =
      (p.check (Builder.fresh.granted timerFirst).descriptor).isOk) ∧
    ∀ n, ∃ left a left' a', solo (some n) pinFirst = .ok (alone left a) ∧
      solo (some n) timerFirst = .ok (alone left' a') ∧ left.valid = left'.valid := by
  obtain ⟨-, -, -, -, -, -, -, -, hcheck, hdry⟩ := regrouped_requests_agree regrouped_pinFirst
  exact ⟨regrouped_pinFirst, by decide, by decide, hcheck, hdry⟩

end Session

end DeviceSleep
