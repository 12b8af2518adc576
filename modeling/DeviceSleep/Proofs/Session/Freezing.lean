import DeviceSleep.Proofs.Builder.Granted
import DeviceSleep.Proofs.Session.Books

/-! A builder whose allocator runs dry, beside one whose allocator never does. Up to the first
refused record the two are the same. From there on the one that was refused is not valid any more
and stays as it was, but for its records, which can still be released. -/
namespace DeviceSleep
set_option autoImplicit false

namespace Session

/-- A session with one builder, which has the only allocator to itself. -/
def alone (b : Builder) (a : Allocator) : Session := ⟨[(0, ⟨some 0, b⟩)], [a], []⟩

/-- Calls to a fresh builder that has an allocator to itself. -/
def solo (failFrom : Option Nat) (calls : List Call) : Except OverRelease Session :=
  (start [failFrom] []).run (.create 0 (some 0) :: calls.map (.call 0))

theorem solo_eq (failFrom : Option Nat) (calls : List Call) :
    solo failFrom calls = (alone .fresh (.fresh failFrom)).run (calls.map (.call 0)) := rfl

variable {b : Builder} {a : Allocator}

/-! ## One call -/

/-- Booking a call is no error and keeps the only allocator in balance; it was asked if and only if
the call needed a record. -/
theorem booked_alone (hb : b.sources.Sound) (ha : a.Balanced b.sources.size) (call : Call) :
    let result := b.apply a.grants call
    let booked := a.booked result.2
    a.account result.2 = .ok booked ∧ booked.Balanced result.1.sources.size ∧
      booked.failFrom = a.failFrom ∧
      booked.attempts = a.attempts + if b.Asks call then 1 else 0 := by
  intro result booked
  have hbalance : a.Balanced (0 + b.sources.size) := by
    rw [Nat.zero_add]
    exact ha
  obtain ⟨haccount, hafter, hasked, hunasked⟩ := hbalance.booked_apply hb call
  rw [Nat.zero_add] at hafter
  refine ⟨haccount, hafter, ?_⟩
  by_cases hasks : b.Asks call
  · have htally : booked.tally = a.attempt.tally := hasked hasks
    rw [if_pos hasks]
    exact ⟨congrArg Prod.fst htally, congrArg Prod.snd htally⟩
  · have htally : booked.tally = a.tally := hunasked hasks
    rw [if_neg hasks]
    exact ⟨congrArg Prod.fst htally, congrArg Prod.snd htally⟩

/-- The answer of the only allocator decides what the call does, and the call is booked with it. -/
theorem step_alone (hb : b.sources.Sound) (ha : a.Balanced b.sources.size) (call : Call) :
    let result := b.apply a.grants call
    (alone b a).step (.call 0 call) =
      .ok (alone result.1 (a.booked result.2), .done, Builder.events result.2) := by
  intro result
  have hbooked : a.account result.2 = .ok (a.booked result.2) := (booked_alone hb ha call).1
  change (do
    let after ← (do
      let booked ← a.account result.2
      return { alone result.1 a with allocators := [booked] } : Except OverRelease Session)
    return (after, Reply.done, Builder.events result.2)) = _
  rw [hbooked]
  rfl

theorem run_alone_cons (hb : b.sources.Sound) (ha : a.Balanced b.sources.size) (call : Call)
    (calls : List Call) :
    (alone b a).run ((call :: calls).map (.call 0)) =
      (alone (b.apply a.grants call).1 (a.booked (b.apply a.grants call).2)).run
        (calls.map (.call 0)) := by
  rw [List.map_cons, run, step_alone hb ha]
  rfl

theorem run_append (s : Session) (first second : List Action) :
    s.run (first ++ second) = s.run first >>= fun after => after.run second := by
  induction first generalizing s with
  | nil => rfl
  | cons action first ih =>
    rw [List.cons_append, run, run]
    cases s.step action with
    | error e => rfl
    | ok result => exact ih result.1

/-! ## While records are granted -/

/-- As long as the limit is not reached, the builder is the one that is granted every record. -/
theorem run_alone_granted (hb : b.sources.Sound) (hi : b.intact = true)
    (ha : a.Balanced b.sources.size) (calls : List Call)
    (hlimit : ∀ n, a.failFrom = some n → a.attempts + b.needs calls < n) :
    ∃ after, (alone b a).run (calls.map (.call 0)) = .ok (alone (b.granted calls) after) ∧
      after.Balanced (b.granted calls).sources.size ∧ after.failFrom = a.failFrom ∧
      after.attempts = a.attempts + b.needs calls := by
  induction calls generalizing b a with
  | nil => exact ⟨a, rfl, ha, rfl, rfl⟩
  | cons call calls ih =>
    rw [Builder.needs] at hlimit
    -- A call that needs a record is one of those below the limit, and no other depends on it.
    have happly : b.apply a.grants call = b.apply true call := by
      by_cases hasks : b.Asks call
      · have hgrants : a.grants = true := by
          unfold Allocator.grants
          cases hf : a.failFrom with
          | none => rfl
          | some n =>
            have hn := hlimit n hf
            rw [if_pos hasks] at hn
            exact decide_eq_true (by omega)
        rw [hgrants]
      · exact Builder.apply_eq_of_not_asks hb hasks a.grants
    obtain ⟨-, hbalance, hfailFrom, hattempts⟩ := booked_alone hb ha call
    have hrun := run_alone_cons hb ha call calls
    rw [happly] at hbalance hfailFrom hattempts hrun
    obtain ⟨after, hafter, hbalance, hsame, hmore⟩ :=
      ih (Builder.sound_apply hb true call) (Builder.intact_apply_true hb hi call) hbalance (by
        intro n hn
        rw [hfailFrom] at hn
        have := hlimit n hn
        omega)
    refine ⟨after, hrun.trans hafter, hbalance, hsame.trans hfailFrom, ?_⟩
    rw [hmore, hattempts, Builder.needs, Nat.add_assoc]

/-! ## From the first refused record on -/

theorem run_alone_frozen (hb : b.sources.Sound) (hi : b.intact = false)
    (ha : a.Balanced b.sources.size) (calls : List Call) :
    ∃ left after, (alone b a).run (calls.map (.call 0)) = .ok (alone left after) ∧
      left.intact = false ∧ left.descriptor.mode = b.descriptor.mode ∧
      left.descriptor.flags = b.descriptor.flags ∧
      left.sources = (if .clear ∈ calls then .empty else b.sources) ∧
      after.Balanced left.sources.size ∧ after.failFrom = a.failFrom ∧
      after.attempts = a.attempts := by
  induction calls generalizing b a with
  | nil => exact ⟨b, a, rfl, hi, rfl, rfl, rfl, ha, rfl, rfl⟩
  | cons call calls ih =>
    have hasks : ¬ b.Asks call := by
      rintro ⟨hintact, -⟩
      rw [hi] at hintact
      cases hintact
    obtain ⟨-, hbalance, hfailFrom, hattempts⟩ := booked_alone hb ha call
    have hsound := Builder.sound_apply hb a.grants call
    rw [if_neg hasks, Nat.add_zero] at hattempts
    rw [Builder.apply_of_frozen hi] at hbalance hsound
    obtain ⟨left, after, hrun, hleft, hmode, hflags, hsources, hafter, hsame, hno⟩ :=
      ih hsound rfl hbalance
    refine ⟨left, after, ?_, hleft, hmode, hflags, ?_, hafter, hsame.trans hfailFrom,
      hno.trans hattempts⟩
    · rw [run_alone_cons hb ha, Builder.apply_of_frozen hi]
      exact hrun
    · change left.sources =
        if .clear ∈ calls then .empty else if call = .clear then .empty else b.sources at hsources
      by_cases hc : call = .clear
      · rw [hsources, if_pos hc, ite_self, if_pos (List.mem_cons.mpr (Or.inl hc.symm))]
      · have hclear : Call.clear ∈ call :: calls ↔ Call.clear ∈ calls := by
          rw [List.mem_cons, or_iff_right (Ne.symm hc)]
        simp only [hsources, if_neg hc, hclear]

/-! ## Both runs side by side -/

/-- With an allocator that runs dry at the attempt `n`, the builder is after these calls the one
that is granted every record. -/
def Unhindered (n : Nat) (calls : List Call) : Prop :=
  ∃ a, solo (some n) calls = .ok (alone (Builder.fresh.granted calls) a) ∧
    a.attempts = Builder.fresh.needs calls ∧ a.live = (Builder.fresh.granted calls).sources.size

/-- A builder that had come to `b` when the attempt `n` was refused it, and what is left of it after
`later` calls. -/
structure Frozen (n : Nat) (b : Builder) (later : List Call) (left : Builder) (a : Allocator) :
    Prop where
  valid : left.valid = false
  mode : left.descriptor.mode = b.descriptor.mode
  flags : left.descriptor.flags = b.descriptor.flags
  sources : left.sources = if .clear ∈ later then .empty else b.sources
  attempts : a.attempts = n
  acquired : a.acquired = n - 1
  live : a.live = left.sources.size

theorem live_of_balanced {held : Nat} (ha : a.Balanced held) : a.live = held := by
  have hbooks := ha.books
  unfold Allocator.live
  omega

theorem unhindered_of_needs_lt {n : Nat} {calls : List Call}
    (h : Builder.fresh.needs calls < n) : Unhindered n calls := by
  obtain ⟨a, hrun, hbalance, -, hattempts⟩ :=
    run_alone_granted (b := .fresh) Registry.sound_empty rfl
      (Allocator.balanced_fresh (some n)) calls (by
        intro m hm
        cases hm
        exact (Nat.zero_add _).symm ▸ h)
  exact ⟨a, hrun, hattempts.trans (Nat.zero_add _), live_of_balanced hbalance⟩

/-- The calls seen up to some point need no more records than all of them. -/
theorem unhindered_of_prefix {n : Nat} {seen calls : List Call} (hseen : seen <+: calls)
    (h : Builder.fresh.needs calls < n) : Unhindered n seen := by
  obtain ⟨rest, rfl⟩ := hseen
  rw [Builder.needs_append] at h
  exact unhindered_of_needs_lt (by omega)

theorem frozen_of_asks {n : Nat} {before : List Call} {call : Call}
    (hneeds : Builder.fresh.needs before + 1 = n)
    (hasks : (Builder.fresh.granted before).Asks call) (later : List Call) :
    ∃ left a, solo (some n) (before ++ call :: later) = .ok (alone left a) ∧
      Frozen n (Builder.fresh.granted before) later left a := by
  have hsound : (Builder.fresh.granted before).sources.Sound :=
    Builder.sound_granted (b := .fresh) Registry.sound_empty before
  obtain ⟨a, hrun, hbalance, hfailFrom, hattempts⟩ :=
    run_alone_granted (b := .fresh) Registry.sound_empty rfl
      (Allocator.balanced_fresh (some n)) before (by
        intro m hm
        cases hm
        change 0 + _ < _
        omega)
  have hspent : a.attempts + 1 = n := by
    rw [hattempts, ← hneeds]
    change 0 + _ + 1 = _
    omega
  have hrefuses : a.grants = false := by
    unfold Allocator.grants
    rw [hfailFrom]
    exact decide_eq_false (by omega)
  -- The refused call itself, then the calls to a frozen builder.
  obtain ⟨-, hbooked, hlimit, hmore⟩ := booked_alone hsound hbalance call
  have hcall := run_alone_cons hsound hbalance call later
  rw [hrefuses] at hbooked hlimit hmore hcall
  have hfreeze := Builder.apply_refused hsound hasks
  rw [hfreeze] at hbooked hcall
  obtain ⟨left, last, hlater, hintact, hmode, hflags, hsources, hlast, hsame, hno⟩ :=
    run_alone_frozen (b := { Builder.fresh.granted before with intact := false }) hsound rfl
      hbooked later
  have hn : last.attempts = n := by rw [hno, hmore, if_pos hasks, hspent]
  have hacquired : last.acquired = n - 1 := by
    rw [hlast.limit, hsame, hlimit, hfailFrom, hn]
    change min n (max n 1 - 1) = n - 1
    omega
  refine ⟨left, last, ?_, ?_⟩
  · rw [solo_eq, List.map_append, run_append, hrun]
    exact hcall.trans hlater
  · exact
      { valid := Builder.valid_of_frozen hintact
        mode := hmode
        flags := hflags
        sources := hsources
        attempts := hn
        acquired := hacquired
        live := live_of_balanced hlast }

/-- A builder that is granted every record takes the last mode and all flags that it is given, and is
valid if it has a mode. One whose allocator refuses from the attempt `n` on is the same as long as
fewer than `n` calls need a record; otherwise it is the same before the call that needs the `n`-th,
and frozen from this call on: not valid, with mode, flags and records as they were, until the records
are released, and its allocator is not asked again. -/
theorem refusal_freezes (n : Nat) (hn : 1 ≤ n) (calls : List Call) :
    let free := Builder.fresh.granted calls
    ((∃ a, solo none calls = .ok (alone free a)) ∧
      free.descriptor.mode = (calls.filterMap Call.mode?).getLast?.getD .none ∧
      free.descriptor.flags = (calls.filterMap Call.flags?).foldl Flags.union .empty ∧
      (free.valid = true ↔ free.descriptor.mode ≠ .none) ∧
      ∀ span : Span, ∃ ms : UInt32,
        ms.toNat = min ((span.seconds.toNat * 1000000000 + span.nanos) / 1000000) (2 ^ 32 - 1) ∧
        ∀ (b : Builder) (grant : Bool), b.apply grant (.duration span) =
          b.apply grant (.durationMs ms)) ∧
    if Builder.fresh.needs calls < n then ∀ seen, seen <+: calls → Unhindered n seen
    else
      ∃ before call after, calls = before ++ call :: after ∧
        Builder.fresh.needs before + 1 = n ∧ (Builder.fresh.granted before).Asks call ∧
        (∀ seen, seen <+: before → Unhindered n seen) ∧
        ∀ later, later <+: after →
          ∃ left a, solo (some n) (before ++ call :: later) = .ok (alone left a) ∧
            Frozen n (Builder.fresh.granted before) later left a := by
  intro free
  have hsound : Builder.fresh.sources.Sound := Registry.sound_empty
  refine ⟨⟨?_, Builder.mode_granted hsound rfl calls, Builder.flags_granted hsound rfl calls,
    Builder.valid_iff_of_intact (Builder.intact_granted hsound rfl calls), ?_⟩, ?_⟩
  · obtain ⟨a, hrun, -⟩ := run_alone_granted (b := .fresh) hsound rfl
      (Allocator.balanced_fresh none) calls nofun
    exact ⟨a, hrun⟩
  · intro span
    exact ⟨span.milliseconds, span.toNat_milliseconds, fun b grant => rfl⟩
  · split
    · rename_i h
      exact fun seen hseen => unhindered_of_prefix hseen h
    · rename_i h
      obtain ⟨before, call, after, hcalls, hneeds, hasks⟩ :=
        Builder.exists_nth_need .fresh (n - 1) calls (by omega)
      refine ⟨before, call, after, hcalls, by omega, hasks, ?_, ?_⟩
      · exact fun seen hseen => unhindered_of_prefix hseen (by omega)
      · exact fun later _ => frozen_of_asks (by omega) hasks later

/-- The second pin is refused; setting the first again needed no record. -/
def refusedCalls : List Call :=
  [.mode .stop, .gpio 7 .rising, .flag ⟨0x80000001⟩, .gpio 7 .change, .gpio 8 .falling,
    .mode .hibernate, .clear, .durationMs 5000]

theorem refusal_freezes_second_pin :
    1 ≤ 2 ∧ ¬ Builder.fresh.needs refusedCalls < 2 ∧
    ∃ before call after, refusedCalls = before ++ call :: after ∧
      Builder.fresh.needs before + 1 = 2 ∧ (Builder.fresh.granted before).Asks call ∧
      (∀ seen, seen <+: before → Unhindered 2 seen) ∧
      ∀ later, later <+: after →
        ∃ left a, solo (some 2) (before ++ call :: later) = .ok (alone left a) ∧
          Frozen 2 (Builder.fresh.granted before) later left a := by
  have hmany : ¬ Builder.fresh.needs refusedCalls < 2 := by decide
  have h := (refusal_freezes 2 (by decide) refusedCalls).2
  rw [if_neg hmany] at h
  exact ⟨by decide, hmany, h⟩

end Session

end DeviceSleep
