import DeviceSleep.Proofs.Image.Contents

/-! Runs of a device that is asked to sleep again and again. Whether a request is accepted is for
the platform alone to say, since its image can always be read. The history is the accepted requests
in order, and nothing else; the reasons that were scripted are told in order, one for each accepted
sleep, and those not told yet wait. -/
namespace DeviceSleep
set_option autoImplicit false

open Image

/-- The reason that a source is for waking up. -/
def Payload.reason : Payload → WakeReason
  | gpio pin _ => .gpio pin
  | timer _ => .timer
  | network i => .network i
  | radioLink => .radioLink

/-- What a device may tell that has no script: the timer if there is one, else the newest source, and
that it does not know if there is none. -/
structure Descriptor.Likely (d : Descriptor) (reason : WakeReason) : Prop where
  timer : (∃ ms, .timer ms ∈ d.sources.payloads) → reason = .timer
  newest : (∀ ms, .timer ms ∉ d.sources.payloads) →
    ∀ p, d.sources.payloads.head? = some p → reason = p.reason
  unknown : reason = .unknown ↔ d.sources.payloads = []

/-- One use of a device. Requests are those that builders make. -/
inductive Use where
  | script (reason : WakeReason)
  | enter (b : Builder) (made : b.Reachable)
  | enterSleep (b : Builder) (made : b.Reachable)

namespace Use

def reason? : Use → Option WakeReason
  | script reason => some reason
  | _ => none

/-- The request that goes into the history. -/
def accepted? (p : Platform) : Use → Option Descriptor
  | script _ => none
  | enter b _ => if (p.check b.descriptor).isOk then some b.descriptor else none
  | enterSleep b _ =>
    if b.valid && (p.check b.descriptor).isOk then some b.descriptor else none

theorem filterMap_concat {α : Type} {f : Use → Option α} {u : Use} (h : f u = none)
    (uses : List Use) : (uses ++ [u]).filterMap f = uses.filterMap f := by
  rw [List.filterMap_append, List.filterMap_cons_none h, List.filterMap_nil, List.append_nil]

end Use

/-! ## Judging -/

theorem Platform.firstViolation_readable (p : Platform) (s : ModeSupport) (fault : Fault)
    (sources : List Source) : p.firstViolation s sources ≠ some (.malformedImage fault) := by
  induction sources with
  | nil => exact nofun
  | cons source older ih =>
    unfold firstViolation
    split
    · exact nofun
    · split
      · split
        · exact ih
        · exact nofun
      · exact ih

/-- A platform does not look at images. -/
theorem Platform.check_readable (p : Platform) (d : Descriptor) (fault : Fault) :
    p.check d ≠ .error (.malformedImage fault) := by
  unfold check
  split
  · exact nofun
  · split
    · exact nofun
    · split
      · exact nofun
      · split
        · rename_i refusal hviolation
          intro h
          cases h
          exact p.firstViolation_readable _ fault _ hviolation
        · exact nofun

namespace Recorder

variable {hal : Recorder} {d : Descriptor}

theorem enter_refused {refusal : Refusal} (h : hal.platform.check d = .error refusal) :
    hal.enter d = ⟨hal, .error refusal, []⟩ := by
  unfold enter
  rw [h]

theorem enter_accepted (hd : d.sources.Sound) (h : hal.platform.check d = .ok ()) :
    hal.enter d = hal.accept d.record := by
  unfold enter
  rw [h]
  dsimp only
  rw [Descriptor.ofImage_encode hd]

/-! ## Accepting -/

theorem accept_history (hal : Recorder) (r : SleepRecord) :
    (hal.accept r).hal.history = hal.history ++ [r] ∧
      (hal.accept r).hal.platform = hal.platform := by
  unfold accept
  split
  · exact ⟨rfl, rfl⟩
  · exact ⟨rfl, rfl⟩

/-- The oldest scripted reason is told and forgotten. -/
theorem accept_scripted {reason : WakeReason} {later : List WakeReason}
    (h : hal.scripted = reason :: later) (r : SleepRecord) :
    (hal.accept r).answer = .ok reason ∧ (hal.accept r).hal.scripted = later := by
  unfold accept
  rw [h]
  exact ⟨rfl, rfl⟩

theorem accept_unscripted (h : hal.scripted = []) (r : SleepRecord) :
    (hal.accept r).answer = .ok r.likelyReason ∧ (hal.accept r).hal.scripted = [] := by
  unfold accept
  rw [h]
  exact ⟨rfl, rfl⟩

theorem exists_answer (hal : Recorder) (r : SleepRecord) :
    ∃ reason, (hal.accept r).answer = .ok reason := by
  unfold accept
  split
  · exact ⟨_, rfl⟩
  · exact ⟨_, rfl⟩

end Recorder

/-- Without a timer, the newest source counts. -/
theorem SleepRecord.likelyReason_of_no_timer {r : SleepRecord}
    (h : ¬ (r.sources.any fun p => p.kind == .timer) = true) :
    r.likelyReason = (r.sources.head?.map Payload.reason).getD .unknown := by
  unfold likelyReason
  rw [if_neg h]
  cases r.sources with
  | nil => rfl
  | cons p older => cases p <;> rfl

theorem Descriptor.likely_record (d : Descriptor) : d.Likely d.record.likelyReason := by
  have htimer : (d.record.sources.any fun p => p.kind == .timer) = true ↔
      ∃ ms, .timer ms ∈ d.sources.payloads := by
    rw [List.any_eq_true]
    constructor
    · rintro ⟨p, hp, hkind⟩
      cases p with
      | timer ms => exact ⟨ms, hp⟩
      | _ => cases hkind
    · rintro ⟨ms, hms⟩
      exact ⟨_, hms, rfl⟩
  by_cases h : ∃ ms, Payload.timer ms ∈ d.sources.payloads
  · have htold : d.record.likelyReason = .timer := if_pos (htimer.mpr h)
    obtain ⟨ms, hms⟩ := h
    rw [htold]
    refine ⟨fun _ => rfl, fun hno => absurd hms (hno ms), nofun, fun hnil => ?_⟩
    rw [hnil] at hms
    cases hms
  · rw [SleepRecord.likelyReason_of_no_timer (mt htimer.mp h)]
    change d.Likely ((d.sources.payloads.head?.map Payload.reason).getD .unknown)
    refine ⟨fun hex => absurd hex h, ?_, ?_⟩
    · intro _ p hhead
      rw [hhead]
      rfl
    · cases d.sources.payloads with
      | nil => exact iff_of_true rfl rfl
      | cons p older =>
        refine iff_of_false ?_ nofun
        cases p <;> exact nofun

/-! ## One request -/

namespace Recorder

/-- What a device may make of a request: it judges as the platform does, and if it refuses, it is as
it was before. If it accepts, one record is added to its history, and it tells the oldest reason that
waits, or a likely one if none does. -/
structure Judges (hal : Recorder) (d : Descriptor) (attempt : Attempt) : Prop where
  platform : attempt.hal.platform = hal.platform
  answer : (attempt.answer.map fun _ => ()) = hal.platform.check d
  readable : ∀ fault, attempt.answer ≠ .error (.malformedImage fault)
  refused : ∀ refusal, attempt.answer = .error refusal → attempt.hal = hal
  accepted : ∀ reason, attempt.answer = .ok reason →
    attempt.hal.history = hal.history ++ [d.record]
  told : ∀ reason, attempt.answer = .ok reason →
    hal.scripted = reason :: attempt.hal.scripted ∨
      hal.scripted = [] ∧ attempt.hal.scripted = [] ∧ d.Likely reason

variable {hal : Recorder}

theorem judges_enter {d : Descriptor} (hal : Recorder) (hd : d.sources.Sound) :
    hal.Judges d (hal.enter d) := by
  cases hcheck : hal.platform.check d with
  | error refusal =>
    rw [enter_refused hcheck]
    refine ⟨rfl, hcheck.symm, ?_, fun _ _ => rfl, nofun, nofun⟩
    rintro fault ⟨⟩
    exact hal.platform.check_readable d fault hcheck
  | ok =>
    rw [enter_accepted hd hcheck]
    obtain ⟨hhistory, hplatform⟩ := accept_history hal d.record
    obtain ⟨given, hgiven⟩ := exists_answer hal d.record
    refine ⟨hplatform, ?_, ?_, ?_, fun _ _ => hhistory, ?_⟩
    · rw [hgiven, hcheck]
      rfl
    · rw [hgiven]
      exact nofun
    · rw [hgiven]
      exact nofun
    · intro reason hreason
      cases hscripted : hal.scripted with
      | nil =>
        obtain ⟨hanswer, hleft⟩ := accept_unscripted hscripted d.record
        rw [hanswer] at hreason
        cases hreason
        exact Or.inr ⟨rfl, hleft, d.likely_record⟩
      | cons first later =>
        obtain ⟨hanswer, hleft⟩ := accept_scripted hscripted d.record
        rw [hanswer] at hreason
        cases hreason
        exact Or.inl (by rw [hleft])

theorem enterSleep_invalid {b : Builder} (h : b.valid = false) :
    (hal.enterSleep b).answer = .error .invalidConfiguration ∧ (hal.enterSleep b).hal = hal := by
  unfold enterSleep
  rw [h]
  exact ⟨rfl, rfl⟩

theorem enterSleep_valid {b : Builder} (h : b.valid = true) :
    (hal.enterSleep b).answer = (hal.enter b.descriptor).answer ∧
      (hal.enterSleep b).hal = (hal.enter b.descriptor).hal := by
  unfold enterSleep
  rw [h]
  exact ⟨rfl, rfl⟩

/-! ## Runs -/

def use (hal : Recorder) : Use → Recorder
  | .script reason => hal.script reason
  | .enter b _ => (hal.enter b.descriptor).hal
  | .enterSleep b _ => (hal.enterSleep b).hal

def after (hal : Recorder) (uses : List Use) : Recorder := uses.foldl use hal

/-- The reason that an acceptance takes was the first of those that waited. -/
theorem Judges.waiting {d : Descriptor} {attempt : Attempt} (h : hal.Judges d attempt)
    {reason : WakeReason} (hanswer : attempt.answer = .ok reason) {told : List WakeReason}
    (hlength : told.length ≤ hal.history.length) :
    ∃ now, told ++ hal.scripted = now ++ attempt.hal.scripted ∧
      now.length ≤ attempt.hal.history.length := by
  have hlonger : attempt.hal.history.length = hal.history.length + 1 := by
    rw [h.accepted reason hanswer, List.length_append]
    rfl
  rcases h.told reason hanswer with hnext | ⟨hempty, hleft, -⟩
  · refine ⟨told ++ [reason], ?_, ?_⟩
    · rw [hnext, List.append_assoc]
      rfl
    · rw [List.length_append, List.length_singleton, hlonger]
      omega
  · exact ⟨told, by rw [hempty, hleft], by omega⟩

/-- A device is what its uses made it: its history are the accepted requests in order, and the
reasons that wait are the last of those scripted, behind one at most for each accepted sleep. -/
structure Faithful (p : Platform) (uses : List Use) (hal : Recorder) : Prop where
  platform : hal.platform = p
  history : hal.history = (uses.filterMap (Use.accepted? p)).map Descriptor.record
  waiting : ∃ told, uses.filterMap Use.reason? = told ++ hal.scripted ∧
    told.length ≤ hal.history.length

variable {p : Platform} {uses : List Use}

theorem faithful_fresh (p : Platform) : (fresh p).Faithful p [] := ⟨rfl, rfl, [], rfl, Nat.le_refl 0⟩

/-- A use that scripts nothing and is not accepted is as if it had not been. -/
theorem Faithful.ignored (h : hal.Faithful p uses) {u : Use} (hreason : u.reason? = none)
    (haccepted : u.accepted? p = none) : hal.Faithful p (uses ++ [u]) := by
  refine ⟨h.platform, ?_, ?_⟩
  · rw [Use.filterMap_concat haccepted]
    exact h.history
  · rw [Use.filterMap_concat hreason]
    exact h.waiting

theorem Faithful.scripted (h : hal.Faithful p uses) (reason : WakeReason) :
    (hal.script reason).Faithful p (uses ++ [.script reason]) := by
  obtain ⟨told, htold, hlength⟩ := h.waiting
  refine ⟨h.platform, ?_, told, ?_, hlength⟩
  · rw [Use.filterMap_concat rfl]
    exact h.history
  · rw [List.filterMap_append, htold, List.append_assoc]
    rfl

theorem Faithful.judged (h : hal.Faithful p uses) {d : Descriptor} {attempt : Attempt}
    (hjudges : hal.Judges d attempt) {u : Use} (hreason : u.reason? = none)
    (haccepted : u.accepted? p = if (p.check d).isOk then some d else none) :
    attempt.hal.Faithful p (uses ++ [u]) := by
  have hcheck := hjudges.answer
  rw [h.platform] at hcheck
  cases hanswer : attempt.answer with
  | error refusal =>
    rw [hanswer] at hcheck
    rw [← hcheck] at haccepted
    rw [hjudges.refused refusal hanswer]
    exact h.ignored hreason haccepted
  | ok reason =>
    rw [hanswer] at hcheck
    rw [← hcheck] at haccepted
    have hhistory := hjudges.accepted reason hanswer
    obtain ⟨told, htold, hlength⟩ := h.waiting
    refine ⟨hjudges.platform.trans h.platform, ?_, ?_⟩
    · rw [hhistory, h.history, List.filterMap_append, List.filterMap_cons_some haccepted,
        List.filterMap_nil, List.map_append]
      rfl
    · rw [Use.filterMap_concat hreason, htold]
      exact hjudges.waiting hanswer hlength

theorem Faithful.use (h : hal.Faithful p uses) (u : Use) :
    (hal.use u).Faithful p (uses ++ [u]) := by
  cases u with
  | script reason => exact h.scripted reason
  | enter b made => exact h.judged (judges_enter hal made.sound) rfl rfl
  | enterSleep b made =>
    cases hvalid : b.valid with
    | false =>
      have hnone : Use.accepted? p (.enterSleep b made) = none := by
        simp [Use.accepted?, hvalid]
      have hsame : hal.use (.enterSleep b made) = hal := (enterSleep_invalid hvalid).2
      rw [hsame]
      exact h.ignored rfl hnone
    | true =>
      have hsame : hal.use (.enterSleep b made) = (hal.enter b.descriptor).hal :=
        (enterSleep_valid hvalid).2
      rw [hsame]
      refine h.judged (judges_enter hal made.sound) rfl ?_
      simp only [Use.accepted?, hvalid, Bool.true_and]

theorem Faithful.after (h : hal.Faithful p uses) (more : List Use) :
    (hal.after more).Faithful p (uses ++ more) := by
  induction more generalizing hal uses with
  | nil =>
    rw [List.append_nil]
    exact h
  | cons u more ih =>
    rw [List.append_cons]
    exact ih (h.use u)

/-- However a device has been used, its history is the accepted requests in order, and the reasons
that wait are the last of those scripted. It accepts a request exactly if its platform does, and
answers with the platform's refusal otherwise, which is never that the image is malformed. A refusal
changes nothing. An acceptance adds the mode, flags and payloads of the request and the length of its
image to the history, and takes the oldest reason that waits; if none does, the answer is the timer,
else the newest source, and unknown exactly if there is none. A builder that is not valid is refused
at once, and one that is valid is treated as its request. -/
theorem requests_are_judged (p : Platform) (uses : List Use) :
    let hal := (fresh p).after uses
    hal.platform = p ∧
    hal.history = (uses.filterMap (Use.accepted? p)).map Descriptor.record ∧
    (∃ told, uses.filterMap Use.reason? = told ++ hal.scripted ∧
      told.length ≤ hal.history.length) ∧
    ∀ b : Builder, b.Reachable →
      hal.Judges b.descriptor (hal.enter b.descriptor) ∧
      (b.valid = false → (hal.enterSleep b).answer = .error .invalidConfiguration ∧
        (hal.enterSleep b).hal = hal) ∧
      (b.valid = true → (hal.enterSleep b).answer = (hal.enter b.descriptor).answer ∧
        (hal.enterSleep b).hal = (hal.enter b.descriptor).hal) := by
  intro hal
  have h : hal.Faithful p uses := (faithful_fresh p).after uses
  refine ⟨h.platform, h.history, h.waiting, ?_⟩
  intro b made
  exact ⟨judges_enter hal made.sound, enterSleep_invalid, enterSleep_valid⟩

end Recorder

end DeviceSleep
