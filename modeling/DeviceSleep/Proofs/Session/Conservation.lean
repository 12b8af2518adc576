import DeviceSleep.Proofs.Session.Slots

/-! Records are conserved over a session. `Accounted` is what each step does, whichever it is: the
balance of allocators and slots is kept, an attempt is counted if and only if a call needs a new
record, and an allocator that has refused once lets no builder grow. Over a run it follows that a
session never releases what was not acquired, and that closing it brings every record back. -/
namespace DeviceSleep
set_option autoImplicit false

namespace Session

/-- The action is a call that needs a new record from the allocator. -/
def Asks (s : Session) (k : Nat) (action : Action) : Prop :=
  ∃ slot call content, action = .call slot call ∧ s.find? slot = some content ∧
    content.owner = some k ∧ content.builder.Asks call

/-- The builder holds nothing, or stood in some slot as it is. -/
def Carried (s : Session) (content : Slot) : Prop :=
  content.builder.sources.size = 0 ∨ ∃ slot, (slot, content) ∈ s.slots

/-- No builder bound to the allocator has gained a record: each is carried over, or holds no more
than the one that was in its place. -/
def NoGain (s after : Session) (k : Nat) : Prop :=
  ∀ entry ∈ after.slots, entry.2.owner = some k → s.Carried entry.2 ∨
    ∃ before, (entry.1, before) ∈ s.slots ∧ before.owner = some k ∧
      entry.2.builder.sources.size ≤ before.builder.sources.size

/-- What a step does to allocators and slots. -/
structure Accounted (s : Session) (action : Action) (after : Session) : Prop where
  settled : after.Settled
  asked : ∀ k : Nat, s.Asks k action →
    after.allocators[k]?.map Allocator.tally =
      s.allocators[k]?.map fun a => a.attempt.tally
  unasked : ∀ k : Nat, ¬ s.Asks k action →
    after.allocators[k]?.map Allocator.tally = s.allocators[k]?.map Allocator.tally
  spent : ∀ (k : Nat) (a : Allocator), s.allocators[k]? = some a → a.acquired < a.attempts →
    s.NoGain after k

variable {s mid after : Session} {slot : Nat} {content : Slot} {action : Action}

/-! ## Steps that need no record -/

theorem not_asks_of_ne_call (hcall : ∀ slot call, action ≠ .call slot call) (k : Nat) :
    ¬ s.Asks k action := by
  rintro ⟨slot, call, content, haction, -⟩
  exact hcall slot call haction

theorem carried_of_mem {entry : Nat × Slot} (h : entry ∈ s.slots) : s.Carried entry.2 :=
  Or.inr ⟨entry.1, h⟩

theorem carried_of_mem_without {entry : Nat × Slot} (h : entry ∈ (s.without slot).slots) :
    s.Carried entry.2 :=
  carried_of_mem (List.mem_filter.mp h).1

theorem accounted_of_carried (hasks : ∀ k, ¬ s.Asks k action) (hsettled : after.Settled)
    (htallies : s.SameTallies after) (hcarried : ∀ entry ∈ after.slots, s.Carried entry.2) :
    s.Accounted action after :=
  ⟨hsettled, fun k hk => absurd hk (hasks k), fun k _ => htallies k,
    fun _ _ _ _ entry hentry _ => Or.inl (hcarried entry hentry)⟩

/-- A step that leaves slots and allocators as they are. -/
theorem Settled.accounted_of_eq (h : s.Settled) (hasks : ∀ k, ¬ s.Asks k action)
    (hslots : after.slots = s.slots) (hallocators : after.allocators = s.allocators) :
    s.Accounted action after := by
  obtain ⟨slots, allocators, hals⟩ := after
  dsimp only at hslots hallocators
  subst hslots hallocators
  exact accounted_of_carried hasks ⟨h.numbered, h.sound, h.balance⟩ (fun k => rfl)
    fun entry hentry => carried_of_mem hentry

/-- A step that ends with a builder put into a slot. -/
theorem Balanced.accounted_put (h : mid.Balanced fun k => content.share k + 0) (s : Session)
    (action : Action) (hasks : ∀ k, ¬ s.Asks k action) (hallocators : mid.allocators = s.allocators)
    (hsound : content.builder.sources.Sound) (hcontent : s.Carried content)
    (hcarried : ∀ entry ∈ mid.slots, s.Carried entry.2) (slot : Nat) :
    ∃ after, mid.put slot content = .ok after ∧ s.Accounted action after := by
  obtain ⟨after, hput, hslots, hsettled, htallies⟩ := h.put slot hsound
  refine ⟨after, hput, accounted_of_carried hasks hsettled ?_ ?_⟩
  · intro k
    rw [htallies k, hallocators]
  · intro entry hentry
    rw [hslots] at hentry
    rcases List.mem_cons.mp hentry with rfl | hentry
    · exact hcontent
    · exact hcarried entry (List.mem_filter.mp hentry).1

theorem share_fresh (owner : Option Nat) (k : Nat) : Slot.share ⟨owner, .fresh⟩ k = 0 := by
  unfold Slot.share
  split <;> rfl

theorem Settled.create (h : s.Settled) (slot : Nat) (owner : Option Nat) :
    ∃ result, s.step (.create slot owner) = .ok result ∧
      s.Accounted (.create slot owner) result.1 := by
  have hfresh : s.Balanced fun k => Slot.share ⟨owner, .fresh⟩ k + 0 :=
    h.congr fun k => (share_fresh owner k).symm
  obtain ⟨after, hput, haccounted⟩ := hfresh.accounted_put s (.create slot owner)
    (not_asks_of_ne_call fun _ _ => nofun) rfl Registry.sound_empty (Or.inl rfl)
    (fun entry hentry => carried_of_mem hentry) slot
  refine ⟨(after, .done, []), ?_, haccounted⟩
  unfold step
  dsimp only
  rw [hput]
  rfl

theorem Settled.take (h : s.Settled) (hfind : s.find? slot = some content) (target : Nat) :
    ∃ result, s.step (.take slot target) = .ok result ∧
      s.Accounted (.take slot target) result.1 := by
  have hmem := mem_of_find? hfind
  have hleft : (s.refill slot ⟨content.owner, .fresh⟩).Balanced fun k => content.share k + 0 := by
    refine Balanced.fill ?_ (notMem_without s slot) Registry.sound_empty
    refine (h.without hfind).congr fun k => ?_
    rw [share_fresh, Nat.zero_add]
  have hcarried : ∀ entry ∈ (s.refill slot ⟨content.owner, .fresh⟩).slots, s.Carried entry.2 := by
    intro entry hentry
    rcases List.mem_cons.mp hentry with rfl | hentry
    · exact Or.inl rfl
    · exact carried_of_mem_without hentry
  obtain ⟨after, hput, haccounted⟩ := hleft.accounted_put s (.take slot target)
    (not_asks_of_ne_call fun _ _ => nofun) rfl (h.sound _ hmem) (carried_of_mem hmem) hcarried
    target
  refine ⟨(after, .done, []), ?_, haccounted⟩
  unfold step
  simp only [hfind]
  -- The builder that goes is the content itself.
  change (do
    let after ← (s.refill slot ⟨content.owner, .fresh⟩).put target content
    return (after, Reply.done, ([] : List Event))) = _
  rw [hput]
  rfl

theorem Settled.move (h : s.Settled) (hfind : s.find? slot = some content) (target : Nat) :
    ∃ result, s.step (.move slot target) = .ok result ∧
      s.Accounted (.move slot target) result.1 := by
  have hmem := mem_of_find? hfind
  obtain ⟨after, hput, haccounted⟩ := (h.without hfind).accounted_put s
    (.move slot target) (not_asks_of_ne_call fun _ _ => nofun) rfl (h.sound _ hmem)
    (carried_of_mem hmem) (fun entry hentry => carried_of_mem_without hentry) target
  refine ⟨(after, .done, []), ?_, haccounted⟩
  unfold step
  simp only [hfind]
  rw [hput]
  rfl

theorem Settled.drop (h : s.Settled) (hfind : s.find? slot = some content) :
    ∃ result, s.step (.drop slot) = .ok result ∧
      s.Accounted (.drop slot) result.1 := by
  obtain ⟨after, hvacate, hslots, hsettled, htallies⟩ := h.vacate slot
  refine ⟨(after, .done, []), ?_, accounted_of_carried ?_ hsettled htallies ?_⟩
  · unfold step
    simp only [hfind]
    rw [hvacate]
    rfl
  · exact not_asks_of_ne_call fun _ _ => nofun
  · intro entry hentry
    rw [hslots] at hentry
    exact carried_of_mem_without hentry

/-! ## Calls -/

theorem grants_of_getElem? {k : Nat} {a : Allocator} (h : s.allocators[k]? = some a) :
    s.grants (some k) = a.grants := by
  unfold grants
  rw [Option.bind_some, h]

theorem asks_call_iff (hfind : s.find? slot = some content) (k : Nat) (call : Call) :
    s.Asks k (.call slot call) ↔ content.owner = some k ∧ content.builder.Asks call := by
  constructor
  · rintro ⟨slot, call, content, haction, hfind', hasks⟩
    cases haction
    rw [hfind] at hfind'
    cases hfind'
    exact hasks
  · exact fun hasks => ⟨slot, call, content, rfl, hfind, hasks⟩

/-- What a call did to a builder in a slot is booked with the allocator of the slot. -/
theorem Settled.booked_call (h : s.Settled) (hfind : s.find? slot = some content)
    (call : Call) {k : Nat} {a : Allocator} (hk : content.owner = some k)
    (ha : s.allocators[k]? = some a) :
    let result := content.builder.apply (s.grants content.owner) call
    a.account result.2 = .ok (a.booked result.2) ∧
      (a.booked result.2).Balanced ((s.without slot).held k + result.1.sources.size) ∧
      (content.builder.Asks call → (a.booked result.2).tally = a.attempt.tally) ∧
      (¬ content.builder.Asks call → (a.booked result.2).tally = a.tally) := by
  have hbalance := h.balance k a ha
  have hshare : content.share k = content.builder.sources.size := if_pos hk
  rw [h.held_eq hfind k, hshare, Nat.add_zero] at hbalance
  rw [hk, grants_of_getElem? ha]
  exact hbalance.booked_apply (h.sound _ (mem_of_find? hfind)) call

theorem Settled.call (h : s.Settled) (hfind : s.find? slot = some content) (call : Call) :
    ∃ answer, s.step (.call slot call) = .ok answer ∧
      s.Accounted (.call slot call) answer.1 := by
  let result := content.builder.apply (s.grants content.owner) call
  let filled : Slot := ⟨content.owner, result.1⟩
  have hsound := h.sound _ (mem_of_find? hfind)
  have hwithout := h.without hfind
  have hheld : ∀ k, (s.refill slot filled).held k = (s.without slot).held k + filled.share k :=
    held_fill (s.without slot) slot filled
  obtain ⟨after, hafter, hslots, hsettled, hallocators⟩ :=
    account_balanced (s.refill slot filled) (fun _ => 0) content.owner result.2
      (List.nodup_cons.mpr ⟨notMem_without s slot, hwithout.numbered⟩)
      (List.forall_mem_cons.mpr ⟨Builder.sound_apply hsound _ call, hwithout.sound⟩)
      (fun k a hk ha => by
        obtain ⟨haccount, hbalance, -⟩ := h.booked_call hfind call hk ha
        have hshare : filled.share k = result.1.sources.size := if_pos hk
        rw [hheld, hshare]
        exact ⟨haccount, hbalance⟩)
      -- No other allocator has a share in the builder, before the call or after it.
      (fun k a hk ha => by
        have hbalance := hwithout.balance k a ha
        have hshare : content.share k = 0 := if_neg hk
        have hshare' : filled.share k = 0 := if_neg hk
        rw [hshare] at hbalance
        rw [hheld, hshare']
        exact hbalance)
  refine ⟨(after, .done, Builder.events result.2), ?_, hsettled, ?_, ?_, ?_⟩
  · unfold step
    simp only [hfind]
    change (do
      let after ← (s.refill slot filled).account content.owner result.2
      return (after, Reply.done, Builder.events result.2)) = _
    rw [hafter]
    rfl
  · intro k hasks
    obtain ⟨hk, hasks⟩ := (asks_call_iff hfind k call).mp hasks
    rw [hallocators k, if_pos hk]
    change (s.allocators[k]?.map _).map _ = _
    cases ha : s.allocators[k]? with
    | none => rfl
    | some a => exact congrArg some ((h.booked_call hfind call hk ha).2.2.1 hasks)
  · intro k hasks
    rw [hallocators k]
    change (if _ then s.allocators[k]?.map _ else s.allocators[k]?).map _ = _
    by_cases hk : content.owner = some k
    · rw [if_pos hk]
      cases ha : s.allocators[k]? with
      | none => rfl
      | some a =>
        have hn : ¬ content.builder.Asks call :=
          fun hn => hasks ((asks_call_iff hfind k call).mpr ⟨hk, hn⟩)
        exact congrArg some ((h.booked_call hfind call hk ha).2.2.2 hn)
    · rw [if_neg hk]
  -- An allocator that has refused will refuse this call too, should it be asked.
  · intro k a ha hlt entry hentry hk
    rw [hslots] at hentry
    rcases List.mem_cons.mp hentry with rfl | hentry
    · have hgrants : s.grants content.owner = false := by
        change content.owner = some k at hk
        rw [hk, grants_of_getElem? ha, (h.balance k a ha).grants_eq_false hlt]
      refine Or.inr ⟨content, mem_of_find? hfind, hk, ?_⟩
      change (content.builder.apply (s.grants content.owner) call).1.sources.size ≤ _
      rw [hgrants]
      exact Builder.size_apply_le hsound call
    · exact Or.inl (carried_of_mem_without hentry)

/-! ## Steps -/

theorem Settled.consult (h : s.Settled) (hasks : ∀ k, ¬ s.Asks k action) (slot hal : Nat)
    (ask : Recorder → Builder → Attempt) :
    s.Accounted action (s.consult slot hal ask).1 := by
  unfold Session.consult
  split
  · exact h.accounted_of_eq hasks rfl rfl
  · split
    · exact h.accounted_of_eq hasks rfl rfl
    · exact h.accounted_of_eq hasks rfl rfl

/-- Every step can be taken, and is accounted for. -/
theorem Settled.step (h : s.Settled) (action : Action) :
    ∃ result, s.step action = .ok result ∧ s.Accounted action result.1 := by
  have hquiet : (∀ k, ¬ s.Asks k action) → s.Accounted action s :=
    fun hasks => h.accounted_of_eq hasks rfl rfl
  cases action with
  | create slot owner => exact h.create slot owner
  | take slot target =>
    cases hfind : s.find? slot with
    | none =>
      refine ⟨(s, .noSlot, []), ?_, hquiet (not_asks_of_ne_call fun _ _ => nofun)⟩
      simp only [Session.step, hfind]
    | some content => exact h.take hfind target
  | move slot target =>
    cases hfind : s.find? slot with
    | none =>
      refine ⟨(s, .noSlot, []), ?_, hquiet (not_asks_of_ne_call fun _ _ => nofun)⟩
      simp only [Session.step, hfind]
    | some content => exact h.move hfind target
  | drop slot =>
    cases hfind : s.find? slot with
    | none =>
      refine ⟨(s, .noSlot, []), ?_, hquiet (not_asks_of_ne_call fun _ _ => nofun)⟩
      simp only [Session.step, hfind]
    | some content => exact h.drop hfind
  | call slot call =>
    cases hfind : s.find? slot with
    | none =>
      refine ⟨(s, .noSlot, []), ?_, hquiet ?_⟩
      · simp only [Session.step, hfind]
      · rintro k ⟨slot, call, content, haction, hfind', -⟩
        cases haction
        rw [hfind] at hfind'
        cases hfind'
    | some content => exact h.call hfind call
  | script hal reason =>
    have hasks : ∀ k, ¬ s.Asks k (.script hal reason) := not_asks_of_ne_call fun _ _ => nofun
    unfold Session.step
    dsimp only
    split
    · exact ⟨_, rfl, hquiet hasks⟩
    · exact ⟨_, rfl, h.accounted_of_eq hasks rfl rfl⟩
  | enter slot hal =>
    have hasks : ∀ k, ¬ s.Asks k (.enter slot hal) := not_asks_of_ne_call fun _ _ => nofun
    exact ⟨_, rfl, h.consult hasks slot hal _⟩
  | enterSleep slot hal =>
    have hasks : ∀ k, ¬ s.Asks k (.enterSleep slot hal) := not_asks_of_ne_call fun _ _ => nofun
    exact ⟨_, rfl, h.consult hasks slot hal _⟩

/-! ## Runs -/

/-- The allocators are those that they were, with the same limits. -/
def SameLimits (s after : Session) : Prop :=
  after.allocators.map Allocator.failFrom = s.allocators.map Allocator.failFrom

theorem Accounted.sameLimits (h : s.Accounted action after) :
    s.SameLimits after := by
  refine List.ext_getElem? fun k => ?_
  rw [List.getElem?_map, List.getElem?_map]
  have hfst : ∀ a? : Option Allocator,
      a?.map Allocator.failFrom = (a?.map Allocator.tally).map Prod.fst := by
    intro a?
    rw [Option.map_map]
    rfl
  rw [hfst, hfst]
  by_cases hasks : s.Asks k action
  · rw [h.asked k hasks, Option.map_map, Option.map_map]
    rfl
  · rw [h.unasked k hasks]

/-- Every run can be taken to its end, and leaves the books in balance. -/
theorem Settled.run (h : s.Settled) (actions : List Action) :
    ∃ after, s.run actions = .ok after ∧ after.Settled ∧ s.SameLimits after := by
  induction actions generalizing s with
  | nil => exact ⟨s, rfl, h, rfl⟩
  | cons action actions ih =>
    obtain ⟨result, hstep, haccounted⟩ := h.step action
    obtain ⟨after, hrun, hsettled, hlimits⟩ := ih haccounted.settled
    refine ⟨after, ?_, hsettled, hlimits.trans haccounted.sameLimits⟩
    unfold Session.run
    rw [hstep]
    exact hrun

theorem Settled.vacateAll (h : s.Settled) (entries : List (Nat × Slot)) :
    ∃ after, entries.foldlM (fun state entry => state.vacate entry.1) s = .ok after ∧
      after.Settled ∧
      ∀ entry ∈ after.slots, entry ∈ s.slots ∧ entry.1 ∉ entries.map Prod.fst := by
  induction entries generalizing s with
  | nil => exact ⟨s, rfl, h, fun entry hentry => ⟨hentry, List.not_mem_nil⟩⟩
  | cons first entries ih =>
    obtain ⟨vacated, hvacated, hslots, hsettled, -⟩ := h.vacate first.1
    obtain ⟨after, hafter, hsettled, hrest⟩ := ih hsettled
    refine ⟨after, ?_, hsettled, ?_⟩
    · rw [List.foldlM_cons, hvacated]
      exact hafter
    · intro entry hentry
      obtain ⟨hmem, hnot⟩ := hrest entry hentry
      rw [hslots] at hmem
      refine ⟨(List.mem_filter.mp hmem).1, ?_⟩
      rw [List.map_cons, List.mem_cons, not_or]
      exact ⟨bne_iff_ne.mp (List.mem_filter.mp hmem).2, hnot⟩

/-- Closing brings every record back. -/
theorem Settled.close (h : s.Settled) :
    ∃ closed, s.close = .ok closed ∧ closed.slots = [] ∧
      ∀ a ∈ closed.allocators, a.released = a.acquired := by
  obtain ⟨closed, hclosed, hsettled, hrest⟩ := h.vacateAll s.slots
  have hempty : closed.slots = [] := by
    refine List.eq_nil_iff_forall_not_mem.mpr fun entry hentry => ?_
    obtain ⟨hmem, hnot⟩ := hrest entry hentry
    exact hnot (List.mem_map_of_mem hmem)
  refine ⟨closed, hclosed, hempty, ?_⟩
  intro a ha
  obtain ⟨k, hk⟩ := List.mem_iff_getElem?.mp ha
  have hbooks := (hsettled.balance k a hk).books
  unfold held at hbooks
  rw [hempty] at hbooks
  exact hbooks.symm

theorem settled_start (limits : List (Option Nat)) (platforms : List Platform) :
    (start limits platforms).Settled := by
  refine ⟨List.nodup_nil, fun entry hentry => absurd hentry List.not_mem_nil, ?_⟩
  intro k a ha
  change (limits.map Allocator.fresh)[k]? = some a at ha
  rw [List.getElem?_map] at ha
  obtain ⟨failFrom, -, rfl⟩ := Option.map_eq_some_iff.mp ha
  exact Allocator.balanced_fresh failFrom

/-! ## Conservation -/

/-- What a step does to the books of one allocator. -/
theorem Accounted.allocator (haccounted : s.Accounted action after)
    (h : s.Settled) {k : Nat} {a : Allocator} (ha : s.allocators[k]? = some a) :
    ∃ b, after.allocators[k]? = some b ∧
      ((s.Asks k action ∧ b.attempts = a.attempts + 1) ∨
        (¬ s.Asks k action ∧ b.attempts = a.attempts)) ∧
      (a.acquired < a.attempts →
        b.acquired = a.acquired ∧ b.acquired < b.attempts ∧ s.NoGain after k) := by
  have htally : ∃ b, after.allocators[k]? = some b ∧ b.failFrom = a.failFrom ∧
      ((s.Asks k action ∧ b.attempts = a.attempts + 1) ∨
        (¬ s.Asks k action ∧ b.attempts = a.attempts)) := by
    by_cases hasks : s.Asks k action
    · have hasked := haccounted.asked k hasks
      rw [ha] at hasked
      obtain ⟨b, hb, htally⟩ := Option.map_eq_some_iff.mp hasked
      exact ⟨b, hb, congrArg Prod.fst htally, Or.inl ⟨hasks, congrArg Prod.snd htally⟩⟩
    · have hunasked := haccounted.unasked k hasks
      rw [ha] at hunasked
      obtain ⟨b, hb, htally⟩ := Option.map_eq_some_iff.mp hunasked
      exact ⟨b, hb, congrArg Prod.fst htally, Or.inr ⟨hasks, congrArg Prod.snd htally⟩⟩
  obtain ⟨b, hb, hlimit, hattempts⟩ := htally
  refine ⟨b, hb, hattempts, fun hspent => ?_⟩
  have hmore : a.attempts ≤ b.attempts := by
    rcases hattempts with ⟨-, heq⟩ | ⟨-, heq⟩
    · omega
    · omega
  -- Both numbers are those that the limit allows, and it allows no more once an attempt failed.
  have hacquired : b.acquired = a.acquired := by
    have hlt := hspent
    rw [(h.balance k a ha).limit] at hlt ⊢
    rw [(haccounted.settled.balance k b hb).limit, hlimit]
    exact Allocator.successes_eq_of_lt hlt hmore
  exact ⟨hacquired, by omega, haccounted.spent k a ha hspent⟩

/-- However calls, takings, moves and drops follow each other, with any number of allocators, each
with any limit or none: nothing is released that was not acquired, what is out is what the builders
hold, and every attempt up to the limit succeeds. In the next step, whichever it is, exactly a call
that needs a new record is an attempt, and after a refusal nothing is acquired and no builder grows.
Once the session is closed, all records are back. -/
theorem records_are_conserved (limits : List (Option Nat)) (platforms : List Platform)
    (actions : List Action) :
    ∃ s, (start limits platforms).run actions = .ok s ∧
      s.allocators.map Allocator.failFrom = limits ∧
      (∀ (k : Nat) (a : Allocator), s.allocators[k]? = some a →
        a.released ≤ a.acquired ∧ a.live = s.held k ∧
          a.acquired = Allocator.successes a.failFrom a.attempts) ∧
      (∀ action, ∃ result, s.step action = .ok result ∧
        ∀ (k : Nat) (a : Allocator), s.allocators[k]? = some a →
          ∃ b, result.1.allocators[k]? = some b ∧
            ((s.Asks k action ∧ b.attempts = a.attempts + 1) ∨
              (¬ s.Asks k action ∧ b.attempts = a.attempts)) ∧
            (a.acquired < a.attempts →
              b.acquired = a.acquired ∧ b.acquired < b.attempts ∧ s.NoGain result.1 k)) ∧
      ∃ closed, s.close = .ok closed ∧ closed.slots = [] ∧
        ∀ a ∈ closed.allocators, a.released = a.acquired := by
  obtain ⟨s, hrun, hsettled, hlimits⟩ := (settled_start limits platforms).run actions
  refine ⟨s, hrun, ?_, ?_, ?_, hsettled.close⟩
  · rw [hlimits]
    change (limits.map Allocator.fresh).map Allocator.failFrom = limits
    rw [List.map_map]
    exact List.map_id limits
  · intro k a ha
    have hbooks := (hsettled.balance k a ha).books
    have hlive : a.live = s.held k := by
      unfold Allocator.live
      omega
    exact ⟨by omega, hlive, (hsettled.balance k a ha).limit⟩
  · intro action
    obtain ⟨result, hstep, haccounted⟩ := hsettled.step action
    exact ⟨result, hstep, fun k a ha => haccounted.allocator hsettled ha⟩

end Session

end DeviceSleep
