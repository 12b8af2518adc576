import DeviceSleep.Proofs.Builder.Calls
import Mathlib.Algebra.Group.Nat.Defs

/-! Calls to a builder whose allocator grants every record. Nothing freezes it: the mode is the last
one asked for, the flags are all that were given, and it is valid as soon as it has a mode. Some of
the calls need a new record (`needs`); these are the ones at which another allocator could refuse,
and no other call depends on the answer. -/
namespace DeviceSleep
set_option autoImplicit false

namespace Call

def mode? : Call → Option Mode
  | mode m => some m
  | _ => none

def flags? : Call → Option Flags
  | flag f => some f
  | _ => none

end Call

/-- A span in milliseconds is rounded down, and is as long as 32 bits can tell at most. -/
theorem Span.toNat_milliseconds (span : Span) :
    span.milliseconds.toNat =
      min ((span.seconds.toNat * 1000000000 + span.nanos) / 1000000) (2 ^ 32 - 1) := by
  have hfloor : (span.seconds.toNat * 1000000000 + span.nanos) / 1000000 =
      span.seconds.toNat * 1000 + span.nanos / 1000000 := by omega
  have hsmall : min (span.seconds.toNat * 1000 + span.nanos / 1000000) 0xFFFFFFFF < 2 ^ 32 := by
    omega
  rw [hfloor]
  exact (UInt32.toNat_ofNat' (n := _)).trans (Nat.mod_eq_of_lt hsmall)

namespace Builder

instance decidableAsks (b : Builder) (call : Call) : Decidable (b.Asks call) :=
  match h : call.payload? with
  | none => isFalse (not_asks_of_payload?_none h)
  | some p =>
    decidable_of_iff (b.intact = true ∧ p.key ∉ b.sources.keys) (by simp [Asks, h])

/-- A builder after some calls, all of whose records are granted. -/
def granted (b : Builder) (calls : List Call) : Builder :=
  b.applyAll (calls.map fun call => (true, call))

/-- How many of the calls need a new record, if all records are granted. -/
def needs (b : Builder) : List Call → Nat
  | [] => 0
  | call :: calls => (if b.Asks call then 1 else 0) + needs (b.apply true call).1 calls

variable {b : Builder} {call : Call}

/-! ## One call -/

theorem settle_accepted {result : Registry × Change} (h : result.2.error? = none) :
    b.settle result = (⟨{ b.descriptor with sources := result.1 }, b.intact⟩, result.2) := by
  obtain ⟨sources, change⟩ := result
  cases change with
  | refused kind => cases h
  | _ => rfl

theorem asks_iff {p : Payload} (hi : b.intact = true) (hp : call.payload? = some p) :
    b.Asks call ↔ p.key ∉ b.sources.keys := by
  simp [Asks, hi, hp]

theorem apply_eq_perform (hi : b.intact = true) (grant : Bool) (call : Call) :
    b.apply grant call = b.perform grant call := by
  unfold apply
  rw [hi, Bool.true_or, if_pos rfl]

/-- A refused record changes nothing but that the builder is frozen. -/
theorem apply_refused (hb : b.sources.Sound) (h : b.Asks call) :
    (b.apply false call).1 = { b with intact := false } := by
  obtain ⟨hi, p, hp, hkey⟩ := h
  rw [apply_of_payload? hi hp, hb.insert_refused hkey]
  rfl

/-- The records of a frozen builder can be released, and nothing else can be done to it. -/
theorem apply_of_frozen (hi : b.intact = false) (grant : Bool) (call : Call) :
    (b.apply grant call).1 =
      ⟨{ b.descriptor with sources := if call = .clear then .empty else b.sources }, false⟩ := by
  by_cases hc : call = .clear
  · rw [if_pos hc, hc, apply_clear, hi]
  · rw [if_neg hc, apply_frozen hi hc, ← hi]
    rfl

/-- A call that needs no record is the same whatever the allocator would answer. -/
theorem apply_eq_of_not_asks (hb : b.sources.Sound) (h : ¬ b.Asks call) (grant : Bool) :
    b.apply grant call = b.apply true call := by
  cases hp : call.payload? with
  | none =>
    cases call with
    | mode m => rfl
    | flag f => rfl
    | clear => rfl
    | _ => cases hp
  | some p =>
    cases hi : b.intact with
    | false =>
      have hc : call ≠ .clear := by
        rintro rfl
        cases hp
      rw [apply_frozen hi hc, apply_frozen hi hc]
    | true =>
      have hkey : p.key ∈ b.sources.keys := not_not.mp fun hn => h ((asks_iff hi hp).mpr hn)
      rw [apply_of_payload? hi hp, apply_of_payload? hi hp, hb.insert_of_mem hkey,
        hb.insert_of_mem hkey]

theorem settle_descriptor (b : Builder) (result : Registry × Change) :
    (b.settle result).1.descriptor = { b.descriptor with sources := result.1 } := by
  unfold settle
  split <;> rfl

theorem mode_apply (hi : b.intact = true) (grant : Bool) (call : Call) :
    (b.apply grant call).1.descriptor.mode = call.mode?.getD b.descriptor.mode := by
  rw [apply_eq_perform hi]
  cases call <;> simp only [perform, settle_descriptor] <;> rfl

theorem flags_apply (hi : b.intact = true) (grant : Bool) (call : Call) :
    (b.apply grant call).1.descriptor.flags =
      call.flags?.toList.foldl Flags.union b.descriptor.flags := by
  rw [apply_eq_perform hi]
  cases call <;> simp only [perform, settle_descriptor] <;> rfl

theorem intact_apply_true (hb : b.sources.Sound) (hi : b.intact = true) (call : Call) :
    (b.apply true call).1.intact = true := by
  cases hp : call.payload? with
  | none =>
    rw [apply_eq_perform hi]
    cases call with
    | mode m => exact hi
    | flag f => exact hi
    | clear => exact hi
    | _ => cases hp
  | some p =>
    have haccepted : (b.sources.insert true p).2.error? = none := by
      refine Option.eq_none_iff_forall_ne_some.mpr fun kind hkind => ?_
      exact absurd ((hb.error?_insert true p kind).mp hkind).2.2 (by decide)
    rw [apply_of_payload? hi hp, settle_accepted haccepted]
    exact hi

/-! ## Many calls -/

@[simp] theorem granted_cons (b : Builder) (call : Call) (calls : List Call) :
    b.granted (call :: calls) = (b.apply true call).1.granted calls := rfl

theorem granted_append (b : Builder) (first second : List Call) :
    b.granted (first ++ second) = (b.granted first).granted second := by
  induction first generalizing b with
  | nil => rfl
  | cons call first ih => exact ih _

theorem needs_append (b : Builder) (first second : List Call) :
    b.needs (first ++ second) = b.needs first + (b.granted first).needs second := by
  induction first generalizing b with
  | nil => exact (Nat.zero_add _).symm
  | cons call first ih => rw [List.cons_append, needs, ih, needs, granted_cons, Nat.add_assoc]

theorem sound_granted (hb : b.sources.Sound) (calls : List Call) :
    (b.granted calls).sources.Sound := by
  induction calls generalizing b with
  | nil => exact hb
  | cons call calls ih => exact ih (sound_apply hb true call)

theorem intact_granted (hb : b.sources.Sound) (hi : b.intact = true) (calls : List Call) :
    (b.granted calls).intact = true := by
  induction calls generalizing b with
  | nil => exact hi
  | cons call calls ih => exact ih (sound_apply hb true call) (intact_apply_true hb hi call)

theorem mode_granted (hb : b.sources.Sound) (hi : b.intact = true) (calls : List Call) :
    (b.granted calls).descriptor.mode =
      (calls.filterMap Call.mode?).getLast?.getD b.descriptor.mode := by
  induction calls generalizing b with
  | nil => rfl
  | cons call calls ih =>
    rw [granted_cons, ih (sound_apply hb true call) (intact_apply_true hb hi call),
      mode_apply hi, List.filterMap_cons]
    cases call.mode? with
    | none => rfl
    | some m => rw [List.getLast?_cons]; rfl

theorem flags_granted (hb : b.sources.Sound) (hi : b.intact = true) (calls : List Call) :
    (b.granted calls).descriptor.flags =
      (calls.filterMap Call.flags?).foldl Flags.union b.descriptor.flags := by
  induction calls generalizing b with
  | nil => rfl
  | cons call calls ih =>
    rw [granted_cons, ih (sound_apply hb true call) (intact_apply_true hb hi call),
      flags_apply hi, List.filterMap_cons]
    cases call.flags? with
    | none => rfl
    | some f => rfl

theorem valid_iff_of_intact (hi : b.intact = true) :
    b.valid = true ↔ b.descriptor.mode ≠ .none := by
  unfold valid
  rw [hi, Bool.true_and, bne_iff_ne]

theorem valid_of_frozen (hi : b.intact = false) : b.valid = false := by
  unfold valid
  rw [hi, Bool.false_and]

/-- If more than `n` calls need a record, one of them is the one after the first `n`. -/
theorem exists_nth_need (b : Builder) (n : Nat) (calls : List Call) (h : n < b.needs calls) :
    ∃ before call later, calls = before ++ call :: later ∧ b.needs before = n ∧
      (b.granted before).Asks call := by
  induction calls generalizing b n with
  | nil => exact absurd h (Nat.not_lt_zero n)
  | cons call calls ih =>
    rw [needs] at h
    by_cases hasks : b.Asks call
    · cases n with
      | zero => exact ⟨[], call, calls, rfl, rfl, hasks⟩
      | succ n =>
        rw [if_pos hasks] at h
        obtain ⟨before, next, later, rfl, hneeds, hnext⟩ := ih (b.apply true call).1 n (by omega)
        refine ⟨call :: before, next, later, rfl, ?_, hnext⟩
        rw [needs, if_pos hasks, hneeds, Nat.add_comm]
    · rw [if_neg hasks, Nat.zero_add] at h
      obtain ⟨before, next, later, rfl, hneeds, hnext⟩ := ih (b.apply true call).1 n h
      refine ⟨call :: before, next, later, rfl, ?_, hnext⟩
      rw [needs, if_neg hasks, Nat.zero_add, hneeds]

end Builder

end DeviceSleep
