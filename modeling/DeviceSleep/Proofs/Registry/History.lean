import DeviceSleep.Proofs.Registry.KeyedMap

/-! What the records of a registry say about the calls that made them, for any calls and any answers
of the allocator: the keys are those that were granted since the last release of all records, the
latest grant first, and each record holds what the latest call for its key that did not fail asked
for. -/
namespace DeviceSleep
set_option autoImplicit false

namespace Registry

/-- A call that changes the records. -/
inductive Request where
  | insert (payload : Payload)
  | releaseAll
deriving DecidableEq, Repr

def perform (grant : Bool) (r : Registry) : Request → Registry × Change
  | .insert p => r.insert grant p
  | .releaseAll => r.releaseAll

/-- Calls and what came of each, the latest first. -/
abbrev Log := List (Request × Change)

namespace Log

/-- The calls since the last release of all records. -/
def recent (log : Log) : Log := log.takeWhile fun entry => entry.1 != .releaseAll

/-- The keys for which a new record was granted. -/
def granted (log : Log) : List Key :=
  log.filterMap fun
    | (.insert p, .added _ _) => some p.key
    | _ => none

/-- What the latest call for a key that did not fail asked for. -/
def latest (key : Key) (log : Log) : Option Payload :=
  log.findSome? fun
    | (.insert p, change) => if p.key = key ∧ change.error? = none then some p else none
    | (.releaseAll, _) => none

theorem recent_cons_insert (p : Payload) (change : Change) (log : Log) :
    recent ((.insert p, change) :: log) = (.insert p, change) :: recent log := rfl

theorem granted_cons_of_not_asks {change : Change} (h : change.asks = false) (p : Payload)
    (log : Log) : granted ((.insert p, change) :: log) = granted log := by
  cases change <;> first | rfl | cases h

theorem latest_cons_self {p : Payload} {change : Change} (h : change.error? = none) (log : Log) :
    latest p.key ((.insert p, change) :: log) = some p := by
  simp [latest, h]

theorem latest_cons_of_ne {p : Payload} {key : Key} (h : p.key ≠ key) (change : Change)
    (log : Log) : latest key ((.insert p, change) :: log) = latest key log := by
  simp [latest, h]

theorem latest_cons_refused (p : Payload) (kind : Kind) (key : Key) (log : Log) :
    latest key ((.insert p, .refused kind) :: log) = latest key log := by
  simp [latest, Change.error?]

end Log

/-- A registry in use, with the number of answers that its allocator has given. -/
structure Usage where
  registry : Registry
  answered : Nat
  log : Log

namespace Usage

def start : Usage := ⟨.empty, 0, []⟩

/-- One call; the next answer is used up only if the allocator is asked. -/
def step (answers : Nat → Bool) (u : Usage) (request : Request) : Usage :=
  let result := u.registry.perform (answers u.answered) request
  ⟨result.1, if result.2.asks then u.answered + 1 else u.answered, (request, result.2) :: u.log⟩

def run (answers : Nat → Bool) (requests : List Request) : Usage :=
  requests.foldl (step answers) start

/-! ## The invariant -/

/-- The records are what the log says. -/
structure Faithful (u : Usage) : Prop where
  sound : u.registry.Sound
  keys : u.registry.keys = u.log.recent.granted
  contents : ∀ p ∈ u.registry.payloads, u.log.recent.latest p.key = some p

theorem faithful_start : start.Faithful := ⟨sound_empty, rfl, by simp [start, empty, payloads]⟩

variable {u : Usage} {answers : Nat → Bool}

theorem step_of_mem (hu : u.Faithful) {p : Payload} (h : p.key ∈ u.registry.keys) :
    u.step answers (.insert p) =
      ⟨⟨u.registry.sources.map (Source.amend p)⟩, u.answered, (.insert p, p.renewal) :: u.log⟩ := by
  simp [step, perform, hu.sound.insert_of_mem h]

theorem step_granted (hu : u.Faithful) {p : Payload} (h : p.key ∉ u.registry.keys)
    (ha : answers u.answered = true) :
    u.step answers (.insert p) =
      ⟨⟨.ofPayload p :: u.registry.sources⟩, u.answered + 1,
        (.insert p, .added p.kind (u.registry.size + 1)) :: u.log⟩ := by
  simp [step, perform, ha, hu.sound.insert_granted h, Change.asks]

theorem step_refused (hu : u.Faithful) {p : Payload} (h : p.key ∉ u.registry.keys)
    (ha : answers u.answered = false) :
    u.step answers (.insert p) =
      ⟨u.registry, u.answered + 1, (.insert p, .refused p.kind) :: u.log⟩ := by
  simp [step, perform, ha, hu.sound.insert_refused h, Change.asks]

theorem faithful_step_of_mem (hu : u.Faithful) {p : Payload} (h : p.key ∈ u.registry.keys) :
    (u.step answers (.insert p)).Faithful := by
  rw [step_of_mem hu h]
  refine ⟨hu.sound.map_amend p, ?_, ?_⟩
  · rw [keys_map_amend, Log.recent_cons_insert,
      Log.granted_cons_of_not_asks p.asks_renewal]
    exact hu.keys
  · intro q hq
    rw [payloads_map_amend] at hq
    obtain ⟨q₀, hq₀, rfl⟩ := List.mem_map.mp hq
    rw [Log.recent_cons_insert, Payload.key_supersede]
    by_cases hk : q₀.key = p.key
    · rw [hk, Log.latest_cons_self p.error?_renewal, Payload.supersede_of_key_eq hk]
    · rw [Log.latest_cons_of_ne (Ne.symm hk), Payload.supersede_of_key_ne hk]
      exact hu.contents q₀ hq₀

theorem faithful_step_granted (hu : u.Faithful) {p : Payload} (h : p.key ∉ u.registry.keys)
    (ha : answers u.answered = true) : (u.step answers (.insert p)).Faithful := by
  rw [step_granted hu h ha]
  refine ⟨hu.sound.cons h, ?_, ?_⟩
  · rw [Log.recent_cons_insert]
    exact congrArg (p.key :: ·) hu.keys
  · intro q hq
    rw [Log.recent_cons_insert]
    rcases List.mem_cons.mp hq with rfl | hq
    · exact Log.latest_cons_self rfl _
    · have hne : p.key ≠ q.key := fun hk => h (hk ▸ mem_keys_of_mem_payloads hq)
      rw [Log.latest_cons_of_ne hne]
      exact hu.contents q hq

theorem faithful_step_refused (hu : u.Faithful) {p : Payload} (h : p.key ∉ u.registry.keys)
    (ha : answers u.answered = false) : (u.step answers (.insert p)).Faithful := by
  rw [step_refused hu h ha]
  refine ⟨hu.sound, hu.keys, ?_⟩
  intro q hq
  rw [Log.recent_cons_insert, Log.latest_cons_refused]
  exact hu.contents q hq

theorem Faithful.step (hu : u.Faithful) (answers : Nat → Bool) (request : Request) :
    (u.step answers request).Faithful := by
  cases request with
  | releaseAll =>
    refine ⟨sound_empty, rfl, ?_⟩
    simp [Usage.step, perform, releaseAll, empty, payloads]
  | insert p =>
    by_cases h : p.key ∈ u.registry.keys
    · exact faithful_step_of_mem hu h
    · cases ha : answers u.answered with
      | true => exact faithful_step_granted hu h ha
      | false => exact faithful_step_refused hu h ha

theorem faithful_run (answers : Nat → Bool) (requests : List Request) :
    (run answers requests).Faithful := by
  have h : ∀ u : Usage, u.Faithful → (requests.foldl (Usage.step answers) u).Faithful := by
    induction requests with
    | nil => exact fun u hu => hu
    | cons request requests ih => exact fun u hu => ih _ (hu.step answers request)
  exact h start faithful_start

theorem log_foldl (answers : Nat → Bool) (requests : List Request) (u : Usage) :
    (requests.foldl (Usage.step answers) u).log.reverse.map Prod.fst =
      u.log.reverse.map Prod.fst ++ requests := by
  induction requests generalizing u with
  | nil => simp
  | cons request requests ih =>
    rw [List.foldl_cons, ih]
    simp [Usage.step]

/-! ## Every history -/

/-- After any calls, with any answers of the allocator, the records are an ordered map: the keys are
distinct and are those granted since the last release, the latest grant first, and each record holds
what the latest successful call for its key asked for. A further call for a key that is there
changes no position and asks nobody; only a call for a key that is not there asks, and it fails
exactly if the answer is no, with the kind of the record it asked for and without a change. -/
theorem run_is_ordered_map (answers : Nat → Bool) (requests : List Request) :
    let u := run answers requests
    u.log.reverse.map Prod.fst = requests ∧
    u.registry.keys.Nodup ∧
    u.registry.keys = u.log.recent.granted ∧
    (∀ p ∈ u.registry.payloads, u.log.recent.latest p.key = some p) ∧
    ∀ p : Payload,
      let result := u.registry.insert (answers u.answered) p
      let after := u.step answers (.insert p)
      after.registry = result.1 ∧
      (p.key ∈ u.registry.keys → result.1.keys = u.registry.keys) ∧
      (p.key ∈ u.registry.keys ↔ u.registry.insert true p = u.registry.insert false p) ∧
      (after.answered = if p.key ∈ u.registry.keys then u.answered else u.answered + 1) ∧
      (∀ kind, result.2.error? = some kind ↔
        kind = p.kind ∧ p.key ∉ u.registry.keys ∧ answers u.answered = false) ∧
      (result.2.error? ≠ none → result.1 = u.registry) := by
  intro u
  have hu : u.Faithful := faithful_run answers requests
  refine ⟨log_foldl answers requests start, hu.sound.distinct, hu.keys, hu.contents, ?_⟩
  intro p result after
  have hasks : result.2.asks = !decide (p.key ∈ u.registry.keys) := hu.sound.asks_insert _ p
  refine ⟨rfl, ?_, hu.sound.mem_keys_iff_insert_eq p, ?_, hu.sound.error?_insert _ p,
    hu.sound.insert_of_error? _ p⟩
  · intro h
    change (u.registry.insert _ p).1.keys = _
    rw [hu.sound.insert_of_mem h]
    exact keys_map_amend p _
  · change (if result.2.asks then u.answered + 1 else u.answered) = _
    rw [hasks]
    by_cases h : p.key ∈ u.registry.keys <;> simp [h]

end Usage

end Registry

end DeviceSleep
