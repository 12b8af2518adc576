import DeviceSleep.Profile
import DeviceSleep.Proofs.Builder.Order

/-! The request that a profile describes. If every interface can be looked up and the radio link is
there or not wanted, building gives the request as the calls make it (`described`); it has the mode
of the profile, and a record for each pin, for the timer, for each interface and for the radio link
that the profile names. -/
namespace DeviceSleep
set_option autoImplicit false

theorem Builder.performAll_fst (b : Builder) (calls : List Call) :
    (b.performAll calls).1 = b.granted calls := by
  induction calls generalizing b with
  | nil => rfl
  | cons call calls ih => exact ih (b.apply true call).1

namespace Profile

/-! ## Interfaces -/

theorem map_some_inj {first second : List Interface} (h : first.map some = second.map some) :
    first = second :=
  List.map_injective_iff.mpr (fun _ _ => Option.some.inj) h

/-- The interfaces are found exactly if every name means one. -/
theorem resolve_eq_ok_iff {names : List String} {networks : List Interface} :
    resolve names = .ok networks ↔ names.map Interface.parse? = networks.map some := by
  induction names generalizing networks with
  | nil => cases networks <;> simp [resolve]
  | cons name names ih =>
    rw [resolve, List.map_cons]
    cases Interface.parse? name with
    | none => cases networks <;> simp
    | some i =>
      cases networks with
      | nil => cases resolve names <;> simp [Except.map]
      | cons j networks =>
        rw [List.map_cons, List.cons.injEq, Option.some.injEq, ← ih]
        cases resolve names <;> simp [Except.map]

/-! ## The calls of a whole profile -/

/-- The calls of a profile whose radio link is there. -/
def request (p : Profile) (networks : List Interface) : List Call :=
  p.calls networks ++ if p.radioLink then [.radioLink] else []

/-- What the calls make. -/
def described (p : Profile) (networks : List Interface) : Builder :=
  Builder.fresh.granted (p.request networks)

/-- A radio link that is not there is found when the interfaces have been. -/
theorem build_fst (p : Profile) (has : Capabilities) :
    (p.build has).1 =
      match p.interfaces with
      | .error problem => .error problem
      | .ok networks =>
        if p.radioLink && !has.ble then .error .radioLinkUnavailable
        else .ok (p.described networks) := by
  unfold build described request
  cases p.interfaces with
  | error problem => rfl
  | ok networks =>
    dsimp only
    rw [Builder.performAll_fst]
    cases p.radioLink with
    | false =>
      rw [if_neg Bool.false_ne_true, List.append_nil]
      rfl
    | true =>
      cases has.ble with
      | false => rfl
      | true =>
        rw [Builder.granted_append]
        exact congrArg Except.ok (Builder.performAll_fst _ [.radioLink])

theorem build_eq_ok_iff {p : Profile} {has : Capabilities} {b : Builder} :
    (p.build has).1 = .ok b ↔
      ∃ networks : List Interface, p.networks.map Interface.parse? = networks.map some ∧
        (p.radioLink = true → has.ble = true) ∧ b = p.described networks := by
  rw [build_fst, interfaces]
  cases hresolve : resolve p.networks with
  | error problem =>
    refine iff_of_false nofun ?_
    rintro ⟨networks, hparse, -⟩
    rw [resolve_eq_ok_iff.mpr hparse] at hresolve
    cases hresolve
  | ok networks =>
    have hparse := resolve_eq_ok_iff.mp hresolve
    have hlink : (p.radioLink && !has.ble) = false ↔ (p.radioLink = true → has.ble = true) := by
      cases p.radioLink <;> cases has.ble <;> decide
    constructor
    · intro h
      dsimp only at h
      split at h
      · cases h
      · rename_i hthere
        cases h
        exact ⟨networks, hparse, hlink.mp (eq_false_of_ne_true hthere), rfl⟩
    · rintro ⟨others, hothers, hthere, rfl⟩
      obtain rfl := map_some_inj (hothers.symm.trans hparse)
      dsimp only
      rw [hlink.mpr hthere]
      rfl

/-! ## What the request holds -/

section Described
variable (p : Profile) (networks : List Interface)

theorem payloads_request :
    (p.request networks).filterMap Call.payload? =
      p.gpio.map (fun entry => .gpio entry.pin entry.trigger) ++
        p.durationMs.toList.map .timer ++ networks.map .network ++
          if p.radioLink then [.radioLink] else [] := by
  have hpins : (p.gpio.map fun entry => Call.gpio entry.pin entry.trigger).filterMap
      Call.payload? = p.gpio.map fun entry => .gpio entry.pin entry.trigger :=
    List.filterMap_map.trans (congrFun List.filterMap_eq_map _)
  have hnetworks : (networks.map Call.network).filterMap Call.payload? =
      networks.map .network :=
    List.filterMap_map.trans (congrFun List.filterMap_eq_map _)
  unfold request calls
  simp only [List.filterMap_append, hpins, hnetworks]
  cases p.waitCloud <;> cases p.durationMs <;> cases p.radioLink <;> rfl

theorem modes_request : (p.request networks).filterMap Call.mode? = [p.mode] := by
  have hpins : (p.gpio.map fun entry => Call.gpio entry.pin entry.trigger).filterMap
      Call.mode? = [] := by
    simp [Call.mode?]
  have hnetworks : (networks.map Call.network).filterMap Call.mode? = [] := by
    simp [Call.mode?]
  unfold request calls
  simp only [List.filterMap_append, hpins, hnetworks]
  cases p.waitCloud <;> cases p.durationMs <;> cases p.radioLink <;> rfl

theorem clear_notMem_request : .clear ∉ p.request networks := by
  unfold request calls
  cases p.waitCloud <;> cases p.durationMs <;> cases p.radioLink <;> simp

theorem sound_described : (p.described networks).sources.Sound :=
  Builder.sound_granted Builder.sound_fresh _

theorem intact_described : (p.described networks).intact = true :=
  Builder.intact_granted Builder.sound_fresh rfl _

theorem mode_described : (p.described networks).descriptor.mode = p.mode := by
  rw [described, Builder.mode_granted Builder.sound_fresh rfl, modes_request]
  rfl

theorem valid_described : (p.described networks).valid = true ↔ p.mode ≠ .none := by
  rw [Builder.valid_iff_of_intact (p.intact_described networks), mode_described]

theorem keys_request :
    Call.keys (p.request networks) =
      p.gpio.map (fun entry => .gpio entry.pin) ++ p.durationMs.toList.map (fun _ => .timer) ++
        networks.map .network ++ if p.radioLink then [.radioLink] else [] := by
  rw [Call.keys, payloads_request]
  simp only [List.map_append, List.map_map]
  cases p.radioLink <;> rfl

theorem keys_described :
    (p.described networks).sources.keys = (Call.keys (p.request networks)).reverse.dedup :=
  Builder.keys_granted (p.clear_notMem_request networks)

end Described

end Profile

end DeviceSleep
