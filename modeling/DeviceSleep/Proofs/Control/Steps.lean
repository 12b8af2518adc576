import DeviceSleep.Control
import DeviceSleep.Proofs.Config.Normalizing
import DeviceSleep.Proofs.Profile.Building

/-! The steps of the command line tool, each by what it needs in order to give a result. What is
reported on the way has no influence on a result. -/
namespace DeviceSleep.Control
set_option autoImplicit false

namespace Run

variable {α β : Type}

theorem andThen_eq_ok_iff {r : Run α} {f : α → Run β} {b : β} :
    (r.andThen f).1 = .ok b ↔ ∃ a, r.1 = .ok a ∧ (f a).1 = .ok b := by
  obtain ⟨result, events⟩ := r
  cases result with
  | error t => exact iff_of_false nofun (by rintro ⟨a, ⟨⟩, -⟩)
  | ok a =>
    constructor
    · exact fun h => ⟨a, rfl, h⟩
    · rintro ⟨a, ⟨⟩, h⟩
      exact h

/-- Once the first result is known, it is the second that counts. -/
theorem andThen_of_ok {r : Run α} {a : α} (h : r.1 = .ok a) (f : α → Run β) :
    (r.andThen f).1 = (f a).1 := by
  obtain ⟨result, events⟩ := r
  cases h
  rfl

theorem andThen_of_error {r : Run α} {t : Trouble} (h : r.1 = .error t) (f : α → Run β) :
    (r.andThen f).1 = .error t := by
  obtain ⟨result, events⟩ := r
  cases h
  rfl

end Run

variable {has : Capabilities} {c : Config} {name : Option String}

/-- A profile is built if it is selected and there, its interfaces are known, and the build has a
radio link if the profile wants one. -/
theorem buildProfile_eq_ok_iff {selected : String} {b : Builder} :
    (buildProfile has c name).1 = .ok (selected, b) ↔
      name.or c.defaultProfile = some selected ∧
        ∃ p networks, c.profiles.lookup (Text.lower selected) = some p ∧
          p.networks.map Interface.parse? = networks.map some ∧
          (p.radioLink = true → has.ble = true) ∧ b = p.described networks := by
  unfold buildProfile
  cases name.or c.defaultProfile with
  | none => exact iff_of_false nofun nofun
  | some n =>
    dsimp only
    cases hprofile : c.profile (some n) with
    | error failure =>
      refine iff_of_false nofun ?_
      rintro ⟨⟨⟩, p, networks, hp, -⟩
      rw [Config.profile_eq_ok_iff.mpr hp] at hprofile
      cases hprofile
    | ok p =>
      have hp := Config.profile_eq_ok_iff.mp hprofile
      have hbuild : (p.build has).1 = .ok b ↔ _ := Profile.build_eq_ok_iff
      dsimp only
      generalize p.build has = building at hbuild
      obtain ⟨result, events⟩ := building
      cases result with
      | error problem =>
        refine iff_of_false nofun ?_
        rintro ⟨⟨⟩, q, networks, hq, hbuilt⟩
        rw [hp] at hq
        cases hq
        cases hbuild.mpr ⟨networks, hbuilt⟩
      | ok made =>
        constructor
        · rintro ⟨⟩
          obtain ⟨networks, hbuilt⟩ := hbuild.mp rfl
          exact ⟨rfl, p, networks, hp, hbuilt⟩
        · rintro ⟨⟨⟩, q, networks, hq, hbuilt⟩
          rw [hp] at hq
          cases hq
          obtain rfl : made = b := Except.ok.inj (hbuild.mpr ⟨networks, hbuilt⟩)
          rfl

/-- What the tool does once the configuration has been loaded. -/
theorem execute_of_loaded {disk : Disk} {environment : Environment} {a : Arguments}
    (h : (loadConfig disk environment a.config).1 = .ok c) (has : Capabilities) :
    (execute has disk environment a).1 = (perform has disk c a).1 :=
  Run.andThen_of_ok h _

end DeviceSleep.Control
