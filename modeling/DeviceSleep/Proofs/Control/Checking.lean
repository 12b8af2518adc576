import DeviceSleep.Proofs.Config.Collisions
import DeviceSleep.Proofs.Control.Steps
import DeviceSleep.Proofs.Profile.Sleeping

/-! Checking a profile. The tool succeeds exactly if it gets hold of a profile, a request and a board,
and the board offers what the profile asks for; the reason that it prints is the one that can be read
off the profile. -/
namespace DeviceSleep
set_option autoImplicit false

/-- A device without a script tells the likely reason of a request that its platform accepts. -/
theorem Recorder.answer_fresh_eq_ok_iff {board : Platform} {b : Builder} (hb : b.sources.Sound)
    {reason : WakeReason} :
    ((fresh board).enterSleep b).answer = .ok reason ↔
      b.valid = true ∧ (∃ s, board.Accepts b.descriptor s) ∧
        reason = b.descriptor.record.likelyReason := by
  rw [← Platform.isOk_check_iff]
  cases hvalid : b.valid with
  | false =>
    rw [(enterSleep_invalid hvalid).1]
    exact iff_of_false nofun nofun
  | true =>
    rw [(enterSleep_valid hvalid).1]
    cases hcheck : board.check b.descriptor with
    | error refusal =>
      rw [enter_refused hcheck]
      exact iff_of_false nofun nofun
    | ok =>
      rw [enter_accepted hb hcheck, (accept_unscripted rfl b.descriptor.record).1, Except.ok.injEq]
      exact ⟨fun h => ⟨rfl, rfl, h.symm⟩, fun h => h.2.2.symm⟩

namespace Control

variable {has : Capabilities} {disk : Disk} {c : Config} {platform name : Option String}

theorem sleepOn_eq_ok_iff {selected : String} {b : Builder} {board : Platform}
    {reason : WakeReason} :
    (sleepOn selected b board).1 = .ok reason ↔
      ((Recorder.fresh board).enterSleep b).answer = .ok reason := by
  unfold sleepOn
  dsimp only
  cases ((Recorder.fresh board).enterSleep b).answer with
  | ok given => simp only [Except.ok.injEq]
  | error refusal => exact iff_of_false nofun nofun

theorem checkProfile_eq_ok_iff {reason : WakeReason} :
    (checkProfile has disk c platform name).1 = .ok reason ↔
      ∃ selected p networks board s, name.or c.defaultProfile = some selected ∧
        c.profiles.lookup (Text.lower selected) = some p ∧
        p.networks.map Interface.parse? = networks.map some ∧
        (p.radioLink = true → has.ble = true) ∧
        (loadPlatform disk (platform.getD c.platform)).1 = .ok board ∧
        p.Suits board s ∧ reason = p.reason networks := by
  have hreport : ∀ events : List Event, (Run.report events).1 = .ok () := fun _ => rfl
  have hjudged : ∀ (p : Profile) (networks : List Interface) (board : Platform),
      p.networks.map Interface.parse? = networks.map some →
      (((Recorder.fresh board).enterSleep (p.described networks)).answer = .ok reason ↔
        ∃ s, p.Suits board s ∧ reason = p.reason networks) := by
    intro p networks board hparse
    rw [Recorder.answer_fresh_eq_ok_iff (p.sound_described networks), p.valid_described,
      p.likelyReason_described]
    simp only [Profile.accepts_described hparse]
    constructor
    · rintro ⟨-, ⟨s, hs⟩, hreason⟩
      exact ⟨s, hs, hreason⟩
    · rintro ⟨s, hs, hreason⟩
      exact ⟨hs.sleeps, ⟨s, hs⟩, hreason⟩
  -- Building, loading the board and sleeping in turn; the reports between them always succeed.
  unfold checkProfile
  rw [Run.andThen_eq_ok_iff]
  constructor
  · rintro ⟨⟨selected, b⟩, hbuild, hrest⟩
    obtain ⟨hselected, p, networks, hp, hparse, hlink, rfl⟩ := buildProfile_eq_ok_iff.mp hbuild
    obtain ⟨board, hboard, hrest⟩ := Run.andThen_eq_ok_iff.mp hrest
    rw [Run.andThen_of_ok (hreport _), sleepOn_eq_ok_iff, hjudged p networks board hparse] at hrest
    obtain ⟨s, hs, hreason⟩ := hrest
    exact ⟨selected, p, networks, board, s, hselected, hp, hparse, hlink, hboard, hs, hreason⟩
  · rintro ⟨selected, p, networks, board, s, hselected, hp, hparse, hlink, hboard, hs, hreason⟩
    refine ⟨(selected, p.described networks), ?_, ?_⟩
    · exact buildProfile_eq_ok_iff.mpr ⟨hselected, p, networks, hp, hparse, hlink, rfl⟩
    · refine Run.andThen_eq_ok_iff.mpr ⟨board, hboard, ?_⟩
      rw [Run.andThen_of_ok (hreport _), sleepOn_eq_ok_iff, hjudged p networks board hparse]
      exact ⟨s, hs, hreason⟩

/-- A check succeeds exactly if a profile is selected and there, its interfaces are known, the build has
the radio link that it may want, and the board can be loaded and offers what the profile asks for. -/
theorem check_succeeds_iff {environment : Environment} {config : Option String}
    {output : List Char} (hload : (loadConfig disk environment config).1 = .ok c) :
    (execute has disk environment ⟨config, platform, .check name⟩).1 = .ok output ↔
      ∃ selected p networks board s, name.or c.defaultProfile = some selected ∧
        c.profiles.lookup (Text.lower selected) = some p ∧
        p.networks.map Interface.parse? = networks.map some ∧
        (p.radioLink = true → has.ble = true) ∧
        (loadPlatform disk (platform.getD c.platform)).1 = .ok board ∧
        p.Suits board s ∧ output = (p.reason networks).json.compact ++ ['\n'] := by
  have hperform : (perform has disk c ⟨config, platform, .check name⟩).1 = .ok output ↔
      ∃ reason, (checkProfile has disk c platform name).1 = .ok reason ∧
        output = reason.json.compact ++ ['\n'] := by
    refine Run.andThen_eq_ok_iff.trans (exists_congr fun reason => and_congr_right fun _ => ?_)
    exact (Except.ok.injEq _ _).to_iff.trans eq_comm
  rw [execute_of_loaded hload, hperform]
  constructor
  · rintro ⟨reason, hreason, rfl⟩
    obtain ⟨selected, p, networks, board, s, hselected, hp, hparse, hlink, hboard, hs, rfl⟩ :=
      checkProfile_eq_ok_iff.mp hreason
    exact ⟨selected, p, networks, board, s, hselected, hp, hparse, hlink, hboard, hs, rfl⟩
  · rintro ⟨selected, p, networks, board, s, hselected, hp, hparse, hlink, hboard, hs, rfl⟩
    exact ⟨_, checkProfile_eq_ok_iff.mpr
      ⟨selected, p, networks, board, s, hselected, hp, hparse, hlink, hboard, hs, rfl⟩, rfl⟩

/-- A profile with a pin and two interfaces, one of them named twice. -/
def linkedNap : Profile := ⟨.stop, false, [⟨7, .rising⟩], none, ["lo", "eth", "1"], false⟩

def linkedNapText : String :=
  "default_profile = \"nap\"\n[profiles.nap]\nmode = \"stop\"\ngpio = [\x7b pin = 7 \x7d]\n" ++
    "networks = [\"lo\", \"eth\", \"1\"]\n"

/-- The interface that was new latest ends the sleep, not the one that was named last. -/
theorem check_succeeds_iff_linkedNap :
    (loadConfig (fun _ => .text linkedNapText) ⟨[], .listed⟩ (some "sleep.toml")).1 =
      .ok ⟨"cellular", some "nap", [("nap", linkedNap)]⟩ ∧
    (execute .bare (fun _ => .text linkedNapText) ⟨[], .listed⟩
      ⟨some "sleep.toml", some "WiFi", .check none⟩).1 =
        .ok "\x7b\"source\":\"network\",\"index\":3\x7d\n".toList := by
  have hload : (loadConfig (fun _ => .text linkedNapText) ⟨[], .listed⟩ (some "sleep.toml")).1 =
      .ok ⟨"cellular", some "nap", [("nap", linkedNap)]⟩ := by decide +kernel
  have hboard : (loadPlatform (fun _ => .text linkedNapText) "WiFi").1 = .ok .wifi := by
    decide +kernel
  have hsuits : linkedNap.Suits .wifi ⟨.stop, [.gpio, .timer, .network, .radioLink], false⟩ := by
    refine ⟨by decide, by decide, ?_, by decide, Or.inl ⟨.gpio, List.cons_ne_nil _ _⟩⟩
    intro kind _
    cases kind <;> decide
  refine ⟨hload, (check_succeeds_iff hload).mpr ⟨"nap", linkedNap,
    [.loopback, .ethernet, .loopback], .wifi, _, rfl, ?_, ?_, by decide, hboard, hsuits, ?_⟩⟩
  · decide +kernel
  · decide +kernel
  · decide +kernel

end Control

end DeviceSleep
