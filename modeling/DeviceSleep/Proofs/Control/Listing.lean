import DeviceSleep.Proofs.Config.Reloading
import DeviceSleep.Proofs.Control.Steps
import DeviceSleep.Proofs.Text.ByteOrder

/-! The list of profiles. A star is put where the name of a profile is the default name letter by
letter, while a lookup brings the name it is given to lowercase; the two agree since whatever is
loaded has lowercase names only. So a star stands at the profile that is taken where none is named,
and at no other. -/
namespace DeviceSleep
set_option autoImplicit false

namespace Config

variable {c : Config} {p : Profile}

/-- In a configuration that was loaded the default profile is the one that has the default name. -/
theorem Loaded.profile_none_iff (h : c.Loaded) :
    c.profile none = .ok p ↔ ∃ name, (name, p) ∈ c.profiles ∧ c.defaultProfile = some name := by
  obtain ⟨c₀, hc₀⟩ := h.normalized
  have hnodup := (sorted_normalize hc₀).nodup
  cases hd : c.defaultProfile with
  | none =>
    simp [profile_of_no_default hd]
  | some d =>
    rw [profile_none_of_default hd, profile_eq_ok_iff, lower_default_of_normalize hc₀ hd]
    constructor
    · exact fun hlookup => ⟨d, Profiles.mem_of_lookup hlookup, rfl⟩
    · rintro ⟨name, hmem, hname⟩
      cases hname
      exact Profiles.lookup_of_mem hnodup hmem

end Config

namespace Control

variable {has : Capabilities} {disk : Disk} {c : Config} {entry : String × Profile}

/-! ## Lines -/

/-- What is printed for a profile, up to the line break behind it. -/
def lineText (c : Config) (entry : String × Profile) : List Char := (profileLine c entry).dropLast

/-- The line has a star in front. -/
def isStarred (line : List Char) : Bool := line.head? == some '*'

theorem profileLine_eq (c : Config) (entry : String × Profile) :
    profileLine c entry = lineText c entry ++ ['\n'] := by
  rw [lineText, profileLine, List.dropLast_concat]

theorem isStarred_lineText_iff :
    isStarred (lineText c entry) = true ↔ c.defaultProfile = some entry.1 := by
  rw [lineText, profileLine, List.dropLast_concat]
  by_cases h : c.defaultProfile = some entry.1
  · rw [if_pos h]
    exact iff_of_true rfl h
  · rw [if_neg h]
    exact iff_of_false Bool.false_ne_true h

theorem newline_notMem_lineText (h : '\n' ∉ entry.1.toList) : '\n' ∉ lineText c entry := by
  have hmode : '\n' ∉ entry.2.mode.name.toList := by
    cases entry.2.mode <;> decide +kernel
  rw [lineText, profileLine, List.dropLast_concat, padded]
  split <;> simp [h, hmode]

/-- Where no name holds a line break, the lines that a reader of the output sees are these. -/
theorem pieces_profileLines (h : ∀ name ∈ c.profiles.names, '\n' ∉ name.toList) :
    Text.pieces '\n' (profileLines c) = c.profiles.map (lineText c) ++ [[]] := by
  rw [profileLines]
  generalize c.profiles = profiles at h
  induction profiles with
  | nil => rfl
  | cons entry profiles ih =>
    obtain ⟨hentry, hprofiles⟩ := List.forall_mem_cons.mp h
    rw [List.flatMap_cons, profileLine_eq, List.append_assoc, List.singleton_append,
      Text.pieces_append, Text.pieces_of_notMem (newline_notMem_lineText hentry), ih hprofiles]
    rfl

/-- Only the profile with the default name has a star, and names are not repeated. -/
theorem countP_isStarred_le (hnodup : c.profiles.names.Nodup) :
    (c.profiles.map (lineText c)).countP isStarred ≤ 1 := by
  cases hd : c.defaultProfile with
  | none =>
    have hnone : (c.profiles.map (lineText c)).countP isStarred = 0 := by
      rw [List.countP_eq_zero, List.forall_mem_map]
      intro entry _
      rw [isStarred_lineText_iff, hd]
      exact nofun
    omega
  | some d =>
    have hcount : (c.profiles.map (lineText c)).countP isStarred = c.profiles.names.count d := by
      rw [List.countP_map, List.count, Profiles.names, List.countP_map]
      refine List.countP_congr fun entry _ => ?_
      rw [Function.comp_apply, isStarred_lineText_iff, hd, Function.comp_apply, beq_iff_eq,
        Option.some.injEq, eq_comm]
    rw [hcount]
    exact List.nodup_iff_count_le_one.mp hnodup d

/-! ## The profile that is taken -/

/-- The profile of this name is the one that is shown and checked where none is named. -/
structure StandsIn (c : Config) (name : String) (p : Profile) : Prop where
  shown : ∀ has format, showProfile has c none format = showProfile has c (some name) format
  checked : ∀ has disk platform,
    checkProfile has disk c platform none = checkProfile has disk c platform (some name)
  built : ∀ has b, (buildProfile has c none).1 = .ok (name, b) ↔ (p.build has).1 = .ok b

theorem buildProfile_none {name : String} (hd : c.defaultProfile = some name)
    (has : Capabilities) : buildProfile has c none = buildProfile has c (some name) := by
  rw [buildProfile, buildProfile, hd]
  rfl

theorem standsIn_of_default {name : String} {p : Profile} (hd : c.defaultProfile = some name)
    (hp : c.profile none = .ok p) : StandsIn c name p := by
  rw [Config.profile_none_of_default hd, Config.profile_eq_ok_iff] at hp
  refine ⟨?_, ?_, ?_⟩
  · intro has format
    rw [showProfile, showProfile, buildProfile_none hd]
  · intro has disk platform
    rw [checkProfile, checkProfile, buildProfile_none hd]
  · intro has b
    rw [buildProfile_eq_ok_iff, Profile.build_eq_ok_iff]
    constructor
    · rintro ⟨-, q, networks, hq, hbuilt⟩
      rw [hp] at hq
      cases hq
      exact ⟨networks, hbuilt⟩
    · rintro ⟨networks, hbuilt⟩
      exact ⟨hd, p, networks, hp, hbuilt⟩

/-- Without a default profile nothing is shown or checked where none is named. -/
theorem trouble_of_profile_none (h : ∀ p, c.profile none ≠ .ok p) (has : Capabilities) :
    ∃ trouble, (∀ format, (showProfile has c none format).1 = .error trouble) ∧
      ∀ disk platform, (checkProfile has disk c platform none).1 = .error trouble := by
  have hbuild : ∃ trouble, (buildProfile has c none).1 = .error trouble := by
    cases hresult : (buildProfile has c none).1 with
    | error trouble => exact ⟨trouble, rfl⟩
    | ok made =>
      obtain ⟨selected, b⟩ := made
      obtain ⟨hselected, p, networks, hp, -⟩ := buildProfile_eq_ok_iff.mp hresult
      rw [← Config.profile_eq_ok_iff, ← Config.profile_none_of_default hselected] at hp
      exact absurd hp (h p)
  obtain ⟨trouble, htrouble⟩ := hbuild
  exact ⟨trouble, fun format => Run.andThen_of_error htrouble _,
    fun disk platform => Run.andThen_of_error htrouble _⟩

/-! ## The whole list -/

/-- What the tool works with has been loaded. -/
theorem loaded_of_loadConfig {environment : Environment} {path : Option String}
    (h : (loadConfig disk environment path).1 = .ok c) : c.Loaded := by
  unfold loadConfig at h
  cases path with
  | none =>
    refine .standard disk environment ?_
    dsimp only at h
    split at h <;> cases h
    assumption
  | some path =>
    refine .layers disk path environment ?_
    dsimp only at h
    split at h <;> cases h
    assumption

/-- The list of the profiles of a configuration that was loaded has one line for each of them, in
increasing order of the bytes of their names, which are in lowercase; where no name holds a line break
itself, a reader of the output sees just these lines. At most one of them has a star. One has it exactly
if there is a profile to take where none is named, and then it is the line of this profile, which is
also the one that is shown and checked; and if none has it, nothing is shown or checked without a
name. -/
theorem star_is_at_default (h : c.Loaded) :
    (∀ has disk environment config platform, (loadConfig disk environment config).1 = .ok c →
      (execute has disk environment ⟨config, platform, .profiles⟩).1 =
        .ok (c.profiles.map fun entry => lineText c entry ++ ['\n']).flatten) ∧
    ((∀ name ∈ c.profiles.names, '\n' ∉ name.toList) →
      Text.pieces '\n' (profileLines c) = c.profiles.map (lineText c) ++ [[]]) ∧
    c.profiles.names.Pairwise (fun m n => Text.bytes m < Text.bytes n) ∧
    (∀ name ∈ c.profiles.names, Text.lower name = name) ∧
    (c.profiles.map (lineText c)).countP isStarred ≤ 1 ∧
    (∀ p, c.profile none = .ok p ↔
      ∃ name, (name, p) ∈ c.profiles ∧ isStarred (lineText c (name, p)) = true) ∧
    (∀ name p, (name, p) ∈ c.profiles → isStarred (lineText c (name, p)) = true →
      StandsIn c name p) ∧
    ((∀ entry ∈ c.profiles, isStarred (lineText c entry) = false) → ∀ has,
      ∃ trouble, (∀ format, (showProfile has c none format).1 = .error trouble) ∧
        ∀ disk platform, (checkProfile has disk c platform none).1 = .error trouble) := by
  obtain ⟨c₀, hc₀⟩ := h.normalized
  have hsorted := Config.sorted_normalize hc₀
  have hselected : ∀ p, c.profile none = .ok p ↔
      ∃ name, (name, p) ∈ c.profiles ∧ isStarred (lineText c (name, p)) = true := by
    intro p
    have hstar : ∀ name, isStarred (lineText c (name, p)) = true ↔ c.defaultProfile = some name :=
      fun _ => isStarred_lineText_iff
    simp only [h.profile_none_iff, hstar]
  refine ⟨?_, pieces_profileLines, ?_, (Config.renamed_of_normalize hc₀).lowercase,
    countP_isStarred_le hsorted.nodup, hselected, ?_, ?_⟩
  · intro has disk environment config platform hload
    have hlines : profileLine c = fun entry => lineText c entry ++ ['\n'] :=
      funext fun entry => profileLine_eq c entry
    rw [execute_of_loaded hload, perform, profileLines, hlines, List.flatMap_def]
    rfl
  · exact hsorted.imp fun hlt => Text.bytes_lt_iff.mpr hlt
  · intro name p hmem hstar
    have hp := (hselected p).mpr ⟨name, hmem, hstar⟩
    exact standsIn_of_default (isStarred_lineText_iff.mp hstar) hp
  · intro hunstarred has
    refine trouble_of_profile_none (fun p hp => ?_) has
    obtain ⟨name, hmem, hstar⟩ := (hselected p).mp hp
    rw [hunstarred _ hmem] at hstar
    cases hstar

/-- The default profile is named in capitals, and the profiles are out of order. -/
def nightAndDayText : String :=
  "default_profile = \"NIGHT\"\n[profiles.Night]\nmode = \"stop\"\n[profiles.day]\nmode = \"hibernate\"\n"

def nightAndDay : Config :=
  ⟨"cellular", some "night", [("day", ⟨.hibernate, false, [], none, [], false⟩),
    ("night", ⟨.stop, false, [], none, [], false⟩)]⟩

theorem star_is_at_default_nightAndDay :
    nightAndDay.Loaded ∧
    (execute .bare (fun _ => .text nightAndDayText) ⟨[], .listed⟩ ⟨some "sleep.toml", none, .profiles⟩).1 =
      .ok "  day              hibernate\n* night            stop\n".toList ∧
    nightAndDay.profile none = .ok ⟨.stop, false, [], none, [], false⟩ ∧
    StandsIn nightAndDay "night" ⟨.stop, false, [], none, [], false⟩ := by
  have hload : (loadConfig (fun _ => .text nightAndDayText) ⟨[], .listed⟩ (some "sleep.toml")).1 =
      .ok nightAndDay := by decide +kernel
  have hloaded := loaded_of_loadConfig hload
  obtain ⟨houtput, -, -, -, -, hselected, hstandsIn, -⟩ := star_is_at_default hloaded
  have hmem : ("night", ⟨.stop, false, [], none, [], false⟩) ∈ nightAndDay.profiles := by decide
  have hstar : isStarred (lineText nightAndDay ("night", ⟨.stop, false, [], none, [], false⟩)) =
      true := by decide +kernel
  refine ⟨hloaded, ?_, (hselected _).mpr ⟨"night", hmem, hstar⟩, hstandsIn _ _ hmem hstar⟩
  rw [houtput _ _ _ _ _ hload]
  decide +kernel

end Control

end DeviceSleep
