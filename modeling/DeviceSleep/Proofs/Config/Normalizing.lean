import DeviceSleep.Proofs.Config.Renaming

/-! Bringing a configuration to lowercase names. It is refused exactly if two names differ in letter case
only, and otherwise it has the same profiles, each found under any spelling of its name. Since a name in
lowercase stays what it is, looking up the default profile by its changed name finds what its first name
would find. -/
namespace DeviceSleep.Config
set_option autoImplicit false

variable {c c' : Config}

/-- A configuration and what it is with lowercase names. -/
structure Renamed (c c' : Config) : Prop where
  platform : c'.platform = c.platform
  count : c'.profiles.length = c.profiles.length
  lowercase : ∀ n ∈ c'.profiles.names, Text.lower n = n
  found : ∀ name p, (name, p) ∈ c.profiles → ∀ s, Text.lower s = Text.lower name →
    c'.profile (some s) = .ok p
  unknown : ∀ s, (∀ n ∈ c.profiles.names, Text.lower n ≠ Text.lower s) →
    c'.profile (some s) = .error (.unknownProfile s)
  unselected : c.defaultProfile = none → c'.profile none = .error (.invalid .noProfileSelected)
  selected : ∀ d, c.defaultProfile = some d →
    ∀ p, c'.profile none = .ok p ↔ c'.profile (some d) = .ok p

/-! ## Looking a profile up -/

theorem profile_some (c : Config) (s : String) :
    c.profile (some s) =
      match c.profiles.lookup (Text.lower s) with
      | none => .error (.unknownProfile s)
      | some p => .ok p := rfl

theorem profile_eq_ok_iff {s : String} {p : Profile} :
    c.profile (some s) = .ok p ↔ c.profiles.lookup (Text.lower s) = some p := by
  rw [profile_some]
  cases c.profiles.lookup (Text.lower s) with
  | none => exact iff_of_false nofun nofun
  | some q =>
    dsimp only
    rw [Except.ok.injEq, Option.some.injEq]

theorem profile_of_unnamed {s : String} (h : Text.lower s ∉ c.profiles.names) :
    c.profile (some s) = .error (.unknownProfile s) := by
  rw [profile_some, Profiles.lookup_of_notMem h]

theorem profile_of_no_default (h : c.defaultProfile = none) :
    c.profile none = .error (.invalid .noProfileSelected) := by
  rw [profile, h]
  rfl

theorem profile_none_of_default {d : String} (h : c.defaultProfile = some d) :
    c.profile none = c.profile (some d) := by
  rw [profile, profile, h]
  rfl

/-! ## Lowercase names -/

theorem normalize_parts (h : c.normalize = .ok c') :
    c'.platform = c.platform ∧ c'.defaultProfile = c.defaultProfile.map Text.lower := by
  rw [normalize] at h
  split at h
  · cases h
  · cases h
    exact ⟨rfl, rfl⟩

theorem lower_default_of_normalize (h : c.normalize = .ok c') {d : String}
    (hd : c'.defaultProfile = some d) : Text.lower d = d := by
  rw [(normalize_parts h).2] at hd
  obtain ⟨name, -, rfl⟩ := Option.map_eq_some_iff.mp hd
  exact Text.lower_lower name

/-- The profiles are the same, under lowercase names. -/
theorem perm_normalize (h : c.normalize = .ok c') : c'.profiles.Perm c.profiles.renamed :=
  Profiles.perm_lowered (lowered_of_normalize h)

/-- A configuration with lowercase names stays as it is. -/
theorem normalize_eq_self (hsorted : c.profiles.Sorted)
    (hnames : ∀ n ∈ c.profiles.names, Text.lower n = n)
    (hdefault : ∀ d, c.defaultProfile = some d → Text.lower d = d) : c.normalize = .ok c := by
  have hmap : c.defaultProfile.map Text.lower = c.defaultProfile := by
    cases hd : c.defaultProfile with
    | none => rfl
    | some d => exact congrArg some (hdefault d hd)
  rw [normalize, hsorted.lowered_eq_self hnames]
  dsimp only
  rw [hmap]

theorem renamed_of_normalize (h : c.normalize = .ok c') : Renamed c c' := by
  obtain ⟨hplatform, hdefault⟩ := normalize_parts h
  have hperm := perm_normalize h
  have hnodup := (sorted_normalize h).nodup
  refine ⟨hplatform, ?_, ?_, ?_, ?_, ?_, ?_⟩
  · rw [hperm.length_eq, Profiles.renamed, List.length_map]
  · intro n hn
    obtain ⟨m, -, rfl⟩ := (mem_names_normalize h).mp hn
    exact Text.lower_lower m
  · intro name p hp s hs
    have hmem : (Text.lower name, p) ∈ c'.profiles := hperm.mem_iff.mpr (Profiles.mem_renamed hp)
    rw [profile_eq_ok_iff, hs]
    exact Profiles.lookup_of_mem hnodup hmem
  · intro s hs
    refine profile_of_unnamed fun hmem => ?_
    obtain ⟨n, hn, heq⟩ := (mem_names_normalize h).mp hmem
    exact hs n hn heq
  · intro hnone
    exact profile_of_no_default (by rw [hdefault, hnone, Option.map_none])
  · intro d hd p
    have hlower : c'.defaultProfile = some (Text.lower d) := by rw [hdefault, hd, Option.map_some]
    -- The default name is in lowercase already, and lowercasing it once more changes nothing.
    rw [profile_none_of_default hlower, profile_eq_ok_iff, profile_eq_ok_iff, Text.lower_lower]

/-- A configuration can be brought to lowercase names exactly if no two of its names are the same in
lowercase. If two are, the first name is refused that repeats an earlier one. If none are, the platform
stays, as many profiles are left as there were, all under names in lowercase, and any spelling of a
profile's name finds this profile, while other names are unknown; and if no profile is named, the
default one is found exactly if the name by which it was meant finds it. -/
theorem normalize_keeps_profiles (c : Config) (hsorted : c.profiles.Sorted) :
    ((∃ c', c.normalize = .ok c') ↔ (c.profiles.names.map Text.lower).Nodup) ∧
    (¬ (c.profiles.names.map Text.lower).Nodup →
      ∃ n, c.normalize = .error (.invalid (.repeatedProfile n)) ∧ c.profiles.Repeats n ∧
        ∀ m, c.profiles.Repeats m → n ≤ m) ∧
    ∀ c', c.normalize = .ok c' → Renamed c c' := by
  refine ⟨⟨?_, normalize_of_nodup⟩, ?_, fun c' => renamed_of_normalize⟩
  · rintro ⟨c', h⟩
    exact (Profiles.lowered_eq_ok_iff.mp ⟨_, lowered_of_normalize h⟩).1
  · intro hrepeated
    rw [normalize]
    cases hlowered : Profiles.lowered [] c.profiles with
    | ok after => exact absurd (Profiles.lowered_eq_ok_iff.mp ⟨after, hlowered⟩).1 hrepeated
    | error problem =>
      obtain ⟨n, rfl, hrepeats, hfirst⟩ := hsorted.first_repeat hlowered
      exact ⟨n, rfl, hrepeats, hfirst⟩

/-- Two profiles, one of which has a name that ends in a capital sigma. -/
def sigma : Config :=
  ⟨"wifi", some "ΝΑΣ", [("Night", ⟨.stop, false, [], some 5, [], false⟩),
    ("ΝΑΣ", ⟨.hibernate, false, [], none, [], false⟩)]⟩

/-- Three spellings of one name. -/
def thrice : Config :=
  ⟨"wifi", none, [("NAP", ⟨.stop, false, [], none, [], false⟩),
    ("Nap", ⟨.hibernate, false, [], none, [], false⟩),
    ("nap", ⟨.stop, false, [], none, [], false⟩)]⟩

theorem sorted_sigma : sigma.profiles.Sorted := by
  rw [Profiles.Sorted]
  decide +kernel

theorem sorted_thrice : thrice.profiles.Sorted := by
  rw [Profiles.Sorted]
  decide +kernel

theorem normalize_keeps_profiles_sigma :
    sigma.profiles.Sorted ∧
    (∃ c', sigma.normalize = .ok c' ∧ c'.profiles.length = 2 ∧
      c'.profile none = .ok ⟨.hibernate, false, [], none, [], false⟩ ∧
      c'.profile (some "nIGHT") = .ok ⟨.stop, false, [], some 5, [], false⟩ ∧
      c'.profile (some "nap") = .error (.unknownProfile "nap")) ∧
    thrice.profiles.Sorted ∧ thrice.normalize = .error (.invalid (.repeatedProfile "Nap")) := by
  obtain ⟨hok, -, hrenamed⟩ := normalize_keeps_profiles sigma sorted_sigma
  obtain ⟨-, hfirst, -⟩ := normalize_keeps_profiles thrice sorted_thrice
  obtain ⟨c', hc'⟩ := hok.mpr (by decide +kernel)
  obtain ⟨n, hn, hrepeats, hleast⟩ := hfirst (by decide +kernel)
  have h := hrenamed c' hc'
  refine ⟨sorted_sigma, ⟨c', hc', h.count, ?_, ?_, ?_⟩, sorted_thrice, ?_⟩
  · rw [h.selected "ΝΑΣ" rfl]
    exact h.found "ΝΑΣ" _ (by decide) "ΝΑΣ" rfl
  · exact h.found "Night" _ (by decide) "nIGHT" (by decide +kernel)
  · exact h.unknown "nap" (by decide +kernel)
  · have hnap : thrice.profiles.Repeats "Nap" :=
      ⟨by decide, "NAP", by decide, by decide +kernel, by decide +kernel⟩
    have hle := hleast "Nap" hnap
    obtain ⟨hmem, m, hm, hlt, -⟩ := hrepeats
    have hnames : thrice.profiles.names = ["NAP", "Nap", "nap"] := rfl
    rw [hnames, List.mem_cons, List.mem_cons, List.mem_singleton] at hmem hm
    rw [hn]
    rcases hmem with rfl | rfl | rfl
    · rcases hm with rfl | rfl | rfl <;> revert hlt <;> decide +kernel
    · rfl
    · revert hle
      decide +kernel

end DeviceSleep.Config
