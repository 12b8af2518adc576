import DeviceSleep.Proofs.Config.Collisions
import DeviceSleep.Proofs.Config.Normalizing
import DeviceSleep.Proofs.Config.Written
import DeviceSleep.Proofs.Files.Writing

/-! Saving a configuration and loading it again. The file that is written is found where it was written,
and its text is that of the configuration; so what is loaded is the configuration with lowercase names,
or it is refused for the names that are the same in lowercase. A configuration that was loaded has
lowercase names already. -/
namespace DeviceSleep.Config
set_option autoImplicit false

variable {c c' : Config} {disk : Disk} {path : String} {environment : Environment}
  {files after : Surroundings}

/-! ## Loading -/

/-- It came out of a load: of a file, of layers, or from where configurations are looked for. -/
inductive Loaded (c : Config) : Prop where
  | file (disk : Disk) (path : String) : load disk path = .ok c → Loaded c
  | layers (disk : Disk) (path : String) (environment : Environment) :
      (loadLayered disk path environment).1 = .ok c → Loaded c
  | standard (disk : Disk) (environment : Environment) :
      (loadDefault disk environment).1 = .ok c → Loaded c

theorem normalized_of_load (h : load disk path = .ok c) : ∃ c₀ : Config, c₀.normalize = .ok c := by
  cases htext : disk path with
  | text text =>
    obtain ⟨file, -, hfile⟩ := normalize_of_load htext h
    exact ⟨file, hfile⟩
  | _ =>
    rw [load, htext] at h
    cases h

theorem normalized_of_loadLayered (h : (loadLayered disk path environment).1 = .ok c) :
    ∃ c₀ : Config, c₀.normalize = .ok c := by
  rw [loadLayered, fst_reported] at h
  exact normalized_of_ofLayeredText h

/-- What is loaded has been brought to lowercase names. -/
theorem Loaded.normalized (h : Loaded c) : ∃ c₀ : Config, c₀.normalize = .ok c := by
  cases h with
  | file disk path h => exact normalized_of_load h
  | layers disk path environment h => exact normalized_of_loadLayered h
  | standard disk environment h =>
    rw [loadDefault] at h
    split at h
    · exact normalized_of_loadLayered h
    · have hempty : (reported (ofLayeredText "" environment)).1 = .ok c := h
      rw [fst_reported] at hempty
      exact normalized_of_ofLayeredText hempty

/-! ## Lowercase names once more -/

/-- Bringing names to lowercase a second time changes nothing. -/
theorem normalize_normalize (h : c.normalize = .ok c') : c'.normalize = .ok c' :=
  normalize_eq_self (sorted_normalize h) (renamed_of_normalize h).lowercase
    fun _ => lower_default_of_normalize h

theorem Loaded.normalize_eq (h : Loaded c) : c.normalize = .ok c := by
  obtain ⟨c₀, hc₀⟩ := h.normalized
  exact normalize_normalize hc₀

/-! ## Saving -/

theorem lookup_save (h : c.save files path = .ok after) : after.lookup path = .text c.text := by
  rw [save] at h
  split at h
  · split at h
    · cases h
    · rename_i written hwritten
      cases h
      exact Surroundings.lookup_write hwritten
  · cases h

/-- Where the text of a configuration stands, it is loaded as itself, up to its names. -/
theorem load_text (hsorted : c.profiles.Sorted) (h : disk path = .text c.text) :
    load disk path = c.normalize := by
  rw [load, h]
  dsimp only
  rw [ofText_text hsorted]
  rfl

theorem load_save (hsorted : c.profiles.Sorted) (h : c.save files path = .ok after) :
    load after.lookup path = c.normalize :=
  load_text hsorted (lookup_save h)

/-- Saves a configuration and goes on with what is loaded again, at one path after the other. -/
def reload (c : Config) (files : Surroundings) : List String → Except Failure (Config × Surroundings)
  | [] => .ok (c, files)
  | path :: paths =>
    match c.save files path with
    | .error failure => .error failure
    | .ok after =>
      match load after.lookup path with
      | .error failure => .error failure
      | .ok c' => reload c' after paths

theorem reload_of_normalize_eq (hsorted : c.profiles.Sorted) (hc : c.normalize = .ok c)
    (files : Surroundings) (paths : List String) :
    c.reload files paths = (paths.foldlM c.save files).map fun after => (c, after) := by
  induction paths generalizing files with
  | nil => rfl
  | cons path paths ih =>
    rw [reload, List.foldlM_cons]
    cases hsave : c.save files path with
    | error failure => rfl
    | ok after =>
      dsimp only
      rw [load_save hsorted hsave, hc]
      exact ih after

theorem reload_cons (hsorted : c.profiles.Sorted) (files : Surroundings) (path : String)
    (paths : List String) : c.reload files (path :: paths) = do
      let after ← c.save files path
      let c' ← c.normalize
      let last ← paths.foldlM c'.save after
      return (c', last) := by
  rw [reload]
  cases hsave : c.save files path with
  | error failure => rfl
  | ok after =>
    dsimp only
    rw [load_save hsorted hsave]
    cases hc : c.normalize with
    | error failure => rfl
    | ok c' =>
      have hrest := reload_of_normalize_eq (sorted_normalize hc) (normalize_normalize hc) after paths
      refine hrest.trans ?_
      show _ = (paths.foldlM c'.save after).bind fun last => .ok (c', last)
      cases paths.foldlM c'.save after <;> rfl

/-- Where a configuration is saved, its text is found; and wherever its text is found, loading it gives the
configuration with lowercase names, or refuses it as bringing the names to lowercase does. One that came
out of a load comes back as it is, so that saving and loading it any number of times, at whatever paths,
is the same as only saving it. To bring names to lowercase again changes nothing; and so, whatever was
saved first, after the first load nothing changes any more. -/
theorem saved_is_loaded (c : Config) (hsorted : c.profiles.Sorted) :
    (∀ files path after, c.save files path = .ok after →
      after.lookup path = .text c.text ∧ load after.lookup path = c.normalize) ∧
    (∀ (disk : Disk) path, disk path = .text c.text → load disk path = c.normalize) ∧
    (c.Loaded → c.normalize = .ok c ∧
      ∀ files paths, c.reload files paths = (paths.foldlM c.save files).map fun after => (c, after)) ∧
    (∀ c', c.normalize = .ok c' → c'.normalize = .ok c') ∧
    ∀ files path paths, c.reload files (path :: paths) = do
      let after ← c.save files path
      let c' ← c.normalize
      let last ← paths.foldlM c'.save after
      return (c', last) := by
  refine ⟨?_, ?_, ?_, fun c' => normalize_normalize, reload_cons hsorted⟩
  · intro files path after hsave
    exact ⟨lookup_save hsave, load_save hsorted hsave⟩
  · intro disk path htext
    exact load_text hsorted htext
  · intro hloaded
    have hc := hloaded.normalize_eq
    exact ⟨hc, reload_of_normalize_eq hsorted hc⟩

/-- Quotes of both kinds in one text, a name with blanks in it, and one that ends in a capital sigma. -/
def quotedNap : Config :=
  ⟨"a \"b\" 'c'", some "ΝΑΣ",
    [("Long Nap",
        ⟨.stop, true, [⟨4, .falling⟩, ⟨65535, .change⟩], some 4294967295, ["eth0", "'\n"], true⟩),
      ("ΝΑΣ", ⟨.hibernate, false, [], none, [], false⟩)]⟩

/-- The same with lowercase names; inside a word the sigma would be another. -/
def quotedNapLowered : Config :=
  ⟨"a \"b\" 'c'", some "νας",
    [("long nap",
        ⟨.stop, true, [⟨4, .falling⟩, ⟨65535, .change⟩], some 4294967295, ["eth0", "'\n"], true⟩),
      ("νας", ⟨.hibernate, false, [], none, [], false⟩)]⟩

/-- The files that there are when a text has been written below `etc`, where work is done. -/
def writtenBelow (text : String) : Surroundings :=
  ⟨[("etc", .directory [("dormant", .directory [("sleep.toml", .text text)])])], ["etc"]⟩

theorem save_quotedNap :
    quotedNap.save ⟨[], ["etc"]⟩ "/etc/dormant/sleep.toml" = .ok (writtenBelow quotedNap.text) := by
  have hnull : "/etc/dormant/sleep.toml".contains '\x00' = false := by simp
  have hsound : Path.isSound "/etc/dormant/sleep.toml" = true := by
    rw [Path.isSound, hnull]
    decide +kernel
  have hwrite : Surroundings.write ⟨[], ["etc"]⟩ "/etc/dormant/sleep.toml" quotedNap.text =
      some (writtenBelow quotedNap.text) := by
    rw [Surroundings.write, if_pos hsound]
    rfl
  rw [save, if_pos (by decide +kernel), hwrite]

theorem save_quotedNapLowered :
    quotedNapLowered.save (writtenBelow quotedNap.text) "../etc/dormant/sleep.toml" =
      .ok (writtenBelow quotedNapLowered.text) := by
  have hnull : "../etc/dormant/sleep.toml".contains '\x00' = false := by simp
  have hsound : Path.isSound "../etc/dormant/sleep.toml" = true := by
    rw [Path.isSound, hnull]
    decide +kernel
  have hwrite : Surroundings.write (writtenBelow quotedNap.text) "../etc/dormant/sleep.toml"
      quotedNapLowered.text = some (writtenBelow quotedNapLowered.text) := by
    rw [Surroundings.write, if_pos hsound]
    rfl
  rw [save, if_pos (by decide +kernel), hwrite]

/-- Saved by a path from the root, and once more by one from the directory in which work is done. -/
theorem saved_is_loaded_quotedNap :
    quotedNap.profiles.Sorted ∧ quotedNapLowered.profiles.Sorted ∧
    load (writtenBelow quotedNap.text).lookup "/etc/dormant/sleep.toml" = .ok quotedNapLowered ∧
    quotedNapLowered.Loaded ∧
    quotedNapLowered.reload (writtenBelow quotedNap.text) ["../etc/dormant/sleep.toml"] =
      .ok (quotedNapLowered, writtenBelow quotedNapLowered.text) := by
  have hsorted : quotedNap.profiles.Sorted := by
    rw [Profiles.Sorted]
    decide +kernel
  have hlowered : quotedNapLowered.profiles.Sorted := by
    rw [Profiles.Sorted]
    decide +kernel
  have hload := ((saved_is_loaded quotedNap hsorted).1 _ _ _ save_quotedNap).2
  have hnormalize : quotedNap.normalize = .ok quotedNapLowered := by decide +kernel
  rw [hnormalize] at hload
  have hloaded : quotedNapLowered.Loaded := .file _ _ hload
  refine ⟨hsorted, hlowered, hload, hloaded, ?_⟩
  have hreload := ((saved_is_loaded quotedNapLowered hlowered).2.2.1 hloaded).2
  rw [hreload, List.foldlM_cons, save_quotedNapLowered]
  rfl

end DeviceSleep.Config
