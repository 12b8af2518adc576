import DeviceSleep.Config
import DeviceSleep.Proofs.Text.Lowered

/-! The names of the profiles of a configuration. They are in order, each once, and a configuration that
was read has those of its table. Bringing them to lowercase succeeds exactly if no two of them differ
in letter case only, and then loses none. -/
namespace DeviceSleep
set_option autoImplicit false

namespace Profiles

def names (ps : Profiles) : List String := ps.map Prod.fst

/-- The names are in increasing order, so each is there once. -/
def Sorted (ps : Profiles) : Prop := ps.names.Pairwise (· < ·)

variable {ps done : Profiles} {name n : String} {p : Profile}

@[simp] theorem names_nil : names [] = [] := rfl

@[simp] theorem names_cons : names ((name, p) :: ps) = name :: names ps := rfl

theorem sorted_nil : Sorted [] := List.Pairwise.nil

theorem Sorted.nodup (h : ps.Sorted) : ps.names.Nodup := by
  refine h.imp ?_
  rintro a _ hlt rfl
  exact String.lt_irrefl a hlt

theorem isSome_lookup_iff : (ps.lookup name).isSome = true ↔ name ∈ ps.names := by
  rw [List.lookup_isSome_iff, names, List.mem_map]
  simp only [beq_iff_eq, eq_comm (a := name)]

/-! ## Insertion -/

theorem mem_names_insert : n ∈ names (insert name p ps) ↔ n = name ∨ n ∈ ps.names := by
  induction ps with
  | nil => simp [insert]
  | cons entry ps ih =>
    obtain ⟨key, q⟩ := entry
    rw [insert]
    split
    · rename_i heq
      simp [heq]
    · split
      · simp
      · rw [names_cons, List.mem_cons, ih, names_cons, List.mem_cons]
        exact or_left_comm

theorem Sorted.insert (h : ps.Sorted) (name : String) (p : Profile) :
    Sorted (insert name p ps) := by
  induction ps with
  | nil => exact List.pairwise_singleton _ _
  | cons entry ps ih =>
    obtain ⟨key, q⟩ := entry
    have hps : Sorted ps := (List.pairwise_cons.mp h).2
    have hkey : ∀ n ∈ names ps, key < n := (List.pairwise_cons.mp h).1
    rw [Profiles.insert]
    split
    · rename_i heq
      subst heq
      exact h
    · rename_i hne
      split
      · rename_i hlt
        refine List.pairwise_cons.mpr ⟨?_, h⟩
        intro n hn
        rcases List.mem_cons.mp hn with rfl | hn
        · exact hlt
        · exact String.lt_trans hlt (hkey n hn)
      · rename_i hnlt
        have hlt : key < name := Std.lt_of_le_of_ne (String.not_lt.mp hnlt) (Ne.symm hne)
        refine List.pairwise_cons.mpr ⟨?_, ih hps⟩
        intro n hn
        rcases mem_names_insert.mp hn with rfl | hn
        · exact hlt
        · exact hkey n hn

theorem sorted_foldl_insert (entries : List (String × Profile)) (h : ps.Sorted) :
    Sorted (entries.foldl (fun profiles entry => Profiles.insert entry.1 entry.2 profiles) ps) := by
  induction entries generalizing ps with
  | nil => exact h
  | cons entry entries ih => exact ih (h.insert entry.1 entry.2)

theorem mem_names_foldl_insert (entries : List (String × Profile)) :
    n ∈ names (entries.foldl (fun profiles entry => Profiles.insert entry.1 entry.2 profiles) ps) ↔
      n ∈ ps.names ∨ n ∈ entries.map Prod.fst := by
  induction entries generalizing ps with
  | nil => simp
  | cons entry entries ih =>
    rw [List.foldl_cons, ih, mem_names_insert, List.map_cons, List.mem_cons, or_assoc]
    exact or_left_comm

theorem sorted_ofList (entries : List (String × Profile)) : Sorted (ofList entries) :=
  sorted_foldl_insert entries sorted_nil

theorem mem_names_ofList (entries : List (String × Profile)) :
    n ∈ names (ofList entries) ↔ n ∈ entries.map Prod.fst := by
  rw [ofList, mem_names_foldl_insert]
  simp

/-! ## Lowercase names -/

/-- No name is taken before it is its turn. -/
theorem lowered_eq_ok_iff :
    (∃ after, lowered done ps = .ok after) ↔
      (ps.names.map Text.lower).Nodup ∧ ∀ n ∈ ps.names, Text.lower n ∉ done.names := by
  induction ps generalizing done with
  | nil => simp [lowered]
  | cons entry ps ih =>
    obtain ⟨key, q⟩ := entry
    rw [lowered]
    simp only [isSome_lookup_iff]
    split
    · rename_i htaken
      refine iff_of_false (by rintro ⟨after, h⟩; cases h) ?_
      rintro ⟨-, hfresh⟩
      exact hfresh key List.mem_cons_self htaken
    · rename_i hfree
      rw [ih]
      simp only [mem_names_insert, not_or, names_cons, List.map_cons, List.nodup_cons, List.mem_cons,
        forall_eq_or_imp]
      constructor
      · rintro ⟨hnodup, hfresh⟩
        refine ⟨⟨?_, hnodup⟩, hfree, fun n hn => (hfresh n hn).2⟩
        intro hmem
        obtain ⟨n, hn, heq⟩ := List.mem_map.mp hmem
        exact (hfresh n hn).1 heq
      · rintro ⟨⟨hkey, hnodup⟩, -, hfresh⟩
        refine ⟨hnodup, fun n hn => ⟨?_, hfresh n hn⟩⟩
        intro heq
        exact hkey (List.mem_map.mpr ⟨n, hn, heq⟩)

/-- Only a name can be at fault. -/
theorem lowered_eq_error {problem : Problem} (h : lowered done ps = .error problem) :
    ∃ n ∈ ps.names, problem = .repeatedProfile n := by
  induction ps generalizing done with
  | nil => cases h
  | cons entry ps ih =>
    obtain ⟨key, q⟩ := entry
    rw [lowered] at h
    split at h
    · cases h
      exact ⟨key, List.mem_cons_self, rfl⟩
    · obtain ⟨n, hn, hproblem⟩ := ih h
      exact ⟨n, List.mem_cons_of_mem key hn, hproblem⟩

theorem mem_names_of_lowered {after : Profiles} (h : lowered done ps = .ok after) :
    n ∈ after.names ↔ n ∈ done.names ∨ ∃ m ∈ ps.names, Text.lower m = n := by
  induction ps generalizing done with
  | nil =>
    cases h
    simp
  | cons entry ps ih =>
    obtain ⟨key, q⟩ := entry
    rw [lowered] at h
    split at h
    · cases h
    · rw [ih h, mem_names_insert]
      simp only [names_cons, List.mem_cons, exists_eq_or_imp, eq_comm (a := n), or_assoc]
      exact or_left_comm

theorem Sorted.lowered {after : Profiles} (hdone : done.Sorted)
    (h : Profiles.lowered done ps = .ok after) : after.Sorted := by
  induction ps generalizing done with
  | nil =>
    cases h
    exact hdone
  | cons entry ps ih =>
    obtain ⟨key, q⟩ := entry
    rw [Profiles.lowered] at h
    split at h
    · cases h
    · exact ih (hdone.insert _ _) h

end Profiles

namespace Config

variable {c c' : Config}

/-! ## Reading -/

theorem map_fst_of_mapM {α β : Type} {f : α → Option β} {entries : List (String × α)}
    {results : List (String × β)}
    (h : (entries.mapM fun entry => (f entry.2).map fun b => (entry.1, b)) = some results) :
    results.map Prod.fst = entries.map Prod.fst := by
  induction entries generalizing results with
  | nil =>
    cases h
    rfl
  | cons entry entries ih =>
    rw [List.mapM_cons] at h
    obtain ⟨first, hfirst, h⟩ := Option.bind_eq_some_iff.mp h
    obtain ⟨more, hmore, h⟩ := Option.bind_eq_some_iff.mp h
    obtain ⟨b, -, rfl⟩ := Option.map_eq_some_iff.mp hfirst
    cases h
    rw [List.map_cons, List.map_cons, ih hmore]

/-- Profiles come from a table and have the names in it. -/
theorem names_of_readProfiles {rules : Rules} {t : Tree} {ps : Profiles}
    (h : readProfiles rules t = some ps) :
    ∃ entries, t = .table entries ∧ ps.Sorted ∧ ∀ n, n ∈ ps.names ↔ n ∈ entries.map Prod.fst := by
  rw [readProfiles] at h
  obtain ⟨entries, ht, h⟩ := Option.bind_eq_some_iff.mp h
  obtain ⟨results, hresults, h⟩ := Option.bind_eq_some_iff.mp h
  cases h
  refine ⟨entries, ?_, Profiles.sorted_ofList results, ?_⟩
  · cases t with
    | table found => exact congrArg Tree.table (Option.some.inj ht)
    | _ => cases ht
  · intro n
    rw [Profiles.mem_names_ofList, map_fst_of_mapM hresults]

/-- A configuration is read field by field. -/
theorem read_eq_some_iff {rules : Rules} {t : Tree} :
    read rules t = some c ↔ ∃ fields : Fields, rules.fields? fieldNames t = some fields ∧
      fields.withDefault "platform" defaultPlatform rules.text? = some c.platform ∧
      fields.optional "default_profile" rules rules.text? = some c.defaultProfile ∧
      fields.withDefault "profiles" [] (readProfiles rules) = some c.profiles := by
  rw [read]
  constructor
  · intro h
    obtain ⟨fields, hfields, h⟩ := Option.bind_eq_some_iff.mp h
    obtain ⟨platform, hplatform, h⟩ := Option.bind_eq_some_iff.mp h
    obtain ⟨default, hdefault, h⟩ := Option.bind_eq_some_iff.mp h
    obtain ⟨profiles, hprofiles, h⟩ := Option.bind_eq_some_iff.mp h
    cases h
    exact ⟨fields, hfields, hplatform, hdefault, hprofiles⟩
  · rintro ⟨fields, hfields, hplatform, hdefault, hprofiles⟩
    refine Option.bind_eq_some_iff.mpr ⟨fields, hfields, ?_⟩
    refine Option.bind_eq_some_iff.mpr ⟨c.platform, hplatform, ?_⟩
    refine Option.bind_eq_some_iff.mpr ⟨c.defaultProfile, hdefault, ?_⟩
    exact Option.bind_eq_some_iff.mpr ⟨c.profiles, hprofiles, rfl⟩

/-- The profiles of a table of settings are those of its entry for them, if it has one. -/
theorem names_of_read_table {rules : Rules} {entries : List (String × Tree)}
    (hrules : rules.fields? fieldNames (.table entries) = some entries)
    (h : read rules (.table entries) = some c) :
    c.profiles.Sorted ∧
      ((entries.lookup "profiles" = none ∧ c.profiles = []) ∨
        ∃ inner, entries.lookup "profiles" = some (.table inner) ∧
          ∀ n, n ∈ c.profiles.names ↔ n ∈ inner.map Prod.fst) := by
  obtain ⟨fields, hfields, -, -, hprofiles⟩ := read_eq_some_iff.mp h
  obtain rfl : entries = fields := Option.some.inj (hrules.symm.trans hfields)
  rw [Fields.withDefault] at hprofiles
  split at hprofiles
  · rename_i hnone
    obtain hnil := Option.some.inj hprofiles
    rw [← hnil]
    exact ⟨Profiles.sorted_nil, .inl ⟨hnone, rfl⟩⟩
  · rename_i t ht
    obtain ⟨inner, rfl, hsorted, hnames⟩ := names_of_readProfiles hprofiles
    exact ⟨hsorted, .inr ⟨inner, ht, hnames⟩⟩

/-! ## Lowercase names -/

theorem lowered_of_normalize (h : c.normalize = .ok c') :
    Profiles.lowered [] c.profiles = .ok c'.profiles := by
  rw [normalize] at h
  split at h
  · cases h
  · rename_i hlowered
    cases h
    exact hlowered

theorem mem_names_normalize (h : c.normalize = .ok c') {n : String} :
    n ∈ c'.profiles.names ↔ ∃ m ∈ c.profiles.names, Text.lower m = n := by
  rw [Profiles.mem_names_of_lowered (lowered_of_normalize h)]
  simp

theorem sorted_normalize (h : c.normalize = .ok c') : c'.profiles.Sorted :=
  Profiles.sorted_nil.lowered (lowered_of_normalize h)

theorem normalize_of_nodup (h : (c.profiles.names.map Text.lower).Nodup) :
    ∃ c', c.normalize = .ok c' := by
  have hfresh : ∀ n ∈ c.profiles.names, Text.lower n ∉ Profiles.names [] :=
    fun n _ => List.not_mem_nil
  obtain ⟨after, hafter⟩ := Profiles.lowered_eq_ok_iff.mpr ⟨h, hfresh⟩
  rw [normalize, hafter]
  exact ⟨_, rfl⟩

/-- Two names that are one in lowercase are refused, by the name of one of them. -/
theorem normalize_of_not_nodup (h : ¬ (c.profiles.names.map Text.lower).Nodup) :
    ∃ n ∈ c.profiles.names, c.normalize = .error (.invalid (.repeatedProfile n)) := by
  rw [normalize]
  cases hlowered : Profiles.lowered [] c.profiles with
  | ok after => exact absurd (Profiles.lowered_eq_ok_iff.mp ⟨after, hlowered⟩).1 h
  | error problem =>
    obtain ⟨n, hn, rfl⟩ := Profiles.lowered_eq_error hlowered
    exact ⟨n, hn, rfl⟩

end Config

end DeviceSleep
