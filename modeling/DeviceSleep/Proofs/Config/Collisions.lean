import DeviceSleep.Config.Loading
import DeviceSleep.Proofs.Config.Names
import DeviceSleep.Proofs.Config.Orders
import DeviceSleep.Proofs.Toml.Keys
import Mathlib.Data.List.Perm.Subperm

/-! Profiles whose names differ in letter case only. A file by itself is refused. In layers such profiles
have become one before names are looked at, so that nothing is left to refuse: no layers are ever
invalid, and what is loaded has one profile where the file has several. -/
namespace DeviceSleep.Config
set_option autoImplicit false

variable {c : Config} {settings : Settings} {environment : Environment}

/-! ## Layers -/

/-- The names of profiles in gathered settings are in lowercase. -/
theorem lower_of_read_gathered {file : Tree} (hgather : Settings.gather file environment = .ok settings)
    (hread : read .layered (.table settings) = some c) :
    ∀ n ∈ c.profiles.names, Text.lower n = n := by
  obtain ⟨-, ⟨-, hnil⟩ | ⟨inner, hinner, hnames⟩⟩ := names_of_read_table rfl hread
  · rw [hnil]
    exact fun n hn => absurd hn List.not_mem_nil
  · intro n hn
    have hsettings := Settings.inLowercase_gather hgather
    obtain ⟨entry, hentry, rfl⟩ := List.mem_map.mp ((hnames n).mp hn)
    have htable := (hsettings _ (Settings.mem_of_lookup hinner)).2
    exact (Settings.inLowercase_entriesOf htable entry hentry).1

/-- In layers, no name is found twice. -/
theorem nodup_of_read_gathered {file : Tree}
    (hgather : Settings.gather file environment = .ok settings)
    (hread : read .layered (.table settings) = some c) :
    (c.profiles.names.map Text.lower).Nodup := by
  have hlower := lower_of_read_gathered hgather hread
  rw [List.map_congr_left hlower, List.map_id']
  exact (names_of_read_table rfl hread).1.nodup

theorem ofLayers_ne_invalid (file : Tree) (environment : Environment) (problem : Problem) :
    ofLayers file environment ≠ .error (.invalid problem) := by
  intro h
  rw [ofLayers] at h
  split at h
  · cases h
  · rename_i settings hgather
    split at h
    · cases h
    · rename_i c hread
      obtain ⟨c', hc'⟩ := normalize_of_nodup (nodup_of_read_gathered hgather hread)
      rw [hc'] at h
      cases h

theorem ofLayers_eq_ok_iff {file : Tree} : ofLayers file environment = .ok c ↔
    ∃ settings c₀, Settings.gather file environment = .ok settings ∧
      read .layered (.table settings) = some c₀ ∧ c₀.normalize = .ok c := by
  rw [ofLayers]
  cases Settings.gather file environment with
  | error cause => simp
  | ok settings =>
    cases hread : read .layered (.table settings) with
    | none => simp [hread]
    | some c₀ => simp [hread]

/-- The places that a text sets. -/
def textLeaves (text : String) : List (List Step × Tree) :=
  match (Toml.parse? text).bind Toml.unmark with
  | some file => Settings.fileLeaves file
  | none => []

/-- Where no place stands above another and none is set to two values, it does not matter in which order
tables are met, or variables are listed. -/
theorem ofLayeredText_of_separate {text : String} {vars vars' : List (String × String)}
    {hashing : Hashing} (hfile : Settings.Separate (textLeaves text))
    (hvars : Settings.Separate (Settings.variableLeaves vars)) (hperm : vars.Perm vars')
    (h : ofLayeredText text ⟨vars, hashing⟩ = .ok c) (hashing' : Hashing) :
    ofLayeredText text ⟨vars', hashing'⟩ = .ok c := by
  rw [ofLayeredText] at h ⊢
  rw [textLeaves] at hfile
  split at h
  · rename_i entries hentries
    rw [hentries] at hfile
    obtain ⟨settings, c₀, hgather, hread, hnormalize⟩ := ofLayers_eq_ok_iff.mp h
    have hgather' := Settings.gather_of_separate hfile hvars hperm hgather hashing'
    exact ofLayers_eq_ok_iff.mpr ⟨settings, c₀, hgather', hread, hnormalize⟩
  · cases h

theorem fst_reported (result : Except Failure Config) : (reported result).1 = result := by
  cases result <;> rfl

theorem loadLayered_text (disk : Disk) (path : String) {text : String}
    (htext : disk path = .text text) (environment : Environment) :
    (loadLayered disk path environment).1 = ofLayeredText text environment := by
  rw [loadLayered, fst_reported, layerText, htext]

/-- Whatever a file and the environment hold, a repeated name is never what is wrong with them. -/
theorem loadLayered_ne_invalid (disk : Disk) (path : String) (environment : Environment)
    (problem : Problem) : (loadLayered disk path environment).1 ≠ .error (.invalid problem) := by
  rw [loadLayered, fst_reported, ofLayeredText]
  split
  · exact ofLayers_ne_invalid _ environment problem
  · intro h
    cases h

/-! ## A file, by itself and in layers -/

/-- The names in the outermost table of a text. -/
def outerNames (text : String) : List String :=
  match Toml.parse? text with
  | some (.table entries) => entries.map Prod.fst
  | _ => []

variable {text : String} {file : Config} {entries inner : List (String × Tree)}

theorem normalize_of_load {disk : Disk} {path : String} (htext : disk path = .text text)
    (h : load disk path = .ok c) : ∃ file, ofText text = .ok file ∧ file.normalize = .ok c := by
  rw [load, htext] at h
  dsimp only at h
  cases hfile : ofText text with
  | error e =>
    rw [hfile] at h
    cases h
  | ok file =>
    rw [hfile] at h
    exact ⟨file, rfl, h⟩

/-- A configuration is read from a table without a repeated name. -/
theorem read_of_ofText (h : ofText text = .ok file) :
    ∃ entries, Toml.parse? text = some (.table entries) ∧ (entries.map Prod.fst).Nodup ∧
      read .file (.table entries) = some file := by
  rw [ofText] at h
  split at h
  · cases h
  · rename_i c hread
    cases h
    obtain ⟨t, hparse, hread⟩ := Option.bind_eq_some_iff.mp hread
    obtain ⟨entries, rfl, hdistinct⟩ := Toml.table_of_parse? hparse
    exact ⟨entries, hparse, hdistinct, hread⟩

/-- A file that has profiles has them in a table, which no other name of it hides. -/
theorem table_of_ofText (h : ofText text = .ok file) {name : String}
    (hname : name ∈ file.profiles.names) :
    ∃ entries inner, Toml.parse? text = some (.table entries) ∧ (entries.map Prod.fst).Nodup ∧
      entries.lookup "profiles" = some (.table inner) ∧
      ∀ n, n ∈ file.profiles.names ↔ n ∈ inner.map Prod.fst := by
  obtain ⟨entries, hparse, hdistinct, hread⟩ := read_of_ofText h
  obtain ⟨-, ⟨-, hnil⟩ | ⟨inner, hinner, hnames⟩⟩ := names_of_read_table rfl hread
  · rw [hnil] at hname
    cases hname
  · exact ⟨entries, inner, hparse, hdistinct, hinner, hnames⟩

theorem mem_fieldNames_of_parse? (houter : ∀ n ∈ outerNames text, n ∈ fieldNames)
    (hparse : Toml.parse? text = some (.table entries)) :
    ∀ m ∈ entries.map Prod.fst, m ∈ fieldNames := by
  rw [outerNames, hparse] at houter
  exact houter

/-- A file whose outermost names are known is loaded, or its values cannot be read together. -/
theorem ofLayeredText_cases (houter : ∀ n ∈ outerNames text, n ∈ fieldNames)
    (hparse : Toml.parse? text = some (.table entries)) (hashing : Hashing) :
    ofLayeredText text ⟨[], hashing⟩ = .error .layers ∨
      ∃ c, ofLayeredText text ⟨[], hashing⟩ = .ok c := by
  have hfields := mem_fieldNames_of_parse? houter hparse
  rw [ofLayeredText, hparse, Option.bind_some]
  split
  · rename_i plain hplain
    have hnames := Toml.names_unmarkEntries (Toml.unmarkEntries_of_unmark hplain)
    obtain ⟨arranged, -, hgather⟩ := Settings.gather_of_fields (hnames ▸ hfields) hashing
    rw [ofLayers, hgather]
    dsimp only
    split
    · exact .inl rfl
    · rename_i c hread
      exact .inr (normalize_of_nodup (nodup_of_read_gathered hgather hread))
  · exact .inl rfl

theorem exists_of_merged_eq_table {orders : TableOrders} {path : List String} {t : Tree}
    {table : List (String × Tree)} (h : Settings.merged (t.hashed orders path) = .table table) :
    ∃ inner, t = .table inner ∧ table = Settings.mergeEach (Tree.arranged orders path inner) [] := by
  cases t with
  | table inner =>
    cases h
    exact ⟨inner, rfl, rfl⟩
  | _ => cases h

/-- Profiles that have been merged into nothing have the lowercase forms of their names. -/
theorem names_of_read_merged {orders : TableOrders} {path : List String} {t : Tree}
    (hread : read .layered (.table settings) = some c)
    (hlookup : settings.lookup "profiles" = some (Settings.merged (t.hashed orders path))) :
    ∃ inner, t = .table inner ∧
      ∀ n, n ∈ c.profiles.names ↔ ∃ m ∈ inner.map Prod.fst, Text.lower m = n := by
  obtain ⟨-, ⟨hnone, -⟩ | ⟨table, htable, hnames⟩⟩ := names_of_read_table rfl hread
  · rw [hlookup] at hnone
    cases hnone
  · rw [hlookup] at htable
    obtain ⟨inner, rfl, rfl⟩ := exists_of_merged_eq_table (Option.some.inj htable)
    refine ⟨inner, rfl, fun n => (hnames n).trans ?_⟩
    refine Settings.mem_names_mergeEach.trans ((or_iff_right List.not_mem_nil).trans ?_)
    simp only [(Tree.names_arranged orders path inner).mem_iff]

/-- The profiles that a file has in layers by itself: one for each lowercase form of its names. -/
theorem names_of_ofLayeredText (houter : ∀ n ∈ outerNames text, n ∈ fieldNames)
    (hparse : Toml.parse? text = some (.table entries)) (hdistinct : (entries.map Prod.fst).Nodup)
    (hinner : entries.lookup "profiles" = some (.table inner)) {hashing : Hashing}
    (hc : ofLayeredText text ⟨[], hashing⟩ = .ok c) (n : String) :
    n ∈ c.profiles.names ↔ ∃ m ∈ inner.map Prod.fst, Text.lower m = n := by
  have hfields := mem_fieldNames_of_parse? houter hparse
  rw [ofLayeredText, hparse, Option.bind_some] at hc
  split at hc
  · rename_i plain hplain
    have hentries := Toml.unmarkEntries_of_unmark hplain
    have hnames := Toml.names_unmarkEntries hentries
    obtain ⟨t, ht, hprofiles⟩ := Toml.lookup_unmarkEntries hentries hinner
    obtain ⟨settings, c₀, hgather, hread, hnormalize⟩ := ofLayers_eq_ok_iff.mp hc
    have hlookup := Settings.lookup_gathered (hnames ▸ hfields) (hnames ▸ hdistinct) hgather "profiles"
    rw [hprofiles, Option.map_some] at hlookup
    obtain ⟨inner', rfl, hmem⟩ := names_of_read_merged hread hlookup
    rw [Toml.names_unmarkEntries (Toml.unmarkEntries_of_unmark ht)] at hmem
    rw [mem_names_normalize hnormalize]
    constructor
    · rintro ⟨m, hm, rfl⟩
      obtain ⟨m', hm', rfl⟩ := (hmem m).mp hm
      exact ⟨m', hm', (Text.lower_lower m').symm⟩
    · rintro ⟨m', hm', rfl⟩
      exact ⟨Text.lower m', (hmem _).mpr ⟨m', hm', rfl⟩, Text.lower_lower m'⟩
  · cases hc

theorem normalized_of_ofLayeredText (h : ofLayeredText text environment = .ok c) :
    ∃ c₀ : Config, c₀.normalize = .ok c := by
  rw [ofLayeredText] at h
  split at h
  · obtain ⟨-, c₀, -, -, hnormalize⟩ := ofLayers_eq_ok_iff.mp h
    exact ⟨c₀, hnormalize⟩
  · cases h

theorem sorted_of_ofLayeredText (h : ofLayeredText text environment = .ok c) : c.profiles.Sorted := by
  obtain ⟨c₀, hc₀⟩ := normalized_of_ofLayeredText h
  exact sorted_normalize hc₀

/-- Of names that are one in lowercase, one is not needed for the lowercase forms of all. -/
theorem length_lt_of_same {names forms : List String} (hforms : forms.Nodup)
    (hlower : ∀ n ∈ forms, ∃ m ∈ names, Text.lower m = n) {name other : String}
    (hname : name ∈ names) (hother : other ∈ names) (hne : name ≠ other)
    (hsame : Text.lower name = Text.lower other) : forms.length < names.length := by
  have hsubset : forms ⊆ (names.erase name).map Text.lower := by
    intro n hn
    obtain ⟨m, hm, rfl⟩ := hlower n hn
    by_cases hmn : m = name
    · subst hmn
      exact List.mem_map.mpr ⟨other, (List.mem_erase_of_ne (Ne.symm hne)).mpr hother, hsame.symm⟩
    · exact List.mem_map.mpr ⟨m, (List.mem_erase_of_ne hmn).mpr hm, rfl⟩
  have hle := (hforms.subperm hsubset).length_le
  have hpos := List.length_pos_of_mem hname
  rw [List.length_map, List.length_erase_of_mem hname] at hle
  omega

theorem load_of_same {disk : Disk} {path : String} (htext : disk path = .text text)
    (hfile : ofText text = .ok file) {name other : String} (hname : name ∈ file.profiles.names)
    (hother : other ∈ file.profiles.names) (hne : name ≠ other)
    (hsame : Text.lower name = Text.lower other) :
    ∃ n ∈ file.profiles.names, load disk path = .error (.invalid (.repeatedProfile n)) := by
  have hrepeated : ¬ (file.profiles.names.map Text.lower).Nodup := by
    intro hnodup
    exact hne (List.inj_on_of_nodup_map hnodup hname hother hsame)
  obtain ⟨n, hn, hnormalize⟩ := normalize_of_not_nodup hrepeated
  refine ⟨n, hn, ?_⟩
  rw [load, htext]
  dsimp only
  rw [hfile]
  exact hnormalize

/-- A file with two profiles whose names differ in letter case only is refused by itself, naming one of
them. In layers it is not, whatever the environment is: unless the profiles that became one cannot be
read together, a configuration is loaded from it that has one profile for all names that are the same
in lowercase, and so fewer than the file. -/
theorem repeated_profiles_merge_in_layers (disk : Disk) (path name other : String)
    (htext : disk path = .text text) (hfile : ofText text = .ok file)
    (hname : name ∈ file.profiles.names) (hother : other ∈ file.profiles.names) (hne : name ≠ other)
    (hsame : Text.lower name = Text.lower other) :
    (∃ n ∈ file.profiles.names, load disk path = .error (.invalid (.repeatedProfile n))) ∧
    (∀ environment problem, (loadLayered disk path environment).1 ≠ .error (.invalid problem)) ∧
    ((∀ n ∈ outerNames text, n ∈ fieldNames) → ∀ hashing,
      (loadLayered disk path ⟨[], hashing⟩).1 = .error .layers ∨
      ∃ c, (loadLayered disk path ⟨[], hashing⟩).1 = .ok c ∧
        (∀ n, n ∈ c.profiles.names ↔ ∃ m ∈ file.profiles.names, Text.lower m = n) ∧
        c.profiles.length < file.profiles.length) := by
  refine ⟨load_of_same htext hfile hname hother hne hsame,
    fun environment problem => loadLayered_ne_invalid disk path environment problem, ?_⟩
  intro houter hashing
  obtain ⟨entries, inner, hparse, hdistinct, hinner, hnames⟩ := table_of_ofText hfile hname
  rw [loadLayered_text disk path htext]
  rcases ofLayeredText_cases houter hparse hashing with hlayers | ⟨c, hc⟩
  · exact .inl hlayers
  refine .inr ⟨c, hc, ?_⟩
  have hforms (n : String) : n ∈ c.profiles.names ↔ ∃ m ∈ file.profiles.names, Text.lower m = n := by
    rw [names_of_ofLayeredText houter hparse hdistinct hinner hc n]
    simp only [hnames]
  refine ⟨hforms, ?_⟩
  have hlt := length_lt_of_same (sorted_of_ofLayeredText hc).nodup (fun n hn => (hforms n).mp hn)
    hname hother hne hsame
  rw [Profiles.names, List.length_map, Profiles.names, List.length_map] at hlt
  exact hlt

/-- Two profiles whose names differ in the case of one letter. They set nothing to two values, so that
nothing depends on which of them is met first. -/
def napTwice : String :=
  "[profiles.Nap]\nmode = \"stop\"\nwait_cloud = true\n\n[profiles.nap]\nmode = \"stop\"\nradio_link = true\n"

deriving instance DecidableEq for Except

/-- The file by itself, which its names do not let pass, and the file in layers, as it is listed. -/
theorem read_napTwice :
    (∀ n ∈ outerNames napTwice, n ∈ fieldNames) ∧ Text.lower "Nap" = Text.lower "nap" ∧
    ofText napTwice = .ok ⟨"cellular", none, [("Nap", ⟨.stop, true, [], none, [], false⟩),
      ("nap", ⟨.stop, false, [], none, [], true⟩)]⟩ ∧
    (ofText napTwice).bind normalize = .error (.invalid (.repeatedProfile "nap")) ∧
    ofLayeredText napTwice ⟨[], .listed⟩ =
      .ok ⟨"cellular", none, [("nap", ⟨.stop, true, [], none, [], true⟩)]⟩ := by
  decide +kernel

theorem separate_napTwice : Settings.Separate (textLeaves napTwice) := by
  decide +kernel

/-- In layers the two have become one, in whatever order tables are met. -/
theorem loadLayered_napTwice (hashing : Hashing) :
    (loadLayered (fun _ => .text napTwice) "sleep.toml" ⟨[], hashing⟩).1 =
      .ok ⟨"cellular", none, [("nap", ⟨.stop, true, [], none, [], true⟩)]⟩ := by
  have hlayered := loadLayered_text (fun _ => .text napTwice) "sleep.toml" rfl ⟨[], hashing⟩
  have hnone : Settings.Separate (Settings.variableLeaves []) := .nil
  exact hlayered.trans
    (ofLayeredText_of_separate separate_napTwice hnone (.refl []) read_napTwice.2.2.2.2 hashing)

/-- The file by itself is refused, and in layers it is a configuration with one profile. -/
theorem layers_merge_napTwice :
    load (fun _ => .text napTwice) "sleep.toml" = .error (.invalid (.repeatedProfile "nap")) ∧
    ∀ hashing, (loadLayered (fun _ => .text napTwice) "sleep.toml" ⟨[], hashing⟩).1 =
      .ok ⟨"cellular", none, [("nap", ⟨.stop, true, [], none, [], true⟩)]⟩ := by
  constructor
  · exact read_napTwice.2.2.2.1
  · exact loadLayered_napTwice

theorem repeated_profiles_merge_in_layers_napTwice :
    "Nap" ≠ "nap" ∧ Text.lower "Nap" = Text.lower "nap" ∧
    ∃ file, ofText napTwice = .ok file ∧ ∀ hashing,
      ∃ c, (loadLayered (fun _ => .text napTwice) "sleep.toml" ⟨[], hashing⟩).1 = .ok c ∧
        c.profiles.length < file.profiles.length := by
  obtain ⟨houter, hsame, hfile, -, -⟩ := read_napTwice
  obtain ⟨-, -, hfewer⟩ := repeated_profiles_merge_in_layers (fun _ => .text napTwice) "sleep.toml"
    "Nap" "nap" rfl hfile (by decide) (by decide) (by decide) hsame
  refine ⟨by decide, hsame, _, hfile, fun hashing => ?_⟩
  rcases hfewer houter hashing with hlayers | ⟨c, hc, -, hlt⟩
  · rw [loadLayered_napTwice] at hlayers
    cases hlayers
  · exact ⟨c, hc, hlt⟩

end DeviceSleep.Config
