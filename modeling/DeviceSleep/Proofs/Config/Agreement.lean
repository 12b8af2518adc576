import DeviceSleep.Proofs.Config.Collisions
import DeviceSleep.Proofs.Config.Normalizing
import DeviceSleep.Proofs.Reading.Leniency

/-! A file that can be loaded by itself gives the same configuration in layers, if nothing is laid over
it. Its values are read in layers as they are read in the file; its profiles are there under lowercase
names already, and bringing those of the file to lowercase names leaves the same profiles in the same
order. -/
namespace DeviceSleep.Config
set_option autoImplicit false

variable {c file : Config} {text : String} {entries inner : List (String × Tree)} {ps qs : Profiles}

/-- The profiles of a text, as tables. -/
def profileEntries (text : String) : List (String × Tree) :=
  match Toml.parse? text with
  | some (.table entries) => Settings.entriesOf ((entries.lookup "profiles").getD .nil)
  | _ => []

/-- The names of fields in the profiles of a text. -/
def profileFieldNames (text : String) : List String :=
  (profileEntries text).flatMap fun entry => (Settings.entriesOf entry.2).map Prod.fst

/-! ## Reading -/

/-- Entries in another order give the same results in another order. -/
theorem mapM_of_perm {α β : Type} {f : α → Option β} {l l' : List α} {results : List β} (h : l.Perm l')
    (hresults : l.mapM f = some results) :
    ∃ results', l'.mapM f = some results' ∧ results'.Perm results := by
  induction h generalizing results with
  | nil => exact ⟨results, hresults, .refl _⟩
  | cons a h ih =>
    rw [List.mapM_cons] at hresults
    obtain ⟨b, hb, hresults⟩ := Option.bind_eq_some_iff.mp hresults
    obtain ⟨rest, hrest, hresults⟩ := Option.bind_eq_some_iff.mp hresults
    obtain ⟨rest', hrest', hperm⟩ := ih hrest
    cases hresults
    rw [List.mapM_cons, hb, hrest']
    exact ⟨b :: rest', rfl, hperm.cons b⟩
  | swap a a' l =>
    rw [List.mapM_cons, List.mapM_cons] at hresults
    obtain ⟨b', hb', hresults⟩ := Option.bind_eq_some_iff.mp hresults
    obtain ⟨more, hmore, hresults⟩ := Option.bind_eq_some_iff.mp hresults
    obtain ⟨b, hb, hmore⟩ := Option.bind_eq_some_iff.mp hmore
    obtain ⟨rest, hrest, hmore⟩ := Option.bind_eq_some_iff.mp hmore
    cases hmore
    cases hresults
    rw [List.mapM_cons, List.mapM_cons, hb, hb', hrest]
    exact ⟨b :: b' :: rest, rfl, .swap b' b rest⟩
  | trans _ _ ih ih' =>
    obtain ⟨between, hbetween, hperm⟩ := ih hresults
    obtain ⟨results', hresults', hperm'⟩ := ih' hbetween
    exact ⟨results', hresults', hperm'.trans hperm⟩

theorem mapM_renamed {results : Profiles} {orders : TableOrders} {path : List String}
    (hfields : ∀ e ∈ inner, e.2.HasPlainFields)
    (h : (inner.mapM fun e => (Profile.read .file e.2).map fun p => (e.1, p)) = some results) :
    ((inner.map fun e => (Text.lower e.1, Settings.merged (e.2.hashed orders (path ++ [e.1])))).mapM
      fun e => (Profile.read .layered e.2).map fun p => (e.1, p)) = some results.renamed := by
  induction inner generalizing results with
  | nil =>
    cases h
    rfl
  | cons entry inner ih =>
    obtain ⟨hentry, hinner⟩ := List.forall_mem_cons.mp hfields
    rw [List.mapM_cons] at h
    obtain ⟨first, hfirst, h⟩ := Option.bind_eq_some_iff.mp h
    obtain ⟨rest, hrest, h⟩ := Option.bind_eq_some_iff.mp h
    obtain ⟨p, hp, rfl⟩ := Option.map_eq_some_iff.mp hfirst
    cases h
    have hp' := Profile.read_layered hentry (passes_merged orders (path ++ [entry.1]) entry.2) hp
    rw [List.map_cons, List.mapM_cons, hp', ih hinner hrest]
    rfl

/-- Profiles whose names differ in lowercase are all there in layers, under lowercase names. -/
theorem readProfiles_layered (orders : TableOrders) (path : List String)
    (hfields : ∀ e ∈ inner, e.2.HasPlainFields) (hnames : (inner.map Prod.fst).Nodup)
    (hread : readProfiles .file (.table inner) = some ps) (hdistinct : (ps.names.map Text.lower).Nodup) :
    ∃ qs, readProfiles .layered (.table (Settings.mergeEach (Tree.arranged orders path inner) [])) =
        some qs ∧ qs.Sorted ∧ qs.Perm ps.renamed := by
  obtain ⟨results, hresults, h⟩ := Option.bind_eq_some_iff.mp hread
  cases h
  have hfst := map_fst_of_mapM hresults
  -- What is said of the profiles in order goes over to the table that they are read from.
  have hperm : (Profiles.ofList results).Perm results := Profiles.perm_ofList (hfst ▸ hnames)
  have hlower : (Profiles.names results |>.map Text.lower).Nodup :=
    ((hperm.map _).map _).nodup_iff.mp hdistinct
  have hinner : ((inner.map Prod.fst).map Text.lower).Nodup := by
    rw [Profiles.names, hfst] at hlower
    exact hlower
  have harranged : ((Tree.arranged orders path inner).map fun e => Text.lower e.1).Nodup := by
    have h := ((Tree.names_arranged orders path inner).map Text.lower).nodup_iff.mpr hinner
    rwa [List.map_map] at h
  have hmerged := (Settings.perm_mergeEach_nil harranged).trans (Tree.perm_arranged.map _)
  rw [List.map_map] at hmerged
  obtain ⟨read, hread', hreadPerm⟩ := mapM_of_perm hmerged.symm (mapM_renamed hfields hresults)
  have hrenamed : (Profiles.names (Profiles.renamed results)).Nodup := by
    rw [Profiles.names_renamed]
    exact hlower
  have hnodup : (read.map Prod.fst).Nodup := (hreadPerm.map _).nodup_iff.mpr hrenamed
  refine ⟨Profiles.ofList read, ?_, Profiles.sorted_ofList _, ?_⟩
  · rw [readProfiles]
    exact Option.bind_eq_some_iff.mpr ⟨_, rfl, Option.bind_eq_some_iff.mpr ⟨_, hread', rfl⟩⟩
  · exact (Profiles.perm_ofList hnodup).trans (hreadPerm.trans (hperm.symm.map _))

variable {orders : TableOrders} {arranged : List (String × Tree)}

/-- The profiles of a file, wherever its table for them stands. -/
theorem profiles_layered (harranged : arranged.Perm (entries.map fun e => (e.1, e.2.hashed orders [e.1])))
    (hlower : ∀ e ∈ entries, Text.lower e.1 = e.1) (hdistinct : (entries.map Prod.fst).Nodup)
    (hinner : ∀ inner, entries.lookup "profiles" = some (.table inner) →
      (inner.map Prod.fst).Nodup ∧ ∀ e ∈ inner, e.2.HasPlainFields)
    (hread : Fields.withDefault entries "profiles" [] (readProfiles .file) = some ps)
    (hnames : (ps.names.map Text.lower).Nodup) :
    ∃ qs : Profiles, Fields.withDefault (Settings.mergeEach arranged []) "profiles" []
        (readProfiles .layered) = some qs ∧ qs.Sorted ∧ qs.Perm ps.renamed := by
  have hlookup := Settings.lookup_mergeEach_of_perm (f := fun name => Tree.hashed orders [name]) harranged
    hlower hdistinct "profiles"
  rw [Fields.withDefault, hlookup]
  rw [Fields.withDefault] at hread
  split at hread
  · rename_i hnone
    cases hread
    rw [hnone]
    exact ⟨[], rfl, Profiles.sorted_nil, List.Perm.nil⟩
  · rename_i t ht
    obtain ⟨inner, rfl, -⟩ := names_of_readProfiles hread
    obtain ⟨hnodup, hfields⟩ := hinner inner ht
    rw [ht]
    exact readProfiles_layered orders ["profiles"] hfields hnodup hread hnames

/-- All of a file but the names of its profiles is read in layers as in the file. -/
theorem read_layered (harranged : arranged.Perm (entries.map fun e => (e.1, e.2.hashed orders [e.1])))
    (hlower : ∀ e ∈ entries, Text.lower e.1 = e.1) (hdistinct : (entries.map Prod.fst).Nodup)
    (hinner : ∀ inner, entries.lookup "profiles" = some (.table inner) →
      (inner.map Prod.fst).Nodup ∧ ∀ e ∈ inner, e.2.HasPlainFields)
    (hread : read .file (.table entries) = some file)
    (hnames : (file.profiles.names.map Text.lower).Nodup) :
    ∃ qs, read .layered (.table (Settings.mergeEach arranged [])) =
        some ⟨file.platform, file.defaultProfile, qs⟩ ∧
      qs.Sorted ∧ qs.Perm file.profiles.renamed := by
  obtain ⟨fields, hfields, hplatform, hdefault, hprofiles⟩ := read_eq_some_iff.mp hread
  obtain rfl : entries = fields := Option.some.inj hfields
  have hpass := Fields.Pass.mergeEach (fun name => [name]) harranged hlower hdistinct
  have hplatform' := hpass.withDefault Rules.follows_text hplatform
  have hdefault' := hpass.optional Rules.follows_text rfl hdefault
  obtain ⟨qs, hqs, hsorted, hperm⟩ :=
    profiles_layered harranged hlower hdistinct hinner hprofiles hnames
  exact ⟨qs, read_eq_some_iff.mpr ⟨_, rfl, hplatform', hdefault', hqs⟩, hsorted, hperm⟩

/-- Bringing the same profiles to lowercase names a second time gives the same. -/
theorem normalize_renamed (hnormalize : file.normalize = .ok c) (hsorted : qs.Sorted)
    (hperm : qs.Perm file.profiles.renamed) :
    normalize ⟨file.platform, file.defaultProfile, qs⟩ = .ok c := by
  obtain ⟨hplatform, hdefault⟩ := normalize_parts hnormalize
  obtain rfl : qs = c.profiles :=
    hsorted.eq_of_perm (sorted_normalize hnormalize) (hperm.trans (perm_normalize hnormalize).symm)
  rw [normalize, hsorted.lowered_eq_self (renamed_of_normalize hnormalize).lowercase]
  dsimp only
  rw [← hplatform, ← hdefault]

/-! ## Texts -/

/-- No table of a text has a name twice, and the fields of its profiles are in lowercase if they are
written so. -/
theorem plain_profiles (hfields : ∀ n ∈ profileFieldNames text, Text.lower n = n)
    (hparse : Toml.parse? text = some (.table entries))
    (hinner : entries.lookup "profiles" = some (.table inner)) :
    (inner.map Prod.fst).Nodup ∧ ∀ e ∈ inner, e.2.HasPlainFields := by
  obtain ⟨-, hvalues⟩ := (Toml.distinct_of_parse? hparse).of_table
  obtain ⟨hnodup, hprofiles⟩ := (hvalues _ (Settings.mem_of_lookup hinner)).of_table
  have hentries : profileEntries text = inner := by
    rw [profileEntries, hparse]
    dsimp only
    rw [hinner]
    rfl
  refine ⟨hnodup, fun e he fields htable => ⟨fun field hfield => ?_, ?_⟩⟩
  · refine hfields field.1 (List.mem_flatMap.mpr ⟨e, hentries ▸ he, ?_⟩)
    rw [htable]
    exact List.mem_map_of_mem hfield
  · have hprofile := hprofiles e he
    rw [htable] at hprofile
    exact hprofile.of_table.1

/-- If a file whose outermost names are fields of a configuration, and whose profiles have their fields
under lowercase names, can be loaded by itself, then layers in which nothing is laid over it give the
same configuration: the same platform, the same default profile and the same profiles. The values of the
file must reach the layers as they are: no table of it may be one that is taken for a moment. -/
theorem layers_agree_with_file (disk : Disk) (path : String) (htext : disk path = .text text)
    (houter : ∀ n ∈ outerNames text, n ∈ fieldNames)
    (hfields : ∀ n ∈ profileFieldNames text, Text.lower n = n)
    (hplain : (Toml.parse? text).bind Toml.unmark = Toml.parse? text) (hload : load disk path = .ok c)
    (hashing : Hashing) : (loadLayered disk path ⟨[], hashing⟩).1 = .ok c := by
  obtain ⟨file, hfile, hnormalize⟩ := normalize_of_load htext hload
  obtain ⟨entries, hparse, hdistinct, hread⟩ := read_of_ofText hfile
  have hnames := mem_fieldNames_of_parse? houter hparse
  have hlower := Settings.lower_of_field hnames
  obtain ⟨arranged, harranged, hgather⟩ := Settings.gather_of_fields hnames hashing
  -- Loading has succeeded, so no profile takes the place of another in layers.
  have hnodup := (Profiles.lowered_eq_ok_iff.mp ⟨_, lowered_of_normalize hnormalize⟩).1
  obtain ⟨qs, hqs, hsorted, hperm⟩ := read_layered harranged hlower hdistinct
    (fun inner => plain_profiles hfields hparse) hread hnodup
  rw [loadLayered_text disk path htext, ofLayeredText, hplain, hparse]
  exact ofLayers_eq_ok_iff.mpr ⟨_, _, hgather, hqs, normalize_renamed hnormalize hsorted hperm⟩

/-- A table under the mark that makes it a moment: this file is loaded, but has no profiles in layers. -/
example :
    (ofText "[profiles.\"$__toml_private_datetime\"]\nmode = \"stop\"\n").isOk = true ∧
    ofLayeredText "[profiles.\"$__toml_private_datetime\"]\nmode = \"stop\"\n" ⟨[], .listed⟩ =
      .error .layers := by
  decide +kernel

/-- Two profiles that change places when their names are brought to lowercase. -/
def zoneAndNap : String :=
  "default_profile = \"NAP\"\n\n[profiles.Zone]\nmode = \x7b stop = \x7b\x7d \x7d\n" ++
    "duration_ms = 5000\n\n[profiles.nap]\nmode = \"hibernate\"\ngpio = [\x7b pin = 4 \x7d]\n"

theorem ofText_zoneAndNap :
    ofText zoneAndNap = .ok ⟨"cellular", some "NAP",
      [("Zone", ⟨.stop, false, [], some 5000, [], false⟩),
        ("nap", ⟨.hibernate, false, [⟨4, .rising⟩], none, [], false⟩)]⟩ := by
  decide +kernel

theorem load_zoneAndNap :
    load (fun _ => .text zoneAndNap) "sleep.toml" = .ok ⟨"cellular", some "nap",
      [("nap", ⟨.hibernate, false, [⟨4, .rising⟩], none, [], false⟩),
        ("zone", ⟨.stop, false, [], some 5000, [], false⟩)]⟩ := by
  show (ofText zoneAndNap).bind normalize = _
  rw [ofText_zoneAndNap]
  decide +kernel

theorem unmark_zoneAndNap : (Toml.parse? zoneAndNap).bind Toml.unmark = Toml.parse? zoneAndNap := by
  have hmark : (Toml.parse? zoneAndNap).any Toml.hasMark = false := by decide +kernel
  cases hparse : Toml.parse? zoneAndNap with
  | none => rfl
  | some t =>
    rw [hparse] at hmark
    exact Toml.unmark_eq_self_iff.mpr hmark

theorem layers_agree_with_file_zoneAndNap :
    (∀ n ∈ outerNames zoneAndNap, n ∈ fieldNames) ∧
    (∀ n ∈ profileFieldNames zoneAndNap, Text.lower n = n) ∧
    ∀ hashing, (loadLayered (fun _ => .text zoneAndNap) "sleep.toml" ⟨[], hashing⟩).1 =
      .ok ⟨"cellular", some "nap",
        [("nap", ⟨.hibernate, false, [⟨4, .rising⟩], none, [], false⟩),
          ("zone", ⟨.stop, false, [], some 5000, [], false⟩)]⟩ := by
  have houter : ∀ n ∈ outerNames zoneAndNap, n ∈ fieldNames := by decide +kernel
  have hfields : ∀ n ∈ profileFieldNames zoneAndNap, Text.lower n = n := by decide +kernel
  refine ⟨houter, hfields, ?_⟩
  exact layers_agree_with_file _ "sleep.toml" rfl houter hfields unmark_zoneAndNap load_zoneAndNap

end DeviceSleep.Config
