import DeviceSleep.Proofs.Config.Collisions
import DeviceSleep.Proofs.Config.Normalizing
import DeviceSleep.Proofs.Config.Places

/-! Variables of the environment that set the platform or the default profile as a whole. Wherever such a
variable is added to layers that can be loaded, and whatever else they hold, it changes what it names and
nothing else: a place further down would have left a table or a list there, which could not have been
loaded, so no other variable writes there, and what the file wrote is replaced. It is so in whatever orders
tables are met, if they are met alike with the variable and without it. A variable that does not begin as
settings do makes no difference at all. -/
namespace DeviceSleep
set_option autoImplicit false

/-! ## Names of variables -/

/-- Without a mark in what comes out, no pair was replaced. -/
theorem Text.replacePair_eq_self {a b mark : Char} {cs : List Char}
    (h : mark ∉ replacePair a b mark cs) : replacePair a b mark cs = cs := by
  induction cs using replacePair.induct a b with
  | case1 c d rest heq ih =>
    rw [replacePair, if_pos heq] at h
    exact absurd List.mem_cons_self h
  | case2 c d rest hne ih =>
    rw [replacePair, if_neg hne] at h ⊢
    rw [ih fun hmem => h (List.mem_cons_of_mem c hmem)]
  | case3 cs hshort => exact replacePair.eq_2 a b mark cs hshort

theorem KeyPath.steps?_ne_nil {fuel : Nat} {cs : List Char} (hcs : cs ≠ []) :
    steps? fuel cs ≠ some [] := by
  fun_cases steps? fuel cs with
  | case1 => exact absurd rfl hcs
  | case2 => exact nofun
  | case3 => exact nofun
  | case4 => simp
  | case5 => simp [Option.bind_eq_some_iff]
  | case6 => exact nofun

/-- Only a text that is a name as a whole is a path without steps. -/
theorem KeyPath.eq_of_ofText {s name : String} (h : ofText s = ⟨name, []⟩) : s = name := by
  rw [ofText] at h
  split at h
  · rename_i steps hsteps
    obtain ⟨hname, rfl⟩ := KeyPath.mk.inj h
    have hrest : s.toList.dropWhile isNameChar = [] := by
      by_contra hne
      split at hsteps
      · cases hsteps
      · exact steps?_ne_nil hne hsteps
    have hwhole := List.takeWhile_append_dropWhile (p := isNameChar) (l := s.toList)
    rw [hrest, List.append_nil] at hwhole
    rw [← hname, hwhole, String.ofList_toList]
  · exact (KeyPath.mk.inj h).1

namespace Settings

variable {entry : String × String} {setting : String × Tree} {key name n v : String} {value : Tree}

theorem ofVariable?_eq_some (h : (Text.after? variableStart (Text.lowercase entry.1.toList)).map
    (fun rest => String.ofList (Text.replacePair '_' '_' '.' rest)) = some key) :
    ofVariable? entry = some (key, .text entry.2) := by
  obtain ⟨rest, hrest, rfl⟩ := Option.map_eq_some_iff.mp h
  exact Option.map_eq_some_iff.mpr ⟨rest, hrest, rfl⟩

/-- A variable that sets a name as a whole is called by this name. -/
theorem lower_of_ofVariable?_name (hname : '.' ∉ name.toList) (h : ofVariable? entry = some (name, value)) :
    Text.lower entry.1 = "dormant__" ++ name := by
  obtain ⟨rest, hrest, hsetting⟩ := Option.map_eq_some_iff.mp h
  obtain ⟨hkey, -⟩ := Prod.mk.inj hsetting
  subst hkey
  rw [String.toList_ofList] at hname
  rw [Text.replacePair_eq_self hname, Text.lower, (Text.after?_eq_some_iff _ _ _).mp hrest]
  rw [String.ofList_append]
  rfl

theorem ofVariable?_eq_none (h : ∀ rest, Text.lower entry.1 ≠ "dormant__" ++ rest) :
    ofVariable? entry = none := by
  rw [ofVariable?, Option.map_eq_none_iff]
  cases hrest : Text.after? variableStart (Text.lowercase entry.1.toList) with
  | none => rfl
  | some rest =>
    refine absurd ?_ (h (String.ofList rest))
    rw [Text.lower, (Text.after?_eq_some_iff _ _ _).mp hrest, String.ofList_append]
    rfl

/-! ## Environments with one variable more -/

variable {front back : List (String × String)} {settings : Settings}

theorem collect_ignored (h : ofVariable? entry = none) :
    collect (front ++ entry :: back) = collect (front ++ back) := by
  rw [collect, collect, List.filterMap_append, List.filterMap_cons_none h, List.filterMap_append]

/-- A setting under a new name comes to those that are there. -/
theorem collect_new (hentry : ofVariable? entry = some (key, value))
    (hnew : ∀ e ∈ (front ++ back).filterMap ofVariable?, e.1 ≠ key) :
    (collect (front ++ entry :: back)).Perm ((key, value) :: collect (front ++ back)) := by
  have habsent : key ∉ (collect (front ++ back)).names := by
    intro hkey
    obtain ⟨e, he, rfl⟩ := List.mem_map.mp hkey
    exact hnew e (mem_of_mem_collect he) rfl
  have hback : ∀ e ∈ back.filterMap ofVariable?, e.1 ≠ key := by
    intro e he
    refine hnew e ?_
    rw [List.filterMap_append]
    exact List.mem_append_right _ he
  have hcollect : collect (front ++ entry :: back) = put key value (collect (front ++ back)) := by
    rw [collect_eq_putAll, collect_eq_putAll, List.filterMap_append, List.filterMap_cons_some hentry,
      List.filterMap_append, putAll_append, putAll_append]
    exact putAll_put hback value _
  rw [hcollect, put_of_notMem habsent]
  exact perm_insert key value _

/-- The arrangement that orders one table in a way of its own. -/
theorem exists_arrangement {entries entries' : Settings} (h : entries'.Perm entries) :
    ∃ arrangement : Arrangement, arrangement.arrange entries = entries' := by
  classical
  refine ⟨⟨fun found => if found = entries then entries' else found, fun found => ?_⟩, if_pos rfl⟩
  split
  · rename_i heq
    rw [heq]
    exact h
  · exact .refl found

/-- The places of an environment are met as they are among those of a larger one, and the tables of the file
in the same orders. -/
structure Within (smaller larger : Environment) : Prop where
  file : smaller.hashing.file = larger.hashing.file
  places : (ofEnvironment smaller).Sublist (ofEnvironment larger)

/-- Whatever the orders with the larger environment are, the smaller one may be met so. -/
theorem exists_within (hentry : ofVariable? entry = some (key, value))
    (hnew : ∀ e ∈ (front ++ back).filterMap ofVariable?, e.1 ≠ key) (hashing : Hashing) :
    ∃ before, Within ⟨front ++ back, before⟩ ⟨front ++ entry :: back, hashing⟩ := by
  have hperm := (hashing.collected.perm (collect (front ++ entry :: back))).trans
    (collect_new hentry hnew)
  obtain ⟨first, last, hlist⟩ := List.append_of_mem (hperm.mem_iff.mpr List.mem_cons_self)
  rw [hlist] at hperm
  obtain ⟨arrangement, harrangement⟩ :=
    exists_arrangement (List.perm_middle.symm.trans hperm).cons_inv
  refine ⟨⟨hashing.file, arrangement⟩, rfl, ?_⟩
  rw [ofEnvironment, ofEnvironment, harrangement, hlist]
  exact ((List.sublist_cons_self _ last).append_left first).map _

/-- A list that has one element more has it between a front and a back of the other. -/
theorem exists_split_of_sublist {α : Type} {x : α} {l larger : List α} (h : l.Sublist larger)
    (hperm : larger.Perm (x :: l)) : ∃ first last, larger = first ++ x :: last ∧ l = first ++ last := by
  induction h with
  | slnil => cases hperm.symm.eq_nil
  | cons a hsub ih =>
    obtain rfl := hsub.eq_of_length (Nat.succ.inj hperm.length_eq).symm
    have ha : [a].Perm [x] := (List.perm_append_right_iff _).mp hperm
    obtain rfl := List.singleton_perm_singleton.mp ha
    exact ⟨[], _, rfl, rfl⟩
  | cons_cons a hsub ih =>
    obtain ⟨first, last, rfl, rfl⟩ := ih (hperm.trans (.swap _ _ _)).cons_inv
    exact ⟨a :: first, last, rfl, rfl⟩

/-- The places of the larger environment are those of the smaller one, with one more among them. -/
theorem Within.exists_split (hentry : ofVariable? entry = some (key, value))
    (hnew : ∀ e ∈ (front ++ back).filterMap ofVariable?, e.1 ≠ key) {before hashing : Hashing}
    (h : Within ⟨front ++ back, before⟩ ⟨front ++ entry :: back, hashing⟩) :
    ∃ first last, ofEnvironment ⟨front ++ entry :: back, hashing⟩ =
        first ++ (KeyPath.ofText key, value) :: last ∧
      ofEnvironment ⟨front ++ back, before⟩ = first ++ last := by
  refine exists_split_of_sublist h.places ?_
  have hlarger := (hashing.collected.perm (collect (front ++ entry :: back))).trans
    (collect_new hentry hnew)
  have hsmaller := (before.collected.perm (collect (front ++ back))).symm
  exact (hlarger.trans (hsmaller.cons (key, value))).map fun e => (KeyPath.ofText e.1, e.2)

/-! ## Settings with one place more -/

variable {places first last : List (KeyPath × Tree)}

theorem absent_of_setAll (hpaths : ∀ place ∈ places ++ last, place.1.InLowercase)
    (hsteps : ∀ place ∈ last, place.1.name = name → place.1.steps ≠ [])
    (h : setAll (places ++ last) [] = .ok settings)
    (hleaf : ∀ t, settings.lookup name = some t → isBranch t = false) :
    ∀ place ∈ last, place.1.name ≠ name := by
  have houtcome := outcomes_of_setAll hpaths h name
  rw [outcomes_append] at houtcome
  obtain ⟨old, -, hlast⟩ := exists_of_bind_eq_ok houtcome
  refine (absent_or_isBranch hsteps hlast).resolve_right ?_
  rintro ⟨t, ht, hbranch⟩
  rw [hleaf t ht] at hbranch
  cases hbranch

/-- One place more, which is a name as a whole where no later place is, changes this name only. -/
theorem exists_setAll_override (hlower : Text.lower name = name)
    (hpaths : ∀ place ∈ places ++ (first ++ last), place.1.InLowercase)
    (habsent : ∀ place ∈ first ++ last, place.1.name ≠ name)
    (h : setAll (places ++ (first ++ last)) [] = .ok settings) (v : String) :
    ∃ settings', setAll (places ++ (first ++ (⟨name, []⟩, .text v) :: last)) [] = .ok settings' ∧
      settings'.lookup name = some (.text v) ∧ ∀ n, name ≠ n → settings'.lookup n = settings.lookup n := by
  have hbefore (n : String) : outcomes n (places ++ (first ++ last)) none = .ok (settings.lookup n) :=
    outcomes_of_setAll hpaths h n
  have hname : outcomes name (places ++ (first ++ (⟨name, []⟩, .text v) :: last)) none =
      .ok (some (.text v)) := by
    obtain ⟨hfirst, hlast⟩ := List.forall_mem_append.mp habsent
    have hplaces := hbefore name
    rw [outcomes_append] at hplaces
    obtain ⟨written, hwritten, -⟩ := exists_of_bind_eq_ok hplaces
    have hwhole : KeyPath.name ⟨name, []⟩ = name := rfl
    rw [outcomes_append_of_ok hwritten, outcomes_append_of_ok (outcomes_of_absent hfirst),
      outcomes_cons_of_eq hwhole]
    exact outcomes_of_absent hlast
  have hothers (n : String) (hn : name ≠ n) :
      outcomes n (places ++ (first ++ (⟨name, []⟩, .text v) :: last)) none = .ok (settings.lookup n) := by
    have hwhole : KeyPath.name ⟨name, []⟩ ≠ n := hn
    have hplaces := hbefore n
    simp only [outcomes_append, outcomes_cons_of_ne hwhole] at hplaces ⊢
    exact hplaces
  have hpaths' : ∀ place ∈ places ++ (first ++ (⟨name, []⟩, .text v) :: last), place.1.InLowercase := by
    intro place hplace
    have hmem : place = (⟨name, []⟩, .text v) ∨ place ∈ places ++ (first ++ last) := by
      simp only [List.mem_append, List.mem_cons] at hplace ⊢
      tauto
    rcases hmem with rfl | hmem
    · exact ⟨hlower, fun _ hstep => absurd hstep List.not_mem_nil⟩
    · exact hpaths place hmem
  obtain ⟨settings', hsettings'⟩ : ∃ settings',
      setAll (places ++ (first ++ (⟨name, []⟩, .text v) :: last)) [] = .ok settings' := by
    refine exists_setAll hpaths' fun n => ?_
    by_cases hn : name = n
    · subst hn
      exact ⟨_, hname⟩
    · exact ⟨_, hothers n hn⟩
  have hafter := outcomes_of_setAll hpaths' hsettings'
  refine ⟨settings', hsettings', Except.ok.inj ((hafter name).symm.trans hname), fun n hn => ?_⟩
  exact Except.ok.inj ((hafter n).symm.trans (hothers n hn))

end Settings

namespace Config

open Settings

/-! ## Fields that are texts -/

inductive TextField where
  | platform
  | defaultProfile

namespace TextField

def name : TextField → String
  | platform => "platform"
  | defaultProfile => "default_profile"

def variableName : TextField → String
  | platform => "DORMANT__PLATFORM"
  | defaultProfile => "DORMANT__DEFAULT_PROFILE"

def put (field : TextField) (v : String) (c : Config) : Config :=
  match field with
  | platform => { c with platform := v }
  | defaultProfile => { c with defaultProfile := some v }

/-- What the field holds when names have been brought to lowercase. -/
def settled (field : TextField) (v : String) : String :=
  match field with
  | platform => v
  | defaultProfile => Text.lower v

variable {field : TextField} {c c' : Config} {settings settings' : Settings} {v : String}

theorem ofVariable?_variableName (field : TextField) (v : String) :
    ofVariable? (field.variableName, v) = some (field.name, .text v) := by
  refine ofVariable?_eq_some ?_
  show (Text.after? variableStart (Text.lowercase field.variableName.toList)).map _ = _
  cases field <;> decide +kernel

theorem ofText_name (field : TextField) :
    Text.lower field.name = field.name ∧ KeyPath.ofText field.name = ⟨field.name, []⟩ := by
  cases field <;> decide +kernel

theorem leaf_of_read (h : read .layered (.table settings) = some c) {t : Tree}
    (ht : settings.lookup field.name = some t) : isBranch t = false := by
  obtain ⟨fields, hfields, hplatform, hdefault, -⟩ := read_eq_some_iff.mp h
  obtain rfl : settings = fields := Option.some.inj hfields
  cases field with
  | platform =>
    have hlookup : settings.lookup "platform" = some t := ht
    rw [Fields.withDefault, hlookup] at hplatform
    cases t with
    | table | list => cases hplatform
    | _ => rfl
  | defaultProfile =>
    have hlookup : settings.lookup "default_profile" = some t := ht
    rw [Fields.optional, hlookup] at hdefault
    cases t with
    | table | list => cases hdefault
    | _ => rfl

/-- Each field is read from what stands under its name. -/
theorem read_put (h : read .layered (.table settings) = some c)
    (hfield : settings'.lookup field.name = some (.text v))
    (hothers : ∀ n, field.name ≠ n → settings'.lookup n = settings.lookup n) :
    read .layered (.table settings') = some (field.put v c) := by
  obtain ⟨fields, hfields, hplatform, hdefault, hprofiles⟩ := read_eq_some_iff.mp h
  obtain rfl : settings = fields := Option.some.inj hfields
  cases field with
  | platform =>
    have hlookup : settings'.lookup "platform" = some (.text v) := hfield
    refine read_eq_some_iff.mpr ⟨settings', rfl, ?_, ?_, ?_⟩
    · rw [Fields.withDefault, hlookup]
      rfl
    · rw [Fields.optional, hothers _ (by decide)]
      exact hdefault
    · rw [Fields.withDefault, hothers _ (by decide)]
      exact hprofiles
  | defaultProfile =>
    have hlookup : settings'.lookup "default_profile" = some (.text v) := hfield
    refine read_eq_some_iff.mpr ⟨settings', rfl, ?_, ?_, ?_⟩
    · rw [Fields.withDefault, hothers _ (by decide)]
      exact hplatform
    · rw [Fields.optional, hlookup]
      rfl
    · rw [Fields.withDefault, hothers _ (by decide)]
      exact hprofiles

theorem normalize_put (h : c.normalize = .ok c') (field : TextField) (v : String) :
    (field.put v c).normalize = .ok (field.put (field.settled v) c') := by
  have hlowered := lowered_of_normalize h
  obtain ⟨hplatform, hdefault⟩ := normalize_parts h
  obtain ⟨platform', defaultProfile', profiles'⟩ := c'
  dsimp only at hlowered hplatform hdefault
  subst hplatform hdefault
  cases field with
  | platform =>
    rw [put, normalize, hlowered]
    rfl
  | defaultProfile =>
    rw [put, normalize, hlowered]
    rfl

end TextField

/-! ## Configurations with one variable more -/

variable {entry : String × String} {front back vars vars' : List (String × String)} {c : Config}
  {file : Tree} {text v : String}

theorem ne_name_of_mem {field : TextField} (hnames : ∀ e ∈ vars, Text.lower e.1 ≠ "dormant__" ++ field.name) :
    ∀ e ∈ vars.filterMap ofVariable?, e.1 ≠ field.name := by
  have hdot : '.' ∉ field.name.toList := by cases field <;> decide
  rintro ⟨key, value⟩ he rfl
  obtain ⟨entry, hentry, hsetting⟩ := List.mem_filterMap.mp he
  exact hnames entry hentry (lower_of_ofVariable?_name hdot hsetting)

/-- Met in the same orders, a file and the larger environment give the same configuration but for the
field. -/
theorem ofLayers_put {field : TextField} {before hashing : Hashing}
    (hnames : ∀ e ∈ front ++ back, Text.lower e.1 ≠ "dormant__" ++ field.name)
    (hwithin : Within ⟨front ++ back, before⟩ ⟨front ++ (field.variableName, v) :: back, hashing⟩)
    (h : ofLayers file ⟨front ++ back, before⟩ = .ok c) :
    ofLayers file ⟨front ++ (field.variableName, v) :: back, hashing⟩ =
      .ok (field.put (field.settled v) c) := by
  have hnew := ne_name_of_mem hnames
  obtain ⟨first, last, hlarger, hsmaller⟩ := hwithin.exists_split (field.ofVariable?_variableName v) hnew
  obtain ⟨settings, c₀, hgather, hread, hnormalize⟩ := ofLayers_eq_ok_iff.mp h
  obtain ⟨hlower, hpath⟩ := field.ofText_name
  have hpaths : ∀ place ∈ ofFile before.file file ++ (first ++ last), place.1.InLowercase := by
    rw [← hsmaller]
    exact List.forall_mem_append.mpr ⟨inLowercase_ofFile, inLowercase_ofEnvironment⟩
  -- A variable that is another's name as a whole would be called like this one.
  have hsteps : ∀ place ∈ first ++ last, place.1.name = field.name → place.1.steps ≠ [] := by
    rw [← hsmaller]
    intro place hplace hname hnil
    obtain ⟨setting, hsetting, rfl⟩ := List.mem_map.mp hplace
    have hmem := mem_of_mem_collect ((before.collected.perm _).mem_iff.mp hsetting)
    have hwhole : KeyPath.ofText setting.1 = ⟨field.name, []⟩ := by
      rw [← hname, ← hnil]
    exact hnew setting hmem (KeyPath.eq_of_ofText hwhole)
  rw [gather, hsmaller] at hgather
  have habsent := absent_of_setAll hpaths hsteps hgather fun t ht => TextField.leaf_of_read hread ht
  obtain ⟨settings', hgather', hfield, hothers⟩ :=
    exists_setAll_override hlower hpaths habsent hgather v
  have hgather'' : gather file ⟨front ++ (field.variableName, v) :: back, hashing⟩ = .ok settings' := by
    rw [gather, hlarger, hpath, ← hwithin.file]
    exact hgather'
  have hread' := TextField.read_put hread hfield hothers
  exact ofLayers_eq_ok_iff.mpr
    ⟨settings', _, hgather'', hread', TextField.normalize_put hnormalize field v⟩

theorem ofLayers_ignored (h : ofVariable? entry = none) (hashing : Hashing) :
    ofLayers file ⟨front ++ entry :: back, hashing⟩ = ofLayers file ⟨front ++ back, hashing⟩ := by
  rw [ofLayers, ofLayers, gather, gather, ofEnvironment, ofEnvironment, collect_ignored h]

theorem ofLayeredText_put {field : TextField} {before hashing : Hashing}
    (hnames : ∀ e ∈ front ++ back, Text.lower e.1 ≠ "dormant__" ++ field.name)
    (hwithin : Within ⟨front ++ back, before⟩ ⟨front ++ (field.variableName, v) :: back, hashing⟩)
    (h : ofLayeredText text ⟨front ++ back, before⟩ = .ok c) :
    ofLayeredText text ⟨front ++ (field.variableName, v) :: back, hashing⟩ =
      .ok (field.put (field.settled v) c) := by
  rw [ofLayeredText] at h ⊢
  split at h
  · exact ofLayers_put hnames hwithin h
  · cases h

theorem ofLayeredText_ignored (h : ofVariable? entry = none) (hashing : Hashing) :
    ofLayeredText text ⟨front ++ entry :: back, hashing⟩ = ofLayeredText text ⟨front ++ back, hashing⟩ := by
  simp only [ofLayeredText, ofLayers_ignored h]

/-- The text of the first file that is there where configurations are looked for. -/
def standardText (disk : Disk) : String :=
  match standardPaths.find? fun path => disk path != .missing with
  | some path => layerText disk path
  | none => ""

/-- The ways to load layers over a text: from a file that is named, or from where configurations are
looked for. -/
inductive LoadsLayers : String → (Environment → Loading) → Prop where
  | named (disk : Disk) (path : String) : LoadsLayers (layerText disk path) (loadLayered disk path)
  | standard (disk : Disk) : LoadsLayers (standardText disk) (loadDefault disk)

variable {load : Environment → Loading}

theorem LoadsLayers.fst (h : LoadsLayers text load) (environment : Environment) :
    (load environment).1 = ofLayeredText text environment := by
  cases h with
  | named disk path => exact fst_reported _
  | standard disk =>
    rw [loadDefault, standardText]
    cases standardPaths.find? fun path => disk path != .missing with
    | none => exact fst_reported _
    | some path => exact fst_reported _

/-- A variable more makes this change and no other. If a configuration is loaded without it, in whatever
order tables are met, the changed one is loaded with it, in whatever order. Where orders matter, the same
holds of any two runs that meet everything else in the same orders, and to a run with the variable there is
such a run without it. -/
structure OnlyChanges (load : Environment → Loading) (vars vars' : List (String × String))
    (change : Config → Config) : Prop where
  always : ∀ c, (∀ hashing, (load ⟨vars, hashing⟩).1 = .ok c) →
    ∀ hashing, (load ⟨vars', hashing⟩).1 = .ok (change c)
  run : ∀ before hashing c, Within ⟨vars, before⟩ ⟨vars', hashing⟩ →
    (load ⟨vars, before⟩).1 = .ok c → (load ⟨vars', hashing⟩).1 = .ok (change c)
  covered : ∀ hashing, ∃ before, Within ⟨vars, before⟩ ⟨vars', hashing⟩

theorem LoadsLayers.onlyChanges (hload : LoadsLayers text load) (field : TextField) (v : String)
    (hnames : ∀ e ∈ front ++ back, Text.lower e.1 ≠ "dormant__" ++ field.name) :
    OnlyChanges load (front ++ back) (front ++ (field.variableName, v) :: back)
      (field.put (field.settled v)) := by
  have hcovered := exists_within (field.ofVariable?_variableName v) (ne_name_of_mem hnames)
  have hrun (before hashing : Hashing) (c : Config)
      (hwithin : Within ⟨front ++ back, before⟩ ⟨front ++ (field.variableName, v) :: back, hashing⟩)
      (h : (load ⟨front ++ back, before⟩).1 = .ok c) :
      (load ⟨front ++ (field.variableName, v) :: back, hashing⟩).1 =
        .ok (field.put (field.settled v) c) := by
    rw [hload.fst] at h ⊢
    exact ofLayeredText_put hnames hwithin h
  refine ⟨fun c h hashing => ?_, hrun, hcovered⟩
  obtain ⟨before, hwithin⟩ := hcovered hashing
  exact hrun before hashing c hwithin (h before)

theorem LoadsLayers.ignored (hload : LoadsLayers text load) (h : ofVariable? entry = none)
    (hashing : Hashing) : load ⟨front ++ entry :: back, hashing⟩ = load ⟨front ++ back, hashing⟩ := by
  cases hload with
  | named disk path => rw [loadLayered, loadLayered, ofLayeredText_ignored h]
  | standard disk => simp only [loadDefault, loadLayered, ofLayeredText_ignored h]

/-- Added to whatever environment, and wherever it stands there, a variable that sets the platform makes
this change and no other to what layers give, as long as no other variable is called so in any letter case;
and so does one that sets the default profile, whose name is brought to lowercase. A variable whose name
does not begin as those of settings changes nothing, nor does the one that names the configuration file. The
orders in which tables are met, and that of the variables, do not matter at all where the places that the text
sets stand apart or are set to one value twice, and so do those that the environment sets. -/
theorem overrides_change_what_they_name (hload : LoadsLayers text load)
    (front back : List (String × String)) (v : String) :
    ((∀ e ∈ front ++ back, Text.lower e.1 ≠ "dormant__platform") →
      OnlyChanges load (front ++ back) (front ++ ("DORMANT__PLATFORM", v) :: back)
        fun c => { c with platform := v }) ∧
    ((∀ e ∈ front ++ back, Text.lower e.1 ≠ "dormant__default_profile") →
      OnlyChanges load (front ++ back) (front ++ ("DORMANT__DEFAULT_PROFILE", v) :: back)
        fun c => { c with defaultProfile := some (Text.lower v) }) ∧
    (∀ name, (∀ rest, Text.lower name ≠ "dormant__" ++ rest) → ∀ hashing,
      load ⟨front ++ (name, v) :: back, hashing⟩ = load ⟨front ++ back, hashing⟩) ∧
    (∀ hashing, load ⟨front ++ ("DORMANT_CONFIG", v) :: back, hashing⟩ = load ⟨front ++ back, hashing⟩) ∧
    ∀ vars vars' hashing c, Separate (textLeaves text) → Separate (variableLeaves vars) →
      vars.Perm vars' → (load ⟨vars, hashing⟩).1 = .ok c →
      ∀ hashing', (load ⟨vars', hashing'⟩).1 = .ok c := by
  have hconfig : ofVariable? ("DORMANT_CONFIG", v) = none := by
    rw [ofVariable?, Option.map_eq_none_iff]
    show Text.after? variableStart (Text.lowercase "DORMANT_CONFIG".toList) = none
    decide +kernel
  refine ⟨hload.onlyChanges .platform v, hload.onlyChanges .defaultProfile v, fun name hname => ?_,
    hload.ignored hconfig, ?_⟩
  · exact hload.ignored (ofVariable?_eq_none hname)
  · intro vars vars' hashing c htext hvars hperm hc hashing'
    rw [hload.fst] at hc ⊢
    exact ofLayeredText_of_separate htext hvars hperm hc hashing'

def nightText : String := "platform = \"wifi\"\n[profiles.Night]\nmode = \"stop\"\n"

/-- Two variables that are settings, and one that is none. -/
def nightVars : List (String × String) :=
  [("Dormant__Profiles__NIGHT__Mode", "hibernate"), ("DORMANT__PROFILES__NAP__MODE", "stop"),
    ("PATH", "/bin")]

theorem load_nightText :
    (loadLayered (fun _ => .text nightText) "sleep.toml" ⟨nightVars, .listed⟩).1 =
      .ok ⟨"wifi", none, [("nap", ⟨.stop, false, [], none, [], false⟩),
        ("night", ⟨.hibernate, false, [], none, [], false⟩)]⟩ := by
  decide +kernel

theorem separate_nightText : Separate (textLeaves nightText) ∧ Separate (variableLeaves nightVars) := by
  decide +kernel

/-- The text and the variables set no place twice, so that one order decides for all. -/
theorem overrides_change_what_they_name_nightText :
    (∀ hashing, (loadLayered (fun _ => .text nightText) "sleep.toml" ⟨nightVars, hashing⟩).1 =
      .ok ⟨"wifi", none, [("nap", ⟨.stop, false, [], none, [], false⟩),
        ("night", ⟨.hibernate, false, [], none, [], false⟩)]⟩) ∧
    (∀ hashing, (loadLayered (fun _ => .text nightText) "sleep.toml"
      ⟨nightVars.take 1 ++ ("DORMANT__PLATFORM", "cellular") :: nightVars.drop 1, hashing⟩).1 =
      .ok ⟨"cellular", none, [("nap", ⟨.stop, false, [], none, [], false⟩),
        ("night", ⟨.hibernate, false, [], none, [], false⟩)]⟩) ∧
    (∀ hashing, (loadLayered (fun _ => .text nightText) "sleep.toml"
      ⟨nightVars.take 1 ++ ("DORMANT__DEFAULT_PROFILE", "Nap") :: nightVars.drop 1, hashing⟩).1 =
      .ok ⟨"wifi", some "nap", [("nap", ⟨.stop, false, [], none, [], false⟩),
        ("night", ⟨.hibernate, false, [], none, [], false⟩)]⟩) := by
  have hload : LoadsLayers nightText (loadLayered (fun _ => .text nightText) "sleep.toml") :=
    .named (fun _ => .text nightText) "sleep.toml"
  have hany (hashing : Hashing) :
      (loadLayered (fun _ => .text nightText) "sleep.toml" ⟨nightVars, hashing⟩).1 =
        .ok ⟨"wifi", none, [("nap", ⟨.stop, false, [], none, [], false⟩),
          ("night", ⟨.hibernate, false, [], none, [], false⟩)]⟩ := by
    rw [hload.fst]
    exact ofLayeredText_of_separate separate_nightText.1 separate_nightText.2 (.refl _)
      ((hload.fst _).symm.trans load_nightText) hashing
  obtain ⟨hplatform, -, -, -, -⟩ :=
    overrides_change_what_they_name hload (nightVars.take 1) (nightVars.drop 1) "cellular"
  obtain ⟨-, hdefault, -, -, -⟩ :=
    overrides_change_what_they_name hload (nightVars.take 1) (nightVars.drop 1) "Nap"
  have hlower : Text.lower "Nap" = "nap" := by decide +kernel
  rw [hlower] at hdefault
  exact ⟨hany, (hplatform (by decide +kernel)).always _ hany, (hdefault (by decide +kernel)).always _ hany⟩

end Config

end DeviceSleep
