import DeviceSleep.Proofs.Config.Tables
import DeviceSleep.Proofs.Text.Lowered

/-! Whatever is gathered from a file and the environment, its tables have lowercase names only, except
inside lists: every place is written under a lowercase name, and the parts of a path in lowercase are
in lowercase. So two names of a file that differ in letter case only are one place. -/
namespace DeviceSleep
set_option autoImplicit false

/-- The names in tables are in lowercase, except inside lists. -/
inductive Tree.InLowercase : Tree → Prop
  | leaf {t : Tree} (h : ∀ entries, t ≠ .table entries) : InLowercase t
  | table {entries : List (String × Tree)} (names : ∀ e ∈ entries, Text.lower e.1 = e.1)
    (values : ∀ e ∈ entries, InLowercase e.2) : InLowercase (.table entries)

/-! ## Paths -/

namespace KeyPath

open Text

structure InLowercase (path : KeyPath) : Prop where
  name : lower path.name = path.name
  steps : ∀ name, Step.child name ∈ path.steps → lower name = name

/-- The steps that lead to a place from the outermost table. -/
def route (path : KeyPath) : List Step := .child path.name :: path.steps

theorem InLowercase.route {path : KeyPath} (h : path.InLowercase) {name : String}
    (hname : Step.child name ∈ path.route) : lower name = name := by
  rcases List.mem_cons.mp hname with heq | hname
  · cases heq
    exact h.name
  · exact h.steps name hname

theorem lower_takeWhile {cs : List Char} (h : ∀ c ∈ cs, IsLowered c) (p : Char → Bool) :
    lower (String.ofList (cs.takeWhile p)) = String.ofList (cs.takeWhile p) := by
  rw [lower_ofList_eq_self_iff]
  intro c hc
  exact h c ((List.takeWhile_prefix p).subset hc)

/-- What stands behind the digits and blanks of an end is an end. -/
theorem suffix_of_dropWhile {cs body rest : List Char} {c : Char} {p q : Char → Bool}
    (hbody : body <:+ cs) (h : (body.dropWhile p).dropWhile q = c :: rest) : rest <:+ cs := by
  have hclosed : c :: rest <:+ body := by
    rw [← h]
    exact (List.dropWhile_suffix q).trans (List.dropWhile_suffix p)
  exact (List.suffix_cons c rest).trans (hclosed.trans hbody)

theorem suffix_of_bracket? {cs rest : List Char} {position : Int}
    (h : bracket? cs = some (position, rest)) : rest <:+ cs := by
  simp only [bracket?] at h
  split at h
  · rename_i rest' hrest
    obtain ⟨n, -, h⟩ := Option.bind_eq_some_iff.mp h
    rw [Option.ite_none_right_eq_some] at h
    cases h.2
    -- The number may begin with a minus sign.
    split at hrest
    · rename_i body hminus
      refine suffix_of_dropWhile ((List.suffix_cons '-' body).trans ?_) hrest
      rw [← hminus]
      exact List.dropWhile_suffix _
    · exact suffix_of_dropWhile (List.dropWhile_suffix _) hrest
  · cases h

theorem lower_of_mem_steps? {fuel : Nat} {cs : List Char} {steps : List Step}
    (h : steps? fuel cs = some steps) (hcs : ∀ c ∈ cs, IsLowered c) {name : String}
    (hname : Step.child name ∈ steps) : lower name = name := by
  fun_induction steps? fuel cs generalizing steps with
  | case1 => cases h; cases hname
  | case2 => cases h
  | case3 => cases h
  | case4 fuel rest first hne =>
    rename_i ih
    have hrest : ∀ c ∈ rest, IsLowered c := fun c hc => hcs c (List.mem_cons_of_mem _ hc)
    obtain ⟨more, hmore, rfl⟩ := Option.map_eq_some_iff.mp h
    rcases List.mem_cons.mp hname with heq | hname
    · cases heq
      exact lower_takeWhile hrest isNameChar
    · exact ih hmore (fun c hc => hrest c ((List.dropWhile_suffix isNameChar).subset hc)) hname
  | case5 fuel rest ih =>
    obtain ⟨⟨position, after⟩, hafter, h⟩ := Option.bind_eq_some_iff.mp h
    obtain ⟨more, hmore, h⟩ := Option.bind_eq_some_iff.mp h
    cases h
    refine ih after hmore (fun c hc => hcs c ?_) ((List.mem_cons.mp hname).resolve_left (by simp))
    exact List.mem_cons_of_mem _ ((suffix_of_bracket? hafter).subset hc)
  | case6 => cases h

theorem inLowercase_ofText {s : String} (h : lower s = s) : (ofText s).InLowercase := by
  have hs := lower_eq_self_iff.mp h
  rw [ofText]
  split
  · rename_i steps hsteps
    split at hsteps
    · cases hsteps
    · have hrest : ∀ c ∈ s.toList.dropWhile isNameChar, IsLowered c :=
        fun c hc => hs c ((List.dropWhile_suffix isNameChar).subset hc)
      exact ⟨lower_takeWhile hs isNameChar, fun name => lower_of_mem_steps? hsteps hrest⟩
  · exact ⟨h, fun name hname => absurd hname List.not_mem_nil⟩

end KeyPath

/-! ## Places -/

namespace Settings

def InLowercase (settings : Settings) : Prop :=
  ∀ e ∈ settings, Text.lower e.1 = e.1 ∧ e.2.InLowercase

variable {settings : Settings} {t target : Tree}

theorem inLowercase_nil : Settings.InLowercase [] := fun _ he => absurd he List.not_mem_nil

theorem InLowercase.table (h : settings.InLowercase) : Tree.InLowercase (.table settings) :=
  .table (fun e he => (h e he).1) fun e he => (h e he).2

theorem inLowercase_entriesOf (h : t.InLowercase) : (entriesOf t).InLowercase := by
  cases h with
  | leaf hleaf =>
    cases t with
    | table entries => exact absurd rfl (hleaf entries)
    | _ => exact fun e he => absurd he List.not_mem_nil
  | table names values => exact fun e he => ⟨names e he, values e he⟩

theorem InLowercase.put (h : settings.InLowercase) {name : String} (hname : Text.lower name = name)
    (ht : t.InLowercase) : (Settings.put name t settings).InLowercase := by
  intro e he
  rcases mem_of_mem_put he with rfl | he
  · exact ⟨hname, ht⟩
  · exact h e he

theorem InLowercase.update (h : settings.InLowercase) {name : String} {f : Option Tree → Tree}
    (hname : Text.lower name = name)
    (hf : ∀ old : Option Tree, (∀ t, old = some t → t.InLowercase) → (f old).InLowercase) :
    (Settings.update name f settings).InLowercase :=
  h.put hname (hf _ fun t ht => (h (name, t) (mem_of_lookup ht)).2)

mutual

/-- By recursion on what is set: a table is gone through, anything else is put in place whole. -/
theorem inLowercase_merge (name : String) (value : Tree) (settings : Settings) (h : settings.InLowercase) :
    (merge name value settings).InLowercase := by
  cases value with
  | table incoming =>
    rw [merge]
    refine h.update (Text.lower_lower name) fun old hold => inLowercase_mergeAll incoming _ ?_
    cases old with
    | none => exact inLowercase_nil.table
    | some t => exact hold t rfl
  | _ =>
    rw [merge.eq_2 _ _ _ fun entries heq => by cases heq]
    exact h.update (Text.lower_lower name) fun _ _ => .leaf fun entries heq => by cases heq
termination_by structural value

theorem inLowercase_mergeAll (incoming : List (String × Tree)) (target : Tree) (h : target.InLowercase) :
    (mergeAll incoming target).InLowercase := by
  cases incoming with
  | nil => exact h
  | cons entry rest =>
    obtain ⟨name, value⟩ := entry
    rw [mergeAll]
    exact inLowercase_mergeAll rest _ (inLowercase_merge name value _ (inLowercase_entriesOf h)).table
termination_by structural incoming

end

/-- A place in a list is set by making a list. -/
theorem exists_list_of_place {value : Tree} {index : Int} {steps : List Step}
    (h : place value (.index index :: steps) target = .ok t) : ∃ items, t = .list items := by
  simp only [place, bind, Except.bind] at h
  split at h
  · cases h
  · split at h
    · cases h
    · cases h
      exact ⟨_, rfl⟩

theorem inLowercase_place {value : Tree} {steps : List Step} (hne : steps ≠ [])
    (hsteps : ∀ name, Step.child name ∈ steps → Text.lower name = name)
    (htarget : target.InLowercase) (h : place value steps target = .ok t) : t.InLowercase := by
  induction steps generalizing target t with
  | nil => exact absurd rfl hne
  | cons step steps ih =>
    cases step with
    | index index =>
      obtain ⟨items, rfl⟩ := exists_list_of_place h
      exact .leaf fun entries hlist => by cases hlist
    | child name =>
      have hentries : (entriesOf target).InLowercase := inLowercase_entriesOf htarget
      cases steps with
      | nil =>
        cases h
        exact (inLowercase_merge name value _ hentries).table
      | cons next steps =>
        have hlookup : (((entriesOf target).lookup name).getD .nil).InLowercase := by
          cases hfound : (entriesOf target).lookup name with
          | none => exact .leaf fun entries hnil => by cases hnil
          | some found => exact (hentries _ (mem_of_lookup hfound)).2
        have hmore : ∀ name, Step.child name ∈ next :: steps → Text.lower name = name :=
          fun name hmem => hsteps name (List.mem_cons_of_mem _ hmem)
        rw [place] at h
        cases hinner : place value (next :: steps) (((entriesOf target).lookup name).getD .nil) with
        | error cause =>
          rw [hinner] at h
          cases h
        | ok inner =>
          rw [hinner] at h
          cases h
          have hinner' := ih (List.cons_ne_nil _ _) hmore hlookup hinner
          exact (hentries.update (hsteps name List.mem_cons_self) fun _ _ => hinner').table

/-- A path always begins with a name, so that a table is what is set. -/
theorem InLowercase.set {settings' : Settings} (h : settings.InLowercase) {path : KeyPath}
    (hpath : path.InLowercase) {value : Tree} (hset : settings.set path value = .ok settings') :
    settings'.InLowercase := by
  rw [Settings.set] at hset
  cases hplace : place value (.child path.name :: path.steps) (.table settings) with
  | error cause =>
    rw [hplace] at hset
    cases hset
  | ok t =>
    rw [hplace] at hset
    cases hset
    exact inLowercase_entriesOf
      (inLowercase_place (List.cons_ne_nil _ _) (fun _ => hpath.route) h.table hplace)

theorem InLowercase.setAll {settings' : Settings} {places : List (KeyPath × Tree)}
    (h : settings.InLowercase) (hplaces : ∀ place ∈ places, place.1.InLowercase)
    (hset : Settings.setAll places settings = .ok settings') : settings'.InLowercase := by
  induction places generalizing settings with
  | nil =>
    cases hset
    exact h
  | cons place places ih =>
    obtain ⟨path, value⟩ := place
    rw [Settings.setAll] at hset
    cases hfirst : settings.set path value with
    | error cause =>
      rw [hfirst] at hset
      cases hset
    | ok next =>
      rw [hfirst] at hset
      have hnext := h.set (hplaces (path, value) List.mem_cons_self) hfirst
      exact ih hnext (fun p hp => hplaces p (List.mem_cons_of_mem _ hp)) hset

/-! ## Sources -/

theorem inLowercase_ofFile {orders : TableOrders} {file : Tree} :
    ∀ place ∈ ofFile orders file, place.1.InLowercase := by
  intro place hplace
  obtain ⟨entry, -, rfl⟩ := List.mem_map.mp hplace
  exact KeyPath.inLowercase_ofText (Text.lower_lower entry.1)

theorem isLowered_of_mem_replacePair {cs : List Char} {a b mark : Char}
    (hmark : Text.IsLowered mark) (h : ∀ c ∈ cs, Text.IsLowered c) :
    ∀ c ∈ Text.replacePair a b mark cs, Text.IsLowered c := by
  induction cs using Text.replacePair.induct a b with
  | case1 c d rest heq ih =>
    intro e he
    rw [Text.replacePair, if_pos heq] at he
    rcases List.mem_cons.mp he with rfl | he
    · exact hmark
    · exact ih (fun c hc => h c (List.mem_cons_of_mem _ (List.mem_cons_of_mem _ hc))) e he
  | case2 c d rest hne ih =>
    intro e he
    rw [Text.replacePair, if_neg hne] at he
    rcases List.mem_cons.mp he with rfl | he
    · exact h _ List.mem_cons_self
    · exact ih (fun c hc => h c (List.mem_cons_of_mem _ hc)) e he
  | case3 cs hshort =>
    rw [Text.replacePair.eq_2 a b mark cs hshort]
    exact h

theorem lower_of_ofVariable? {entry : String × String} {setting : String × Tree}
    (h : ofVariable? entry = some setting) : Text.lower setting.1 = setting.1 := by
  obtain ⟨rest, hrest, rfl⟩ := Option.map_eq_some_iff.mp h
  rw [Text.after?_eq_some_iff] at hrest
  refine Text.lower_ofList_eq_self_iff.mpr (isLowered_of_mem_replacePair (by decide) fun c hc => ?_)
  have hmem : c ∈ Text.lowercase entry.1.toList := by
    rw [hrest]
    exact List.mem_append_right _ hc
  exact Text.isLowered_of_mem_lowerFrom hmem

theorem inLowercase_ofEnvironment {environment : Environment} :
    ∀ place ∈ ofEnvironment environment, place.1.InLowercase := by
  intro place hplace
  obtain ⟨setting, hsetting, rfl⟩ := List.mem_map.mp hplace
  have hmem := (environment.hashing.collected.perm _).mem_iff.mp hsetting
  obtain ⟨entry, -, hentry⟩ := List.mem_filterMap.mp (mem_of_mem_collect hmem)
  exact KeyPath.inLowercase_ofText (lower_of_ofVariable? hentry)

/-- All that is gathered is set under paths in lowercase. -/
theorem inLowercase_gather {file : Tree} {environment : Environment}
    (h : gather file environment = .ok settings) : settings.InLowercase := by
  refine inLowercase_nil.setAll ?_ h
  intro place hplace
  rcases List.mem_append.mp hplace with hplace | hplace
  · exact inLowercase_ofFile place hplace
  · exact inLowercase_ofEnvironment place hplace

end Settings

end DeviceSleep
