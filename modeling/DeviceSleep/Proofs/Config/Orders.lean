import DeviceSleep.Proofs.Config.Altering
import Mathlib.Data.List.Perm.Basic

/-! The order in which places are set. A table that is laid at a place sets places below it, one for each
value that is no table with entries of its own. Where the places that a file sets stand apart, or are set to
the same twice, and so do those of the environment, the settings that are gathered do not depend on the
orders in which tables are met, nor on the order of the variables. -/
namespace DeviceSleep.Settings
set_option autoImplicit false

variable {route : List Step} {t value result : Tree} {settings settings' : Settings}

/-! ## What a table sets -/

mutual

/-- The places that a value sets when it is laid at a place. -/
def leaves (route : List Step) : Tree → List (List Step × Tree)
  | .table entries =>
    if entries.isEmpty then [(route, .table [])] else leavesEach route entries
  | t => [(route, t)]

def leavesEach (route : List Step) : List (String × Tree) → List (List Step × Tree)
  | [] => []
  | (name, t) :: rest => leaves (route ++ [.child (Text.lower name)]) t ++ leavesEach route rest

end

/-- The places that a value sets where a path leads. -/
def leavesOf (place : KeyPath × Tree) : List (List Step × Tree) :=
  if place.1.isItem then [(place.1.route, place.2)] else leaves place.1.route place.2

theorem leavesEach_eq_flatMap (route : List Step) (entries : List (String × Tree)) :
    leavesEach route entries =
      entries.flatMap fun e => leaves (route ++ [.child (Text.lower e.1)]) e.2 := by
  induction entries with
  | nil => rfl
  | cons entry rest ih => rw [leavesEach, ih, List.flatMap_cons]

/-- In whatever order tables are met, they set the same places. -/
theorem perm_leaves_hashed (orders : TableOrders) :
    (∀ path t route, (leaves route (t.hashed orders path)).Perm (leaves route t)) ∧
    ∀ path entries route,
      (leavesEach route (Tree.hashedEntries orders path entries)).Perm (leavesEach route entries) := by
  refine Tree.hashed.mutual_induct
    (fun path t => ∀ route, (leaves route (t.hashed orders path)).Perm (leaves route t))
    (fun path entries => ∀ route,
      (leavesEach route (Tree.hashedEntries orders path entries)).Perm (leavesEach route entries))
    ?table ?plain ?nil ?cons
  case table =>
    intro path entries ih route
    have hperm := (orders path).perm (Tree.hashedEntries orders path entries)
    cases entries with
    | nil =>
      have hnil : (orders path).arrange [] = [] := hperm.eq_nil
      rw [Tree.hashed, Tree.hashedEntries, hnil]
    | cons entry rest =>
      have hne : ((orders path).arrange
          (Tree.hashedEntries orders path (entry :: rest))).isEmpty = false := by
        rw [List.isEmpty_eq_false_iff]
        intro hnil
        rw [hnil] at hperm
        cases hperm.symm.eq_nil
      rw [Tree.hashed, leaves, if_neg (by rw [hne]; exact Bool.false_ne_true), leaves,
        if_neg (by simp), leavesEach_eq_flatMap]
      refine (hperm.flatMap_right _).trans ?_
      rw [← leavesEach_eq_flatMap]
      exact ih route
  case plain =>
    intro path t hplain route
    rw [Tree.hashed.eq_2 orders path t hplain]
  case nil => exact fun _ _ => .refl _
  case cons =>
    intro path name t rest iht ihrest route
    rw [Tree.hashedEntries, leavesEach, leavesEach]
    exact (iht _).append (ihrest route)

/-! ## Leaf by leaf -/

/-- Lays values at places, one after the other. -/
def layAll (places : List (List Step × Tree)) (t : Tree) : Except Breakdown Tree :=
  places.foldlM (fun t place => alter (lay place.2 place.1) place.1 (some t)) t

theorem layAll_cons_eq_ok_iff {place : List Step × Tree} {rest : List (List Step × Tree)} :
    layAll (place :: rest) t = .ok result ↔
      ∃ next, alter (lay place.2 place.1) place.1 (some t) = .ok next ∧ layAll rest next = .ok result := by
  rw [layAll, List.foldlM_cons]
  constructor
  · exact exists_of_bind_eq_ok
  · rintro ⟨next, hnext, h⟩
    rw [hnext]
    exact h

theorem layAll_append (places more : List (List Step × Tree)) (t : Tree) :
    layAll (places ++ more) t = (layAll places t).bind (layAll more) := List.foldlM_append

theorem layAll_singleton (place : List Step × Tree) (t : Tree) :
    layAll [place] t = alter (lay place.2 place.1) place.1 (some t) := by
  rw [layAll, List.foldlM_cons]
  cases alter (lay place.2 place.1) place.1 (some t) <;> rfl

/-- The last of the steps leads to a name. -/
def EndsInName (route : List Step) : Prop := ∀ index, route.getLast? ≠ some (.index index)

theorem endsInName_child (route : List Step) (name : String) : EndsInName (route ++ [.child name]) := by
  intro index h
  rw [List.getLast?_concat] at h
  cases h

theorem lay_of_name (h : EndsInName route) (value : Tree) :
    lay value route = fun old => .ok (laidOver value old) := by
  funext old
  rw [lay]
  split
  · rename_i index hindex
    exact absurd hindex (h index)
  · rfl

/-- An entry of a table is laid below the place of the table. -/
theorem alter_entry (name : String) (value : Tree) :
    alter (lay value [.child (Text.lower name)]) [.child (Text.lower name)] =
      fun old => .ok (mergeAll [(name, value)] (old.getD (.table []))) := by
  funext old
  have hentries : entriesOf (old.getD .nil) = entriesOf (old.getD (.table [])) := by
    cases old <;> rfl
  rw [mergeAll, merge_eq_update, ← hentries]
  rfl

/-- Laying a table at a place is laying its leaves. By induction on the value: each entry is laid below
the place, which is a change of what stands at the place. -/
theorem layAll_leaves_leavesEach :
    (∀ route value, EndsInName route →
      ∀ t, layAll (leaves route value) t = alter (lay value route) route (some t)) ∧
    ∀ route entries, EndsInName route → entries ≠ [] → ∀ t, layAll (leavesEach route entries) t =
      alter (fun old => .ok (mergeAll entries (old.getD (.table [])))) route (some t) := by
  refine leaves.mutual_induct
    (fun route value => EndsInName route →
      ∀ t, layAll (leaves route value) t = alter (lay value route) route (some t))
    (fun route entries => EndsInName route → entries ≠ [] → ∀ t, layAll (leavesEach route entries) t =
      alter (fun old => .ok (mergeAll entries (old.getD (.table [])))) route (some t))
    ?empty ?table ?plain ?nil ?cons
  case empty =>
    intro route entries hempty hroute t
    rw [List.isEmpty_iff.mp hempty]
    exact layAll_singleton _ t
  case table =>
    intro route entries hempty ih hroute t
    rw [leaves, if_neg hempty, lay_of_name hroute]
    exact ih hroute (fun hnil => hempty (List.isEmpty_iff.mpr hnil)) t
  case plain =>
    intro route value hplain hroute t
    rw [leaves.eq_2 route value hplain]
    exact layAll_singleton _ t
  case nil => exact fun _ _ hne => absurd rfl hne
  case cons =>
    intro route name value rest ihvalue ihrest hroute _ t
    have hlay : lay value (route ++ [.child (Text.lower name)]) = lay value [.child (Text.lower name)] :=
      (lay_of_name (endsInName_child route _) value).trans (lay_of_name (endsInName_child [] _) value).symm
    rw [leavesEach, layAll_append, ihvalue (endsInName_child route _), alter_append, hlay, alter_entry]
    cases rest with
    | nil =>
      cases alter (fun old => .ok (mergeAll [(name, value)] (old.getD (.table [])))) route (some t) <;> rfl
    | cons next rest =>
      rw [funext (ihrest hroute (List.cons_ne_nil _ _)), alter_alter]
      rfl

theorem layAll_leavesOf (place : KeyPath × Tree) (t : Tree) :
    layAll (leavesOf place) t = alter (lay place.2 place.1.route) place.1.route (some t) := by
  obtain ⟨⟨name, steps⟩, value⟩ := place
  rw [leavesOf]
  split
  · exact layAll_singleton _ t
  · rename_i hitem
    refine layAll_leaves_leavesEach.1 _ value ?_ t
    intro index hindex
    cases steps with
    | nil => cases hindex
    | cons step steps =>
      have hlast : (step :: steps).getLast? = some (.index index) := hindex
      exact hitem (by rw [KeyPath.isItem, hlast])

/-- Setting places is laying their leaves. -/
theorem setAll_eq_ok_iff {places : List (KeyPath × Tree)} (hplaces : ∀ place ∈ places, place.1.InLowercase) :
    setAll places settings = .ok settings' ↔
      layAll (places.flatMap leavesOf) (.table settings) = .ok (.table settings') := by
  induction places generalizing settings with
  | nil => exact ⟨fun h => by cases h; rfl, fun h => by cases h; rfl⟩
  | cons place places ih =>
    obtain ⟨path, value⟩ := place
    obtain ⟨hpath, hplaces⟩ := List.forall_mem_cons.mp hplaces
    rw [setAll, set_eq_alter hpath, List.flatMap_cons, layAll_append, layAll_leavesOf]
    cases hfirst : alter (lay value path.route) path.route (some (.table settings)) with
    | error cause => exact ⟨(fun h => by cases h), fun h => by cases h⟩
    | ok t =>
      -- The way begins with a name, so that a table is what comes out.
      obtain ⟨inner, -, rfl⟩ := alter_child_eq_ok_iff.mp hfirst
      exact ih hplaces

/-! ## Any order -/

/-- Any two places stand apart, unless they are one and set to one value. -/
def Separate (places : List (List Step × Tree)) : Prop :=
  ∀ place ∈ places, ∀ other ∈ places, place = other ∨ Apart place.1 other.1

variable {places places' : List (List Step × Tree)}

instance Separate.decidable (places : List (List Step × Tree)) : Decidable (Separate places) :=
  inferInstanceAs
    (Decidable (∀ place ∈ places, ∀ other ∈ places, place = other ∨ Apart place.1 other.1))

theorem Separate.of_perm (h : Separate places) (hperm : places.Perm places') : Separate places' :=
  fun place hplace other hother => h place (hperm.mem_iff.mpr hplace) other (hperm.mem_iff.mpr hother)

theorem Separate.nil : Separate [] := fun _ hplace => absurd hplace List.not_mem_nil

/-- By induction on the change of order, which ends at two neighbours that change places. -/
theorem layAll_perm (hperm : places.Perm places') (hplaces : Separate places)
    (h : layAll places t = .ok result) : layAll places' t = .ok result := by
  induction hperm generalizing t with
  | nil => exact h
  | cons place hperm ih =>
    obtain ⟨next, hnext, h⟩ := layAll_cons_eq_ok_iff.mp h
    have hrest : Separate _ := fun p hp q hq =>
      hplaces p (List.mem_cons_of_mem _ hp) q (List.mem_cons_of_mem _ hq)
    exact layAll_cons_eq_ok_iff.mpr ⟨next, hnext, ih hrest h⟩
  | swap first second rest =>
    have hpair := hplaces second List.mem_cons_self first (List.mem_cons_of_mem _ List.mem_cons_self)
    rcases hpair with rfl | hapart
    · exact h
    · obtain ⟨one, hone, h⟩ := layAll_cons_eq_ok_iff.mp h
      obtain ⟨two, htwo, h⟩ := layAll_cons_eq_ok_iff.mp h
      obtain ⟨between, hbetween, htwo⟩ := alter_comm hapart hone htwo
      exact layAll_cons_eq_ok_iff.mpr ⟨between, hbetween, layAll_cons_eq_ok_iff.mpr ⟨two, htwo, h⟩⟩
  | trans hperm _ ih ih' => exact ih' (hplaces.of_perm hperm) (ih hplaces h)

/-! ## Variables -/

/-- The places that variables set. -/
def variableLeaves (vars : List (String × String)) : List (List Step × Tree) :=
  (vars.filterMap ofVariable?).map fun e => ((KeyPath.ofText e.1).route, e.2)

theorem collect_perm {vars vars' : List (String × String)} (hperm : vars.Perm vars')
    (h : Separate (variableLeaves vars)) : collect vars = collect vars' := by
  refine putAll_perm (hperm.filterMap _) (fun e he e' he' => ?_) []
  by_cases hname : e.1 = e'.1
  · refine .inl (Prod.ext hname ?_)
    rcases h _ (List.mem_map_of_mem he) _ (List.mem_map_of_mem he') with heq | hapart
    · have hvalues := congrArg Prod.snd heq
      exact hvalues
    · exact absurd (by rw [hname]) hapart.ne
  · exact .inr hname

/-- A variable sets the place that it names, to a text. -/
theorem leavesOf_collected {vars : List (String × String)} {e : String × Tree}
    (he : e ∈ collect vars) :
    leavesOf (KeyPath.ofText e.1, e.2) = [((KeyPath.ofText e.1).route, e.2)] := by
  obtain ⟨entry, -, hentry⟩ := List.mem_filterMap.mp (mem_of_mem_collect he)
  obtain ⟨rest, -, rfl⟩ := Option.map_eq_some_iff.mp hentry
  rw [leavesOf]
  split <;> rfl

theorem perm_leaves_ofEnvironment (environment : Environment) :
    ((ofEnvironment environment).flatMap leavesOf).Perm
      ((collect environment.vars).map fun e => ((KeyPath.ofText e.1).route, e.2)) := by
  have hperm := environment.hashing.collected.perm (collect environment.vars)
  rw [ofEnvironment, List.flatMap_map]
  refine (hperm.flatMap_right _).trans (.of_eq ?_)
  rw [List.map_eq_flatMap]
  exact List.flatMap_congr fun e he => leavesOf_collected he

theorem separate_collect {vars : List (String × String)} (h : Separate (variableLeaves vars)) :
    Separate ((collect vars).map fun e => ((KeyPath.ofText e.1).route, e.2)) := by
  intro place hplace other hother
  obtain ⟨e, he, rfl⟩ := List.mem_map.mp hplace
  obtain ⟨e', he', rfl⟩ := List.mem_map.mp hother
  exact h _ (List.mem_map_of_mem (mem_of_mem_collect he)) _ (List.mem_map_of_mem (mem_of_mem_collect he'))

/-! ## Files -/

/-- The places that a file sets. -/
def fileLeaves (file : Tree) : List (List Step × Tree) :=
  (entriesOf file).flatMap fun e => leavesOf (KeyPath.ofText (Text.lower e.1), e.2)

theorem perm_leaves_ofFile (orders : TableOrders) (file : Tree) :
    ((ofFile orders file).flatMap leavesOf).Perm (fileLeaves file) := by
  have hperm := (orders []).perm (entriesOf file)
  rw [ofFile, List.flatMap_map, fileLeaves]
  refine hperm.flatMap fun e _ => ?_
  dsimp only
  rw [leavesOf, leavesOf]
  dsimp only
  by_cases hitem : (KeyPath.ofText (Text.lower e.1)).isItem = true
  · rw [if_pos hitem, if_pos hitem, if_pos hitem]
  · rw [if_neg hitem, if_neg hitem, if_neg hitem]
    exact (perm_leaves_hashed orders).1 _ _ _

/-! ## Both -/

variable {file : Tree} {vars vars' : List (String × String)} {hashing : Hashing}

theorem setAll_append (places more : List (KeyPath × Tree)) (settings : Settings) :
    setAll (places ++ more) settings = (setAll places settings).bind (setAll more) := by
  induction places generalizing settings with
  | nil => rfl
  | cons place places ih =>
    rw [List.cons_append, setAll, setAll]
    cases settings.set place.1 place.2 with
    | error cause => rfl
    | ok next => exact ih next

/-- Places whose leaves are the same in another order are set to the same. -/
theorem setAll_of_perm {places more : List (KeyPath × Tree)} {leaves : List (List Step × Tree)}
    (hleaves : Separate leaves) (hplaces : (places.flatMap leavesOf).Perm leaves)
    (hmore : (more.flatMap leavesOf).Perm leaves) (hlower : ∀ place ∈ places, place.1.InLowercase)
    (hlower' : ∀ place ∈ more, place.1.InLowercase) (h : setAll places settings = .ok settings') :
    setAll more settings = .ok settings' := by
  rw [setAll_eq_ok_iff hlower] at h
  rw [setAll_eq_ok_iff hlower']
  exact layAll_perm (hplaces.trans hmore.symm) (hleaves.of_perm hplaces.symm) h

/-- What is gathered does not depend on the orders in which tables are met, nor on the order of the
variables, where no place stands above another and none is set to two values. -/
theorem gather_of_separate (hfile : Separate (fileLeaves file))
    (hvariables : Separate (variableLeaves vars)) (hperm : vars.Perm vars')
    (h : gather file ⟨vars, hashing⟩ = .ok settings) (hashing' : Hashing) :
    gather file ⟨vars', hashing'⟩ = .ok settings := by
  rw [gather, setAll_append] at h ⊢
  obtain ⟨between, hbetween, h⟩ := exists_of_bind_eq_ok h
  have hfirst := setAll_of_perm hfile (perm_leaves_ofFile hashing.file file) (perm_leaves_ofFile hashing'.file file)
    inLowercase_ofFile inLowercase_ofFile hbetween
  have hcollect := collect_perm hperm hvariables
  have hleaves := perm_leaves_ofEnvironment ⟨vars, hashing⟩
  have hleaves' := perm_leaves_ofEnvironment ⟨vars', hashing'⟩
  dsimp only at hleaves hleaves' h ⊢
  rw [← hcollect] at hleaves'
  have hsecond := setAll_of_perm (separate_collect hvariables) hleaves hleaves' inLowercase_ofEnvironment
    inLowercase_ofEnvironment h
  rw [hfirst]
  exact hsecond

end DeviceSleep.Settings
