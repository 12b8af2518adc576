import DeviceSleep.Config
import DeviceSleep.Proofs.Config.Tables

/-! What stands under a name when tables are merged. Names that are one in lowercase are one place, and
all others keep what they have. A table that is merged into nothing has the lowercase forms of its
names; so has a file by itself, as long as its outermost names are fields of a configuration. In which
order a table is gone through makes no difference for names that differ in lowercase. -/
namespace DeviceSleep
set_option autoImplicit false

/-! ## Orders of tables -/

namespace Tree

variable {orders : TableOrders} {path : List String} {entries : List (String × Tree)}

theorem hashedEntries_eq_map (orders : TableOrders) (path : List String) (entries : List (String × Tree)) :
    hashedEntries orders path entries =
      entries.map fun e => (e.1, e.2.hashed orders (path ++ [e.1])) := by
  induction entries with
  | nil => rfl
  | cons entry rest ih => exact congrArg (_ :: ·) ih

/-- The entries of a table as they are gone through. -/
def arranged (orders : TableOrders) (path : List String) (entries : List (String × Tree)) :
    List (String × Tree) :=
  (orders path).arrange (hashedEntries orders path entries)

theorem perm_arranged : (arranged orders path entries).Perm
    (entries.map fun e => (e.1, e.2.hashed orders (path ++ [e.1]))) := by
  rw [arranged, hashedEntries_eq_map]
  exact (orders path).perm _

theorem names_arranged (orders : TableOrders) (path : List String) (entries : List (String × Tree)) :
    ((arranged orders path entries).map Prod.fst).Perm (entries.map Prod.fst) := by
  have h := (orders path).perm (hashedEntries orders path entries)
  rw [hashedEntries_eq_map] at h
  have hnames := h.map Prod.fst
  rw [List.map_map] at hnames
  rwa [← hashedEntries_eq_map] at hnames

end Tree

namespace Settings

/-- Merges entries one after the other. -/
def mergeEach (incoming : List (String × Tree)) (settings : Settings) : Settings :=
  incoming.foldl (fun settings entry => merge entry.1 entry.2 settings) settings

variable {settings : Settings} {incoming inner : List (String × Tree)} {name key n : String}

/-! ## One place -/

/-- What a value makes of what stands in its place: a table goes into a table, and nothing else is kept. -/
def laidOver (value : Tree) (old : Option Tree) : Tree :=
  match value with
  | .table incoming => mergeAll incoming (old.getD (.table []))
  | value => value

theorem merge_eq_update (name : String) (value : Tree) (settings : Settings) :
    merge name value settings = update (Text.lower name) (laidOver value) settings := by
  cases value with
  | table incoming => exact merge.eq_1 name settings incoming
  | _ => exact merge.eq_2 _ _ _ fun entries h => by cases h

theorem mem_names_merge {value : Tree} :
    n ∈ (merge name value settings).names ↔ n = Text.lower name ∨ n ∈ settings.names := by
  rw [merge_eq_update, update, mem_names_put]

/-! ## Many places -/

theorem mergeAll_table (incoming : List (String × Tree)) (settings : Settings) :
    mergeAll incoming (.table settings) = .table (mergeEach incoming settings) := by
  induction incoming generalizing settings with
  | nil => rw [mergeAll]; rfl
  | cons entry rest ih =>
    obtain ⟨name, value⟩ := entry
    rw [mergeAll, ih]
    rfl

/-- What a value becomes where nothing was. -/
def merged : Tree → Tree
  | .table entries => .table (mergeEach entries [])
  | value => value

theorem mergeEach_cons {rest : List (String × Tree)} {value : Tree} :
    mergeEach ((name, value) :: rest) settings = mergeEach rest (merge name value settings) := rfl

theorem laidOver_none (value : Tree) : laidOver value none = merged value := by
  cases value with
  | table incoming => exact mergeAll_table incoming []
  | _ => rfl

theorem perm_merge {value : Tree} (h : Text.lower name ∉ settings.names) :
    (merge name value settings).Perm ((Text.lower name, merged value) :: settings) := by
  have hlookup : settings.lookup (Text.lower name) = none :=
    Option.not_isSome_iff_eq_none.mp (mt isSome_lookup_iff.mp h)
  rw [merge_eq_update, update, hlookup, laidOver_none, put_of_notMem h]
  exact perm_insert _ _ _

theorem mem_names_mergeEach :
    n ∈ (mergeEach incoming settings).names ↔
      n ∈ settings.names ∨ ∃ m ∈ incoming.map Prod.fst, Text.lower m = n := by
  induction incoming generalizing settings with
  | nil => simp [mergeEach]
  | cons entry rest ih =>
    obtain ⟨name, value⟩ := entry
    rw [mergeEach_cons, ih, mem_names_merge]
    simp only [List.map_cons, List.mem_cons, exists_eq_or_imp, eq_comm (a := n), or_assoc]
    exact or_left_comm

/-! ## Distinct places -/

/-- Entries whose names differ in lowercase all find their places. -/
theorem perm_mergeEach (hdistinct : (incoming.map fun e => Text.lower e.1).Nodup)
    (hnew : ∀ e ∈ incoming, Text.lower e.1 ∉ settings.names) :
    (mergeEach incoming settings).Perm
      ((incoming.map fun e => (Text.lower e.1, merged e.2)) ++ settings) := by
  induction incoming generalizing settings with
  | nil => exact .refl _
  | cons entry rest ih =>
    obtain ⟨name, value⟩ := entry
    obtain ⟨hname, hrest⟩ := List.nodup_cons.mp hdistinct
    obtain ⟨hentry, hothers⟩ := List.forall_mem_cons.mp hnew
    have hnext : ∀ e ∈ rest, Text.lower e.1 ∉ (merge name value settings).names := by
      intro e he
      rw [mem_names_merge, not_or]
      exact ⟨fun heq => hname (List.mem_map.mpr ⟨e, he, heq⟩), hothers e he⟩
    rw [mergeEach_cons]
    exact (ih hrest hnext).trans (((perm_merge hentry).append_left _).trans List.perm_middle)

theorem perm_mergeEach_nil (hdistinct : (incoming.map fun e => Text.lower e.1).Nodup) :
    (mergeEach incoming []).Perm (incoming.map fun e => (Text.lower e.1, merged e.2)) := by
  have h : (mergeEach incoming []).Perm _ := perm_mergeEach hdistinct fun _ _ => List.not_mem_nil
  rwa [List.append_nil] at h

theorem mergeEach_singleton (name : String) (value : Tree) :
    mergeEach [(name, value)] [] = [(Text.lower name, merged value)] :=
  (perm_merge List.not_mem_nil).eq_singleton

/-- Names in lowercase stay what they are. -/
theorem lookup_mergeEach (hlower : ∀ e ∈ incoming, Text.lower e.1 = e.1)
    (hdistinct : (incoming.map Prod.fst).Nodup) (name : String) :
    (mergeEach incoming []).lookup name = (incoming.lookup name).map merged := by
  have hnames : incoming.map (fun e => Text.lower e.1) = incoming.map Prod.fst :=
    List.map_congr_left hlower
  have hentries : incoming.map (fun e => (Text.lower e.1, merged e.2)) =
      incoming.map fun e => (e.1, merged e.2) :=
    List.map_congr_left fun e he => by rw [hlower e he]
  have hperm := perm_mergeEach_nil (hnames ▸ hdistinct)
  rw [hentries] at hperm
  have hnodup : ((incoming.map fun e => (e.1, merged e.2)).map Prod.fst).Nodup := by
    rw [List.map_map]
    exact hdistinct
  rw [lookup_of_perm hperm ((hperm.map Prod.fst).nodup_iff.mpr hnodup)]
  exact lookup_map_value (fun _ => merged) incoming name

/-- The same of a table whose values have changed, in whatever order it is gone through. -/
theorem lookup_mergeEach_of_perm {f : String → Tree → Tree} {arranged : List (String × Tree)}
    (hperm : arranged.Perm (incoming.map fun e => (e.1, f e.1 e.2)))
    (hlower : ∀ e ∈ incoming, Text.lower e.1 = e.1) (hdistinct : (incoming.map Prod.fst).Nodup)
    (name : String) :
    (mergeEach arranged []).lookup name = (incoming.lookup name).map fun t => merged (f name t) := by
  have hnames : (arranged.map Prod.fst).Perm (incoming.map Prod.fst) := by
    have h := hperm.map Prod.fst
    rw [List.map_map] at h
    exact h
  have hlower' : ∀ e ∈ arranged, Text.lower e.1 = e.1 := by
    intro e he
    obtain ⟨entry, hentry, rfl⟩ := List.mem_map.mp (hperm.mem_iff.mp he)
    exact hlower entry hentry
  have hnodup := hnames.nodup_iff.mpr hdistinct
  rw [lookup_mergeEach hlower' hnodup, lookup_of_perm hperm hnodup, lookup_map_value, Option.map_map]
  rfl

/-! ## A file by itself -/

/-- The fields of a configuration are paths of one step. -/
theorem ofText_fieldName : ∀ name ∈ Config.fieldNames,
    Text.lower name = name ∧ KeyPath.ofText (Text.lower name) = ⟨name, []⟩ := by
  decide +kernel

theorem lower_of_field {entries : List (String × Tree)}
    (h : ∀ m ∈ entries.map Prod.fst, m ∈ Config.fieldNames) : ∀ e ∈ entries, Text.lower e.1 = e.1 :=
  fun e he => (ofText_fieldName e.1 (h e.1 (List.mem_map_of_mem he))).1

theorem set_field (name : String) (value : Tree) :
    settings.set ⟨name, []⟩ value = .ok (merge name value settings) := rfl

theorem setAll_fields {entries : List (String × Tree)}
    (h : ∀ m ∈ entries.map Prod.fst, m ∈ Config.fieldNames) :
    setAll (entries.map fun e => (⟨e.1, []⟩, e.2)) settings = .ok (mergeEach entries settings) := by
  induction entries generalizing settings with
  | nil => rfl
  | cons entry rest ih =>
    obtain ⟨name, value⟩ := entry
    rw [List.map_cons, setAll, set_field]
    exact ih fun m hm => h m (List.mem_cons_of_mem name hm)

theorem ofEnvironment_nil (hashing : Hashing) : ofEnvironment ⟨[], hashing⟩ = [] :=
  List.map_eq_nil_iff.mpr (hashing.collected.perm []).eq_nil

/-- A file whose outermost names are fields of a configuration is merged into nothing. -/
theorem gather_of_fields {entries : List (String × Tree)}
    (h : ∀ m ∈ entries.map Prod.fst, m ∈ Config.fieldNames) (hashing : Hashing) :
    ∃ arranged : List (String × Tree),
      arranged.Perm (entries.map fun e => (e.1, e.2.hashed hashing.file [e.1])) ∧
      gather (.table entries) ⟨[], hashing⟩ = .ok (mergeEach arranged []) := by
  have hperm := (hashing.file []).perm entries
  have hplaces : ofFile hashing.file (.table entries) =
      (((hashing.file []).arrange entries).map fun e => (e.1, e.2.hashed hashing.file [e.1])).map
        fun e => (⟨e.1, []⟩, e.2) := by
    rw [ofFile, List.map_map]
    refine List.map_congr_left fun e he => ?_
    have hname := (ofText_fieldName e.1 (h e.1 (List.mem_map_of_mem (hperm.mem_iff.mp he)))).2
    dsimp only [Function.comp]
    rw [hname]
    rfl
  refine ⟨_, hperm.map _, ?_⟩
  rw [gather, ofEnvironment_nil, List.append_nil, hplaces]
  refine setAll_fields fun m hm => ?_
  rw [List.map_map] at hm
  exact h m ((hperm.map Prod.fst).mem_iff.mp hm)

/-- Each field is merged into nothing. -/
theorem lookup_gathered {entries : List (String × Tree)} {hashing : Hashing}
    (h : ∀ m ∈ entries.map Prod.fst, m ∈ Config.fieldNames) (hdistinct : (entries.map Prod.fst).Nodup)
    (hgather : gather (.table entries) ⟨[], hashing⟩ = .ok settings) (name : String) :
    settings.lookup name = (entries.lookup name).map fun t => merged (t.hashed hashing.file [name]) := by
  obtain ⟨arranged, hperm, harranged⟩ := gather_of_fields h hashing
  rw [harranged] at hgather
  obtain rfl := Except.ok.inj hgather
  exact lookup_mergeEach_of_perm (f := fun name => Tree.hashed hashing.file [name]) hperm
    (lower_of_field h) hdistinct name

end Settings

end DeviceSleep
