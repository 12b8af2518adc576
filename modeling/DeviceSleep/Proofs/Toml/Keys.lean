import DeviceSleep.Toml.Document
import DeviceSleep.Toml.Marked
import Mathlib.Data.List.Nodup

/-! The names in the tables of a text. Whatever its lines add, by keys or by headers, no table has a name
twice, neither the outermost one nor those in it; what is inside lists does not matter here. Taking in a
document as it stands does not change the names of a table. -/
namespace DeviceSleep
set_option autoImplicit false

/-- No table has a name twice, outside lists. -/
inductive Tree.Distinct : Tree → Prop where
  | plain {t : Tree} : (∀ entries, t ≠ .table entries) → Distinct t
  | table {entries : List (String × Tree)} : (entries.map Prod.fst).Nodup →
      (∀ entry ∈ entries, Distinct entry.2) → Distinct (.table entries)

theorem Tree.Distinct.of_table {entries : List (String × Tree)} (h : Distinct (.table entries)) :
    (entries.map Prod.fst).Nodup ∧ ∀ entry ∈ entries, entry.2.Distinct := by
  cases h with
  | plain hplain => exact absurd rfl (hplain entries)
  | table hnodup hinner => exact ⟨hnodup, hinner⟩

namespace Toml

namespace Node

def names (entries : Entries) : List String := entries.map Prod.fst

/-- No finished table will have a name twice. -/
inductive Distinct : Node → Prop where
  | value {t : Tree} : t.Distinct → Distinct (.value t)
  | table {origin : Origin} {entries : Entries} : (names entries).Nodup →
      (∀ entry ∈ entries, Distinct entry.2) → Distinct (.table origin entries)
  | tables {elements : List Entries} : Distinct (.tables elements)

/-- Entries of a table of that kind. -/
structure Unrepeated (entries : Entries) : Prop where
  nodup : (names entries).Nodup
  inner : ∀ entry ∈ entries, Distinct entry.2

variable {entries after : Entries} {name : String}

theorem unrepeated_nil : Unrepeated [] := ⟨List.nodup_nil, nofun⟩

theorem Unrepeated.distinct (h : Unrepeated entries) (origin : Origin) :
    Distinct (.table origin entries) :=
  .table h.nodup h.inner

theorem Distinct.unrepeated {origin : Origin} (h : Distinct (.table origin entries)) :
    Unrepeated entries := by
  cases h with
  | table hnodup hinner => exact ⟨hnodup, hinner⟩

/-! ## One place -/

/-- A name keeps its place, or is added at the end. -/
theorem names_modify {f : Option Node → Option Node} (h : modify name f entries = some after) :
    names after = names entries ∨ name ∉ names entries ∧ names after = names entries ++ [name] := by
  induction entries generalizing after with
  | nil =>
    obtain ⟨node, -, rfl⟩ := Option.map_eq_some_iff.mp h
    exact .inr ⟨List.not_mem_nil, rfl⟩
  | cons entry rest ih =>
    obtain ⟨key, node⟩ := entry
    rw [modify] at h
    split at h
    · obtain ⟨node', -, rfl⟩ := Option.map_eq_some_iff.mp h
      exact .inl rfl
    · rename_i hne
      obtain ⟨rest', hrest, rfl⟩ := Option.map_eq_some_iff.mp h
      rcases ih hrest with heq | ⟨hnew, heq⟩
      · exact .inl (congrArg (key :: ·) heq)
      · refine .inr ⟨?_, congrArg (key :: ·) heq⟩
        exact List.not_mem_cons_of_ne_of_not_mem (Ne.symm hne) hnew

theorem nodup_add (hentries : (names entries).Nodup) (hnew : name ∉ names entries) :
    (names entries ++ [name]).Nodup := by
  rw [← List.concat_eq_append]
  exact hentries.concat hnew

/-- An entry that is there afterwards was there before, or was changed or made. -/
theorem mem_modify {f : Option Node → Option Node} (h : modify name f entries = some after)
    {entry : String × Node} (hentry : entry ∈ after) :
    entry ∈ entries ∨
      ∃ old : Option Node, f old = some entry.2 ∧ ∀ node ∈ old, (name, node) ∈ entries := by
  induction entries generalizing after with
  | nil =>
    obtain ⟨node, hnode, rfl⟩ := Option.map_eq_some_iff.mp h
    rw [List.mem_singleton.mp hentry]
    exact .inr ⟨none, hnode, nofun⟩
  | cons first rest ih =>
    obtain ⟨key, node⟩ := first
    rw [modify] at h
    split at h
    · rename_i hkey
      obtain ⟨node', hnode', rfl⟩ := Option.map_eq_some_iff.mp h
      rcases List.mem_cons.mp hentry with rfl | hrest
      · refine .inr ⟨some node, hnode', ?_⟩
        rintro _ ⟨⟩
        rw [hkey]
        exact List.mem_cons_self
      · exact .inl (List.mem_cons_of_mem _ hrest)
    · obtain ⟨rest', hrest, rfl⟩ := Option.map_eq_some_iff.mp h
      rcases List.mem_cons.mp hentry with rfl | hlater
      · exact .inl List.mem_cons_self
      · rcases ih hrest hlater with hthere | ⟨old, hnew, hold⟩
        · exact .inl (List.mem_cons_of_mem _ hthere)
        · exact .inr ⟨old, hnew, fun node hnode => List.mem_cons_of_mem _ (hold node hnode)⟩

theorem Unrepeated.modify {f : Option Node → Option Node} (hentries : Unrepeated entries)
    (hf : ∀ old new, (∀ node ∈ old, Distinct node) → f old = some new → Distinct new)
    (h : Node.modify name f entries = some after) : Unrepeated after := by
  refine ⟨?_, ?_⟩
  · rcases names_modify h with heq | ⟨hnew, heq⟩
    · rw [heq]
      exact hentries.nodup
    · rw [heq]
      exact nodup_add hentries.nodup hnew
  · intro entry hentry
    rcases mem_modify h hentry with hthere | ⟨old, hnew, hold⟩
    · exact hentries.inner entry hthere
    · exact hf old entry.2 (fun node hnode => hentries.inner _ (hold node hnode)) hnew

theorem Unrepeated.add (hentries : Unrepeated entries) (hnew : name ∉ names entries) {node : Node}
    (hnode : Distinct node) : Unrepeated (entries ++ [(name, node)]) := by
  refine ⟨?_, ?_⟩
  · rw [names, List.map_append]
    exact nodup_add hentries.nodup hnew
  · intro entry hentry
    rcases List.mem_append.mp hentry with hentry | hentry
    · exact hentries.inner entry hentry
    · rw [List.mem_singleton.mp hentry]
      exact hnode

/-! ## Paths -/

/-- A changed table is a table of that kind, whatever its origin is. -/
theorem distinct_of_map_table {result : Option Entries} (hresult : ∀ inner ∈ result, Unrepeated inner)
    {origin : Origin} {node : Node} (h : result.map (Node.table origin) = some node) :
    Distinct node := by
  obtain ⟨inner, hinner, rfl⟩ := Option.map_eq_some_iff.mp h
  exact (hresult inner hinner).distinct origin

theorem distinct_of_map_tables {result : Option Entries} {earlier : List Entries} {node : Node}
    (h : result.map (fun inner => Node.tables (inner :: earlier)) = some node) : Distinct node := by
  obtain ⟨inner, -, rfl⟩ := Option.map_eq_some_iff.mp h
  exact .tables

theorem Unrepeated.insert {tree : Tree} (htree : tree.Distinct) {path : List String}
    (hentries : Unrepeated entries) (h : Node.insert tree path entries = some after) :
    Unrepeated after := by
  induction path generalizing entries after with
  | nil => cases h
  | cons first path ih =>
    cases path with
    | nil =>
      refine hentries.modify ?_ h
      intro old new hold hnew
      cases old with
      | none =>
        cases hnew
        exact .value htree
      | some node => cases hnew
    | cons next path =>
      refine hentries.modify ?_ h
      intro old new hold hnew
      split at hnew
      · exact distinct_of_map_table (fun _ => ih unrepeated_nil) hnew
      · exact distinct_of_map_table (fun _ => ih (hold _ rfl).unrepeated) hnew
      · split at hnew
        · cases hnew
        · exact distinct_of_map_table (fun _ => ih (hold _ rfl).unrepeated) hnew
      · split at hnew
        · cases hnew
        · exact distinct_of_map_tables hnew
      · cases hnew

theorem Unrepeated.insertAll {pairs : List (List String × Tree)}
    (hpairs : ∀ pair ∈ pairs, pair.2.Distinct) (hentries : Unrepeated entries)
    (h : Node.insertAll pairs entries = some after) : Unrepeated after := by
  induction pairs generalizing entries with
  | nil =>
    cases h
    exact hentries
  | cons pair pairs ih =>
    obtain ⟨path, tree⟩ := pair
    obtain ⟨hpair, hpairs⟩ := List.forall_mem_cons.mp hpairs
    obtain ⟨next, hnext, h⟩ := Option.bind_eq_some_iff.mp h
    exact ih hpairs (hentries.insert hpair hnext) h

theorem Unrepeated.under {f : String → Entries → Option Entries} {path : List String}
    (hf : ∀ name {entries after : Entries}, Unrepeated entries → f name entries = some after →
      Unrepeated after)
    (hentries : Unrepeated entries) (h : Node.under f path entries = some after) : Unrepeated after := by
  induction path generalizing entries after with
  | nil => cases h
  | cons first path ih =>
    cases path with
    | nil => exact hf first hentries h
    | cons next path =>
      refine hentries.modify ?_ h
      intro old new hold hnew
      split at hnew
      · exact distinct_of_map_table (fun _ => ih unrepeated_nil) hnew
      · exact distinct_of_map_table (fun _ => ih (hold _ rfl).unrepeated) hnew
      · exact distinct_of_map_tables hnew
      · cases hnew

/-! ## Headers -/

section Headers
variable {pairs : List (List String × Tree)}

/-- A table under its own header comes last, and nothing else has its name. -/
theorem Unrepeated.openTable (hpairs : ∀ pair ∈ pairs, pair.2.Distinct) (hentries : Unrepeated entries)
    (h : Node.openTable pairs name entries = some after) : Unrepeated after := by
  rw [Node.openTable] at h
  split at h
  · rename_i hnone
    obtain ⟨inner, hinner, rfl⟩ := Option.map_eq_some_iff.mp h
    have hnew : name ∉ names entries := by
      intro hmem
      obtain ⟨entry, hentry, rfl⟩ := List.mem_map.mp hmem
      have hne := List.lookup_eq_none_iff.mp hnone entry hentry
      exact absurd rfl (bne_iff_ne.mp hne)
    exact hentries.add hnew ((unrepeated_nil.insertAll hpairs hinner).distinct _)
  · -- A table that was only passed so far is taken from its place.
    rename_i old hold
    obtain ⟨inner, hinner, rfl⟩ := Option.map_eq_some_iff.mp h
    obtain ⟨before, behind, rfl, -⟩ := List.lookup_eq_some_iff.mp hold
    have hold : Unrepeated old :=
      (hentries.inner _ (List.mem_append_right _ List.mem_cons_self)).unrepeated
    generalize before ++ (name, Node.table .passed old) :: behind = entries at hentries
    have hkept : Unrepeated (entries.filter fun entry => entry.1 != name) :=
      ⟨hentries.nodup.sublist (List.filter_sublist.map Prod.fst),
        fun entry hentry => hentries.inner entry (List.mem_filter.mp hentry).1⟩
    have hnew : name ∉ names (entries.filter fun entry => entry.1 != name) := by
      intro hmem
      obtain ⟨entry, hentry, rfl⟩ := List.mem_map.mp hmem
      exact absurd rfl (bne_iff_ne.mp (List.mem_filter.mp hentry).2)
    exact hkept.add hnew ((hold.insertAll hpairs hinner).distinct _)
  · cases h

theorem Unrepeated.appendTable (hentries : Unrepeated entries)
    (h : Node.appendTable pairs name entries = some after) : Unrepeated after := by
  refine hentries.modify ?_ h
  intro old new hold hnew
  split at hnew
  · exact distinct_of_map_tables hnew
  · exact distinct_of_map_tables hnew
  · cases hnew

end Headers

/-! ## Finished tables -/

theorem trees_eq_map (entries : Entries) :
    trees entries = entries.map fun entry => (entry.1, entry.2.tree) := by
  induction entries with
  | nil => rw [trees]; rfl
  | cons entry rest ih =>
    obtain ⟨name, node⟩ := entry
    rw [trees, List.map_cons, ih]

theorem names_trees (entries : Entries) : (trees entries).map Prod.fst = names entries := by
  rw [trees_eq_map, List.map_map]
  rfl

theorem Distinct.tree {node : Node} (h : Distinct node) : node.tree.Distinct := by
  induction h with
  | value ht =>
    rw [Node.tree]
    exact ht
  | table hnodup _ ih =>
    rw [Node.tree]
    refine .table ?_ ?_
    · rw [names_trees]
      exact hnodup
    · intro entry hentry
      rw [trees_eq_map] at hentry
      obtain ⟨source, hsource, rfl⟩ := List.mem_map.mp hentry
      exact ih source hsource
  | tables =>
    rw [Node.tree]
    exact .plain nofun

theorem Unrepeated.trees (h : Unrepeated entries) : Tree.Distinct (.table (trees entries)) := by
  have htree := (h.distinct .header).tree
  rwa [Node.tree] at htree

end Node

/-! ## Values -/

open Node

theorem distinct_of_scalar {cs rest : List Char} {t : Tree} (h : scalar cs = some (t, rest)) :
    t.Distinct := by
  refine .plain ?_
  rintro entries rfl
  rw [scalar] at h
  split at h
  · obtain ⟨cs, -, hpair⟩ := Option.map_eq_some_iff.mp h
    cases hpair
  · obtain ⟨v, hv, hpair⟩ := Option.map_eq_some_iff.mp h
    cases hpair
    rw [word?] at hv
    split at hv
    · cases hv
    · split at hv
      · cases hv
      · split at hv <;> cases hv

theorem distinct_of_map_text {result : Option (List Char × List Char)} {t : Tree} {rest : List Char}
    (h : result.map (fun r => (Tree.text (String.ofList r.1), r.2)) = some (t, rest)) :
    t.Distinct := by
  obtain ⟨r, -, heq⟩ := Option.map_eq_some_iff.mp h
  cases heq
  exact .plain nofun

theorem distinct_of_map_list {result : Option (List Tree × List Char)} {t : Tree}
    {rest : List Char} (h : result.map (fun r => (Tree.list r.1, r.2)) = some (t, rest)) :
    t.Distinct := by
  obtain ⟨r, -, heq⟩ := Option.map_eq_some_iff.mp h
  cases heq
  exact .plain nofun

/-- By the steps: a table is put together from the members that were read within it. -/
theorem distinct_of_value_and_members (fuel : Nat) :
    (∀ {depth : Nat} {cs rest : List Char} {t : Tree},
      value fuel depth cs = some (t, rest) → t.Distinct) ∧
    (∀ {depth : Nat} {cs rest : List Char} {pairs : List (List String × Tree)},
      members fuel depth cs = some (pairs, rest) → ∀ pair ∈ pairs, pair.2.Distinct) := by
  induction fuel with
  | zero =>
    refine ⟨fun h => ?_, fun h => ?_⟩
    · rw [value] at h
      cases h
    · rw [members] at h
      cases h
  | succ fuel ih =>
    obtain ⟨ihvalue, ihmembers⟩ := ih
    refine ⟨?_, ?_⟩
    · intro depth cs rest t h
      rw [value.eq_def] at h
      dsimp only at h
      split at h
      · exact distinct_of_map_text h
      · exact distinct_of_map_text h
      · exact distinct_of_map_text h
      · exact distinct_of_map_text h
      · split at h
        · cases h
        · exact distinct_of_map_list h
      · split at h
        · cases h
        · split at h
          · cases h
            exact .table List.nodup_nil nofun
          · obtain ⟨⟨pairs, behind⟩, hpairs, h⟩ := Option.bind_eq_some_iff.mp h
            obtain ⟨entries, hentries, h⟩ := Option.bind_eq_some_iff.mp h
            cases h
            exact (unrepeated_nil.insertAll (ihmembers hpairs) hentries).trees
      · exact distinct_of_scalar h
    · intro depth cs rest pairs h
      rw [members] at h
      obtain ⟨⟨path, behind⟩, -, h⟩ := Option.bind_eq_some_iff.mp h
      dsimp only at h
      split at h
      · obtain ⟨⟨v, behind⟩, hv, h⟩ := Option.bind_eq_some_iff.mp h
        have hvalue := ihvalue hv
        dsimp only at h
        split at h
        · obtain ⟨⟨more, behind⟩, hmore, h⟩ := Option.bind_eq_some_iff.mp h
          cases h
          exact List.forall_mem_cons.mpr ⟨hvalue, ihmembers hmore⟩
        · cases h
          exact List.forall_mem_cons.mpr ⟨hvalue, nofun⟩
        · cases h
      · cases h

/-! ## Lines and documents -/

/-- The values of lines that are pairs. -/
def DistinctLines (ls : List Line) : Prop := ∀ pair, Line.pair pair ∈ ls → pair.2.Distinct

theorem distinct_of_line {fuel : Nat} {cs rest : List Char} {pair : Pair}
    (h : line fuel cs = some (some (.pair pair), rest)) : pair.2.Distinct := by
  rw [line.eq_def] at h
  split at h
  · obtain ⟨⟨path, behind⟩, -, h⟩ := Option.bind_eq_some_iff.mp h
    dsimp only at h
    split at h
    · obtain ⟨r, -, heq⟩ := Option.map_eq_some_iff.mp h
      cases heq
    · cases h
  · obtain ⟨⟨path, behind⟩, -, h⟩ := Option.bind_eq_some_iff.mp h
    dsimp only at h
    split at h
    · obtain ⟨r, -, heq⟩ := Option.map_eq_some_iff.mp h
      cases heq
    · cases h
  · split at h
    · cases h
    · obtain ⟨⟨path, behind⟩, -, h⟩ := Option.bind_eq_some_iff.mp h
      dsimp only at h
      split at h
      · obtain ⟨⟨v, behind⟩, hv, h⟩ := Option.bind_eq_some_iff.mp h
        obtain ⟨r, -, heq⟩ := Option.map_eq_some_iff.mp h
        cases heq
        exact (distinct_of_value_and_members fuel).1 hv
      · cases h

theorem distinct_of_lines {fuel : Nat} {cs : List Char} {ls : List Line}
    (h : lines fuel cs = some ls) : DistinctLines ls := by
  induction fuel generalizing cs ls with
  | zero => cases h
  | succ fuel ih =>
    rw [lines] at h
    split at h
    · cases h
      exact nofun
    · obtain ⟨⟨first, rest⟩, hfirst, h⟩ := Option.bind_eq_some_iff.mp h
      obtain ⟨more, hmore, h⟩ := Option.bind_eq_some_iff.mp h
      cases h
      intro pair hpair
      rcases List.mem_append.mp hpair with hpair | hpair
      · rw [Option.mem_toList.mp hpair] at hfirst
        exact distinct_of_line hfirst
      · exact ih hmore pair hpair

theorem distinct_of_sectionPairs {ls : List Line} (h : DistinctLines ls) :
    ∀ pair ∈ sectionPairs ls, pair.2.Distinct := by
  induction ls with
  | nil => exact nofun
  | cons l ls ih =>
    have hls : DistinctLines ls := fun pair hpair => h pair (List.mem_cons_of_mem _ hpair)
    cases l with
    | pair p => exact List.forall_mem_cons.mpr ⟨h p List.mem_cons_self, ih hls⟩
    | header path => exact nofun
    | element path => exact nofun

theorem unrepeated_addSections {ls : List Line} (hls : DistinctLines ls) {entries after : Entries}
    (hentries : Unrepeated entries) (h : addSections ls entries = some after) : Unrepeated after := by
  induction ls generalizing entries with
  | nil =>
    cases h
    exact hentries
  | cons l ls ih =>
    have hrest : DistinctLines ls := fun pair hpair => hls pair (List.mem_cons_of_mem _ hpair)
    have hpairs := distinct_of_sectionPairs hrest
    cases l with
    | pair p => exact ih hrest hentries h
    | header path =>
      obtain ⟨next, hnext, h⟩ := Option.bind_eq_some_iff.mp h
      exact ih hrest (hentries.under (fun _ _ _ hinner => hinner.openTable hpairs) hnext) h
    | element path =>
      obtain ⟨next, hnext, h⟩ := Option.bind_eq_some_iff.mp h
      exact ih hrest (hentries.under (fun _ _ _ hinner => hinner.appendTable) hnext) h

theorem distinct_of_parse? {text : String} {t : Tree} (h : parse? text = some t) : t.Distinct := by
  obtain ⟨ls, hls, h⟩ := Option.bind_eq_some_iff.mp h
  obtain ⟨entries, hentries, h⟩ := Option.bind_eq_some_iff.mp h
  obtain ⟨first, hfirst, hsections⟩ := Option.bind_eq_some_iff.mp hentries
  cases h
  have hlines := distinct_of_lines hls
  have htop := unrepeated_nil.insertAll (distinct_of_sectionPairs hlines) hfirst
  exact (unrepeated_addSections hlines htop hsections).trees

/-- A text is a table without a repeated name. -/
theorem table_of_parse? {text : String} {t : Tree} (h : parse? text = some t) :
    ∃ entries, t = .table entries ∧ (entries.map Prod.fst).Nodup := by
  have hdistinct := distinct_of_parse? h
  obtain ⟨ls, -, h⟩ := Option.bind_eq_some_iff.mp h
  obtain ⟨entries, -, h⟩ := Option.bind_eq_some_iff.mp h
  cases h
  exact ⟨trees entries, rfl, hdistinct.of_table.1⟩

/-! ## Marks -/

mutual

/-- Some table would be taken for a moment. -/
def hasMark : Tree → Bool
  | .table [] => false
  | .table ((key, value) :: rest) => key == momentMark || hasMark value || hasMarkEntries rest
  | .list items => hasMarkItems items
  | _ => false

def hasMarkEntries : List (String × Tree) → Bool
  | [] => false
  | (_, value) :: rest => hasMark value || hasMarkEntries rest

def hasMarkItems : List Tree → Bool
  | [] => false
  | item :: items => hasMark item || hasMarkItems items

end

/-- No moment is a table. -/
theorem momentOf_ne_table {t : Tree} {entries : List (String × Tree)} :
    momentOf t ≠ some (.table entries) := by
  cases t with
  | text s =>
    intro h
    obtain ⟨cs, -, h⟩ := Option.map_eq_some_iff.mp h
    cases h
  | _ => exact nofun

/-- Values are taken in as they stand exactly if there is no mark. -/
theorem unmark_eq_self_iff_hasMark :
    (∀ t, unmark t = some t ↔ hasMark t = false) ∧
    (∀ items, unmarkItems items = some items ↔ hasMarkItems items = false) ∧
    ∀ entries, unmarkEntries entries = some entries ↔ hasMarkEntries entries = false := by
  refine unmark.mutual_induct
    (fun t => unmark t = some t ↔ hasMark t = false)
    (fun items => unmarkItems items = some items ↔ hasMarkItems items = false)
    (fun entries => unmarkEntries entries = some entries ↔ hasMarkEntries entries = false)
    ?empty ?marked ?unmarked ?list ?plain ?noItem ?item ?noEntry ?entry
  case empty => exact iff_of_true rfl rfl
  case marked =>
    intro value rest
    rw [unmark, if_pos rfl, hasMark, beq_self_eq_true, Bool.true_or, Bool.true_or]
    exact iff_of_false momentOf_ne_table nofun
  case unmarked =>
    intro key value rest hkey ihvalue ihrest
    rw [unmark, if_neg hkey, hasMark, beq_eq_false_iff_ne.mpr hkey, Bool.false_or, Bool.or_eq_false_iff,
      ← ihvalue, ← ihrest]
    cases unmark value <;> cases unmarkEntries rest <;> simp
  case list =>
    intro items ih
    rw [unmark, hasMark, ← ih]
    cases unmarkItems items <;> simp
  case plain =>
    intro t hempty htable hlist
    exact iff_of_true (unmark.eq_4 t hempty htable hlist) (hasMark.eq_4 t hempty htable hlist)
  case noItem => exact iff_of_true rfl rfl
  case item =>
    intro item items ihitem ihitems
    rw [unmarkItems, hasMarkItems, Bool.or_eq_false_iff, ← ihitem, ← ihitems]
    cases unmark item <;> cases unmarkItems items <;> simp
  case noEntry => exact iff_of_true rfl rfl
  case entry =>
    intro key value rest ihvalue ihrest
    rw [unmarkEntries, hasMarkEntries, Bool.or_eq_false_iff, ← ihvalue, ← ihrest]
    cases unmark value <;> cases unmarkEntries rest <;> simp

theorem unmark_eq_self_iff {t : Tree} : unmark t = some t ↔ hasMark t = false :=
  unmark_eq_self_iff_hasMark.1 t

theorem names_unmarkEntries {entries plain : List (String × Tree)}
    (h : unmarkEntries entries = some plain) : plain.map Prod.fst = entries.map Prod.fst := by
  induction entries generalizing plain with
  | nil =>
    cases h
    rfl
  | cons entry rest ih =>
    obtain ⟨name, t⟩ := entry
    obtain ⟨t', -, h⟩ := Option.bind_eq_some_iff.mp h
    obtain ⟨rest', hrest, h⟩ := Option.bind_eq_some_iff.mp h
    cases h
    exact congrArg (name :: ·) (ih hrest)

theorem lookup_unmarkEntries {entries plain : List (String × Tree)}
    (h : unmarkEntries entries = some plain) {name : String} {t : Tree}
    (ht : entries.lookup name = some t) : ∃ t', unmark t = some t' ∧ plain.lookup name = some t' := by
  induction entries generalizing plain with
  | nil => cases ht
  | cons entry rest ih =>
    obtain ⟨key, first⟩ := entry
    obtain ⟨first', hfirst, h⟩ := Option.bind_eq_some_iff.mp h
    obtain ⟨rest', hrest, h⟩ := Option.bind_eq_some_iff.mp h
    cases h
    rw [List.lookup_cons] at ht ⊢
    split at ht
    · cases ht
      exact ⟨first', hfirst, rfl⟩
    · exact ih hrest ht

/-- A table that is no moment stays a table, entry by entry. -/
theorem unmarkEntries_of_unmark {entries plain : List (String × Tree)}
    (h : unmark (.table entries) = some (.table plain)) : unmarkEntries entries = some plain := by
  cases entries with
  | nil =>
    cases h
    rfl
  | cons entry rest =>
    obtain ⟨name, t⟩ := entry
    rw [unmark] at h
    split at h
    · cases t with
      | text s =>
        obtain ⟨cs, -, hmoment⟩ := Option.map_eq_some_iff.mp h
        cases hmoment
      | _ => cases h
    · obtain ⟨t', ht, h⟩ := Option.bind_eq_some_iff.mp h
      obtain ⟨rest', hrest, h⟩ := Option.bind_eq_some_iff.mp h
      cases h
      rw [unmarkEntries, ht, hrest]
      rfl

end Toml

end DeviceSleep
