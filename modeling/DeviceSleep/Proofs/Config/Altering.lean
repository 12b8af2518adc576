import DeviceSleep.Proofs.Config.Layers
import DeviceSleep.Proofs.Config.Merging

/-! Changing what stands at the end of some steps. Changes at one place are one change there, a change
further down is a change of what stands on the way, and changes at places that stand apart can be made in
either order. -/
namespace DeviceSleep
set_option autoImplicit false

theorem exists_of_bind_eq_ok {ε α β : Type} {x : Except ε α} {f : α → Except ε β} {b : β}
    (h : x.bind f = .ok b) : ∃ a, x = .ok a ∧ f a = .ok b := by
  cases x with
  | error e => cases h
  | ok a => exact ⟨a, rfl, h⟩

theorem exists_of_map_eq_ok {ε α β : Type} {x : Except ε α} {f : α → β} {b : β}
    (h : x.map f = .ok b) : ∃ a, x = .ok a ∧ f a = b := by
  cases x with
  | error e => cases h
  | ok a => exact ⟨a, rfl, Except.ok.inj h⟩

namespace Settings

variable {items : List Tree} {t u : Tree} {n m : Nat} {index : Int}

/-! ## Items -/

/-- The item at an index, which is empty where there is none. -/
def item (n : Nat) (items : List Tree) : Tree := items[n]?.getD .nil

/-- The items with one of them set, or one behind their end. -/
def write (n : Nat) (t : Tree) (items : List Tree) : List Tree :=
  (items ++ List.replicate (n + 1 - items.length) Tree.nil).set n t

theorem length_write (n : Nat) (t : Tree) (items : List Tree) :
    (write n t items).length = max items.length (n + 1) := by
  rw [write, List.length_set, List.length_append, List.length_replicate]
  omega

@[simp] theorem item_write_self (n : Nat) (t : Tree) (items : List Tree) : item n (write n t items) = t := by
  have hlt : n < (items ++ List.replicate (n + 1 - items.length) Tree.nil).length := by
    rw [List.length_append, List.length_replicate]
    omega
  rw [item, write, List.getElem?_set_self hlt, Option.getD_some]

theorem item_padded (k m : Nat) (items : List Tree) :
    item m (items ++ List.replicate k Tree.nil) = item m items := by
  rw [item, item, List.getElem?_append]
  split
  · rfl
  · rename_i hlt
    rw [List.getElem?_replicate, List.getElem?_eq_none (Nat.not_lt.mp hlt)]
    split <;> rfl

theorem item_write_of_ne (h : m ≠ n) (t : Tree) (items : List Tree) :
    item m (write n t items) = item m items := by
  rw [item, write, List.getElem?_set_ne (Ne.symm h)]
  exact item_padded (n + 1 - items.length) m items

/-- Lists of one length are equal if their items are. -/
theorem eq_of_items {items items' : List Tree} (hlength : items.length = items'.length)
    (h : ∀ m, item m items = item m items') : items = items' := by
  refine List.ext_getElem hlength fun m hm hm' => ?_
  have hitem := h m
  rw [item, item, List.getElem?_eq_getElem hm, List.getElem?_eq_getElem hm'] at hitem
  exact hitem

@[simp] theorem write_write (n : Nat) (t u : Tree) (items : List Tree) :
    write n u (write n t items) = write n u items := by
  refine eq_of_items (by simp only [length_write]; omega) fun m => ?_
  by_cases hm : m = n
  · rw [hm, item_write_self, item_write_self]
  · rw [item_write_of_ne hm, item_write_of_ne hm, item_write_of_ne hm]

theorem write_comm (h : n ≠ m) (t u : Tree) (items : List Tree) :
    write m u (write n t items) = write n t (write m u items) := by
  refine eq_of_items (by simp only [length_write]; omega) fun k => ?_
  by_cases hn : k = n
  · rw [hn, item_write_self, item_write_of_ne h, item_write_self]
  · by_cases hm : k = m
    · rw [hm, item_write_self, item_write_of_ne (Ne.symm h), item_write_self]
    · rw [item_write_of_ne hm, item_write_of_ne hn, item_write_of_ne hn, item_write_of_ne hm]

theorem position_write (h : position index items.length = .ok n) (t : Tree) :
    position index (write n t items).length = .ok n := by
  rw [length_write]
  rw [position] at h ⊢
  by_cases hindex : 0 ≤ index
  · rw [if_pos hindex] at h ⊢
    exact h
  · rw [if_neg hindex] at h ⊢
    by_cases hlength : (-index).toNat ≤ items.length
    · rw [if_pos hlength] at h
      obtain rfl := Except.ok.inj h
      have hmax : max items.length (items.length - (-index).toNat + 1) = items.length := by omega
      rw [hmax, if_pos hlength]
    · rw [if_neg hlength] at h
      cases h

theorem position_of_nonneg (h : 0 ≤ index) (length length' : Nat) :
    position index length = position index length' := by
  rw [position, position, if_pos h, if_pos h]

theorem ne_of_position {index' : Int} {length length' : Nat} (h : 0 ≤ index) (h' : 0 ≤ index')
    (hne : index ≠ index') (hn : position index length = .ok n) (hm : position index' length' = .ok m) :
    n ≠ m := by
  rw [position, if_pos h] at hn
  rw [position, if_pos h'] at hm
  split at hn
  · cases hn
    split at hm
    · cases hm
      omega
    · cases hm
  · cases hn

/-! ## Changes -/

/-- Changes what stands at the end of steps, making what is missing on the way. -/
def alter (f : Option Tree → Except Breakdown Tree) : List Step → Option Tree → Except Breakdown Tree
  | [], old => f old
  | .child name :: steps, old =>
    let entries := entriesOf (old.getD .nil)
    (alter f steps (entries.lookup name)).map fun t => .table (put name t entries)
  | .index index :: steps, old =>
    let items := itemsOf (old.getD .nil)
    (position index items.length).bind fun n =>
      (alter f steps (some (item n items))).map fun t => .list (write n t items)

variable {f g : Option Tree → Except Breakdown Tree} {p q steps : List Step} {old : Option Tree}

@[simp] theorem entriesOf_table (entries : Settings) : entriesOf (.table entries) = entries := rfl

@[simp] theorem itemsOf_list (items : List Tree) : itemsOf (.list items) = items := rfl

theorem alter_child_eq_ok_iff {name : String} : alter f (.child name :: steps) old = .ok u ↔
    ∃ t, alter f steps ((entriesOf (old.getD .nil)).lookup name) = .ok t ∧
      .table (put name t (entriesOf (old.getD .nil))) = u := by
  constructor
  · exact exists_of_map_eq_ok
  · rintro ⟨t, ht, rfl⟩
    rw [alter, ht]
    rfl

theorem alter_index_eq_ok_iff : alter f (.index index :: steps) old = .ok u ↔
    ∃ n t, position index (itemsOf (old.getD .nil)).length = .ok n ∧
      alter f steps (some (item n (itemsOf (old.getD .nil)))) = .ok t ∧
      .list (write n t (itemsOf (old.getD .nil))) = u := by
  constructor
  · intro h
    obtain ⟨n, hn, h⟩ := exists_of_bind_eq_ok h
    obtain ⟨t, ht, h⟩ := exists_of_map_eq_ok h
    exact ⟨n, t, hn, ht, h⟩
  · rintro ⟨n, t, hn, ht, rfl⟩
    rw [alter, hn]
    exact congrArg (Except.map _) ht

/-- A change further down is a change of what stands on the way. -/
theorem alter_append (f : Option Tree → Except Breakdown Tree) (p q : List Step) (old : Option Tree) :
    alter f (p ++ q) old = alter (alter f q) p old := by
  induction p generalizing old with
  | nil => rfl
  | cons step p ih =>
    cases step with
    | child name =>
      rw [List.cons_append, alter, alter]
      exact congrArg (Except.map _) (ih _)
    | index index =>
      rw [List.cons_append, alter, alter]
      refine congrArg (Except.bind _) (funext fun n => ?_)
      exact congrArg (Except.map _) (ih _)

/-- Two changes at one place are one change there. -/
theorem alter_alter (f g : Option Tree → Except Breakdown Tree) (steps : List Step) (old : Option Tree) :
    ((alter f steps old).bind fun t => alter g steps (some t)) =
      alter (fun old => (f old).bind fun t => g (some t)) steps old := by
  induction steps generalizing old with
  | nil => rfl
  | cons step steps ih =>
    cases step with
    | child name =>
      simp only [alter, ← ih]
      cases alter f steps ((entriesOf (old.getD .nil)).lookup name) with
      | error cause => rfl
      | ok t => simp [Except.map, Except.bind]
    | index index =>
      simp only [alter, ← ih]
      cases hn : position index (itemsOf (old.getD .nil)).length with
      | error cause => rfl
      | ok n =>
        simp only [Except.bind]
        cases alter f steps (some (item n (itemsOf (old.getD .nil)))) with
        | error cause => rfl
        | ok t => simp [Except.map, position_write hn]

/-! ## Places that stand apart -/

/-- Neither of two places stands above the other, nor are they one; and where both are items of a list,
they are counted from its front, as its end may move. -/
inductive Apart : List Step → List Step → Prop where
  | names {name other : String} (h : name ≠ other) (p q : List Step) :
      Apart (.child name :: p) (.child other :: q)
  | items {i j : Int} (hi : 0 ≤ i) (hj : 0 ≤ j) (h : i ≠ j) (p q : List Step) :
      Apart (.index i :: p) (.index j :: q)
  | further (step : Step) {p q : List Step} (h : Apart p q) : Apart (step :: p) (step :: q)

theorem Apart.ne (h : Apart p q) : p ≠ q := by
  induction h with
  | names h p q => simp [h]
  | items hi hj h p q => simp [h]
  | further step h ih => exact fun heq => ih (List.cons.inj heq).2

/-- Whether two places part at these steps. -/
def parts : Step → Step → Bool
  | .child name, .child other => name != other
  | .index i, .index j => decide (0 ≤ i) && decide (0 ≤ j) && i != j
  | _, _ => false

def isApart : List Step → List Step → Bool
  | step :: p, other :: q => parts step other || step == other && isApart p q
  | _, _ => false

theorem apart_of_parts {step other : Step} (h : parts step other = true) (p q : List Step) :
    Apart (step :: p) (other :: q) := by
  cases step with
  | child name =>
    cases other with
    | child other => exact .names (bne_iff_ne.mp h) p q
    | index j => cases h
  | index i =>
    cases other with
    | child other => cases h
    | index j =>
      simp only [parts, Bool.and_eq_true, decide_eq_true_eq, bne_iff_ne] at h
      obtain ⟨⟨hi, hj⟩, hne⟩ := h
      exact .items hi hj hne p q

theorem isApart_iff : isApart p q = true ↔ Apart p q := by
  induction p generalizing q with
  | nil => exact iff_of_false Bool.false_ne_true fun h => by cases h
  | cons step p ih =>
    cases q with
    | nil => exact iff_of_false Bool.false_ne_true fun h => by cases h
    | cons other q =>
      rw [isApart, Bool.or_eq_true, Bool.and_eq_true, beq_iff_eq, ih]
      constructor
      · rintro (hparts | ⟨rfl, h⟩)
        · exact apart_of_parts hparts p q
        · exact .further step h
      · intro h
        cases h with
        | names h => exact .inl (bne_iff_ne.mpr h)
        | items hi hj h => exact .inl (by simp [parts, hi, hj, h])
        | further _ h => exact .inr ⟨rfl, h⟩

instance Apart.decidable (p q : List Step) : Decidable (Apart p q) := decidable_of_iff _ isApart_iff

/-- Changes at places that stand apart can be made in either order. By induction on what the places have
in common: where they part, each leaves alone what the other reads. -/
theorem alter_comm (hapart : Apart p q) (hf : alter f p old = .ok t) (hg : alter g q (some t) = .ok u) :
    ∃ s, alter g q old = .ok s ∧ alter f p (some s) = .ok u := by
  induction hapart generalizing old t u with
  | names h p q =>
    obtain ⟨a, ha, rfl⟩ := alter_child_eq_ok_iff.mp hf
    obtain ⟨b, hb, rfl⟩ := alter_child_eq_ok_iff.mp hg
    rw [Option.getD_some, entriesOf_table, lookup_put_of_ne (Ne.symm h)] at hb
    refine ⟨_, alter_child_eq_ok_iff.mpr ⟨b, hb, rfl⟩, alter_child_eq_ok_iff.mpr ⟨a, ?_, ?_⟩⟩
    · rw [Option.getD_some, entriesOf_table, lookup_put_of_ne h, ha]
    · rw [Option.getD_some, entriesOf_table, Option.getD_some, entriesOf_table, put_comm h]
  | items hi hj h p q =>
    obtain ⟨n, a, hn, ha, rfl⟩ := alter_index_eq_ok_iff.mp hf
    obtain ⟨m, b, hm, hb, rfl⟩ := alter_index_eq_ok_iff.mp hg
    have hne := ne_of_position hi hj h hn hm
    rw [Option.getD_some, itemsOf_list, item_write_of_ne (Ne.symm hne)] at hb
    rw [position_of_nonneg hj _ (itemsOf (old.getD .nil)).length] at hm
    refine ⟨_, alter_index_eq_ok_iff.mpr ⟨m, b, hm, hb, rfl⟩, alter_index_eq_ok_iff.mpr ⟨n, a, ?_, ?_, ?_⟩⟩
    · rw [position_of_nonneg hi _ (itemsOf (old.getD .nil)).length, hn]
    · rw [Option.getD_some, itemsOf_list, item_write_of_ne hne, ha]
    · rw [Option.getD_some, itemsOf_list, Option.getD_some, itemsOf_list, write_comm hne]
  | further step hapart ih =>
    cases step with
    | child name =>
      obtain ⟨a, ha, rfl⟩ := alter_child_eq_ok_iff.mp hf
      obtain ⟨b, hb, rfl⟩ := alter_child_eq_ok_iff.mp hg
      rw [Option.getD_some, entriesOf_table, lookup_put_self] at hb
      obtain ⟨c, hc, hb⟩ := ih ha hb
      refine ⟨_, alter_child_eq_ok_iff.mpr ⟨c, hc, rfl⟩, alter_child_eq_ok_iff.mpr ⟨b, ?_, ?_⟩⟩
      · rw [Option.getD_some, entriesOf_table, lookup_put_self, hb]
      · simp only [Option.getD_some, entriesOf_table, put_put]
    | index index =>
      obtain ⟨n, a, hn, ha, rfl⟩ := alter_index_eq_ok_iff.mp hf
      obtain ⟨m, b, hm, hb, rfl⟩ := alter_index_eq_ok_iff.mp hg
      rw [Option.getD_some, itemsOf_list, position_write hn] at hm
      obtain rfl := Except.ok.inj hm
      rw [Option.getD_some, itemsOf_list, item_write_self] at hb
      obtain ⟨c, hc, hb⟩ := ih ha hb
      refine ⟨_, alter_index_eq_ok_iff.mpr ⟨n, c, hn, hc, rfl⟩,
        alter_index_eq_ok_iff.mpr ⟨n, b, ?_, ?_, ?_⟩⟩
      · rw [Option.getD_some, itemsOf_list, position_write hn]
      · rw [Option.getD_some, itemsOf_list, item_write_self, hb]
      · simp only [Option.getD_some, itemsOf_list, write_write]

/-! ## Setting a place -/

/-- What a value makes of what stands at the end of steps: an item of a list is replaced by it, and over
anything else it is laid. -/
def lay (value : Tree) (steps : List Step) (old : Option Tree) : Except Breakdown Tree :=
  match steps.getLast? with
  | some (.index _) => .ok value
  | _ => .ok (laidOver value old)

variable {value target : Tree} {settings : Settings}

theorem lay_cons (value : Tree) (step next : Step) (steps : List Step) :
    lay value (step :: next :: steps) = lay value (next :: steps) := by
  funext old
  rw [lay, lay, List.getLast?_cons_cons]

/-- Where there are steps, a place that is missing is as good as one that holds nothing. -/
theorem alter_getD (hsteps : steps ≠ []) (old : Option Tree) :
    alter f steps (some (old.getD .nil)) = alter f steps old := by
  cases steps with
  | nil => exact absurd rfl hsteps
  | cons step steps => cases step <;> rfl

theorem place_eq_alter (hne : steps ≠ [])
    (hsteps : ∀ name, Step.child name ∈ steps → Text.lower name = name) :
    place value steps target = alter (lay value steps) steps (some target) := by
  induction steps generalizing target with
  | nil => exact absurd rfl hne
  | cons step steps ih =>
    have hrest : ∀ name, Step.child name ∈ steps → Text.lower name = name :=
      fun name hname => hsteps name (List.mem_cons_of_mem _ hname)
    cases step with
    | child name =>
      cases steps with
      | nil =>
        rw [place, merge_eq_update, hsteps name List.mem_cons_self]
        rfl
      | cons next steps =>
        have hinner (old : Option Tree) : place value (next :: steps) (old.getD .nil) =
            alter (lay value (.child name :: next :: steps)) (next :: steps) old := by
          rw [ih (List.cons_ne_nil _ _) hrest, alter_getD (List.cons_ne_nil _ _), lay_cons]
        rw [place, hinner]
        rfl
    | index index =>
      have hinner (n : Nat) : place value steps (item n (itemsOf target)) =
          alter (lay value (.index index :: steps)) steps (some (item n (itemsOf target))) := by
        cases steps with
        | nil => rfl
        | cons next steps => rw [ih (List.cons_ne_nil _ _) hrest, lay_cons]
      rw [place, alter]
      refine congrArg (Except.bind _) (funext fun n => ?_)
      have hitem := item_padded (n + 1 - (itemsOf target).length) n (itemsOf target)
      rw [item] at hitem
      dsimp only
      rw [hitem, Option.getD_some, ← hinner]
      rfl

theorem set_eq_alter {path : KeyPath} (hpath : path.InLowercase) (value : Tree)
    (settings : Settings) : settings.set path value =
      (alter (lay value path.route) path.route (some (.table settings))).map entriesOf := by
  rw [set]
  exact congrArg (Except.map _) (place_eq_alter (List.cons_ne_nil _ _) fun _ => hpath.route)

end Settings

end DeviceSleep
