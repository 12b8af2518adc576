import DeviceSleep.Proofs.Config.Merging
import DeviceSleep.Proofs.Text.Lowered
import Mathlib.Data.List.Nodup

/-! What a value means in a file by itself, it means in layers too. On its way into layers a table is
merged into nothing, which changes the case of its names, and any other value stays as it is; what the
strict readers then make of the first, the lenient ones make of the second. -/
namespace DeviceSleep
set_option autoImplicit false

/-- A value of a file, and what it is in layers, in whatever order its tables are gone through. -/
inductive Passes : Tree → Tree → Prop where
  | same (t : Tree) : Passes t t
  | merged (orders : TableOrders) (path : List String) (entries : List (String × Tree)) :
      Passes (.table entries) (.table (Settings.mergeEach (Tree.arranged orders path entries) []))

/-- What the one reader makes of a value, the other makes of what it becomes. -/
def Follows {α : Type} (strict lenient : Tree → Option α) : Prop :=
  ∀ t t' a, Passes t t' → strict t = some a → lenient t' = some a

variable {α β : Type} {strict lenient : Tree → Option α} {t t' : Tree}

theorem passes_merged (orders : TableOrders) (path : List String) (t : Tree) :
    Passes t (Settings.merged (t.hashed orders path)) := by
  cases t with
  | table entries => exact .merged orders path entries
  | _ => exact .same _

theorem Passes.eq_of_plain (h : Passes t t') (hplain : ∀ entries, t ≠ .table entries) : t' = t := by
  cases h with
  | same => rfl
  | merged orders path entries => exact absurd rfl (hplain entries)

theorem Follows.bind (h : Follows strict lenient) (f : α → Option β) :
    Follows (fun t => (strict t).bind f) (fun t => (lenient t).bind f) := by
  intro t t' b hpass hread
  obtain ⟨a, ha, hb⟩ := Option.bind_eq_some_iff.mp hread
  exact Option.bind_eq_some_iff.mpr ⟨a, h t t' a hpass ha, hb⟩

/-! ## Plain values -/

/-- A reader of plain values does not meet a change. -/
theorem follows_of_plain (hplain : ∀ entries, strict (.table entries) = none)
    (h : ∀ t a, strict t = some a → lenient t = some a) : Follows strict lenient := by
  intro t t' a hpass hread
  obtain rfl : t' = t := by
    refine hpass.eq_of_plain ?_
    rintro entries rfl
    rw [hplain] at hread
    cases hread
  exact h t' a hread

namespace Rules

theorem follows_bool : Follows exactBool? looseBool? := by
  refine follows_of_plain (fun _ => rfl) fun t b h => ?_
  cases t with
  | bool => exact h
  | _ => cases h

theorem follows_text : Follows exactText? looseText? := by
  refine follows_of_plain (fun _ => rfl) fun t s h => ?_
  cases t with
  | text => exact h
  | _ => cases h

theorem follows_natural (limit : Nat) : Follows (exactNatural? limit) (looseNatural? limit) := by
  refine follows_of_plain (fun _ => rfl) fun t n h => ?_
  cases t with
  | int k =>
    rw [exactNatural?, Option.ite_none_right_eq_some] at h
    obtain ⟨⟨hpos, hle⟩, hn⟩ := h
    obtain rfl := Option.some.inj hn
    rw [looseNatural?, looseNumber?, if_pos hpos, Option.filter_some, if_pos]
    simp only [decide_eq_true_eq]
    omega
  | _ => cases h

/-- Of names that differ in lowercase, any spelling finds the one that it is. -/
theorem find_sameWord {names : List String} (hnames : (names.map Text.lower).Nodup) {s s' : String}
    (hs : s ∈ names) (hsame : Text.lower s' = Text.lower s) :
    (names.find? fun name => Text.sameWord name s') = some s := by
  cases hfind : names.find? fun name => Text.sameWord name s' with
  | none =>
    have hnot := List.find?_eq_none.mp hfind s hs
    exact absurd (beq_iff_eq.mpr hsame.symm) hnot
  | some n =>
    have hword := List.find?_some hfind
    have hn' : Text.lower n = Text.lower s := (beq_iff_eq.mp hword).trans hsame
    have hn := List.mem_of_find?_eq_some hfind
    rw [List.inj_on_of_nodup_map hnames hn hs hn']

theorem follows_choice {names : List String} (hnames : (names.map Text.lower).Nodup) :
    Follows (nameIn? isHollow names) (looseChoice? names) := by
  intro t t' s hpass hread
  rw [nameIn?.eq_def] at hread
  split at hread
  · rename_i word
    obtain ⟨hword, hread⟩ := Option.ite_none_right_eq_some.mp hread
    obtain rfl := Option.some.inj hread
    rw [hpass.eq_of_plain nofun]
    exact find_sameWord hnames (List.contains_iff_mem.mp hword) rfl
  · rename_i key inner
    obtain ⟨hkey, hread⟩ := Option.ite_none_right_eq_some.mp hread
    obtain rfl := Option.some.inj hread
    have hmem := List.contains_iff_mem.mp (Bool.and_eq_true_iff.mp hkey).1
    cases hpass with
    | same => exact find_sameWord hnames hmem rfl
    | merged orders path =>
      have hone : Tree.arranged orders path [(key, inner)] =
          [(key, inner.hashed orders (path ++ [key]))] := Tree.perm_arranged.eq_singleton
      rw [hone, Settings.mergeEach_singleton]
      exact find_sameWord hnames hmem (Text.lower_lower key)
  · cases hread

end Rules

theorem Mode.follows_read : Follows (Mode.read .file) (Mode.read .layered) :=
  (Rules.follows_choice (by decide +kernel)).bind Mode.ofName?

theorem Trigger.follows_read : Follows (Trigger.read .file) (Trigger.read .layered) :=
  (Rules.follows_choice (by decide +kernel)).bind Trigger.ofName?

/-! ## Lists -/

theorem mapM_eq_some_of_forall {items : List Tree} {results : List α}
    (h : ∀ t a, strict t = some a → lenient t = some a) (hitems : items.mapM strict = some results) :
    items.mapM lenient = some results := by
  induction items generalizing results with
  | nil => exact hitems
  | cons item items ih =>
    rw [List.mapM_cons] at hitems ⊢
    obtain ⟨a, ha, hitems⟩ := Option.bind_eq_some_iff.mp hitems
    obtain ⟨rest, hrest, hitems⟩ := Option.bind_eq_some_iff.mp hitems
    rw [h item a ha, ih hrest]
    exact hitems

/-- Nothing changes inside lists. -/
theorem follows_listOf (h : ∀ t a, strict t = some a → lenient t = some a) :
    Follows (Tree.listOf? strict) (Tree.listOf? lenient) := by
  refine follows_of_plain (fun _ => rfl) fun t results hread => ?_
  obtain ⟨items, hitems, hread⟩ := Option.bind_eq_some_iff.mp hread
  rw [Tree.listOf?, hitems]
  exact mapM_eq_some_of_forall h hread

/-! ## Fields -/

namespace Fields

/-- The second record has the fields of the first as they are in layers. -/
structure Pass (fields fields' : Fields) : Prop where
  missing : ∀ name, fields.lookup name = none → fields'.lookup name = none
  passes : ∀ name t, fields.lookup name = some t → ∃ t', fields'.lookup name = some t' ∧ Passes t t'

variable {fields fields' : Fields} {name : String} {a : α}

theorem Pass.same (fields : Fields) : fields.Pass fields :=
  ⟨fun _ h => h, fun _ t h => ⟨t, h, .same t⟩⟩

/-- The fields of a table whose names differ and are in lowercase. -/
theorem Pass.mergeEach {orders : TableOrders} (path : String → List String) {arranged : List (String × Tree)}
    (hperm : arranged.Perm (fields.map fun e => (e.1, e.2.hashed orders (path e.1))))
    (hlower : ∀ e ∈ fields, Text.lower e.1 = e.1) (hdistinct : (fields.map Prod.fst).Nodup) :
    fields.Pass (Settings.mergeEach arranged []) := by
  have hlookup := Settings.lookup_mergeEach_of_perm (f := fun name => Tree.hashed orders (path name)) hperm
    hlower hdistinct
  constructor
  · intro name h
    rw [hlookup, h]
    rfl
  · intro name t h
    rw [hlookup, h]
    exact ⟨_, rfl, passes_merged orders (path name) t⟩

theorem Pass.required (h : fields.Pass fields') (hread : Follows strict lenient)
    (ha : fields.required name strict = some a) : fields'.required name lenient = some a := by
  obtain ⟨t, ht, ha⟩ := Option.bind_eq_some_iff.mp ha
  obtain ⟨t', ht', hpass⟩ := h.passes name t ht
  rw [Fields.required, ht', Option.bind_some]
  exact hread t t' a hpass ha

theorem Pass.withDefault (h : fields.Pass fields') (hread : Follows strict lenient) {default : α}
    (ha : fields.withDefault name default strict = some a) :
    fields'.withDefault name default lenient = some a := by
  rw [Fields.withDefault] at ha ⊢
  split at ha
  · rename_i hnone
    rw [h.missing name hnone]
    exact ha
  · rename_i t ht
    obtain ⟨t', ht', hpass⟩ := h.passes name t ht
    rw [ht']
    exact hread t t' a hpass ha

/-- A file cannot say that a field is unset. -/
theorem Pass.optional (h : fields.Pass fields') (hread : Follows strict lenient)
    (hnil : strict .nil = none) {o : Option α} (ho : fields.optional name .file strict = some o) :
    fields'.optional name .layered lenient = some o := by
  rw [Fields.optional] at ho ⊢
  split at ho
  · rename_i hnone
    rw [h.missing name hnone]
    exact ho
  · rename_i t ht
    obtain ⟨t', ht', hpass⟩ := h.passes name t ht
    obtain ⟨a, ha, rfl⟩ := Option.map_eq_some_iff.mp ho
    -- In layers it is set as well: a value that holds nothing would not have been read.
    have hset : Rules.isNil t' = false := by
      cases hpass with
      | merged => rfl
      | same =>
        cases t with
        | nil =>
          rw [hnil] at ha
          cases ha
        | _ => rfl
    rw [ht']
    dsimp only
    rw [show Rules.layered.isUnset t' = false from hset, hread t t' a hpass ha]
    rfl

end Fields

/-- The names of the record's fields differ and are in lowercase, if it is a table. -/
def Tree.HasPlainFields (t : Tree) : Prop :=
  ∀ entries, t = .table entries →
    (∀ e ∈ entries, Text.lower e.1 = e.1) ∧ (entries.map Prod.fst).Nodup

theorem exists_fields (hplain : t.HasPlainFields) (hpass : Passes t t') {names : List String}
    {fields : Fields} (h : Rules.recordFields? names t = some fields) :
    ∃ fields', Rules.recordFields? names t' = some fields' ∧ fields.Pass fields' := by
  cases hpass with
  | same => exact ⟨fields, h, .same fields⟩
  | merged orders path entries =>
    cases h
    obtain ⟨hlower, hdistinct⟩ := hplain fields rfl
    exact ⟨_, rfl, .mergeEach (fun name => path ++ [name]) Tree.perm_arranged hlower hdistinct⟩

/-! ## Pins and profiles -/

/-- Pins stand in a list and are read as they are. -/
theorem GpioEntry.read_layered (t : Tree) (entry : GpioEntry) (h : read .file t = some entry) :
    read .layered t = some entry := by
  obtain ⟨fields, hfields, h⟩ := Option.bind_eq_some_iff.mp h
  obtain ⟨pin, hpin, h⟩ := Option.bind_eq_some_iff.mp h
  obtain ⟨trigger, htrigger, h⟩ := Option.bind_eq_some_iff.mp h
  have hpass := Fields.Pass.same fields
  have hpin' := hpass.required (Rules.follows_natural 0xFFFF) hpin
  have htrigger' := hpass.withDefault Trigger.follows_read htrigger
  refine Option.bind_eq_some_iff.mpr ⟨fields, hfields, ?_⟩
  refine Option.bind_eq_some_iff.mpr ⟨pin, hpin', ?_⟩
  exact Option.bind_eq_some_iff.mpr ⟨trigger, htrigger', h⟩

theorem Profile.read_layered {p : Profile} (hplain : t.HasPlainFields) (hpass : Passes t t')
    (h : read .file t = some p) : read .layered t' = some p := by
  obtain ⟨fields, hfields, h⟩ := Option.bind_eq_some_iff.mp h
  obtain ⟨mode, hmode, h⟩ := Option.bind_eq_some_iff.mp h
  obtain ⟨waitCloud, hwaitCloud, h⟩ := Option.bind_eq_some_iff.mp h
  obtain ⟨gpio, hgpio, h⟩ := Option.bind_eq_some_iff.mp h
  obtain ⟨duration, hduration, h⟩ := Option.bind_eq_some_iff.mp h
  obtain ⟨networks, hnetworks, h⟩ := Option.bind_eq_some_iff.mp h
  obtain ⟨radioLink, hradioLink, h⟩ := Option.bind_eq_some_iff.mp h
  obtain ⟨fields', hfields', hsame⟩ := exists_fields hplain hpass hfields
  have htext : ∀ t s, Rules.file.text? t = some s → Rules.layered.text? t = some s :=
    fun t s => Rules.follows_text t t s (.same t)
  have hmode' := hsame.required Mode.follows_read hmode
  have hwaitCloud' := hsame.withDefault Rules.follows_bool hwaitCloud
  have hgpio' := hsame.withDefault (follows_listOf GpioEntry.read_layered) hgpio
  have hduration' := hsame.optional (Rules.follows_natural 0xFFFFFFFF) rfl hduration
  have hnetworks' := hsame.withDefault (follows_listOf htext) hnetworks
  have hradioLink' := hsame.withDefault Rules.follows_bool hradioLink
  refine Option.bind_eq_some_iff.mpr ⟨fields', hfields', ?_⟩
  refine Option.bind_eq_some_iff.mpr ⟨mode, hmode', ?_⟩
  refine Option.bind_eq_some_iff.mpr ⟨waitCloud, hwaitCloud', ?_⟩
  refine Option.bind_eq_some_iff.mpr ⟨gpio, hgpio', ?_⟩
  refine Option.bind_eq_some_iff.mpr ⟨duration, hduration', ?_⟩
  refine Option.bind_eq_some_iff.mpr ⟨networks, hnetworks', ?_⟩
  exact Option.bind_eq_some_iff.mpr ⟨radioLink, hradioLink', h⟩

end DeviceSleep
