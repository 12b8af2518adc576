import DeviceSleep.Config.Settings

/-! Tables in which values are put under names. A name holds what was put there last, the others keep what
they have, and which of two names was written first does not show. -/
namespace DeviceSleep.Settings
set_option autoImplicit false

def names (settings : Settings) : List String := settings.map Prod.fst

variable {settings : Settings} {name other n : String} {t u : Tree}

theorem isSome_lookup_iff : (settings.lookup name).isSome = true ↔ name ∈ settings.names := by
  rw [List.lookup_isSome_iff, names, List.mem_map]
  simp only [beq_iff_eq, eq_comm (a := name)]

theorem mem_of_lookup (h : settings.lookup name = some t) : (name, t) ∈ settings := by
  obtain ⟨before, after, rfl, -⟩ := List.lookup_eq_some_iff.mp h
  exact List.mem_append_right _ List.mem_cons_self

theorem lookup_cons_of_ne (h : n ≠ name) : List.lookup n ((name, t) :: settings) = settings.lookup n := by
  rw [List.lookup_cons, beq_eq_false_iff_ne.mpr h]

/-- The values change, each under its name. -/
theorem lookup_map_value (f : String → Tree → Tree) (entries : List (String × Tree)) (name : String) :
    (entries.map fun e => (e.1, f e.1 e.2)).lookup name = (entries.lookup name).map (f name) := by
  induction entries with
  | nil => rfl
  | cons entry rest ih =>
    rw [List.map_cons, List.lookup_cons, List.lookup_cons]
    by_cases hname : name = entry.1
    · rw [hname, beq_self_eq_true]
      rfl
    · rw [beq_eq_false_iff_ne.mpr hname]
      exact ih

/-! ## A name that is there -/

theorem names_replace (name : String) (t : Tree) (settings : Settings) :
    (replace name t settings).names = settings.names := by
  induction settings with
  | nil => rfl
  | cons entry rest ih =>
    rw [replace]
    split
    · rfl
    · exact congrArg (entry.1 :: ·) ih

theorem lookup_replace_self (h : name ∈ settings.names) :
    (replace name t settings).lookup name = some t := by
  induction settings with
  | nil => cases h
  | cons entry rest ih =>
    obtain ⟨key, old⟩ := entry
    rw [replace]
    split
    · rename_i hkey
      rw [hkey]
      exact List.lookup_cons_self
    · rename_i hkey
      rw [lookup_cons_of_ne (Ne.symm hkey)]
      exact ih ((List.mem_cons.mp h).resolve_left (Ne.symm hkey))

theorem lookup_replace_of_ne (h : n ≠ name) :
    (replace name t settings).lookup n = settings.lookup n := by
  induction settings with
  | nil => rfl
  | cons entry rest ih =>
    obtain ⟨key, old⟩ := entry
    rw [replace]
    split
    · rename_i hkey
      subst hkey
      rw [lookup_cons_of_ne h, lookup_cons_of_ne h]
    · rw [List.lookup_cons, List.lookup_cons, ih]

theorem replace_replace (name : String) (t u : Tree) (settings : Settings) :
    replace name u (replace name t settings) = replace name u settings := by
  induction settings with
  | nil => rfl
  | cons entry rest ih =>
    obtain ⟨key, old⟩ := entry
    by_cases hkey : key = name
    · simp only [replace, if_pos hkey]
    · simp only [replace, if_neg hkey, ih]

theorem replace_comm (h : name ≠ other) (t u : Tree) (settings : Settings) :
    replace other u (replace name t settings) = replace name t (replace other u settings) := by
  induction settings with
  | nil => rfl
  | cons entry rest ih =>
    obtain ⟨key, old⟩ := entry
    by_cases hname : key = name
    · have hother : key ≠ other := fun heq => h (hname.symm.trans heq)
      simp only [replace, if_pos hname, if_neg hother]
    · by_cases hother : key = other
      · simp only [replace, if_neg hname, if_pos hother]
      · simp only [replace, if_neg hname, if_neg hother, ih]

/-! ## A name that is new -/

theorem perm_insert (name : String) (t : Tree) (settings : Settings) :
    (insert name t settings).Perm ((name, t) :: settings) := by
  induction settings with
  | nil => exact .refl _
  | cons entry rest ih =>
    rw [insert]
    split
    · exact .refl _
    · exact (ih.cons _).trans (.swap _ _ _)

theorem lookup_insert_self (h : name ∉ settings.names) :
    (insert name t settings).lookup name = some t := by
  induction settings with
  | nil => exact List.lookup_cons_self
  | cons entry rest ih =>
    rw [insert]
    split
    · exact List.lookup_cons_self
    · obtain ⟨hkey, hrest⟩ := not_or.mp fun hmem => h (List.mem_cons.mpr hmem)
      rw [lookup_cons_of_ne hkey]
      exact ih hrest

theorem lookup_insert_of_ne (h : n ≠ name) :
    (insert name t settings).lookup n = settings.lookup n := by
  induction settings with
  | nil => exact lookup_cons_of_ne h
  | cons entry rest ih =>
    rw [insert]
    split
    · exact lookup_cons_of_ne h
    · rw [List.lookup_cons, List.lookup_cons, ih]

theorem replace_insert_self (h : name ∉ settings.names) (t u : Tree) :
    replace name u (insert name t settings) = insert name u settings := by
  induction settings with
  | nil => exact if_pos rfl
  | cons entry rest ih =>
    obtain ⟨key, old⟩ := entry
    obtain ⟨hkey, hrest⟩ := not_or.mp fun hmem => h (List.mem_cons.mpr hmem)
    have hkey : key ≠ name := Ne.symm hkey
    by_cases hlt : name < key
    · simp only [insert, if_pos hlt, replace, if_true]
    · simp only [insert, if_neg hlt, replace, if_neg hkey, ih hrest]

theorem replace_insert_comm (h : name ≠ other) (t u : Tree) (settings : Settings) :
    replace other u (insert name t settings) = insert name t (replace other u settings) := by
  induction settings with
  | nil => exact if_neg h
  | cons entry rest ih =>
    obtain ⟨key, old⟩ := entry
    by_cases hlt : name < key
    · by_cases hkey : key = other
      · simp only [insert, if_pos hlt, replace, if_neg h, if_pos hkey]
      · simp only [insert, if_pos hlt, replace, if_neg h, if_neg hkey]
    · by_cases hkey : key = other
      · simp only [insert, if_neg hlt, replace, if_pos hkey]
      · simp only [insert, if_neg hlt, replace, if_neg hkey, ih]

/-- Both find their place among the names that are there, whichever comes first. -/
theorem insert_comm (h : name ≠ other) (t u : Tree) (settings : Settings) :
    insert other u (insert name t settings) = insert name t (insert other u settings) := by
  have hor : name < other ∧ ¬ other < name ∨ other < name ∧ ¬ name < other := by
    by_cases hlt : name < other
    · exact .inl ⟨hlt, String.lt_asymm hlt⟩
    · exact .inr ⟨Std.lt_of_le_of_ne (String.not_lt.mp hlt) (Ne.symm h), hlt⟩
  induction settings with
  | nil =>
    rcases hor with ⟨hlt, hnot⟩ | ⟨hlt, hnot⟩
    · simp only [insert, if_pos hlt, if_neg hnot]
    · simp only [insert, if_pos hlt, if_neg hnot]
  | cons entry rest ih =>
    obtain ⟨key, old⟩ := entry
    by_cases hname : name < key
    · by_cases hother : other < key
      · rcases hor with ⟨hlt, hnot⟩ | ⟨hlt, hnot⟩
        · simp only [insert, if_pos hname, if_pos hother, if_pos hlt, if_neg hnot]
        · simp only [insert, if_pos hname, if_pos hother, if_pos hlt, if_neg hnot]
      · have hnot : ¬ other < name := fun hlt => hother (String.lt_trans hlt hname)
        simp only [insert, if_pos hname, if_neg hother, if_neg hnot]
    · by_cases hother : other < key
      · have hnot : ¬ name < other := fun hlt => hname (String.lt_trans hlt hother)
        simp only [insert, if_neg hname, if_pos hother, if_neg hnot]
      · simp only [insert, if_neg hname, if_neg hother, ih]

/-! ## Any name -/

theorem put_of_mem (h : name ∈ settings.names) (t : Tree) : put name t settings = replace name t settings :=
  if_pos (isSome_lookup_iff.mpr h)

theorem put_of_notMem (h : name ∉ settings.names) (t : Tree) :
    put name t settings = insert name t settings :=
  if_neg fun hsome => h (isSome_lookup_iff.mp hsome)

theorem mem_names_put : n ∈ (put name t settings).names ↔ n = name ∨ n ∈ settings.names := by
  by_cases h : name ∈ settings.names
  · rw [put_of_mem h, names_replace]
    exact ⟨.inr, fun hn => hn.elim (fun heq => heq ▸ h) id⟩
  · rw [put_of_notMem h]
    exact ((perm_insert name t settings).map Prod.fst).mem_iff.trans List.mem_cons

theorem mem_of_mem_put {e : String × Tree} (he : e ∈ put name t settings) :
    e = (name, t) ∨ e ∈ settings := by
  by_cases h : name ∈ settings.names
  · rw [put_of_mem h] at he
    clear h
    induction settings with
    | nil => cases he
    | cons entry rest ih =>
      obtain ⟨key, old⟩ := entry
      rw [replace] at he
      split at he
      · rename_i hkey
        rcases List.mem_cons.mp he with rfl | he
        · exact .inl (congrArg (·, t) hkey)
        · exact .inr (List.mem_cons_of_mem _ he)
      · rcases List.mem_cons.mp he with rfl | he
        · exact .inr List.mem_cons_self
        · exact (ih he).imp_right (List.mem_cons_of_mem _)
  · rw [put_of_notMem h] at he
    exact List.mem_cons.mp ((perm_insert name t settings).mem_iff.mp he)

@[simp] theorem lookup_put_self : (put name t settings).lookup name = some t := by
  by_cases h : name ∈ settings.names
  · rw [put_of_mem h, lookup_replace_self h]
  · rw [put_of_notMem h, lookup_insert_self h]

theorem lookup_put_of_ne (h : n ≠ name) : (put name t settings).lookup n = settings.lookup n := by
  by_cases hmem : name ∈ settings.names
  · rw [put_of_mem hmem, lookup_replace_of_ne h]
  · rw [put_of_notMem hmem, lookup_insert_of_ne h]

@[simp] theorem put_put (name : String) (t u : Tree) (settings : Settings) :
    put name u (put name t settings) = put name u settings := by
  rw [put_of_mem (mem_names_put.mpr (.inl rfl))]
  by_cases h : name ∈ settings.names
  · rw [put_of_mem h, put_of_mem h, replace_replace]
  · rw [put_of_notMem h, put_of_notMem h, replace_insert_self h]

theorem put_comm (h : name ≠ other) (t u : Tree) (settings : Settings) :
    put other u (put name t settings) = put name t (put other u settings) := by
  have hkeep {a b : String} {v : Tree} (hne : a ≠ b) :
      a ∈ (put b v settings).names ↔ a ∈ settings.names :=
    mem_names_put.trans (or_iff_right hne)
  have hname := hkeep (v := u) h
  have hother := hkeep (v := t) (Ne.symm h)
  by_cases hn : name ∈ settings.names
  · by_cases ho : other ∈ settings.names
    · rw [put_of_mem (hother.mpr ho), put_of_mem (hname.mpr hn), put_of_mem hn, put_of_mem ho,
        replace_comm h]
    · rw [put_of_notMem (mt hother.mp ho), put_of_mem (hname.mpr hn), put_of_mem hn, put_of_notMem ho,
        replace_insert_comm (Ne.symm h)]
  · by_cases ho : other ∈ settings.names
    · rw [put_of_mem (hother.mpr ho), put_of_notMem (mt hname.mp hn), put_of_notMem hn, put_of_mem ho,
        replace_insert_comm h]
    · rw [put_of_notMem (mt hother.mp ho), put_of_notMem (mt hname.mp hn), put_of_notMem hn,
        put_of_notMem ho, insert_comm h]

/-! ## Many names -/

/-- Puts entries one after the other. -/
def putAll (entries : List (String × Tree)) (settings : Settings) : Settings :=
  entries.foldl (fun settings entry => put entry.1 entry.2 settings) settings

theorem putAll_cons (entry : String × Tree) (entries : List (String × Tree)) (settings : Settings) :
    putAll (entry :: entries) settings = putAll entries (put entry.1 entry.2 settings) := rfl

theorem putAll_append (entries more : List (String × Tree)) (settings : Settings) :
    putAll (entries ++ more) settings = putAll more (putAll entries settings) := List.foldl_append

theorem mem_of_mem_putAll {entries : List (String × Tree)} {e : String × Tree}
    (he : e ∈ putAll entries settings) : e ∈ settings ∨ e ∈ entries := by
  induction entries generalizing settings with
  | nil => exact .inl he
  | cons entry entries ih =>
    rcases ih he with he | he
    · exact (mem_of_mem_put he).elim (fun heq => .inr (heq ▸ List.mem_cons_self)) .inl
    · exact .inr (List.mem_cons_of_mem _ he)

/-- A name that no entry has may as well be put last. -/
theorem putAll_put {entries : List (String × Tree)} (h : ∀ e ∈ entries, e.1 ≠ name) (t : Tree)
    (settings : Settings) :
    putAll entries (put name t settings) = put name t (putAll entries settings) := by
  induction entries generalizing settings with
  | nil => rfl
  | cons entry entries ih =>
    obtain ⟨hentry, hentries⟩ := List.forall_mem_cons.mp h
    rw [putAll_cons, putAll_cons, put_comm (Ne.symm hentry), ih hentries]

theorem putAll_perm {entries entries' : List (String × Tree)} (hperm : entries.Perm entries')
    (h : ∀ e ∈ entries, ∀ e' ∈ entries, e = e' ∨ e.1 ≠ e'.1) (settings : Settings) :
    putAll entries settings = putAll entries' settings := by
  induction hperm generalizing settings with
  | nil => rfl
  | cons entry hperm ih =>
    exact ih (fun e he e' he' => h e (List.mem_cons_of_mem _ he) e' (List.mem_cons_of_mem _ he')) _
  | swap first second rest =>
    rcases h second List.mem_cons_self first (List.mem_cons_of_mem _ List.mem_cons_self) with rfl | hne
    · rfl
    · rw [putAll_cons, putAll_cons, putAll_cons, putAll_cons, put_comm hne]
  | trans hperm _ ih ih' =>
    have h' := fun e he e' he' => h e (hperm.mem_iff.mpr he) e' (hperm.mem_iff.mpr he')
    exact (ih h settings).trans (ih' h' settings)

theorem collect_eq_putAll (vars : List (String × String)) :
    collect vars = putAll (vars.filterMap ofVariable?) [] := rfl

/-- Each setting that is collected is that of a variable. -/
theorem mem_of_mem_collect {vars : List (String × String)} {e : String × Tree}
    (he : e ∈ collect vars) : e ∈ vars.filterMap ofVariable? :=
  (mem_of_mem_putAll he).resolve_left List.not_mem_nil

/-! ## Orders of entries -/

/-- Where names differ, a lookup finds the same in any order. -/
theorem lookup_of_perm {entries entries' : List (String × Tree)} (h : entries.Perm entries')
    (hdistinct : (entries.map Prod.fst).Nodup) (name : String) :
    entries.lookup name = entries'.lookup name := by
  induction h with
  | nil => rfl
  | cons entry h ih =>
    rw [List.lookup_cons, List.lookup_cons, ih (List.nodup_cons.mp hdistinct).2]
  | swap first second rest =>
    obtain ⟨hne, -⟩ := List.nodup_cons.mp hdistinct
    have hne : second.1 ≠ first.1 := fun heq => hne (heq ▸ List.mem_cons_self)
    rw [List.lookup_cons, List.lookup_cons, List.lookup_cons, List.lookup_cons]
    by_cases hfirst : name = first.1
    · have hsecond : (name == second.1) = false :=
        beq_eq_false_iff_ne.mpr fun heq => hne (heq.symm.trans hfirst)
      rw [hsecond, hfirst, beq_self_eq_true]
    · rw [beq_eq_false_iff_ne.mpr hfirst]
  | trans h _ ih ih' =>
    exact (ih hdistinct).trans (ih' ((h.map Prod.fst).nodup_iff.mp hdistinct))

end DeviceSleep.Settings
