import DeviceSleep.Proofs.Config.Altering

/-! What stands under an outermost name when places have been set. A place belongs to one outermost name,
and what setting it makes of this name depends on nothing but what stood there. So any number of places
can be set exactly if those of each name can, and each name then holds what its own places made of it. A
place further down leaves a table or a list under its name, which no text can be read from. -/
namespace DeviceSleep.Settings
set_option autoImplicit false

variable {settings settings' : Settings} {places more : List (KeyPath × Tree)} {name n : String}
  {value t : Tree} {old after : Option Tree}

/-! ## One place -/

/-- What setting a place makes of what stands under its outermost name. -/
def outcome (value : Tree) (steps : List Step) (old : Option Tree) : Except Breakdown Tree :=
  alter (lay value steps) steps old

theorem lay_child (value : Tree) (name : String) (steps : List Step) :
    lay value (.child name :: steps) = lay value steps := by
  cases steps with
  | nil => rfl
  | cons step steps => exact lay_cons value (.child name) step steps

theorem set_eq {path : KeyPath} (hpath : path.InLowercase) (value : Tree) (settings : Settings) :
    settings.set path value = (outcome value path.steps (settings.lookup path.name)).map
      fun t => put path.name t settings := by
  rw [set_eq_alter hpath, KeyPath.route, lay_child, alter, outcome]
  dsimp only [Option.getD_some, entriesOf_table]
  cases alter (lay value path.steps) path.steps (settings.lookup path.name) <;> rfl

def isBranch : Tree → Bool
  | .table _ => true
  | .list _ => true
  | _ => false

theorem isBranch_of_outcome {steps : List Step} (hsteps : steps ≠ [])
    (h : outcome value steps old = .ok t) : isBranch t = true := by
  cases steps with
  | nil => exact absurd rfl hsteps
  | cons step steps =>
    cases step with
    | child name =>
      obtain ⟨inner, -, rfl⟩ := alter_child_eq_ok_iff.mp h
      rfl
    | index index =>
      obtain ⟨n, inner, -, -, rfl⟩ := alter_index_eq_ok_iff.mp h
      rfl

/-! ## Many places -/

/-- What places, one after the other, make of what stands under a name. -/
def outcomes (n : String) : List (KeyPath × Tree) → Option Tree → Except Breakdown (Option Tree)
  | [], old => .ok old
  | (path, value) :: rest, old =>
    if path.name = n then (outcome value path.steps old).bind fun t => outcomes n rest (some t)
    else outcomes n rest old

theorem outcomes_cons_of_eq {path : KeyPath} (h : path.name = n) :
    outcomes n ((path, value) :: places) old =
      (outcome value path.steps old).bind fun t => outcomes n places (some t) := if_pos h

theorem outcomes_cons_of_ne {path : KeyPath} (h : path.name ≠ n) :
    outcomes n ((path, value) :: places) old = outcomes n places old := if_neg h

theorem outcomes_append (places more : List (KeyPath × Tree)) (old : Option Tree) :
    outcomes n (places ++ more) old =
      (outcomes n places old).bind fun between => outcomes n more between := by
  induction places generalizing old with
  | nil => rfl
  | cons place places ih =>
    obtain ⟨path, value⟩ := place
    rw [List.cons_append]
    by_cases hpath : path.name = n
    · rw [outcomes_cons_of_eq hpath, outcomes_cons_of_eq hpath]
      cases outcome value path.steps old with
      | error cause => rfl
      | ok t => exact ih (some t)
    · rw [outcomes_cons_of_ne hpath, outcomes_cons_of_ne hpath, ih]

theorem outcomes_append_of_ok (h : outcomes n places old = .ok after) :
    outcomes n (places ++ more) old = outcomes n more after := by
  rw [outcomes_append, h]
  rfl

theorem outcomes_of_absent (h : ∀ place ∈ places, place.1.name ≠ n) :
    outcomes n places old = .ok old := by
  induction places with
  | nil => rfl
  | cons place places ih =>
    obtain ⟨hplace, hplaces⟩ := List.forall_mem_cons.mp h
    rw [outcomes_cons_of_ne hplace, ih hplaces]

/-- Once a place further down has been set, a table or a list stands under its name. -/
theorem isBranch_of_outcomes (hsteps : ∀ place ∈ places, place.1.name = n → place.1.steps ≠ [])
    (hold : ∃ t, old = some t ∧ isBranch t = true) (h : outcomes n places old = .ok after) :
    ∃ t, after = some t ∧ isBranch t = true := by
  induction places generalizing old with
  | nil =>
    cases h
    exact hold
  | cons place places ih =>
    obtain ⟨path, value⟩ := place
    obtain ⟨hplace, hplaces⟩ := List.forall_mem_cons.mp hsteps
    by_cases hpath : path.name = n
    · rw [outcomes_cons_of_eq hpath] at h
      obtain ⟨t, hfirst, h⟩ := exists_of_bind_eq_ok h
      exact ih hplaces ⟨t, rfl, isBranch_of_outcome (hplace hpath) hfirst⟩ h
    · rw [outcomes_cons_of_ne hpath] at h
      exact ih hplaces hold h

theorem absent_or_isBranch (hsteps : ∀ place ∈ places, place.1.name = n → place.1.steps ≠ [])
    (h : outcomes n places old = .ok after) :
    (∀ place ∈ places, place.1.name ≠ n) ∨ ∃ t, after = some t ∧ isBranch t = true := by
  induction places generalizing old with
  | nil => exact .inl fun place hplace => absurd hplace List.not_mem_nil
  | cons place places ih =>
    obtain ⟨path, value⟩ := place
    obtain ⟨hplace, hplaces⟩ := List.forall_mem_cons.mp hsteps
    by_cases hpath : path.name = n
    · rw [outcomes_cons_of_eq hpath] at h
      obtain ⟨t, hfirst, h⟩ := exists_of_bind_eq_ok h
      have hbranch := isBranch_of_outcome (hplace hpath) hfirst
      exact .inr (isBranch_of_outcomes hplaces ⟨t, rfl, hbranch⟩ h)
    · rw [outcomes_cons_of_ne hpath] at h
      rcases ih hplaces h with habsent | hbranch
      · exact .inl (List.forall_mem_cons.mpr ⟨hpath, habsent⟩)
      · exact .inr hbranch

/-! ## Settings name by name -/

theorem setAll_cons {path : KeyPath} (hpath : path.InLowercase) :
    setAll ((path, value) :: places) settings =
      (outcome value path.steps (settings.lookup path.name)).bind
        fun t => setAll places (put path.name t settings) := by
  rw [setAll, set_eq hpath]
  cases outcome value path.steps (settings.lookup path.name) <;> rfl

theorem outcomes_put {path : KeyPath} (hfirst : outcome value path.steps (settings.lookup path.name) = .ok t) :
    outcomes n ((path, value) :: places) (settings.lookup n) =
      outcomes n places ((put path.name t settings).lookup n) := by
  by_cases hpath : path.name = n
  · subst hpath
    rw [outcomes_cons_of_eq rfl, hfirst, lookup_put_self]
    rfl
  · rw [outcomes_cons_of_ne hpath, lookup_put_of_ne (Ne.symm hpath)]

/-- Each name holds what its own places made of it. -/
theorem outcomes_of_setAll (hpaths : ∀ place ∈ places, place.1.InLowercase)
    (h : setAll places settings = .ok settings') (n : String) :
    outcomes n places (settings.lookup n) = .ok (settings'.lookup n) := by
  induction places generalizing settings with
  | nil =>
    cases h
    rfl
  | cons place places ih =>
    obtain ⟨path, value⟩ := place
    obtain ⟨hpath, hmore⟩ := List.forall_mem_cons.mp hpaths
    rw [setAll_cons hpath] at h
    obtain ⟨t, hfirst, h⟩ := exists_of_bind_eq_ok h
    rw [outcomes_put hfirst]
    exact ih hmore h

/-- Places can be set if those of each name can. -/
theorem exists_setAll (hpaths : ∀ place ∈ places, place.1.InLowercase)
    (h : ∀ n, ∃ after, outcomes n places (settings.lookup n) = .ok after) :
    ∃ settings', setAll places settings = .ok settings' := by
  induction places generalizing settings with
  | nil => exact ⟨settings, rfl⟩
  | cons place places ih =>
    obtain ⟨path, value⟩ := place
    obtain ⟨hpath, hmore⟩ := List.forall_mem_cons.mp hpaths
    obtain ⟨after, hafter⟩ := h path.name
    rw [outcomes_cons_of_eq rfl] at hafter
    obtain ⟨t, hfirst, -⟩ := exists_of_bind_eq_ok hafter
    rw [setAll_cons hpath, hfirst]
    refine ih hmore fun n => ?_
    rw [← outcomes_put hfirst]
    exact h n

end DeviceSleep.Settings
