import DeviceSleep.Files

/-! A file that has been written is found by the path it was written by. Where a path leads depends on
the directories on its way only, and a write keeps all directories that are there: it makes further ones,
and puts the file where no directory is. -/
namespace DeviceSleep
set_option autoImplicit false

variable {name part content : String} {names : List String}

/-! ## Directories -/

namespace Directory

variable {d d' : Directory} {entry : Entry}

theorem lookup_put_self (name : String) (entry : Entry) (d : Directory) :
    List.lookup name (put name entry d) = some entry := by
  induction d with
  | nil => exact List.lookup_cons_self
  | cons first d ih =>
    obtain ⟨key, e⟩ := first
    rw [put]
    split
    · rename_i hkey
      rw [hkey]
      exact List.lookup_cons_self
    · rename_i hkey
      rw [List.lookup_cons, beq_eq_false_iff_ne.mpr (Ne.symm hkey)]
      exact ih

theorem lookup_put_of_ne {other : String} (h : other ≠ name) (entry : Entry) (d : Directory) :
    List.lookup other (put name entry d) = List.lookup other d := by
  induction d with
  | nil =>
    rw [put, List.lookup_cons, beq_eq_false_iff_ne.mpr h]
  | cons first d ih =>
    obtain ⟨key, e⟩ := first
    rw [put]
    split
    · rename_i hkey
      rw [List.lookup_cons, List.lookup_cons, hkey, beq_eq_false_iff_ne.mpr h]
    · rw [List.lookup_cons, List.lookup_cons, ih]

theorem at?_append (names more : List String) (d : Directory) :
    at? (names ++ more) d = (at? names d).bind (at? more) := by
  induction names generalizing d with
  | nil => rfl
  | cons first rest ih =>
    rw [List.cons_append, at?, at?]
    split
    · exact ih _
    · rfl

theorem at?_put_self (name : String) (inner d : Directory) (names : List String) :
    at? (name :: names) (put name (.directory inner) d) = at? names inner := by
  rw [at?, lookup_put_self]

/-- Wherever there is a directory, there is one afterwards. -/
def Keeps (d d' : Directory) : Prop := ∀ names, (at? names d).isSome → (at? names d').isSome

theorem Keeps.refl (d : Directory) : d.Keeps d := fun _ h => h

theorem Keeps.put_directory {inner : Directory}
    (h : ∀ entries, List.lookup name d = some (.directory entries) → Keeps entries inner) :
    Keeps d (put name (.directory inner) d) := by
  intro names hnames
  cases names with
  | nil => rfl
  | cons first rest =>
    by_cases hfirst : first = name
    · subst hfirst
      rw [at?_put_self]
      rw [at?] at hnames
      split at hnames
      · rename_i entries hentries
        exact h entries hentries rest hnames
      · cases hnames
    · rw [at?, lookup_put_of_ne hfirst]
      exact hnames

/-- A change at a place keeps what it keeps there. -/
theorem keeps_inside {change : Directory → Option Directory}
    (hchange : ∀ d d', change d = some d' → Keeps d d') (h : inside change names d = some d') :
    Keeps d d' := by
  induction names generalizing d d' with
  | nil => exact hchange d d' h
  | cons first rest ih =>
    rw [inside] at h
    split at h
    · rename_i hnone
      obtain ⟨inner, -, rfl⟩ := Option.map_eq_some_iff.mp h
      refine Keeps.put_directory fun entries hentries => ?_
      rw [hnone] at hentries
      cases hentries
    · rename_i entries hsome
      obtain ⟨inner, hinner, rfl⟩ := Option.map_eq_some_iff.mp h
      refine Keeps.put_directory fun entries' hentries => ?_
      rw [hsome] at hentries
      cases hentries
      exact ih hinner
    · cases h

/-- What is changed is at the place afterwards. -/
theorem at?_inside {change : Directory → Option Directory} (h : inside change names d = some d') :
    ∃ before after, change before = some after ∧ at? names d' = some after := by
  induction names generalizing d d' with
  | nil => exact ⟨d, d', h, rfl⟩
  | cons first rest ih =>
    rw [inside] at h
    split at h
    · obtain ⟨inner, hinner, rfl⟩ := Option.map_eq_some_iff.mp h
      obtain ⟨before, after, hchange, hafter⟩ := ih hinner
      exact ⟨before, after, hchange, (at?_put_self first inner d rest).trans hafter⟩
    · obtain ⟨inner, hinner, rfl⟩ := Option.map_eq_some_iff.mp h
      obtain ⟨before, after, hchange, hafter⟩ := ih hinner
      exact ⟨before, after, hchange, (at?_put_self first inner d rest).trans hafter⟩
    · cases h

theorem addFile_eq_some (h : addFile name content d = some d') :
    Keeps d d' ∧ List.lookup name d' = some (.text content) := by
  rw [addFile] at h
  split at h
  · cases h
  · rename_i hfree
    cases h
    refine ⟨fun names hnames => ?_, lookup_put_self name _ d⟩
    cases names with
    | nil => rfl
    | cons first rest =>
      by_cases hfirst : first = name
      · subst hfirst
        rw [at?] at hnames
        split at hnames
        · rename_i entries hentries
          exact absurd hentries (hfree entries)
        · cases hnames
      · rw [at?, lookup_put_of_ne hfirst]
        exact hnames

end Directory

/-! ## Paths -/

namespace Path

variable {root made final : Directory} {place place' parts : List String}

theorem keeps_some {d d' : Directory} (h : some d = some d') : d.Keeps d' := by
  cases h
  exact Directory.Keeps.refl d

theorem keeps_enter (h : enter parts place root = some (place', made)) : root.Keeps made := by
  induction parts generalizing place root with
  | nil =>
    cases h
    exact Directory.Keeps.refl _
  | cons part rest ih =>
    rw [enter] at h
    split at h
    · exact ih h
    · split at h
      · exact ih h
      · obtain ⟨next, hnext, h⟩ := Option.bind_eq_some_iff.mp h
        have hkeeps := Directory.keeps_inside (fun _ _ => keeps_some) hnext
        exact fun names hnames => ih h names (hkeeps names hnames)

/-- A directory below is entered. -/
theorem follow_directory (hidle : ¬ isIdle part = true) (hup : part ≠ "..")
    (h : (Directory.at? (place ++ [part]) root).isSome) (rest : List String) :
    follow root (part :: rest) place = follow root rest (place ++ [part]) := by
  rw [Directory.at?_append] at h
  rw [follow, if_neg hidle, if_neg hup]
  cases hhere : Directory.at? place root with
  | none =>
    rw [hhere] at h
    cases h
  | some here =>
    rw [hhere, Option.bind_some, Directory.at?] at h
    rw [Option.bind_some]
    split at h
    · rename_i entries hentries
      rw [hentries]
    · cases h

/-- Where a path was entered, it leads, when all directories on its way are still there. -/
theorem follow_enter (h : enter parts place root = some (place', made)) (hkeeps : made.Keeps final)
    (rest : List String) : follow final (parts ++ rest) place = follow final rest place' := by
  induction parts generalizing place root with
  | nil =>
    cases h
    rfl
  | cons part parts ih =>
    rw [enter] at h
    split at h
    · rename_i hidle
      rw [List.cons_append, follow, if_pos hidle]
      exact ih h
    · rename_i hidle
      split at h
      · rename_i hup
        rw [List.cons_append, follow, if_neg hidle, if_pos hup]
        exact ih h
      · rename_i hup
        obtain ⟨next, hnext, h⟩ := Option.bind_eq_some_iff.mp h
        obtain ⟨_, here, -, hhere⟩ := Directory.at?_inside hnext
        have hmade := keeps_enter h _ (Option.isSome_iff_exists.mpr ⟨here, hhere⟩)
        rw [List.cons_append, follow_directory hidle hup (hkeeps _ hmade)]
        exact ih h

end Path

/-! ## Files -/

namespace Surroundings

variable {files after : Surroundings} {path : String} {place : List String}

/-- A path begins where it began, as long as no directory is lost. -/
theorem start_of_keeps {root : Directory} (h : files.start path = some place)
    (hkeeps : files.root.Keeps root) : start ⟨root, files.work⟩ path = some place := by
  rw [start] at h ⊢
  split at h
  · rename_i habsolute
    rw [if_pos habsolute]
    exact h
  · rename_i hrelative
    obtain ⟨here, hhere, rfl⟩ := Option.map_eq_some_iff.mp h
    obtain ⟨here', hhere'⟩ :=
      Option.isSome_iff_exists.mp (hkeeps files.work (Option.isSome_iff_exists.mpr ⟨here, hhere⟩))
    rw [if_neg hrelative]
    exact Option.map_eq_some_iff.mpr ⟨here', hhere', rfl⟩

/-- The file is found that was written. -/
theorem lookup_write (h : files.write path content = some after) :
    after.lookup path = .text content := by
  rw [write, Option.ite_none_right_eq_some] at h
  obtain ⟨hsound, h⟩ := h
  split at h
  · cases h
  · rename_i name outer hparts
    rw [Option.ite_none_left_eq_some] at h
    obtain ⟨hname, h⟩ := h
    obtain ⟨first, hstart, h⟩ := Option.bind_eq_some_iff.mp h
    obtain ⟨⟨place, made⟩, henter, h⟩ := Option.bind_eq_some_iff.mp h
    obtain ⟨root, hroot, h⟩ := Option.bind_eq_some_iff.mp h
    cases h
    have hkeeps : made.Keeps root :=
      Directory.keeps_inside (fun d d' hadd => (Directory.addFile_eq_some hadd).1) hroot
    have hstart' := start_of_keeps hstart
      fun names hnames => hkeeps names (Path.keeps_enter henter names hnames)
    obtain ⟨_, here, hadd, hhere⟩ := Directory.at?_inside hroot
    obtain ⟨hidle, hup⟩ : ¬ Path.isIdle name = true ∧ name ≠ ".." := by
      simpa using hname
    have hpath : Path.parts path = outer.reverse ++ [name] := by
      rw [← List.reverse_reverse (Path.parts path), hparts, List.reverse_cons]
    rw [lookup, if_pos hsound, hstart', Option.elim_some, hpath, Path.follow_enter henter hkeeps,
      Path.follow, if_neg hidle, if_neg hup, hhere, Option.bind_some,
      (Directory.addFile_eq_some hadd).2]
    rfl

end Surroundings

end DeviceSleep
