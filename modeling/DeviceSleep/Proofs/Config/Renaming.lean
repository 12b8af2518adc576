import DeviceSleep.Proofs.Config.Names
import Mathlib.Data.List.Nodup
import Mathlib.Data.List.Perm.Basic

/-! Profiles under lowercase names. Where no two names are the same in lowercase, each profile moves to
the lowercase form of its name, and none is lost: what comes out is, up to order, what went in, and the
order is given by the names. Where two are the same, the first name is refused that is so far into the
list that an earlier one is the same. -/
namespace DeviceSleep
set_option autoImplicit false

namespace Profiles

variable {ps qs done : Profiles} {name n : String} {p : Profile}

/-- The profiles under the lowercase forms of their names. -/
def renamed (ps : Profiles) : Profiles := ps.map fun entry => (Text.lower entry.1, entry.2)

theorem names_renamed (ps : Profiles) : ps.renamed.names = ps.names.map Text.lower := by
  rw [names, renamed, List.map_map, names, List.map_map]
  rfl

theorem mem_renamed (h : (name, p) ∈ ps) : (Text.lower name, p) ∈ ps.renamed :=
  List.mem_map.mpr ⟨(name, p), h, rfl⟩

theorem lookup_of_mem (hnodup : ps.names.Nodup) (h : (name, p) ∈ ps) : ps.lookup name = some p := by
  obtain ⟨before, after, rfl⟩ := List.append_of_mem h
  refine List.lookup_eq_some_iff.mpr ⟨before, after, rfl, ?_⟩
  intro entry hentry
  rw [names, List.map_append, List.map_cons] at hnodup
  have hdisjoint := (List.nodup_append.mp hnodup).2.2
  exact bne_iff_ne.mpr (hdisjoint _ (List.mem_map_of_mem hentry) _ List.mem_cons_self).symm

theorem mem_of_lookup (h : ps.lookup name = some p) : (name, p) ∈ ps := by
  obtain ⟨before, after, rfl, -⟩ := List.lookup_eq_some_iff.mp h
  exact List.mem_append_right _ List.mem_cons_self

theorem lookup_of_notMem (h : name ∉ ps.names) : ps.lookup name = none := by
  rw [← Option.not_isSome_iff_eq_none, isSome_lookup_iff]
  exact h

/-- Names in order leave only one order of the profiles. -/
theorem Sorted.eq_of_perm (hps : ps.Sorted) (hqs : qs.Sorted) (h : ps.Perm qs) : ps = qs := by
  have hps' : ps.Pairwise fun a b => a.1 < b.1 := List.pairwise_map.mp hps
  refine List.Perm.eq_of_pairwise ?_ hps' (List.pairwise_map.mp hqs) h
  intro a b _ _ hab hba
  exact absurd (String.lt_trans hab hba) (String.lt_irrefl a.1)

/-! ## Insertion -/

theorem perm_insert (h : name ∉ ps.names) : (insert name p ps).Perm ((name, p) :: ps) := by
  induction ps with
  | nil => exact List.Perm.refl _
  | cons entry ps ih =>
    obtain ⟨key, q⟩ := entry
    rw [names_cons, List.mem_cons, not_or] at h
    rw [insert, if_neg h.1]
    split
    · exact List.Perm.refl _
    · exact ((ih h.2).cons _).trans (List.Perm.swap _ _ _)

theorem perm_foldl_insert {entries : List (String × Profile)}
    (hentries : (entries.map Prod.fst).Nodup) (hfresh : ∀ m ∈ entries.map Prod.fst, m ∉ ps.names) :
    (entries.foldl (fun profiles entry => Profiles.insert entry.1 entry.2 profiles) ps).Perm
      (ps ++ entries) := by
  induction entries generalizing ps with
  | nil =>
    rw [List.append_nil]
    exact List.Perm.refl _
  | cons entry entries ih =>
    obtain ⟨hnew, hrest⟩ := List.nodup_cons.mp hentries
    have hentry := perm_insert (p := entry.2) (hfresh entry.1 List.mem_cons_self)
    refine (ih hrest ?_).trans ((hentry.append_right entries).trans List.perm_middle.symm)
    intro m hm hmem
    rcases mem_names_insert.mp hmem with rfl | hmem
    · exact hnew hm
    · exact hfresh m (List.mem_cons_of_mem _ hm) hmem

theorem perm_ofList {entries : List (String × Profile)} (h : (entries.map Prod.fst).Nodup) :
    (ofList entries).Perm entries :=
  perm_foldl_insert h fun _ _ => List.not_mem_nil

/-! ## Lowercase names -/

theorem perm_lowered {after : Profiles} (h : lowered done ps = .ok after) :
    after.Perm (done ++ ps.renamed) := by
  induction ps generalizing done with
  | nil =>
    cases h
    rw [renamed, List.map_nil, List.append_nil]
  | cons entry ps ih =>
    obtain ⟨key, q⟩ := entry
    rw [lowered] at h
    simp only [isSome_lookup_iff] at h
    split at h
    · cases h
    · rename_i hfree
      exact (ih h).trans (((perm_insert hfree).append_right _).trans List.perm_middle.symm)

/-- Profiles that have lowercase names stay as they are. -/
theorem Sorted.lowered_eq_self (hps : ps.Sorted) (hlower : ∀ m ∈ ps.names, Text.lower m = m) :
    Profiles.lowered [] ps = .ok ps := by
  have hnames : ps.names.map Text.lower = ps.names := (List.map_congr_left hlower).trans (List.map_id _)
  have hnodup : (ps.names.map Text.lower).Nodup := by
    rw [hnames]
    exact hps.nodup
  have hrenamed : ps.renamed = ps := by
    refine (List.map_congr_left fun entry hentry => ?_).trans (List.map_id ps)
    rw [hlower entry.1 (List.mem_map_of_mem hentry)]
    rfl
  have hfresh : ∀ m ∈ ps.names, Text.lower m ∉ names [] := fun _ _ => List.not_mem_nil
  obtain ⟨after, hafter⟩ := lowered_eq_ok_iff.mpr ⟨hnodup, hfresh⟩
  have hperm := perm_lowered hafter
  rw [hrenamed] at hperm
  rw [hafter, (sorted_nil.lowered hafter).eq_of_perm hps hperm]

/-! ## Repeated names -/

/-- Another name before this one is the same in lowercase. -/
def Repeats (ps : Profiles) (n : String) : Prop :=
  n ∈ ps.names ∧ ∃ m ∈ ps.names, m < n ∧ Text.lower m = Text.lower n

/-- Up to the name that is refused, all names differ in lowercase. -/
theorem exists_of_lowered_eq_error {problem : Problem} (h : lowered done ps = .error problem) :
    ∃ (before : Profiles) (n : String) (p : Profile) (after : Profiles),
      ps = before ++ (n, p) :: after ∧ problem = .repeatedProfile n ∧
      (before.names.map Text.lower).Nodup ∧ (∀ m ∈ before.names, Text.lower m ∉ done.names) ∧
      (Text.lower n ∈ done.names ∨ Text.lower n ∈ before.names.map Text.lower) := by
  induction ps generalizing done with
  | nil => cases h
  | cons entry ps ih =>
    obtain ⟨key, q⟩ := entry
    rw [lowered] at h
    simp only [isSome_lookup_iff] at h
    split at h
    · rename_i htaken
      cases h
      exact ⟨[], key, q, ps, rfl, rfl, List.nodup_nil, fun _ hm => absurd hm List.not_mem_nil,
        .inl htaken⟩
    · rename_i hfree
      obtain ⟨before, n, p, after, rfl, hproblem, hnodup, hfresh, hsame⟩ := ih h
      simp only [mem_names_insert, not_or] at hfresh hsame
      refine ⟨(key, q) :: before, n, p, after, rfl, hproblem, ?_, ?_, ?_⟩
      · refine List.nodup_cons.mpr ⟨fun hmem => ?_, hnodup⟩
        obtain ⟨m, hm, heq⟩ := List.mem_map.mp hmem
        exact (hfresh m hm).1 heq
      · intro m hm
        rcases List.mem_cons.mp hm with rfl | hm
        · exact hfree
        · exact (hfresh m hm).2
      · rw [names_cons, List.map_cons, List.mem_cons]
        rcases hsame with (heq | hdone) | hbefore
        · exact .inr (.inl heq)
        · exact .inl hdone
        · exact .inr (.inr hbefore)

/-- The name that is refused is the first that repeats an earlier one. -/
theorem Sorted.first_repeat (hps : ps.Sorted) {problem : Problem}
    (h : Profiles.lowered [] ps = .error problem) :
    ∃ n, problem = .repeatedProfile n ∧ ps.Repeats n ∧ ∀ m, ps.Repeats m → n ≤ m := by
  obtain ⟨before, n, p, after, rfl, hproblem, hnodup, -, hsame⟩ := exists_of_lowered_eq_error h
  have hnames : names (before ++ (n, p) :: after) = before.names ++ n :: after.names := by
    rw [names, List.map_append]
    rfl
  rw [Sorted, hnames, List.pairwise_append] at hps
  obtain ⟨-, hrest, hbefore⟩ := hps
  have hlt : ∀ m ∈ before.names, m < n := fun m hm => hbefore m hm n List.mem_cons_self
  have hle : ∀ m ∈ n :: after.names, n ≤ m := by
    intro m hm
    rcases List.mem_cons.mp hm with rfl | hm
    · exact String.le_refl m
    · exact Std.le_of_lt ((List.pairwise_cons.mp hrest).1 m hm)
  -- The names up to the refused one differ in lowercase, so none of them repeats another.
  obtain ⟨m, hm, heq⟩ := List.mem_map.mp (hsame.resolve_left List.not_mem_nil)
  refine ⟨n, hproblem, ⟨?_, m, ?_, hlt m hm, heq⟩, ?_⟩
  · rw [hnames]
    exact List.mem_append_right _ List.mem_cons_self
  · rw [hnames]
    exact List.mem_append_left _ hm
  · rintro k ⟨hk, j, hj, hjk, hjkeq⟩
    rw [hnames, List.mem_append] at hk hj
    rcases hk with hk | hk
    · -- A repetition before the refused name would have been refused first.
      have hj : j ∈ before.names := by
        refine hj.resolve_right fun hj => ?_
        have hkj := String.lt_trans (hlt k hk) (Std.lt_of_le_of_lt (hle j hj) hjk)
        exact String.lt_irrefl k hkj
      obtain rfl := List.inj_on_of_nodup_map hnodup hj hk hjkeq
      exact absurd hjk (String.lt_irrefl j)
    · exact hle k hk

end Profiles

end DeviceSleep
