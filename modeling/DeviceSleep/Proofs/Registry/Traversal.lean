import DeviceSleep.Builder
import DeviceSleep.Proofs.Registry.KeyedMap

/-! Going through the records of one kind, each found from the one before. A record's number says how
many are older, so the search behind it goes on where the last one ended: whoever follows the numbers
meets the records of the kind in order, each once (`featured_sources`). -/
namespace DeviceSleep
set_option autoImplicit false

namespace Registry

variable {r : Registry} {kind : Kind}

/-- Behind the number of a record that has been found are the records that are older. -/
theorem olderThan_of_suffix {s : Source} {older : List Source} (h : s :: older <:+ r.sources) :
    r.olderThan ⟨older.length⟩ = older := by
  obtain ⟨newer, hnewer⟩ := h
  have hsize : r.size = newer.length + (older.length + 1) := by
    rw [size, ← hnewer, List.length_append, List.length_cons]
  have hskip : r.size - older.length = newer.length + 1 := by omega
  show r.sources.drop (r.size - older.length) = older
  rw [hskip, ← hnewer, List.append_cons]
  exact List.drop_left' (by simp)

theorem findAfter_of_suffix {s : Source} {older : List Source} (h : s :: older <:+ r.sources)
    (kind : Kind) : r.findAfter kind ⟨older.length⟩ = newest kind older := by
  rw [findAfter, olderThan_of_suffix h]

/-- The records of a kind in a list, with their numbers. -/
def hits (kind : Kind) : List Source → List (SourceId × Source)
  | [] => []
  | s :: older => if s.kind = kind then (⟨older.length⟩, s) :: hits kind older else hits kind older

theorem newest_eq_head? (kind : Kind) (l : List Source) : newest kind l = (hits kind l).head? := by
  induction l with
  | nil => rfl
  | cons s older ih =>
    rw [newest, hits]
    split
    · rfl
    · exact ih

theorem map_snd_hits (kind : Kind) (l : List Source) :
    (hits kind l).map Prod.snd = l.filter fun s => s.kind = kind := by
  induction l with
  | nil => rfl
  | cons s older ih =>
    by_cases hs : s.kind = kind
    · rw [hits, if_pos hs, List.map_cons, ih, List.filter_cons_of_pos (by simpa using hs)]
    · rw [hits, if_neg hs, ih, List.filter_cons_of_neg (by simpa using hs)]

theorem findAfter_eq_head? (r : Registry) (kind : Kind) (id : SourceId) :
    r.findAfter kind id = (hits kind (r.olderThan id)).head? :=
  newest_eq_head? kind _

theorem position_lt_of_mem_hits {l : List Source} {hit : SourceId × Source}
    (h : hit ∈ hits kind l) : hit.1.position < l.length := by
  induction l with
  | nil => cases h
  | cons s older ih =>
    rw [hits] at h
    rw [List.length_cons]
    split at h
    · rcases List.mem_cons.mp h with rfl | h
      · exact Nat.lt_succ_self _
      · exact Nat.lt_succ_of_lt (ih h)
    · exact Nat.lt_succ_of_lt (ih h)

theorem hits_decreasing (kind : Kind) (l : List Source) :
    ((hits kind l).map fun hit => hit.1.position).Pairwise (· > ·) := by
  induction l with
  | nil => exact List.Pairwise.nil
  | cons s older ih =>
    rw [hits]
    split
    · refine List.pairwise_cons.mpr ⟨?_, ih⟩
      intro position hposition
      obtain ⟨hit, hhit, rfl⟩ := List.mem_map.mp hposition
      exact position_lt_of_mem_hits hhit
    · exact ih

/-- A number counts the records from the oldest one. -/
theorem getElem?_of_mem_hits {l : List Source} {hit : SourceId × Source} (h : hit ∈ hits kind l) :
    l.reverse[hit.1.position]? = some hit.2 := by
  induction l with
  | nil => cases h
  | cons s older ih =>
    rw [hits] at h
    rw [List.reverse_cons]
    have hold : hit ∈ hits kind older → (older.reverse ++ [s])[hit.1.position]? = some hit.2 := by
      intro hmem
      rw [List.getElem?_append_left (by simpa using position_lt_of_mem_hits hmem)]
      exact ih hmem
    split at h
    · rcases List.mem_cons.mp h with rfl | h
      · rw [List.getElem?_append_right (by simp)]
        simp
      · exact hold h
    · exact hold h

/-- Behind the number of a hit are the hits that follow it. -/
theorem hits_olderThan {l : List Source} (hl : l <:+ r.sources) {n : Nat} {hit : SourceId × Source}
    (h : (hits kind l)[n]? = some hit) :
    hits kind (r.olderThan hit.1) = (hits kind l).drop (n + 1) := by
  induction l generalizing n with
  | nil => cases h
  | cons s older ih =>
    have holder : older <:+ r.sources := (List.suffix_cons s older).trans hl
    rw [hits] at h ⊢
    split at h
    · rename_i hs
      rw [if_pos hs, List.drop_succ_cons]
      cases n with
      | zero =>
        cases h
        rw [olderThan_of_suffix hl, List.drop_zero]
      | succ n => exact ih holder h
    · rename_i hs
      rw [if_neg hs]
      exact ih holder h

/-- The answer to each of the calls of a search: the first one asks for the newest record of the kind,
and every further one for the next behind the last answer. -/
def nthHit (r : Registry) (kind : Kind) : Nat → Option (SourceId × Source)
  | 0 => r.find kind
  | n + 1 => (nthHit r kind n).bind fun hit => r.findAfter kind hit.1

theorem nthHit_eq_getElem? (r : Registry) (kind : Kind) (n : Nat) :
    r.nthHit kind n = (hits kind r.sources)[n]? := by
  induction n with
  | zero => rw [nthHit, find, newest_eq_head?, List.head?_eq_getElem?]
  | succ n ih =>
    rw [nthHit, ih]
    cases hn : (hits kind r.sources)[n]? with
    | none =>
      rw [Option.bind_none, List.getElem?_eq_none]
      exact Nat.le_succ_of_le (List.getElem?_eq_none_iff.mp hn)
    | some hit =>
      rw [Option.bind_some, findAfter_eq_head?, hits_olderThan (List.suffix_refl _) hn,
        List.head?_drop]

/-- From the newest record of the kind in some part of the list on, all of the kind are met. -/
theorem follow_newest {l : List Source} (hl : l <:+ r.sources) {steps : Nat}
    (hsteps : l.length ≤ steps) : r.follow kind steps (newest kind l) = hits kind l := by
  induction l generalizing steps with
  | nil => cases steps <;> rfl
  | cons s older ih =>
    have holder : older <:+ r.sources := (List.suffix_cons s older).trans hl
    rw [List.length_cons] at hsteps
    by_cases hs : s.kind = kind
    · obtain ⟨rest, rfl⟩ : ∃ rest, steps = rest + 1 := ⟨steps - 1, by omega⟩
      rw [newest, if_pos hs, hits, if_pos hs, follow, findAfter_of_suffix hl,
        ih holder (by omega)]
    · rw [newest, if_neg hs, hits, if_neg hs]
      exact ih holder (by omega)

theorem featured_eq_hits (r : Registry) (kind : Kind) : r.featured kind = hits kind r.sources :=
  follow_newest (List.suffix_refl _) (Nat.le_refl _)

/-- Following the numbers, one meets the records of a kind in order. -/
theorem featured_sources (r : Registry) (kind : Kind) :
    (r.featured kind).map Prod.snd = r.sources.filter fun s => s.kind = kind := by
  rw [featured_eq_hits, map_snd_hits]

end Registry

namespace Descriptor

variable {d : Descriptor}

/-- Traffic on an interface ends the sleep if there is a record of the interface. -/
theorem wakesOn_iff (h : d.sources.Sound) (i : Interface) :
    d.wakesOn i = true ↔ .network i ∈ d.sources.payloads := by
  have hany : d.wakesOn i =
      ((d.sources.featured .network).map Prod.snd).any fun s => s.payload == .network i := by
    rw [wakesOn, List.any_map]
    rfl
  rw [hany, Registry.featured_sources, List.any_eq_true, Registry.payloads, List.mem_map]
  constructor
  · rintro ⟨s, hs, hpayload⟩
    exact ⟨s, List.mem_of_mem_filter hs, eq_of_beq hpayload⟩
  · rintro ⟨s, hs, hpayload⟩
    have hkind : s.kind = .network := by
      rw [Source.kind, h.stamped s hs, hpayload]
      rfl
    exact ⟨s, List.mem_filter.mpr ⟨hs, by simpa using hkind⟩, beq_iff_eq.mpr hpayload⟩

theorem cloudMustPersist_iff (h : d.sources.Sound) (has : Capabilities) :
    d.cloudMustPersist has = true ↔
      ∀ i ∈ Interface.compiledIn has, .network i ∉ d.sources.payloads := by
  rw [cloudMustPersist, Bool.not_eq_true', List.any_eq_false]
  simp only [wakesOn_iff h]

end Descriptor

end DeviceSleep
