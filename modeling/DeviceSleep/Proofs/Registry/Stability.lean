import DeviceSleep.Proofs.Registry.History
import DeviceSleep.Proofs.Registry.Traversal

/-! Numbers of records stay good. Insertions put new records in front and amend old ones in place, so
behind the new records the old ones stand as before: under their numbers, with their kinds and keys.
A search that is interrupted by insertions therefore meets what it would have met without them. A
search starts at a position that is never behind the newest record, whatever number it is given. -/
namespace DeviceSleep
set_option autoImplicit false

/-- What insertions leave of a record as it is. -/
def Source.stamp (s : Source) : Kind × Key := (s.kind, s.key)

namespace Registry

variable {r r' r'' : Registry} {kind : Kind} {id : SourceId}

/-- What is told of a hit: its number and the key of its record. -/
def mark (hit : SourceId × Source) : SourceId × Key := (hit.1, hit.2.key)

/-- A number that a search in the registry gives. -/
inductive Gives (r : Registry) : SourceId → Prop where
  | head {id : SourceId} {s : Source} : r.head = some (id, s) → Gives r id
  | find {kind : Kind} {id : SourceId} {s : Source} : r.find kind = some (id, s) → Gives r id
  | findAfter {kind : Kind} {start id : SourceId} {s : Source} :
    r.findAfter kind start = some (id, s) → Gives r id

/-! ## Numbers that are given -/

theorem length_olderThan (r : Registry) (id : SourceId) :
    (r.olderThan id).length = min id.position r.size := by
  rw [olderThan, List.length_drop, ← size]
  omega

theorem olderThan_suffix (r : Registry) (id : SourceId) : r.olderThan id <:+ r.sources :=
  List.drop_suffix _ _

/-- After the first hit behind a number come those that are behind the hit. -/
theorem hits_of_cons {hit : SourceId × Source} {rest : List (SourceId × Source)}
    (h : hits kind (r.olderThan id) = hit :: rest) :
    hits kind (r.olderThan hit.1) = rest ∧ hit.1.position < r.size := by
  have hfirst : (hits kind (r.olderThan id))[0]? = some hit := by
    rw [h]
    rfl
  have hlt := position_lt_of_mem_hits (List.mem_of_getElem? hfirst)
  rw [length_olderThan] at hlt
  refine ⟨?_, by omega⟩
  rw [hits_olderThan (r.olderThan_suffix id) hfirst, h]
  rfl

/-- A search finds nothing at the number it starts from, nor before it. -/
theorem position_lt_of_findAfter {next : SourceId} {s : Source}
    (h : r.findAfter kind id = some (next, s)) :
    next.position < id.position ∧ next.position < r.size := by
  rw [findAfter_eq_head?] at h
  have hlt : next.position < (r.olderThan id).length :=
    position_lt_of_mem_hits (List.mem_of_mem_head? h)
  rw [length_olderThan] at hlt
  omega

theorem Gives.position_lt (h : r.Gives id) : id.position < r.size := by
  cases h with
  | head h =>
    obtain ⟨sources⟩ := r
    cases sources with
    | nil => cases h
    | cons s older =>
      cases h
      exact Nat.lt_succ_self _
  | find h =>
    rw [Registry.find, newest_eq_head?] at h
    exact position_lt_of_mem_hits (List.mem_of_mem_head? h)
  | findAfter h => exact (position_lt_of_findAfter h).2

theorem exists_get? (h : id.position < r.size) : ∃ s, r.get? id = some s := by
  refine ⟨_, List.getElem?_eq_getElem ?_⟩
  rw [List.length_reverse]
  exact h

/-- The newest record of a kind and those behind it are all of the kind. -/
theorem filter_of_find {s : Source} (h : r.find kind = some (id, s)) :
    r.sources.filter (fun s => s.kind = kind) =
      s :: (r.olderThan id).filter fun s => s.kind = kind := by
  rw [find, newest_eq_head?, List.head?_eq_getElem?] at h
  have hrest := hits_olderThan (List.suffix_refl _) h
  obtain ⟨rest, hhits⟩ := List.head?_eq_some_iff.mp (List.head?_eq_getElem? ▸ h)
  rw [← map_snd_hits, ← map_snd_hits, hrest, hhits]
  rfl

/-! ## Old records behind new ones -/

/-- The records of `r` are still there, behind others. -/
def Extends (r r' : Registry) : Prop :=
  r.sources.map Source.stamp <:+ r'.sources.map Source.stamp

theorem Extends.refl (r : Registry) : r.Extends r := List.suffix_refl _

theorem Extends.trans (h : r.Extends r') (h' : r'.Extends r'') : r.Extends r'' :=
  List.IsSuffix.trans h h'

theorem Extends.size_le (h : r.Extends r') : r.size ≤ r'.size := by
  have hle := List.IsSuffix.length_le h
  rw [List.length_map, List.length_map] at hle
  exact hle

theorem stamp_amend (p : Payload) (s : Source) : (s.amend p).stamp = s.stamp :=
  congrArg (Prod.mk s.kind) (Source.key_amend p s)

/-- An insertion amends in place, puts a record in front, or does nothing. -/
theorem Sound.extends_insert (hr : r.Sound) (grant : Bool) (p : Payload) :
    r.Extends (r.insert grant p).1 := by
  by_cases h : p.key ∈ r.keys
  · have hstamps : r.sources.map Source.stamp =
        (r.sources.map (Source.amend p)).map Source.stamp := by
      rw [List.map_map]
      exact List.map_congr_left fun s _ => (stamp_amend p s).symm
    rw [hr.insert_of_mem h]
    exact ⟨[], hstamps⟩
  · cases grant with
    | true =>
      rw [hr.insert_granted h]
      exact List.suffix_cons _ _
    | false =>
      rw [hr.insert_refused h]
      exact .refl r

/-- The records that are older than a number of `r` are the same in both. -/
theorem Extends.olderThan (h : r.Extends r') (hid : id.position ≤ r.size) :
    (r'.olderThan id).map Source.stamp = (r.olderThan id).map Source.stamp := by
  obtain ⟨newer, hnewer⟩ := h
  have hsize : r'.size = newer.length + r.size := by
    have hlength := congrArg List.length hnewer
    rw [List.length_append, List.length_map, List.length_map] at hlength
    exact hlength.symm
  have hskip : r'.size - id.position = newer.length + (r.size - id.position) := by omega
  rw [Registry.olderThan, Registry.olderThan, List.map_drop, List.map_drop, ← hnewer, hskip,
    List.drop_length_add_append]

/-- Hits are told by the kinds and keys of the records. -/
theorem map_mark_hits {l l' : List Source} (h : l'.map Source.stamp = l.map Source.stamp) :
    (hits kind l').map mark = (hits kind l).map mark := by
  induction l generalizing l' with
  | nil =>
    rw [List.map_nil, List.map_eq_nil_iff] at h
    rw [h]
  | cons s older ih =>
    obtain ⟨s', older', rfl, hs, holder⟩ := List.map_eq_cons_iff.mp h
    obtain ⟨hkind, hkey⟩ := Prod.mk.inj hs
    have hlength : older'.length = older.length := by
      have hlength := congrArg List.length holder
      rw [List.length_map, List.length_map] at hlength
      exact hlength
    rw [hits, hits, hkind]
    split
    · rw [List.map_cons, List.map_cons, ih holder, mark, mark, hkey, hlength]
    · exact ih holder

theorem Extends.map_mark (h : r.Extends r') (hid : id.position ≤ r.size) (kind : Kind) :
    (hits kind (r'.olderThan id)).map mark = (hits kind (r.olderThan id)).map mark :=
  map_mark_hits (h.olderThan hid)

theorem Extends.findAfter (h : r.Extends r') (hid : id.position ≤ r.size) (kind : Kind) :
    (r'.findAfter kind id).map mark = (r.findAfter kind id).map mark := by
  rw [findAfter_eq_head?, findAfter_eq_head?, ← List.head?_map, ← List.head?_map,
    h.map_mark hid]

theorem Extends.get? (h : r.Extends r') (hid : id.position < r.size) :
    (r'.get? id).map Source.stamp = (r.get? id).map Source.stamp := by
  obtain ⟨newer, hnewer⟩ := h
  have hreverse : (r'.sources.reverse).map Source.stamp =
      (r.sources.reverse).map Source.stamp ++ newer.reverse := by
    rw [List.map_reverse, ← hnewer, List.reverse_append, List.map_reverse]
  rw [Registry.get?, Registry.get?, ← List.getElem?_map, ← List.getElem?_map, hreverse,
    List.getElem?_append_left (by simpa [size] using hid)]

/-! ## Searching a stretch of records -/

/-- The records below a position, the oldest first; `none` if there are not so many. -/
def below? (r : Registry) (stop : Nat) : Option (List Source) :=
  if stop ≤ r.size then some (r.sources.reverse.take stop) else none

/-- The last record of a kind in a stretch of records, with its position. -/
def lastOf (kind : Kind) (stretch : List Source) : Option (SourceId × Source) :=
  (stretch.zipIdx.reverse.find? fun entry => entry.1.kind = kind).map fun entry =>
    (⟨entry.2⟩, entry.1)

/-- The search below a position, which breaks off if the stretch is not there. -/
def scan? (r : Registry) (kind : Kind) (stop : Nat) : Option (Option (SourceId × Source)) :=
  (r.below? stop).map (lastOf kind)

theorem lastOf_reverse (kind : Kind) (l : List Source) : lastOf kind l.reverse = newest kind l := by
  induction l with
  | nil => rfl
  | cons s older ih =>
    rw [lastOf] at ih
    rw [lastOf, List.reverse_cons, List.zipIdx_append, List.reverse_append, newest]
    by_cases hs : s.kind = kind
    · rw [if_pos hs]
      simp [hs]
    · rw [if_neg hs, ← ih]
      simp [hs]

theorem scan?_eq {stop : Nat} (h : stop ≤ r.size) (kind : Kind) :
    r.scan? kind stop = some (newest kind (r.sources.drop (r.size - stop))) := by
  rw [scan?, below?, if_pos h, Option.map_some, List.take_reverse, lastOf_reverse]
  rfl

/-- A search may start from any number, as it starts from a position that is there. -/
theorem scan?_min (r : Registry) (kind : Kind) (id : SourceId) :
    r.scan? kind (min id.position r.size) = some (r.findAfter kind id) := by
  have hskip : r.size - min id.position r.size = r.size - id.position := by omega
  rw [scan?_eq (Nat.min_le_right _ _), hskip]
  rfl

/-! ## Insertions during a search -/

namespace Usage

variable {u : Usage} {answers : Nat → Bool}

/-- Insertions one after the other. -/
def insertAll (answers : Nat → Bool) (u : Usage) (payloads : List Payload) : Usage :=
  (payloads.map Request.insert).foldl (step answers) u

/-- The hits of a search that goes on behind a number. Before each of its steps a batch of payloads is
inserted, and it ends with the batches at the latest. -/
def search (answers : Nat → Bool) (kind : Kind) (u : Usage) (id : SourceId) :
    List (List Payload) → List (SourceId × Source)
  | [] => []
  | batch :: batches =>
    let after := u.insertAll answers batch
    match after.registry.findAfter kind id with
    | none => []
    | some hit => hit :: search answers kind after hit.1 batches

theorem Faithful.insertAll (hu : u.Faithful) (answers : Nat → Bool) (payloads : List Payload) :
    (u.insertAll answers payloads).Faithful ∧
      u.registry.Extends (u.insertAll answers payloads).registry := by
  induction payloads generalizing u with
  | nil => exact ⟨hu, .refl _⟩
  | cons p payloads ih =>
    obtain ⟨hafter, hextends⟩ := ih (hu.step answers (.insert p))
    exact ⟨hafter, (hu.sound.extends_insert _ p).trans hextends⟩

/-- Insertions change nothing about what a search meets. -/
theorem map_mark_search (hu : u.Faithful) (answers : Nat → Bool) {id : SourceId}
    (hid : id.position ≤ u.registry.size) (kind : Kind) (batches : List (List Payload)) :
    (u.search answers kind id batches).map mark =
      ((hits kind (u.registry.olderThan id)).map mark).take batches.length := by
  induction batches generalizing u id with
  | nil => rfl
  | cons batch batches ih =>
    obtain ⟨hafter, hextends⟩ := hu.insertAll answers batch
    rw [search, ← hextends.map_mark hid, findAfter_eq_head?]
    cases hhits : hits kind ((u.insertAll answers batch).registry.olderThan id) with
    | nil => rfl
    | cons hit rest =>
      obtain ⟨hrest, hlt⟩ := hits_of_cons hhits
      rw [List.head?_cons]
      dsimp only
      rw [List.map_cons, ih hafter (Nat.le_of_lt hlt), hrest, List.length_cons, List.map_cons,
        List.take_succ_cons]

/-- After any calls, a number that a search gives is good through all further insertions, whatever the
allocator answers: it leads to a record of the same key, and the search behind it has the same hit. So
a search that is interrupted by insertions meets the keys of the records that are older than its start,
each once and in order; and if it starts at the newest record of the kind, these are all that were there.
With any number at all, also one of another registry, no search breaks off, and what it finds is older
than the number and is there. -/
theorem numbers_stay_good (answers : Nat → Bool) (requests : List Request) :
    let u := run answers requests
    let r := u.registry
    (∀ id, r.Gives id → ∀ later : List Payload,
      let r' := (u.insertAll answers later).registry
      (∃ s s', r.get? id = some s ∧ r'.get? id = some s' ∧ s'.key = s.key) ∧
      ∀ kind, (r'.findAfter kind id).map mark = (r.findAfter kind id).map mark) ∧
    (∀ id, r.Gives id → ∀ (kind : Kind) (batches : List (List Payload)),
      let met := (u.search answers kind id batches).map fun hit => hit.2.key
      let older := ((r.olderThan id).filter fun s => s.kind = kind).map Source.key
      met = older.take batches.length ∧ older.Nodup) ∧
    (∀ kind id s, r.find kind = some (id, s) →
      r.sources.filter (fun s => s.kind = kind) =
        s :: (r.olderThan id).filter fun s => s.kind = kind) ∧
    ∀ (any : Registry) (kind : Kind) (id : SourceId),
      any.scan? kind any.size = some (any.find kind) ∧
      any.scan? kind (min id.position any.size) = some (any.findAfter kind id) ∧
      (any.get? id = none ↔ any.size ≤ id.position) ∧
      ∀ next s, any.findAfter kind id = some (next, s) →
        next.position < id.position ∧ next.position < any.size := by
  intro u r
  have hu : u.Faithful := faithful_run answers requests
  refine ⟨?_, ?_, fun kind id s => filter_of_find, ?_⟩
  · intro id hid later r'
    have hlt := hid.position_lt
    have hextends : r.Extends r' := (hu.insertAll answers later).2
    obtain ⟨s, hs⟩ := exists_get? hlt
    obtain ⟨s', hs'⟩ := exists_get? (Nat.lt_of_lt_of_le hlt hextends.size_le)
    have hstamp := hextends.get? hlt
    rw [hs, hs', Option.map_some, Option.map_some, Option.some.injEq] at hstamp
    exact ⟨⟨s, s', hs, hs', (Prod.mk.inj hstamp).2⟩,
      fun kind => hextends.findAfter (Nat.le_of_lt hlt) kind⟩
  · intro id hid kind batches met older
    constructor
    · have hmarks := congrArg (List.map Prod.snd)
        (map_mark_search hu answers (Nat.le_of_lt hid.position_lt) kind batches)
      rw [List.map_take, List.map_map, List.map_map] at hmarks
      have holder : older = (hits kind (r.olderThan id)).map (Prod.snd ∘ mark) := by
        show ((r.olderThan id).filter fun s => s.kind = kind).map Source.key = _
        rw [← map_snd_hits, List.map_map]
        rfl
      rw [holder]
      exact hmarks
    · have hsublist : ((r.olderThan id).filter fun s => s.kind = kind).Sublist r.sources :=
        List.filter_sublist.trans (List.drop_sublist _ _)
      exact hu.sound.distinct.sublist (hsublist.map Source.key)
  · intro any kind id
    refine ⟨?_, scan?_min any kind id, ?_, fun next s => position_lt_of_findAfter⟩
    · rw [scan?_eq (Nat.le_refl _), Nat.sub_self, List.drop_zero]
      rfl
    · rw [get?, List.getElem?_eq_none_iff, List.length_reverse]
      rfl

end Usage

end Registry

end DeviceSleep
