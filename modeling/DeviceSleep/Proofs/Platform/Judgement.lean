import DeviceSleep.Platform

/-! How a platform judges a request. What it has against one record does not depend on the others, and
the newest record that it has something against decides; so a request is accepted if the platform has
its mode, if something ends the sleep or nothing has to, and if nothing speaks against any record. -/
namespace DeviceSleep.Platform
set_option autoImplicit false

/-- What speaks against a record in a mode. -/
def violation? (p : Platform) (s : ModeSupport) (source : Source) : Option Refusal :=
  if s.wakeupKinds.contains source.kind then
    match source.payload with
    | .gpio pin _ => if pin < p.pinCount then none else some (.invalidPin pin)
    | _ => none
  else some (.unsupportedWakeupSource s.mode source.kind)

/-- What speaks against a record is its kind or its pin. -/
theorem violation?_eq_none_iff {p : Platform} {s : ModeSupport} {source : Source} :
    p.violation? s source = none ↔ source.kind ∈ s.wakeupKinds ∧
      ∀ pin trigger, source.payload = .gpio pin trigger → pin < p.pinCount := by
  rw [violation?, ← List.contains_iff_mem]
  cases s.wakeupKinds.contains source.kind with
  | false => simp
  | true => cases source.payload <;> simp

/-- The newest record that something speaks against decides. -/
theorem firstViolation_eq_findSome? (p : Platform) (s : ModeSupport) (sources : List Source) :
    p.firstViolation s sources = sources.findSome? (p.violation? s) := by
  induction sources with
  | nil => rfl
  | cons source older ih =>
    rw [List.findSome?_cons, firstViolation, violation?]
    cases hkind : s.wakeupKinds.contains source.kind with
    | false => rfl
    | true =>
      cases hpayload : source.payload with
      | gpio pin trigger => by_cases hpin : pin < p.pinCount <;> simp [hpin, ih]
      | timer ms => simp [ih]
      | network i => simp [ih]
      | radioLink => simp [ih]

/-- A request is accepted exactly if nothing speaks against it. -/
structure Accepts (p : Platform) (d : Descriptor) (s : ModeSupport) : Prop where
  sleeps : d.mode ≠ .none
  listed : p.supports d.mode = some s
  wakes : d.sources.sources ≠ [] ∨ s.allowNoWakeup = true
  clean : ∀ source ∈ d.sources.sources, p.violation? s source = none

theorem wakes_iff (d : Descriptor) (s : ModeSupport) :
    (d.sources.isEmpty && !s.allowNoWakeup) = false ↔
      d.sources.sources ≠ [] ∨ s.allowNoWakeup = true := by
  unfold Registry.isEmpty
  cases d.sources.sources <;> cases s.allowNoWakeup <;> simp

/-- Where the platform has the mode and something ends the sleep or nothing has to, it is the records
that count. -/
theorem check_of_listed {p : Platform} {d : Descriptor} {s : ModeSupport} (hsleeps : d.mode ≠ .none)
    (hlisted : p.supports d.mode = some s)
    (hwakes : d.sources.sources ≠ [] ∨ s.allowNoWakeup = true) :
    p.check d = (d.sources.sources.findSome? (p.violation? s)).elim (.ok ()) .error := by
  rw [check, if_neg hsleeps, hlisted]
  dsimp only
  rw [(wakes_iff d s).mpr hwakes, if_neg Bool.false_ne_true, firstViolation_eq_findSome?]
  cases d.sources.sources.findSome? (p.violation? s) with
  | none => rfl
  | some refusal => rfl

theorem isOk_check_iff (p : Platform) (d : Descriptor) :
    (p.check d).isOk = true ↔ ∃ s, p.Accepts d s := by
  constructor
  · intro h
    rw [check] at h
    split at h
    · cases h
    · rename_i hsleeps
      split at h
      · cases h
      · rename_i s hlisted
        split at h
        · cases h
        · rename_i hwakes
          split at h
          · cases h
          · rename_i hnone
            rw [firstViolation_eq_findSome?, List.findSome?_eq_none_iff] at hnone
            exact ⟨s, hsleeps, hlisted, (wakes_iff d s).mp (eq_false_of_ne_true hwakes),
              hnone⟩
  · rintro ⟨s, hsleeps, hlisted, hwakes, hclean⟩
    rw [check_of_listed hsleeps hlisted hwakes, List.findSome?_eq_none_iff.mpr hclean]
    rfl

theorem Accepts.of_perm {p : Platform} {d e : Descriptor} {s : ModeSupport} (h : p.Accepts d s)
    (hmode : d.mode = e.mode) (hsources : d.sources.sources.Perm e.sources.sources) :
    p.Accepts e s := by
  obtain ⟨hsleeps, hlisted, hwakes, hclean⟩ := h
  refine ⟨hmode ▸ hsleeps, hmode ▸ hlisted, hwakes.imp_left ?_, ?_⟩
  · intro hne hnil
    rw [hnil] at hsources
    exact hne hsources.eq_nil
  · exact fun source hsource => hclean source (hsources.mem_iff.mpr hsource)

/-- The order of the records decides which of them is reported, but not whether one is. -/
theorem isOk_check_of_perm {d e : Descriptor} (hmode : d.mode = e.mode)
    (hsources : d.sources.sources.Perm e.sources.sources) (p : Platform) :
    (p.check d).isOk = (p.check e).isOk := by
  rw [Bool.eq_iff_iff, isOk_check_iff, isOk_check_iff]
  constructor
  · rintro ⟨s, hs⟩
    exact ⟨s, hs.of_perm hmode hsources⟩
  · rintro ⟨s, hs⟩
    exact ⟨s, hs.of_perm hmode.symm hsources.symm⟩

end DeviceSleep.Platform
