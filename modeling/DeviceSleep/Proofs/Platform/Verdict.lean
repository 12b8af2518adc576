import DeviceSleep.Proofs.Platform.Judgement
import Mathlib.Tactic.ByContra

/-! The verdict of a platform on a request, said without the order in which it is found. The mode
is looked at before the records, and the entry of the mode that counts is the first; of several
records that are not accepted the newest is reported, and of one such record its kind before its
pin. Every request has a verdict, and `check` gives it. -/
namespace DeviceSleep.Platform
set_option autoImplicit false

variable {p : Platform} {d : Descriptor} {s : ModeSupport} {source : Source}

/-- The first entry of a mode; later ones of the same mode count for nothing. -/
def Offers (p : Platform) (mode : Mode) (s : ModeSupport) : Prop :=
  ∃ earlier later, p.modes = earlier ++ s :: later ∧ s.mode = mode ∧
    ∀ t ∈ earlier, t.mode ≠ mode

/-- The mode does not accept the kind of the record, or the record is for a pin out of range. -/
def Objects (p : Platform) (s : ModeSupport) (source : Source) : Prop :=
  source.kind ∉ s.wakeupKinds ∨
    ∃ pin trigger, source.payload = .gpio pin trigger ∧ p.pinCount ≤ pin

/-- What is said of a request, with all that calls for it. -/
inductive Verdict (p : Platform) (d : Descriptor) : Except Refusal Unit → Prop where
  | unset (hmode : d.mode = .none) : Verdict p d (.error .invalidConfiguration)
  | unlisted (hmode : d.mode ≠ .none) (hnone : ∀ s ∈ p.modes, s.mode ≠ d.mode) :
      Verdict p d (.error (.unsupportedMode d.mode))
  | endless {s : ModeSupport} (hmode : d.mode ≠ .none) (hoffers : p.Offers d.mode s)
      (hempty : d.sources.sources = []) (hneeds : s.allowNoWakeup = false) :
      Verdict p d (.error (.wakeupSourceRequired d.mode))
  | foreign {s : ModeSupport} {newer older : List Source} {source : Source}
      (hmode : d.mode ≠ .none) (hoffers : p.Offers d.mode s)
      (hsources : d.sources.sources = newer ++ source :: older)
      (hnewer : ∀ t ∈ newer, ¬ p.Objects s t) (hkind : source.kind ∉ s.wakeupKinds) :
      Verdict p d (.error (.unsupportedWakeupSource d.mode source.kind))
  | outOfRange {s : ModeSupport} {newer older : List Source} {source : Source} {pin : UInt16}
      {trigger : Trigger} (hmode : d.mode ≠ .none) (hoffers : p.Offers d.mode s)
      (hsources : d.sources.sources = newer ++ source :: older)
      (hnewer : ∀ t ∈ newer, ¬ p.Objects s t) (hkind : source.kind ∈ s.wakeupKinds)
      (hpayload : source.payload = .gpio pin trigger) (hpin : p.pinCount ≤ pin) :
      Verdict p d (.error (.invalidPin pin))
  | accepted {s : ModeSupport} (hmode : d.mode ≠ .none) (hoffers : p.Offers d.mode s)
      (hwakes : d.sources.sources ≠ [] ∨ s.allowNoWakeup = true)
      (hkinds : ∀ source ∈ d.sources.sources, source.kind ∈ s.wakeupKinds)
      (hpins : ∀ source ∈ d.sources.sources, ∀ pin trigger, source.payload = .gpio pin trigger →
        pin < p.pinCount) : Verdict p d (.ok ())

/-! ## One record -/

theorem violation?_of_kind (h : source.kind ∉ s.wakeupKinds) :
    p.violation? s source = some (.unsupportedWakeupSource s.mode source.kind) := by
  rw [violation?, if_neg]
  simpa using h

theorem violation?_of_pin {pin : UInt16} {trigger : Trigger} (hkind : source.kind ∈ s.wakeupKinds)
    (hpayload : source.payload = .gpio pin trigger) (hpin : p.pinCount ≤ pin) :
    p.violation? s source = some (.invalidPin pin) := by
  rw [violation?, if_pos (by simpa using hkind), hpayload]
  exact if_neg (UInt16.not_lt.mpr hpin)

theorem violation?_eq_none_iff_not_objects :
    p.violation? s source = none ↔ ¬ p.Objects s source := by
  rw [violation?_eq_none_iff, Objects, not_or, not_not]
  simp only [not_exists, not_and, UInt16.not_le]

/-! ## The mode -/

theorem Offers.mode_eq {mode : Mode} (h : p.Offers mode s) : s.mode = mode := by
  obtain ⟨-, -, -, hmode, -⟩ := h
  exact hmode

theorem supports_eq_some_iff {mode : Mode} : p.supports mode = some s ↔ p.Offers mode s := by
  rw [supports, List.find?_eq_some_iff_append, Offers]
  simp only [beq_iff_eq, Bool.not_eq_true', beq_eq_false_iff_ne, ne_eq]
  constructor
  · rintro ⟨hmode, earlier, later, hmodes, hearlier⟩
    exact ⟨earlier, later, hmodes, hmode, hearlier⟩
  · rintro ⟨earlier, later, hmodes, hmode, hearlier⟩
    exact ⟨hmode, earlier, later, hmodes, hearlier⟩

theorem supports_eq_none_iff {mode : Mode} :
    p.supports mode = none ↔ ∀ s ∈ p.modes, s.mode ≠ mode := by
  rw [supports, List.find?_eq_none]
  simp only [beq_iff_eq, ne_eq]

/-- The newest record that the platform objects to is the one reported. -/
theorem check_of_objects {newer older : List Source} {refusal : Refusal} (hmode : d.mode ≠ .none)
    (hoffers : p.Offers d.mode s) (hsources : d.sources.sources = newer ++ source :: older)
    (hnewer : ∀ t ∈ newer, ¬ p.Objects s t) (hrefusal : p.violation? s source = some refusal) :
    p.check d = .error refusal := by
  have hne : d.sources.sources ≠ [] := by simp [hsources]
  have hfind : d.sources.sources.findSome? (p.violation? s) = some refusal :=
    List.findSome?_eq_some_iff.mpr ⟨newer, source, older, hsources, hrefusal, fun t ht =>
      violation?_eq_none_iff_not_objects.mpr (hnewer t ht)⟩
  rw [check_of_listed hmode (supports_eq_some_iff.mpr hoffers) (.inl hne), hfind, Option.elim_some]

/-! ## Every request -/

theorem Verdict.check_eq {r : Except Refusal Unit} (h : p.Verdict d r) : p.check d = r := by
  cases h with
  | unset hmode => rw [check, if_pos hmode]
  | unlisted hmode hnone => rw [check, if_neg hmode, supports_eq_none_iff.mpr hnone]
  | endless hmode hoffers hempty hneeds =>
    rw [check, if_neg hmode, supports_eq_some_iff.mpr hoffers]
    simp [Registry.isEmpty, hempty, hneeds]
  | foreign hmode hoffers hsources hnewer hkind =>
    have hrefusal := violation?_of_kind (p := p) hkind
    rw [hoffers.mode_eq] at hrefusal
    exact check_of_objects hmode hoffers hsources hnewer hrefusal
  | outOfRange hmode hoffers hsources hnewer hkind hpayload hpin =>
    exact check_of_objects hmode hoffers hsources hnewer (violation?_of_pin hkind hpayload hpin)
  | accepted hmode hoffers hwakes hkinds hpins =>
    have hfind : d.sources.sources.findSome? (p.violation? _) = none :=
      List.findSome?_eq_none_iff.mpr fun source hsource =>
        violation?_eq_none_iff.mpr ⟨hkinds source hsource, hpins source hsource⟩
    rw [check_of_listed hmode (supports_eq_some_iff.mpr hoffers) hwakes, hfind, Option.elim_none]

theorem exists_verdict (p : Platform) (d : Descriptor) : ∃ r, p.Verdict d r := by
  by_cases hmode : d.mode = .none
  · exact ⟨_, .unset hmode⟩
  cases hsupports : p.supports d.mode with
  | none => exact ⟨_, .unlisted hmode (supports_eq_none_iff.mp hsupports)⟩
  | some s =>
    have hoffers := supports_eq_some_iff.mp hsupports
    by_cases hwakes : d.sources.sources ≠ [] ∨ s.allowNoWakeup = true
    · cases hfind : d.sources.sources.findSome? (p.violation? s) with
      | none =>
        have hclean := List.findSome?_eq_none_iff.mp hfind
        simp only [violation?_eq_none_iff] at hclean
        exact ⟨_, .accepted hmode hoffers hwakes (fun source hsource => (hclean source hsource).1)
          fun source hsource => (hclean source hsource).2⟩
      | some refusal =>
        obtain ⟨newer, source, older, hsources, hrefusal, hnone⟩ :=
          List.findSome?_eq_some_iff.mp hfind
        have hnewer : ∀ t ∈ newer, ¬ p.Objects s t := fun t ht =>
          violation?_eq_none_iff_not_objects.mp (hnone t ht)
        have hobjects : p.Objects s source := by
          by_contra hnot
          rw [violation?_eq_none_iff_not_objects.mpr hnot] at hrefusal
          cases hrefusal
        -- The kind is looked at before the pin.
        by_cases hkind : source.kind ∈ s.wakeupKinds
        · obtain ⟨pin, trigger, hpayload, hpin⟩ := hobjects.resolve_left (not_not.mpr hkind)
          exact ⟨_, .outOfRange hmode hoffers hsources hnewer hkind hpayload hpin⟩
        · exact ⟨_, .foreign hmode hoffers hsources hnewer hkind⟩
    · rw [not_or, not_not, Bool.not_eq_true] at hwakes
      exact ⟨_, .endless hmode hoffers hwakes.1 hwakes.2⟩

/-- A check gives the verdict on the request, whatever the platform lists and the request holds: there
is one, and no other is given. -/
theorem check_eq_iff_verdict (p : Platform) (d : Descriptor) (r : Except Refusal Unit) :
    p.check d = r ↔ p.Verdict d r := by
  constructor
  · rintro rfl
    obtain ⟨r, h⟩ := p.exists_verdict d
    rw [h.check_eq]
    exact h
  · exact Verdict.check_eq

/-- Hibernation accepts no timer here and the pin is out of range; the timer was set later. -/
example :
    cellular.check
        ⟨.hibernate, .empty, ⟨[.ofPayload (.timer 5), .ofPayload (.gpio 40 .change)]⟩⟩ =
      .error (.unsupportedWakeupSource .hibernate .timer) := rfl

end DeviceSleep.Platform
