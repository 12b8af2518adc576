import DeviceSleep.Text.Blank

/-! Trimming a text splits off the blanks at its ends, and nothing else: what is left is the one
stretch of the text with only blanks around it that neither begins nor ends with a blank. -/
namespace DeviceSleep.Text
set_option autoImplicit false

/-- A text is blanks, a core that neither begins nor ends with one, and blanks. -/
structure Trims (cs core : List Char) : Prop where
  split : ∃ before after, cs = before ++ core ++ after ∧ (∀ c ∈ before, isBlank c = true) ∧
    ∀ c ∈ after, isBlank c = true
  first : ∀ c ∈ core.head?, isBlank c = false
  last : ∀ c ∈ core.getLast?, isBlank c = false

variable {cs core before after : List Char}

/-! ## Blanks at one end -/

theorem trimLeft_append (h : ∀ c ∈ before, isBlank c = true) (cs : List Char) :
    trimLeft (before ++ cs) = trimLeft cs :=
  List.dropWhile_append_of_pos h

theorem trimLeft_eq_self (h : ∀ c ∈ cs.head?, isBlank c = false) : trimLeft cs = cs := by
  cases cs with
  | nil => rfl
  | cons c cs => exact List.dropWhile_cons_of_neg (by simp [h c rfl])

theorem trimRight_append (h : ∀ c ∈ after, isBlank c = true) (cs : List Char) :
    trimRight (cs ++ after) = trimRight cs := by
  induction after generalizing cs with
  | nil => rw [List.append_nil]
  | cons c after ih =>
    obtain ⟨hc, hafter⟩ := List.forall_mem_cons.mp h
    have hsplit : cs ++ c :: after = (cs ++ [c]) ++ after := by simp
    rw [hsplit, ih hafter, trimRight_append_blank cs c hc]

theorem trimRight_eq_self (h : ∀ c ∈ cs.getLast?, isBlank c = false) : trimRight cs = cs := by
  rcases List.eq_nil_or_concat cs with rfl | ⟨front, last, rfl⟩
  · rfl
  · rw [List.concat_eq_append] at h ⊢
    exact trimRight_eq_self_of_last front last (h last (by simp))

theorem exists_trimLeft (cs : List Char) :
    (∃ before, cs = before ++ trimLeft cs ∧ ∀ c ∈ before, isBlank c = true) ∧
      ∀ c ∈ (trimLeft cs).head?, isBlank c = false := by
  induction cs with
  | nil => exact ⟨⟨[], rfl, by simp⟩, by simp [trimLeft]⟩
  | cons c cs ih =>
    obtain ⟨⟨before, hsplit, hbefore⟩, hfirst⟩ := ih
    cases hc : isBlank c with
    | true =>
      have htrim : trimLeft (c :: cs) = trimLeft cs := List.dropWhile_cons_of_pos hc
      rw [htrim]
      refine ⟨⟨c :: before, ?_, List.forall_mem_cons.mpr ⟨hc, hbefore⟩⟩, hfirst⟩
      rw [List.cons_append, ← hsplit]
    | false =>
      have htrim : trimLeft (c :: cs) = c :: cs := List.dropWhile_cons_of_neg (by simp [hc])
      rw [htrim]
      exact ⟨⟨[], rfl, by simp⟩, by simpa using hc⟩

theorem exists_trimRight (cs : List Char) :
    (∃ after, cs = trimRight cs ++ after ∧ ∀ c ∈ after, isBlank c = true) ∧
      (∀ c ∈ (trimRight cs).getLast?, isBlank c = false) ∧
      ∀ c ∈ (trimRight cs).head?, c ∈ cs.head? := by
  induction cs with
  | nil => exact ⟨⟨[], rfl, by simp⟩, by simp [trimRight], by simp [trimRight]⟩
  | cons c cs ih =>
    obtain ⟨⟨after, hsplit, hafter⟩, hlast, -⟩ := ih
    rw [trimRight]
    split
    · rename_i hnil
      rw [hnil, List.nil_append] at hsplit
      -- Only blanks follow, so it is this character that decides.
      cases hc : isBlank c with
      | true =>
        rw [if_pos rfl, hsplit]
        exact ⟨⟨c :: after, rfl, List.forall_mem_cons.mpr ⟨hc, hafter⟩⟩, by simp, by simp⟩
      | false =>
        rw [if_neg Bool.false_ne_true, hsplit]
        exact ⟨⟨after, rfl, hafter⟩, by simpa using hc, by simp⟩
    · rename_i hne
      refine ⟨⟨after, ?_, hafter⟩, ?_, by simp⟩
      · rw [List.cons_append, ← hsplit]
      · obtain ⟨d, ds, hds⟩ := List.exists_cons_of_ne_nil hne
        rw [hds] at hlast ⊢
        rw [List.getLast?_cons_cons]
        exact hlast

/-! ## Both ends -/

theorem trims_trim (cs : List Char) : Trims cs (trim cs) := by
  obtain ⟨⟨before, hbefore, hblank⟩, hfirst⟩ := exists_trimLeft cs
  obtain ⟨⟨after, hafter, hblank'⟩, hlast, hhead⟩ := exists_trimRight (trimLeft cs)
  refine ⟨⟨before, after, ?_, hblank, hblank'⟩, fun c hc => hfirst c (hhead c hc), hlast⟩
  rw [List.append_assoc, trim, ← hafter]
  exact hbefore

/-- There is one such core, and trimming finds it. -/
theorem trims_iff : Trims cs core ↔ trim cs = core := by
  constructor
  · rintro ⟨⟨before, after, rfl, hbefore, hafter⟩, hfirst, hlast⟩
    rw [List.append_assoc, trim, trimLeft_append hbefore]
    cases core with
    | nil =>
      have hnil := trimLeft_append hafter []
      rw [List.append_nil] at hnil
      rw [List.nil_append, hnil]
      rfl
    | cons c core =>
      rw [trimLeft_eq_self (by simpa using hfirst), trimRight_append hafter,
        trimRight_eq_self hlast]
  · rintro rfl
    exact trims_trim cs

theorem trim_of_noBlank (h : ∀ c ∈ cs, isBlank c = false) : trim cs = cs := by
  rw [trim, trimLeft_eq_self fun c hc => h c (List.mem_of_mem_head? hc),
    trimRight_eq_self fun c hc => h c (List.mem_of_getLast? hc)]

end DeviceSleep.Text
