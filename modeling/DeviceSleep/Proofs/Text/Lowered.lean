import DeviceSleep.Text.Lowercase

/-! Lowercasing once is enough. It writes only letters that it would leave alone wherever they stood:
no capital sigma, and none that has a lowercase letter of its own. So the texts that lowercasing does
not change are those of such letters, and every part of such a text is one. -/
namespace DeviceSleep.Text
set_option autoImplicit false

/-! ## The table -/

namespace CaseTable

/-- As many code points from the first, all the same stride apart. -/
def stretch (first count stride : Nat) : List Nat :=
  (List.range count).map fun k => first + k * stride

/-- The code points that have lowercase letters. -/
def mapped : List Nat := runs.flatMap fun r => stretch r.1 r.2.1 r.2.2.1

/-- Their lowercase letters. -/
def letters : List Nat := runs.flatMap fun r => stretch r.2.2.2 r.2.1 r.2.2.1

theorem exists_of_image? {code letter : Nat} {r : Nat × Nat × Nat × Nat}
    (h : image? code r = some letter) :
    code ∈ stretch r.1 r.2.1 r.2.2.1 ∧ letter ∈ stretch r.2.2.2 r.2.1 r.2.2.1 := by
  obtain ⟨first, count, stride, image⟩ := r
  rw [image?] at h
  split at h
  · rename_i hin
    obtain ⟨hfirst, hlast, hstride⟩ := hin
    obtain ⟨k, hk⟩ := Nat.dvd_of_mod_eq_zero hstride
    rw [Nat.mul_comm] at hk
    have hlt : k * stride < count * stride := by omega
    have hk' : k ∈ List.range count := List.mem_range.mpr (Nat.lt_of_mul_lt_mul_right hlt)
    obtain rfl := Option.some.inj h
    refine ⟨List.mem_map.mpr ⟨k, hk', ?_⟩, List.mem_map.mpr ⟨k, hk', ?_⟩⟩
    · show first + k * stride = code
      omega
    · show image + k * stride = image + (code - first)
      omega
  · cases h

/-- A set of numbers as the bits of one. -/
def bits (ns : List Nat) : Nat := ns.foldr (fun n set => set ||| 1 <<< n) 0

theorem testBit_bits (ns : List Nat) (n : Nat) : (bits ns).testBit n = true ↔ n ∈ ns := by
  induction ns with
  | nil => simp [bits]
  | cons m ns ih =>
    have hcons : bits (m :: ns) = bits ns ||| 1 <<< m := rfl
    rw [hcons, Nat.testBit_or, Bool.or_eq_true, ih, Nat.one_shiftLeft, Nat.testBit_two_pow,
      List.mem_cons]
    constructor
    · rintro (h | h)
      · exact .inr h
      · exact .inl (of_decide_eq_true h).symm
    · rintro (rfl | h)
      · exact .inr (decide_eq_true rfl)
      · exact .inl h

theorem notMem_of_bits {ms ns : List Nat} (h : bits ms &&& bits ns = 0) {n : Nat} (hn : n ∈ ms) :
    n ∉ ns := by
  intro hmem
  have hbit : (bits ms &&& bits ns).testBit n = true := by
    rw [Nat.testBit_and, (testBit_bits ms n).mpr hn, (testBit_bits ns n).mpr hmem]
    rfl
  rw [h, Nat.zero_testBit] at hbit
  cases hbit

/-- No letter of the table is changed in turn. All of them are compared at once, as sets of bits. -/
theorem bits_letters : bits letters &&& bits (304 :: mapped) = 0 := by
  decide +kernel

theorem notMem_mapped {letter : Nat} (h : letter ∈ letters) : letter ≠ 304 ∧ letter ∉ mapped := by
  have hnot := notMem_of_bits bits_letters h
  rw [List.mem_cons, not_or] at hnot
  exact hnot

theorem lower_of_notMem {code : Nat} (h : code ∉ mapped) : lower code = code := by
  have hnone : runs.findSome? (image? code) = none := by
    rw [List.findSome?_eq_none_iff]
    intro r hr
    cases himage : image? code r with
    | none => rfl
    | some letter => exact absurd (List.mem_flatMap.mpr ⟨r, hr, (exists_of_image? himage).1⟩) h
  rw [lower, hnone]
  rfl

/-- A code point has no lowercase letter, or one that has none itself. -/
theorem lower_cases (code : Nat) : lower code = code ∨ lower code ∈ letters := by
  cases hfind : runs.findSome? (image? code) with
  | none =>
    left
    rw [lower, hfind]
    rfl
  | some letter =>
    right
    obtain ⟨r, hr, hletter⟩ := List.exists_of_findSome?_eq_some hfind
    rw [lower, hfind]
    exact List.mem_flatMap.mpr ⟨r, hr, (exists_of_image? hletter).2⟩

end CaseTable

/-! ## Letters -/

/-- Lowercasing leaves the character alone wherever it stands. -/
def IsLowered (c : Char) : Prop := c ≠ 'Σ' ∧ c ≠ 'İ' ∧ CaseTable.lower c.toNat = c.toNat

instance (c : Char) : Decidable (IsLowered c) :=
  inferInstanceAs (Decidable (_ ∧ _ ∧ _))

/-- A letter of the table; a code point that is no character stands for the first of all. -/
theorem isLowered_ofNat {code : Nat} (h : code ∈ CaseTable.letters) :
    IsLowered (Char.ofNat code) := by
  obtain ⟨hdotted, hmapped⟩ := CaseTable.notMem_mapped h
  by_cases hvalid : code.isValidChar
  · have hnat : (Char.ofNat code).toNat = code := by
      rw [Char.ofNat, dif_pos hvalid]
      rfl
    refine ⟨?_, ?_, ?_⟩
    · intro heq
      rw [heq] at hnat
      have hsigma : 'Σ'.toNat ∈ CaseTable.mapped := by decide +kernel
      exact hmapped (hnat ▸ hsigma)
    · intro heq
      rw [heq] at hnat
      exact hdotted hnat.symm
    · rw [hnat, CaseTable.lower_of_notMem hmapped]
  · have hzero : Char.ofNat code = '\x00' := by
      rw [Char.ofNat, dif_neg hvalid]
      rfl
    rw [hzero]
    decide

theorem isLowered_of_mem_lowerChar {c d : Char} (hc : c ≠ 'Σ') (hd : d ∈ lowerChar c) :
    IsLowered d := by
  rw [lowerChar] at hd
  split at hd
  · have hletters : IsLowered 'i' ∧ IsLowered '\u0307' := by decide
    rcases List.mem_cons.mp hd with rfl | hd
    · exact hletters.1
    · rw [List.mem_singleton.mp hd]
      exact hletters.2
  · rename_i hdotted
    obtain rfl := List.mem_singleton.mp hd
    rcases CaseTable.lower_cases c.toNat with hsame | hletter
    · rw [hsame, Char.ofNat_toNat]
      exact ⟨hc, hdotted, hsame⟩
    · exact isLowered_ofNat hletter

theorem IsLowered.lowerChar_eq {c : Char} (h : IsLowered c) : lowerChar c = [c] := by
  rw [lowerChar, if_neg h.2.1, h.2.2, Char.ofNat_toNat]

/-! ## Texts -/

theorem isLowered_of_mem_lowerFrom {cs : List Char} {afterCased : Bool} {d : Char}
    (hd : d ∈ lowerFrom afterCased cs) : IsLowered d := by
  induction cs generalizing afterCased with
  | nil => cases hd
  | cons c cs ih =>
    rw [lowerFrom] at hd
    rcases List.mem_append.mp hd with hd | hd
    · split at hd
      · -- Either form of the small sigma stays as it is.
        have hsigmas : IsLowered 'ς' ∧ IsLowered 'σ' := by decide
        split at hd
        · rw [List.mem_singleton.mp hd]
          exact hsigmas.1
        · rw [List.mem_singleton.mp hd]
          exact hsigmas.2
      · exact isLowered_of_mem_lowerChar (by assumption) hd
    · exact ih hd

theorem lowerFrom_eq_self {cs : List Char} (h : ∀ c ∈ cs, IsLowered c) (afterCased : Bool) :
    lowerFrom afterCased cs = cs := by
  induction cs generalizing afterCased with
  | nil => rfl
  | cons c cs ih =>
    have hc := h c List.mem_cons_self
    rw [lowerFrom, ih fun d hd => h d (List.mem_cons_of_mem c hd), if_neg hc.1, hc.lowerChar_eq]
    rfl

theorem lowercase_eq_self_iff {cs : List Char} : lowercase cs = cs ↔ ∀ c ∈ cs, IsLowered c := by
  constructor
  · intro h c hc
    rw [← h] at hc
    exact isLowered_of_mem_lowerFrom hc
  · intro h
    exact lowerFrom_eq_self h false

theorem lower_ofList_eq_self_iff {cs : List Char} :
    lower (String.ofList cs) = String.ofList cs ↔ ∀ c ∈ cs, IsLowered c := by
  rw [lower, String.toList_ofList, String.ofList_inj, lowercase_eq_self_iff]

theorem lower_eq_self_iff {s : String} : lower s = s ↔ ∀ c ∈ s.toList, IsLowered c := by
  rw [← lower_ofList_eq_self_iff, String.ofList_toList]

@[simp] theorem lower_lower (s : String) : lower (lower s) = lower s := by
  rw [lower_eq_self_iff]
  intro c hc
  rw [lower, String.toList_ofList] at hc
  exact isLowered_of_mem_lowerFrom hc

end DeviceSleep.Text
