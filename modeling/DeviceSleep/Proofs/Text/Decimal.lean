import DeviceSleep.Text.Numeral

/-! Decimal numerals with a limit. A numeral is one or more digits, with any number of zeros in
front, behind at most one plus sign; its value is compared with the limit as a whole. A machine that
has eight bits, and gives up at the first product or sum that they do not hold, reads the same
numerals, since the value of digits never falls as more of them are read. -/
namespace DeviceSleep.Text
set_option autoImplicit false

variable {c : Char} {cs digits : List Char} {d value limit n : Nat}

/-! ## Digits -/

theorem digitIn?_of_isDigit (h : c.isDigit = true) : digitIn? 10 c = some (c.toNat - '0'.toNat) := by
  simp only [Char.isDigit, Bool.and_eq_true, decide_eq_true_eq] at h
  have hlow : '0' ≤ c := h.1
  have hhigh : c ≤ '9' := h.2
  have hvalue : c.toNat ≤ 57 := hhigh
  have hlt : c.toNat - '0'.toNat < 10 := by
    show c.toNat - 48 < 10
    omega
  rw [digitIn?, digit?, if_pos ⟨hlow, hhigh⟩, Option.filter_some, if_pos (by simpa using hlt)]

/-- The letters that are digits elsewhere stand for ten and more. -/
theorem isDigit_of_digitIn? (h : digitIn? 10 c = some d) : c.isDigit = true := by
  obtain ⟨hdigit, hlt⟩ := Option.filter_eq_some_iff.mp h
  rw [decide_eq_true_eq] at hlt
  rw [digit?] at hdigit
  split at hdigit
  · rename_i hrange
    rw [Char.isDigit, Bool.and_eq_true, decide_eq_true_eq, decide_eq_true_eq]
    exact hrange
  · split at hdigit
    · cases hdigit
      omega
    · split at hdigit
      · cases hdigit
        omega
      · cases hdigit

theorem lt_ten_of_digitIn? (h : digitIn? 10 c = some d) : d < 10 := by
  simpa using (Option.filter_eq_some_iff.mp h).2

/-! ## Numerals -/

theorem readDigits_of_isDigit (h : ∀ d ∈ cs, d.isDigit = true) (value : Nat) :
    readDigits 10 value cs = some (Nat.ofDigitChars 10 cs value) := by
  induction cs generalizing value with
  | nil => rfl
  | cons c cs ih =>
    rw [readDigits, digitIn?_of_isDigit (h c List.mem_cons_self), Option.bind_some,
      ih (fun d hd => h d (List.mem_cons_of_mem c hd)), Nat.ofDigitChars_cons, Nat.mul_comm]

theorem isDigit_of_readDigits (h : readDigits 10 value cs = some n) :
    ∀ c ∈ cs, c.isDigit = true := by
  induction cs generalizing value with
  | nil => exact nofun
  | cons c cs ih =>
    obtain ⟨d, hd, hrest⟩ := Option.bind_eq_some_iff.mp h
    exact List.forall_mem_cons.mpr ⟨isDigit_of_digitIn? hd, ih hrest⟩

/-- One or more digits, and the number that they spell. -/
def SpelledBy (n : Nat) (digits : List Char) : Prop :=
  digits ≠ [] ∧ (∀ c ∈ digits, c.isDigit = true) ∧ Nat.ofDigitChars 10 digits 0 = n

theorem digits?_eq_some_iff : digits? 10 digits = some n ↔ SpelledBy n digits := by
  cases digits with
  | nil => exact iff_of_false nofun fun h => h.1 rfl
  | cons c cs =>
    rw [SpelledBy, digits?]
    · constructor
      · intro h
        have hdigits := isDigit_of_readDigits h
        rw [readDigits_of_isDigit hdigits] at h
        exact ⟨List.cons_ne_nil c cs, hdigits, Option.some.inj h⟩
      · rintro ⟨-, hdigits, rfl⟩
        exact readDigits_of_isDigit hdigits 0
    · exact nofun

/-- Digits up to the limit, as they are or behind one plus sign. -/
theorem unsigned?_eq_some_iff :
    unsigned? 10 limit cs = some n ↔
      ∃ sign digits, cs = sign ++ digits ∧ (sign = [] ∨ sign = ['+']) ∧ SpelledBy n digits ∧
        n ≤ limit := by
  have hfilter : ∀ digits, (digits? 10 digits).filter (· ≤ limit) = some n ↔
      SpelledBy n digits ∧ n ≤ limit := by
    intro digits
    rw [Option.filter_eq_some_iff, digits?_eq_some_iff, decide_eq_true_eq]
  unfold unsigned?
  dsimp only
  split
  · rename_i rest
    rw [hfilter]
    constructor
    · intro h
      exact ⟨['+'], rest, rfl, .inr rfl, h⟩
    · rintro ⟨sign, digits, hsplit, rfl | rfl, hspelled, hlimit⟩
      · -- The sign is not a digit itself.
        rw [List.nil_append] at hsplit
        rw [← hsplit] at hspelled
        exact absurd (hspelled.2.1 '+' List.mem_cons_self) (by decide)
      · rw [(List.cons.inj hsplit).2]
        exact ⟨hspelled, hlimit⟩
  · rename_i hsign
    rw [hfilter]
    constructor
    · intro h
      exact ⟨[], cs, rfl, .inl rfl, h⟩
    · rintro ⟨sign, digits, rfl, rfl | rfl, h⟩
      · exact h
      · exact absurd rfl (hsign digits)

/-! ## Eight bits -/

/-- A product, if eight bits hold it. -/
def product? (a b : UInt8) : Option UInt8 := if a.toNat * b.toNat < 256 then some (a * b) else none

/-- A sum, if eight bits hold it. -/
def sum? (a b : UInt8) : Option UInt8 := if a.toNat + b.toNat < 256 then some (a + b) else none

/-- Continues a numeral in eight bits; at the first step that they do not hold it is given up. -/
def readByte (value : UInt8) : List Char → Option UInt8
  | [] => some value
  | c :: cs => do
    let tens ← product? value 10
    let digit ← digitIn? 10 c
    let more ← sum? tens (UInt8.ofNat digit)
    readByte more cs

/-- Digits never make a value less. -/
theorem le_ofDigitChars (cs : List Char) (value : Nat) : value ≤ Nat.ofDigitChars 10 cs value := by
  induction cs generalizing value with
  | nil => exact Nat.le_refl value
  | cons c cs ih =>
    rw [Nat.ofDigitChars_cons]
    exact Nat.le_trans (by omega) (ih _)

theorem readByte_cons {value : UInt8} (hd : digitIn? 10 c = some d) :
    readByte value (c :: cs) =
      if value.toNat * 10 + d < 256 then readByte (UInt8.ofNat (value.toNat * 10 + d)) cs
      else none := by
  have hlt := lt_ten_of_digitIn? hd
  have hdigit : (UInt8.ofNat d).toNat = d := Nat.mod_eq_of_lt (by omega)
  have hten : (10 : UInt8).toNat = 10 := rfl
  rw [readByte, product?, hten]
  by_cases htens : value.toNat * 10 < 256
  · have hproduct : (value * 10).toNat = value.toNat * 10 := by
      rw [UInt8.toNat_mul, hten, Nat.mod_eq_of_lt htens]
    rw [if_pos htens, Option.bind_eq_bind, Option.bind_some, hd, Option.bind_eq_bind,
      Option.bind_some, sum?, hproduct, hdigit]
    by_cases hsum : value.toNat * 10 + d < 256
    · have hmore : value * 10 + UInt8.ofNat d = UInt8.ofNat (value.toNat * 10 + d) := by
        rw [← UInt8.toNat_inj, UInt8.toNat_add, hproduct, hdigit]
        rfl
      rw [if_pos hsum, if_pos hsum, hmore]
      rfl
    · rw [if_neg hsum, if_neg hsum]
      rfl
  · rw [if_neg htens, if_neg (by omega)]
    rfl

/-- Eight bits hold every step exactly if they hold the value of the numeral, however long it is. -/
theorem readByte_eq (h : ∀ c ∈ cs, c.isDigit = true) (value : UInt8) :
    readByte value cs =
      if Nat.ofDigitChars 10 cs value.toNat < 256 then
        some (UInt8.ofNat (Nat.ofDigitChars 10 cs value.toNat))
      else none := by
  induction cs generalizing value with
  | nil =>
    have hvalue := value.toNat_lt
    rw [readByte, Nat.ofDigitChars_nil, if_pos hvalue, UInt8.ofNat_toNat]
  | cons c cs ih =>
    obtain ⟨hc, hcs⟩ := List.forall_mem_cons.mp h
    rw [readByte_cons (digitIn?_of_isDigit hc), Nat.ofDigitChars_cons, Nat.mul_comm 10]
    by_cases hfits : value.toNat * 10 + (c.toNat - '0'.toNat) < 256
    · have hmore : (UInt8.ofNat (value.toNat * 10 + (c.toNat - '0'.toNat))).toNat =
          value.toNat * 10 + (c.toNat - '0'.toNat) := Nat.mod_eq_of_lt hfits
      rw [if_pos hfits, ih hcs, hmore]
    · have hle := le_ofDigitChars cs (value.toNat * 10 + (c.toNat - '0'.toNat))
      rw [if_neg hfits, if_neg (by omega)]

end DeviceSleep.Text
