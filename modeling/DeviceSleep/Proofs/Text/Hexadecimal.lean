import DeviceSleep.Text.HexDump
import Mathlib.Tactic.IntervalCases

/-! Hexadecimal digits are read back as what they stand for, and so are numerals and bytes. The numerals
are the usual ones in base 16, without zeros in front; a byte has two digits. -/
namespace DeviceSleep.Text
set_option autoImplicit false

/-! ## Digits -/

theorem digit?_hexDigit {n : Nat} (h : n < 16) : digit? (hexDigit n) = some n := by
  interval_cases n <;> rfl

/-- Neither a blank nor a line feed. -/
def isMark (c : Char) : Bool := c != ' ' && c != '\n'

theorem isMark_hexDigit {n : Nat} (h : n < 16) : isMark (hexDigit n) = true := by
  interval_cases n <;> rfl

/-! ## Numerals -/

theorem readDigits_append (radix value : Nat) (front back : List Char) :
    readDigits radix value (front ++ back) =
      (readDigits radix value front).bind fun v => readDigits radix v back := by
  induction front generalizing value with
  | nil => rfl
  | cons c front ih =>
    rw [List.cons_append, readDigits, readDigits]
    cases digitIn? radix c with
    | none => rfl
    | some d => exact ih _

theorem digitIn?_hexDigit {n : Nat} (h : n < 16) : digitIn? 16 (hexDigit n) = some n := by
  rw [digitIn?, digit?_hexDigit h, Option.filter_some, if_pos (by simpa using h)]

theorem exists_digit_of_mem {places n : Nat} {c : Char} (h : c ∈ hexDigitsUp places n) :
    ∃ d < 16, c = hexDigit d := by
  induction places generalizing n with
  | zero => cases h
  | succ places ih =>
    rw [hexDigitsUp] at h
    split at h
    · cases h
    · rcases List.mem_cons.mp h with rfl | h
      · exact ⟨n % 16, Nat.mod_lt n (by decide), rfl⟩
      · exact ih h

/-- Digits from the least one on, read from the greatest. -/
theorem readDigits_hexDigitsUp {places n : Nat} (h : n < 16 ^ places) :
    readDigits 16 0 (hexDigitsUp places n).reverse = some n := by
  induction places generalizing n with
  | zero =>
    obtain rfl : n = 0 := by simpa using h
    rfl
  | succ places ih =>
    rw [hexDigitsUp]
    split
    · rename_i hzero
      rw [hzero]
      rfl
    · have hrest : n / 16 < 16 ^ places := by
        rw [Nat.div_lt_iff_lt_mul (by decide)]
        exact h
      have hvalue : n / 16 * 16 + n % 16 = n := Nat.div_add_mod' n 16
      rw [List.reverse_cons, readDigits_append, ih hrest]
      change readDigits 16 (n / 16) [hexDigit (n % 16)] = some n
      rw [readDigits, digitIn?_hexDigit (Nat.mod_lt n (by decide))]
      change some (n / 16 * 16 + n % 16) = some n
      rw [hvalue]

theorem unsigned?_of_digits {radix limit value : Nat} {cs : List Char} (hne : cs ≠ [])
    (hsign : '+' ∉ cs) (hread : readDigits radix 0 cs = some value) (hlimit : value ≤ limit) :
    unsigned? radix limit cs = some value := by
  cases cs with
  | nil => exact absurd rfl hne
  | cons c cs =>
    have hfirst : ∀ rest, c :: cs ≠ '+' :: rest := by
      intro rest heq
      rw [heq] at hsign
      exact hsign List.mem_cons_self
    rw [unsigned?, digits?, hread, Option.filter_some, if_pos (by simpa using hlimit)]
    · exact nofun
    · exact hfirst

theorem exists_digit_of_mem_hex32 {n : UInt32} {c : Char} (h : c ∈ hex32 n) :
    ∃ d < 16, c = hexDigit d := by
  unfold hex32 at h
  split at h
  · exact ⟨0, by decide, List.mem_singleton.mp h⟩
  · exact exists_digit_of_mem (List.mem_reverse.mp h)

/-- A number of 32 bits is read back from its digits. -/
theorem unsigned?_hex32 (n : UInt32) : unsigned? 16 0xFFFFFFFF (hex32 n) = some n.toNat := by
  have hn := n.toNat_lt
  by_cases hzero : n = 0
  · rw [hzero]
    rfl
  · have hdigits : hex32 n = (hexDigitsUp 8 n.toNat).reverse := if_neg hzero
    have hpositive : n.toNat ≠ 0 := fun h => hzero (UInt32.toNat_inj.mp h)
    refine unsigned?_of_digits ?_ ?_ ?_ (by omega)
    · rw [hdigits, ne_eq, List.reverse_eq_nil_iff, hexDigitsUp, if_neg hpositive]
      exact List.cons_ne_nil _ _
    · intro hplus
      obtain ⟨d, hd, heq⟩ := exists_digit_of_mem_hex32 hplus
      interval_cases d <;> cases heq
    · rw [hdigits]
      exact readDigits_hexDigitsUp hn

/-! ## The usual numerals -/

theorem hexDigit_eq_digitChar {n : Nat} (h : n < 16) : hexDigit n = n.digitChar := by
  interval_cases n <;> rfl

theorem hexDigitsUp_zero (places : Nat) : hexDigitsUp places 0 = [] := by
  cases places <;> rfl

theorem reverse_hexDigitsUp {places n : Nat} (hpos : n ≠ 0) (h : n < 16 ^ places) :
    (hexDigitsUp places n).reverse = Nat.toDigits 16 n := by
  induction places generalizing n with
  | zero => exact absurd (by simpa using h) hpos
  | succ places ih =>
    rw [hexDigitsUp, if_neg hpos, List.reverse_cons, hexDigit_eq_digitChar (Nat.mod_lt n (by decide))]
    by_cases hsmall : n < 16
    · rw [Nat.div_eq_of_lt hsmall, Nat.mod_eq_of_lt hsmall, hexDigitsUp_zero,
        Nat.toDigits_of_lt_base hsmall]
      rfl
    · have hrest : n / 16 < 16 ^ places := by
        rw [Nat.div_lt_iff_lt_mul (by decide)]
        exact h
      rw [ih (by omega) hrest, ← Nat.toDigits_of_base_le (by decide) (by omega)]

/-- The digits of a number of 32 bits are its numeral in base 16. -/
theorem hex32_eq_toDigits (n : UInt32) : hex32 n = Nat.toDigits 16 n.toNat := by
  by_cases hzero : n = 0
  · rw [hzero]
    rfl
  · have hpos : n.toNat ≠ 0 := fun h => hzero (UInt32.toNat_inj.mp h)
    rw [hex32, if_neg hzero, reverse_hexDigitsUp hpos n.toNat_lt]

/-- The digits of a byte are its numeral in base 16, filled up with a zero to two. -/
theorem hexByte_eq_leftpad (b : UInt8) : hexByte b = (Nat.toDigits 16 b.toNat).leftpad 2 '0' := by
  have hb := b.toNat_lt
  have hhigh : b.toNat / 16 < 16 := by omega
  rw [hexByte, hexDigit_eq_digitChar hhigh, hexDigit_eq_digitChar (Nat.mod_lt _ (by decide))]
  by_cases hsmall : b.toNat < 16
  · rw [Nat.div_eq_of_lt hsmall, Nat.mod_eq_of_lt hsmall, Nat.toDigits_of_lt_base hsmall]
    rfl
  · rw [Nat.toDigits_of_base_le (by decide) (by omega), Nat.toDigits_of_lt_base hhigh]
    rfl

/-! ## Bytes -/

theorem filter_hexByte (b : UInt8) : (hexByte b).filter isMark = hexByte b := by
  have hb := b.toNat_lt
  have hhigh : isMark (hexDigit (b.toNat / 16)) = true := isMark_hexDigit (by omega)
  have hlow : isMark (hexDigit (b.toNat % 16)) = true := isMark_hexDigit (by omega)
  rw [hexByte, List.filter_cons_of_pos hhigh, List.filter_cons_of_pos hlow, List.filter_nil]

theorem bytes?_hexByte (b : UInt8) (rest : List Char) :
    bytes? (hexByte b ++ rest) = (bytes? rest).map (b :: ·) := by
  have hb := b.toNat_lt
  have hvalue : 16 * (b.toNat / 16) + b.toNat % 16 = b.toNat := Nat.div_add_mod b.toNat 16
  change bytes? (hexDigit (b.toNat / 16) :: hexDigit (b.toNat % 16) :: rest) = _
  rw [bytes?, digit?_hexDigit (by omega), digit?_hexDigit (by omega)]
  cases bytes? rest with
  | none => rfl
  | some bytes =>
    change some (UInt8.ofNat (16 * (b.toNat / 16) + b.toNat % 16) :: bytes) = some (b :: bytes)
    rw [hvalue, UInt8.ofNat_toNat]

theorem hexPlain_flatten (parts : List (List UInt8)) :
    hexPlain parts.flatten = (parts.map hexPlain).flatten := by
  simp only [hexPlain, List.flatMap_def, List.map_flatten, List.flatten_flatten, List.map_map]
  rfl

/-- Bytes in one piece are read back. -/
theorem bytes?_hexPlain (bytes : List UInt8) : bytes? (hexPlain bytes) = some bytes := by
  induction bytes with
  | nil => rfl
  | cons b bytes ih =>
    change bytes? (hexByte b ++ hexPlain bytes) = _
    rw [bytes?_hexByte, ih]
    rfl

end DeviceSleep.Text
