import Mathlib.Algebra.Group.Nat.Defs
import Mathlib.Tactic.ByContra

/-! The order of texts by their bytes. UTF-8 writes a greater character with bytes that come later,
whatever is written behind; so texts are in order by their bytes exactly if they are in order by
their characters. -/
namespace DeviceSleep.Text
set_option autoImplicit false

/-- The bytes of a text in UTF-8. -/
def bytes (s : String) : List UInt8 := s.toUTF8.data.toList

theorem bytes_eq (s : String) : bytes s = s.toList.flatMap String.utf8EncodeChar := by
  conv => lhs; rw [bytes, ← String.ofList_toList (s := s)]
  rw [String.toUTF8_eq_toByteArray, String.toByteArray_ofList, List.utf8Encode]
  simp

/-! ## One character -/

/-- How many bytes follow the first one of a character. -/
def followers (v : Nat) : Nat :=
  if v ≤ 127 then 0 else if v ≤ 2047 then 1 else if v ≤ 65535 then 2 else 3

/-- What the first byte of a character says of the number of bytes that follow. -/
def mark : Nat → Nat
  | 0 => 0
  | 1 => 192
  | 2 => 224
  | _ => 240

/-- Groups of six bits, the highest first. -/
def groups : Nat → Nat → List UInt8
  | 0, _ => []
  | n + 1, v => UInt8.ofNat (v / 64 ^ n % 64 + 128) :: groups n v

def leading (v : Nat) : Nat := v / 64 ^ followers v + mark (followers v)

variable {v w n : Nat} {xs ys : List UInt8}

theorem utf8_eq {c : Char} (hc : c.val.toNat < 1114112) :
    String.utf8EncodeChar c =
      UInt8.ofNat (leading c.val.toNat) :: groups (followers c.val.toNat) c.val.toNat := by
  unfold String.utf8EncodeChar leading followers
  dsimp only
  generalize c.val.toNat = v at hc
  split
  · simp [groups, mark]
  split
  · have hlead : v / 64 % 32 = v / 64 := Nat.mod_eq_of_lt (by omega)
    simp [groups, mark, hlead]
  split
  · have hlead : v / 4096 % 16 = v / 4096 := Nat.mod_eq_of_lt (by omega)
    simp [groups, mark, hlead]
  · have hlead : v / 262144 % 8 = v / 262144 := Nat.mod_eq_of_lt (by omega)
    simp [groups, mark, hlead]

theorem leading_eq (v : Nat) :
    (followers v = 0 ∧ v ≤ 127 ∧ leading v = v) ∨
      (followers v = 1 ∧ 127 < v ∧ v ≤ 2047 ∧ leading v = v / 64 + 192) ∨
      (followers v = 2 ∧ 2047 < v ∧ v ≤ 65535 ∧ leading v = v / 4096 + 224) ∨
      (followers v = 3 ∧ 65535 < v ∧ leading v = v / 262144 + 240) := by
  unfold leading followers
  split
  · simp [mark]
    omega
  split
  · simp [mark]
    omega
  split
  · simp [mark]
    omega
  · simp [mark]
    omega

theorem leading_lt (hv : v < 1114112) : leading v < 256 := by
  have := leading_eq v
  omega

/-- The first byte of the greater character is greater, or as many bytes follow and the bits that it
holds are the same. -/
theorem leading_cases (h : v < w) :
    leading v < leading w ∨ leading v = leading w ∧ followers v = followers w ∧
      v / 64 ^ followers v = w / 64 ^ followers w := by
  by_cases hsame : followers v = followers w
  · have hle : v / 64 ^ followers w ≤ w / 64 ^ followers w := Nat.div_le_div_right (Nat.le_of_lt h)
    rw [leading, leading, hsame]
    omega
  · -- Fewer bytes follow the lesser one, and its first byte is below all that more bytes can follow.
    have hv := leading_eq v
    have hw := leading_eq w
    omega

/-! ## Order -/

/-- Of bytes that differ at the front, the lesser one decides; behind equal ones the rest does. -/
theorem cons_lt_cons {a b : Nat} (ha : a < 256) (hb : b < 256) (h : a < b ∨ a = b ∧ xs < ys) :
    UInt8.ofNat a :: xs < UInt8.ofNat b :: ys := by
  rw [List.cons_lt_cons_iff]
  rcases h with hlt | ⟨rfl, hrest⟩
  · left
    rw [UInt8.lt_iff_toNat_lt, UInt8.toNat_ofNat_of_lt' ha, UInt8.toNat_ofNat_of_lt' hb]
    exact hlt
  · exact .inr ⟨rfl, hrest⟩

theorem groups_lt_groups (h : v < w) (hhigh : v / 64 ^ n = w / 64 ^ n) (xs ys : List UInt8) :
    groups n v ++ xs < groups n w ++ ys := by
  induction n with
  | zero =>
    rw [Nat.pow_zero, Nat.div_one, Nat.div_one] at hhigh
    omega
  | succ n ih =>
    rw [Nat.pow_succ, ← Nat.div_div_eq_div_mul, ← Nat.div_div_eq_div_mul] at hhigh
    have hle : v / 64 ^ n ≤ w / 64 ^ n := Nat.div_le_div_right (Nat.le_of_lt h)
    refine cons_lt_cons (by omega) (by omega) ?_
    by_cases heq : v / 64 ^ n = w / 64 ^ n
    · exact .inr ⟨by rw [heq], ih heq⟩
    · left
      omega

theorem utf8_lt_utf8 {c d : Char} (h : c < d) (xs ys : List UInt8) :
    String.utf8EncodeChar c ++ xs < String.utf8EncodeChar d ++ ys := by
  have hlt : c.val.toNat < d.val.toNat := h
  have hd : d.val.toNat < 1114112 := by
    have hvalid : d.val.toNat < 0xd800 ∨ 0xdfff < d.val.toNat ∧ d.val.toNat < 0x110000 := d.valid
    omega
  rw [utf8_eq (by omega), utf8_eq hd]
  refine cons_lt_cons (leading_lt (by omega)) (leading_lt hd) ?_
  rcases leading_cases hlt with hfirst | ⟨hsame, hwidth, hhigh⟩
  · exact .inl hfirst
  · rw [hwidth] at hhigh ⊢
    exact .inr ⟨hsame, groups_lt_groups hlt hhigh xs ys⟩

/-! ## Texts -/

theorem flatMap_utf8_lt {cs ds : List Char} (h : cs < ds) :
    cs.flatMap String.utf8EncodeChar < ds.flatMap String.utf8EncodeChar := by
  induction cs generalizing ds with
  | nil =>
    cases ds with
    | nil => exact absurd h (List.lt_irrefl [])
    | cons d ds =>
      obtain ⟨b, bs, hd⟩ := List.exists_cons_of_ne_nil (String.utf8EncodeChar_ne_nil (c := d))
      rw [List.flatMap_cons, hd]
      exact List.nil_lt_cons _ _
  | cons c cs ih =>
    cases ds with
    | nil => exact absurd h (List.not_lt_nil _)
    | cons d ds =>
      rw [List.flatMap_cons, List.flatMap_cons]
      rcases List.cons_lt_cons_iff.mp h with hlt | ⟨rfl, hrest⟩
      · exact utf8_lt_utf8 hlt _ _
      · exact List.append_left_lt (ih hrest)

theorem bytes_lt_iff {s t : String} : bytes s < bytes t ↔ s < t := by
  have hmono : ∀ {s t : String}, s < t → bytes s < bytes t := by
    intro s t h
    rw [bytes_eq, bytes_eq]
    exact flatMap_utf8_lt (String.lt_iff.mp h)
  refine ⟨fun h => ?_, hmono⟩
  by_contra hnot
  have hle : t ≤ s := String.not_lt.mp hnot
  by_cases heq : t = s
  · rw [heq] at h
    exact List.lt_irrefl _ h
  · exact List.lt_asymm h (hmono (Std.lt_of_le_of_ne hle heq))

end DeviceSleep.Text
