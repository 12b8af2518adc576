import DeviceSleep.Bytes.LittleEndian
import Mathlib.Algebra.Group.Nat.Defs

/-! Numbers in fields of a byte string: a field is a stretch of bytes, its number the one that they
spell with the least significant byte first. -/
namespace DeviceSleep.Bytes
set_option autoImplicit false

/-- The number that bytes spell, the least significant first. -/
def value : List UInt8 → Nat
  | [] => 0
  | b :: bs => b.toNat + 256 * value bs

/-- The number in a field, by where the field begins and how wide it is. -/
def field (bytes : List UInt8) (start width : Nat) : Nat := value ((bytes.drop start).take width)

theorem value_ofWord16 (n : UInt16) : value (ofWord16 n) = n.toNat := by
  have h := n.toNat_lt
  simp only [ofWord16, value, UInt8.toNat_ofNat']
  omega

theorem value_ofWord32 (n : UInt32) : value (ofWord32 n) = n.toNat := by
  have h := n.toNat_lt
  simp only [ofWord32, value, UInt8.toNat_ofNat']
  omega

theorem word16_eq_value (a b : UInt8) : word16 a b = .ofNat (value [a, b]) := rfl

theorem word32_eq_value (a b c d : UInt8) : word32 a b c d = .ofNat (value [a, b, c, d]) := by
  unfold word32
  congr 1
  simp only [value]
  omega

theorem toNat_word16_eq_value (a b : UInt8) : (word16 a b).toNat = value [a, b] :=
  toNat_word16 a b

theorem toNat_word32_eq_value (a b c d : UInt8) : (word32 a b c d).toNat = value [a, b, c, d] := by
  rw [toNat_word32]
  simp only [value]
  omega

/-! ## Fields -/

/-- Bytes behind a field do not count. -/
theorem field_append {bytes : List UInt8} {start width : Nat} (h : start + width ≤ bytes.length)
    (rest : List UInt8) : field (bytes ++ rest) start width = field bytes start width := by
  unfold field
  rw [List.drop_append_of_le_length (by omega),
    List.take_append_of_le_length (by rw [List.length_drop]; omega)]

theorem field_take {bytes : List UInt8} {n start width : Nat} (h : start + width ≤ n)
    (hn : n ≤ bytes.length) : field (bytes.take n) start width = field bytes start width := by
  have hlength : (bytes.take n).length = n := List.length_take_of_le hn
  conv => rhs; rw [← List.take_append_drop n bytes]
  rw [field_append (by omega)]

theorem value_lt (bytes : List UInt8) : value bytes < 256 ^ bytes.length := by
  induction bytes with
  | nil => exact Nat.one_pos
  | cons b bytes ih =>
    have hb := b.toNat_lt
    rw [value, List.length_cons, Nat.pow_succ]
    omega

theorem field_lt (bytes : List UInt8) (start width : Nat) :
    field bytes start width < 256 ^ width := by
  have hle : 256 ^ ((bytes.drop start).take width).length ≤ 256 ^ width :=
    Nat.pow_le_pow_right (by decide) (List.length_take_le _ _)
  exact Nat.lt_of_lt_of_le (value_lt _) hle

/-! ## Bytes from fields -/

/-- As many bytes as one has are determined by the number that they spell. -/
theorem eq_of_value_eq {xs ys : List UInt8} (hlength : xs.length = ys.length)
    (h : value xs = value ys) : xs = ys := by
  induction xs generalizing ys with
  | nil => exact (List.length_eq_zero_iff.mp hlength.symm).symm
  | cons x xs ih =>
    cases ys with
    | nil => cases hlength
    | cons y ys =>
      have hx := x.toNat_lt
      have hy := y.toNat_lt
      simp only [value] at h
      have hhead : x = y := UInt8.toNat_inj.mp (by omega)
      have hrest : value xs = value ys := by omega
      rw [hhead, ih (Nat.succ.inj hlength) hrest]

/-- A field that has the number of some bytes holds these bytes. -/
theorem drop_eq_append {bytes part : List UInt8} {start : Nat}
    (hlength : start + part.length ≤ bytes.length)
    (h : field bytes start part.length = value part) :
    bytes.drop start = part ++ bytes.drop (start + part.length) := by
  have hpart : (bytes.drop start).take part.length = part := by
    refine eq_of_value_eq ?_ h
    rw [List.length_take, List.length_drop]
    omega
  conv => rhs; lhs; rw [← hpart]
  rw [← List.drop_drop, List.take_append_drop]

theorem drop_eq_ofWord16 {bytes : List UInt8} {start : Nat} (h : start + 2 ≤ bytes.length) :
    bytes.drop start = ofWord16 (.ofNat (field bytes start 2)) ++ bytes.drop (start + 2) := by
  refine drop_eq_append h ?_
  have hlt : field bytes start 2 < 2 ^ 16 := field_lt bytes start 2
  rw [value_ofWord16, UInt16.toNat_ofNat', length_ofWord16]
  exact (Nat.mod_eq_of_lt hlt).symm

theorem drop_eq_ofWord32 {bytes : List UInt8} {start : Nat} (h : start + 4 ≤ bytes.length) :
    bytes.drop start = ofWord32 (.ofNat (field bytes start 4)) ++ bytes.drop (start + 4) := by
  refine drop_eq_append h ?_
  have hlt : field bytes start 4 < 2 ^ 32 := field_lt bytes start 4
  rw [value_ofWord32, UInt32.toNat_ofNat', length_ofWord32]
  exact (Nat.mod_eq_of_lt hlt).symm

theorem drop_eq_byte {bytes : List UInt8} {start : Nat} {b : UInt8}
    (hlength : start + 1 ≤ bytes.length) (h : field bytes start 1 = b.toNat) :
    bytes.drop start = [b] ++ bytes.drop (start + 1) :=
  drop_eq_append hlength h

/-- The bytes of the word that bytes make are these bytes. -/
theorem ofWord16_word16 (a b : UInt8) : ofWord16 (word16 a b) = [a, b] :=
  eq_of_value_eq rfl ((value_ofWord16 _).trans (toNat_word16_eq_value a b))

theorem ofWord32_word32 (a b c d : UInt8) : ofWord32 (word32 a b c d) = [a, b, c, d] :=
  eq_of_value_eq rfl ((value_ofWord32 _).trans (toNat_word32_eq_value a b c d))

end DeviceSleep.Bytes
