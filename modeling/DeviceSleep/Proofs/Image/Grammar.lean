import DeviceSleep.Proofs.Image.Tiling

/-! What a reader makes of any byte string at all. The head is judged by its fields alone, in
reading order; the records of an image that is read are those of the tiling of its area. -/
namespace DeviceSleep.Image
set_option autoImplicit false

open Bytes

/-! ## The head -/

theorem ofCode?_of_lt {code : UInt8} (h : 3 < code.toNat) : Mode.ofCode? code = none := by
  refine List.find?_eq_none.mpr ?_
  intro mode _ hcode
  rw [← eq_of_beq hcode] at h
  cases mode <;> exact absurd h (by decide)

theorem ofCode?_of_le {code : UInt8} (h : code.toNat ≤ 3) :
    Mode.ofCode? code = some (Mode.all.getD code.toNat .none) := by
  have hcode : code = 0 ∨ code = 1 ∨ code = 2 ∨ code = 3 := by
    simp only [← UInt8.toNat_inj]
    change code.toNat = 0 ∨ code.toNat = 1 ∨ code.toNat = 2 ∨ code.toNat = 3
    omega
  rcases hcode with rfl | rfl | rfl | rfl <;> rfl

/-- What the fields of a head say about an image, the first fault first. -/
def readHead (bytes : List UInt8) : Except Fault View :=
  let size := field bytes 0 2
  let areaLength := field bytes 12 4
  if bytes.length < 16 then .error (.truncated 16 bytes.length)
  else if size < 16 then .error (.badDescriptorSize (.ofNat size))
  else if 3 < field bytes 4 1 then .error (.unknownMode (.ofNat (field bytes 4 1)))
  else if bytes.length < size + areaLength then
    .error (.truncated (size + areaLength) bytes.length)
  else
    .ok
      { size := .ofNat size
        version := .ofNat (field bytes 2 2)
        mode := Mode.all.getD (field bytes 4 1) .none
        flags := ⟨.ofNat (field bytes 8 4)⟩
        area := (bytes.drop size).take areaLength }

theorem parse_short {bytes : List UInt8} (h : bytes.length < 16) :
    View.parse bytes = .error (.truncated 16 bytes.length) := by
  unfold View.parse
  split
  · simp only [List.length_cons] at h
    omega
  · rfl

theorem parse_eq_readHead (bytes : List UInt8) : View.parse bytes = readHead bytes := by
  unfold readHead
  dsimp only
  by_cases h16 : bytes.length < 16
  · rw [if_pos h16, parse_short h16]
  · rw [if_neg h16]
    unfold View.parse
    split
    · rename_i s₀ s₁ v₀ v₁ m r₀ r₁ r₂ f₀ f₁ f₂ f₃ n₀ n₁ n₂ n₃ rest
      have hsize : (word16 s₀ s₁).toNat = value [s₀, s₁] := toNat_word16_eq_value s₀ s₁
      have harea : (word32 n₀ n₁ n₂ n₃).toNat = value [n₀, n₁, n₂, n₃] :=
        toNat_word32_eq_value n₀ n₁ n₂ n₃
      have hsmall : UInt16.ofNat (value [s₀, s₁]) < Descriptor.size ↔ value [s₀, s₁] < 16 := by
        rw [← word16_eq_value, UInt16.lt_iff_toNat_lt, hsize]
        rfl
      have hmode : value [m] = m.toNat := by simp [value]
      generalize hb : s₀ :: s₁ :: v₀ :: v₁ :: m :: r₀ :: r₁ :: r₂ :: f₀ :: f₁ :: f₂ :: f₃ ::
        n₀ :: n₁ :: n₂ :: n₃ :: rest = bytes at h16 ⊢
      have hf0 : field bytes 0 2 = value [s₀, s₁] := by rw [← hb]; rfl
      have hf2 : field bytes 2 2 = value [v₀, v₁] := by rw [← hb]; rfl
      have hf4 : field bytes 4 1 = m.toNat := by rw [← hb, ← hmode]; rfl
      have hf8 : field bytes 8 4 = value [f₀, f₁, f₂, f₃] := by rw [← hb]; rfl
      have hf12 : field bytes 12 4 = value [n₀, n₁, n₂, n₃] := by rw [← hb]; rfl
      dsimp only
      rw [hf0, hf2, hf4, hf8, hf12, hsize, harea, word16_eq_value, word16_eq_value,
        word32_eq_value]
      by_cases hs : value [s₀, s₁] < 16
      · rw [if_pos hs, if_pos (hsmall.mpr hs)]
      · rw [if_neg hs, if_neg fun h => hs (hsmall.mp h)]
        by_cases hm : 3 < m.toNat
        · rw [if_pos hm, ofCode?_of_lt hm, UInt8.ofNat_toNat]
        · rw [if_neg hm, ofCode?_of_le (by omega)]
    · rename_i hne
      rcases bytes with _ | ⟨s₀, _ | ⟨s₁, _ | ⟨v₀, _ | ⟨v₁, _ | ⟨m, _ | ⟨r₀, _ | ⟨r₁, _ | ⟨r₂,
        _ | ⟨f₀, _ | ⟨f₁, _ | ⟨f₂, _ | ⟨f₃, _ | ⟨n₀, _ | ⟨n₁, _ | ⟨n₂, _ | ⟨n₃, rest⟩⟩⟩⟩⟩⟩⟩⟩⟩⟩⟩⟩⟩⟩⟩⟩
      all_goals first | exact (hne _ _ _ _ _ _ _ _ _ _ _ _ _ _ _ _ _ rfl).elim | simp at h16

/-! ## Any byte string -/

/-- What a reader makes of any bytes. The head is judged by its fields. Where there is an image, its
area falls into records and a rest in exactly one way, and a cursor gives these records with their
kind, version, size and the bytes behind their heads, then one fault if there is a rest, then
nothing at every later call. -/
theorem read_any_bytes (bytes : List UInt8) :
    View.parse bytes = readHead bytes ∧
    ∀ view, View.parse bytes = .ok view →
      (∃! parts : List (List UInt8) × List UInt8, Tiling view.area parts.1 parts.2) ∧
      ∀ records rest, Tiling view.area records rest → ∀ n,
        nth n view.area = (records.map (fun r => .ok (.ofBytes r)) ++ closing rest)[n]? := by
  refine ⟨parse_eq_readHead bytes, ?_⟩
  intro view _
  refine ⟨existsUnique_tiling view.area, ?_⟩
  intro records rest h n
  exact h.nth_eq n

end DeviceSleep.Image
