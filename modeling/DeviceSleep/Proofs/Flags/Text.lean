import DeviceSleep.Flags
import DeviceSleep.Proofs.Text.Hexadecimal
import DeviceSleep.Proofs.Text.Trimming

/-! The text of flags says all their bits: the named one by its name, and the others in a number. -/
namespace DeviceSleep.Flags
set_option autoImplicit false

/-! ## Bits -/

theorem named_union_unnamed (f : Flags) : f.named.union f.unnamed = f := by
  have hbits : (f.bits &&& 1) ||| (f.bits &&& ~~~1) = f.bits := by
    apply UInt32.toBitVec_inj.mp
    ext i hi
    simp only [UInt32.toBitVec_or, UInt32.toBitVec_and, UInt32.toBitVec_not, BitVec.getElem_or,
      BitVec.getElem_and, BitVec.getElem_not]
    cases f.bits.toBitVec[i] <;> cases (1 : UInt32).toBitVec[i] <;> rfl
  unfold named unnamed union
  rw [hbits]

theorem toNat_named (f : Flags) : f.named.bits.toNat = f.bits.toNat % 2 := by
  rw [named, UInt32.toNat_and]
  exact Nat.and_one_is_mod _

theorem contains_waitCloud (f : Flags) : f.contains waitCloud = decide (f.bits.toNat % 2 = 1) := by
  rw [← toNat_named, Bool.eq_iff_iff, decide_eq_true_iff, contains, waitCloud, beq_iff_eq,
    ← UInt32.toNat_inj]
  rfl

theorem named_of_contains {f : Flags} (h : f.contains waitCloud = true) : f.named = waitCloud := by
  have hbit : f.bits &&& 1 = 1 := eq_of_beq h
  unfold named waitCloud
  rw [hbit]

theorem named_of_not_contains {f : Flags} (h : f.contains waitCloud = false) :
    f.named = empty := by
  rw [contains_waitCloud, decide_eq_false_iff_not] at h
  have hbits : f.named.bits.toNat = 0 := by
    rw [toNat_named]
    omega
  have hzero : f.bits &&& 1 = 0 := UInt32.toNat_inj.mp hbits
  unfold named empty
  rw [hzero]

theorem union_empty (f : Flags) : f.union empty = f := by
  unfold union empty
  rw [UInt32.or_zero]

/-! ## Parts -/

/-- The part for the bits without a name. -/
def rest (f : Flags) : List Char := '0' :: 'x' :: Text.hex32 f.unnamed.bits

theorem notBlank_of_mem_rest {f : Flags} {c : Char} (h : c ∈ f.rest) :
    Text.isBlank c = false ∧ c ≠ '|' := by
  rcases List.mem_cons.mp h with rfl | h
  · decide
  · rcases List.mem_cons.mp h with rfl | h
    · decide
    · obtain ⟨d, hd, rfl⟩ := Text.exists_digit_of_mem_hex32 h
      interval_cases d <;> decide

theorem part?_rest (f : Flags) : part? f.rest = some f.unnamed := by
  rw [rest, part?, Text.unsigned?_hex32]
  change some (⟨UInt32.ofNat f.unnamed.bits.toNat⟩ : Flags) = some f.unnamed
  rw [UInt32.ofNat_toNat]

theorem pieces_rest (f : Flags) : Text.pieces '|' f.rest = [f.rest] :=
  Text.pieces_of_notMem fun h => (notBlank_of_mem_rest h).2 rfl

theorem trim_rest (f : Flags) : Text.trim f.rest = f.rest :=
  Text.trim_of_noBlank fun _ h => (notBlank_of_mem_rest h).1

/-! ## The whole text -/

/-- Flags are read back from their text. -/
theorem read?_render (f : Flags) : read? f.render = some f := by
  have hsplit := f.named_union_unnamed
  -- Four texts: nothing, the name, the number, or the name and the number.
  by_cases hnamed : f.contains waitCloud = true
  · rw [named_of_contains hnamed] at hsplit
    by_cases hrest : f.unnamed = empty
    · rw [render, if_pos hnamed, if_pos hrest, ← hsplit, hrest]
      decide
    · have htext : f.render = (waitCloudName ++ [' ']) ++ '|' :: ' ' :: f.rest := by
        rw [render, if_pos hnamed, if_neg hrest]
        rfl
      have hpieces : Text.pieces '|' f.render = [waitCloudName ++ [' '], ' ' :: f.rest] := by
        rw [htext, Text.pieces_append, Text.pieces, if_neg (by decide), pieces_rest]
        rfl
      have hblank : f.render.all Text.isBlank = false := by
        rw [htext]
        rfl
      have htrim : Text.trim (' ' :: f.rest) = f.rest := f.trim_rest
      have hfirst : part? (Text.trim (waitCloudName ++ [' '])) = some waitCloud := by decide
      rw [read?, hblank, if_neg Bool.false_ne_true, hpieces, parts?, hfirst, parts?, htrim,
        part?_rest, parts?]
      change some (waitCloud.union (f.unnamed.union empty)) = some f
      rw [union_empty, hsplit]
  · have hunnamed : f.unnamed = f := by
      rw [named_of_not_contains (eq_false_of_ne_true hnamed)] at hsplit
      unfold union empty at hsplit
      rw [UInt32.zero_or] at hsplit
      exact hsplit
    by_cases hrest : f.unnamed = empty
    · rw [render, if_neg hnamed, if_pos hrest, ← hunnamed, hrest]
      decide
    · have htext : f.render = f.rest := by
        rw [render, if_neg hnamed, if_neg hrest]
        rfl
      have hblank : f.rest.all Text.isBlank = false := rfl
      rw [htext, read?, hblank, if_neg Bool.false_ne_true, pieces_rest, parts?, trim_rest,
        part?_rest, parts?]
      change some (f.unnamed.union empty) = some f
      rw [union_empty, hunnamed]

@[simp] theorem parse?_text (f : Flags) : parse? f.text = some f := by
  rw [parse?, text, String.toList_ofList]
  exact f.read?_render

end DeviceSleep.Flags
