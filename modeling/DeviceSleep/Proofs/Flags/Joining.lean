import DeviceSleep.Proofs.Flags.Text

/-! Texts of flags with bars between them. A text means the union of what its parts mean, so texts that
are not blank can be joined, in any order and as often as wanted; and the text that is written for flags
is the name of the named bit and the numeral of the others, joined in the same way. -/
namespace DeviceSleep.Flags
set_option autoImplicit false

variable {f g : Flags} {fs gs : List Flags} {a b : List Char} {texts : List (List Char)}

/-! ## Unions -/

def unite (fs : List Flags) : Flags := fs.foldr union empty

theorem testBit_union (f g : Flags) (i : Nat) :
    (f.union g).bits.toNat.testBit i = (f.bits.toNat.testBit i || g.bits.toNat.testBit i) := by
  simp [union]

theorem testBit_unite (fs : List Flags) (i : Nat) :
    (unite fs).bits.toNat.testBit i = fs.any fun f => f.bits.toNat.testBit i := by
  induction fs with
  | nil => simp [unite, empty]
  | cons f fs ih =>
    rw [List.any_cons, ← ih]
    exact testBit_union f (unite fs) i

theorem eq_of_testBit (h : ∀ i, f.bits.toNat.testBit i = g.bits.toNat.testBit i) : f = g := by
  have hbits : f.bits = g.bits := UInt32.toNat_inj.mp (Nat.eq_of_testBit_eq h)
  cases f
  cases g
  exact congrArg Flags.mk hbits

/-- A union depends on nothing but which flags are in it. -/
theorem unite_eq_of_mem_iff (h : ∀ f, f ∈ fs ↔ f ∈ gs) : unite fs = unite gs := by
  refine eq_of_testBit fun i => ?_
  rw [testBit_unite, testBit_unite, Bool.eq_iff_iff, List.any_eq_true, List.any_eq_true]
  simp only [h]

theorem union_assoc (f g h : Flags) : (f.union g).union h = f.union (g.union h) := by
  refine eq_of_testBit fun i => ?_
  simp only [testBit_union, Bool.or_assoc]

/-! ## Reading what is joined -/

theorem parts?_append (ps qs : List (List Char)) :
    parts? (ps ++ qs) = (parts? ps).bind fun f => (parts? qs).map f.union := by
  induction ps with
  | nil =>
    have hempty : union empty = id := funext fun f => by simp [union, empty]
    simp [parts?, hempty]
  | cons p ps ih =>
    rw [List.cons_append, parts?, parts?, ih]
    cases part? (Text.trim p) with
    | none => rfl
    | some first =>
      cases parts? ps with
      | none => rfl
      | some rest =>
        cases parts? qs with
        | none => rfl
        | some more => exact congrArg some (union_assoc first rest more).symm

theorem read?_of_not_blank (h : a.all Text.isBlank = false) :
    read? a = parts? (Text.pieces '|' a) := by
  rw [read?, h, if_neg Bool.false_ne_true]

theorem not_blank_append (h : a.all Text.isBlank = false) (b : List Char) :
    (a ++ b).all Text.isBlank = false := by
  rw [List.all_append, h, Bool.false_and]

theorem read?_append (ha : a.all Text.isBlank = false) (hb : b.all Text.isBlank = false) :
    read? (a ++ '|' :: b) = (read? a).bind fun f => (read? b).map f.union := by
  rw [read?_of_not_blank (not_blank_append ha _), Text.pieces_append, parts?_append,
    ← read?_of_not_blank ha, ← read?_of_not_blank hb]

/-- Texts with bars between them mean the union of what they mean. -/
theorem read?_intercalate (hne : texts ≠ [])
    (htexts : ∀ t ∈ texts, t.all Text.isBlank = false ∧ ∃ f, read? t = some f) :
    (['|'].intercalate texts).all Text.isBlank = false ∧
      read? (['|'].intercalate texts) = some (unite (texts.filterMap read?)) := by
  induction texts with
  | nil => exact absurd rfl hne
  | cons t texts ih =>
    obtain ⟨⟨hblank, f, hf⟩, hmore⟩ := List.forall_mem_cons.mp htexts
    rw [List.filterMap_cons_some hf]
    cases texts with
    | nil =>
      rw [List.intercalate_singleton]
      exact ⟨hblank, hf.trans (congrArg some (union_empty f).symm)⟩
    | cons u texts =>
      obtain ⟨hrest, hread⟩ := ih (List.cons_ne_nil u texts) hmore
      rw [List.intercalate_cons_cons, List.append_assoc, List.singleton_append]
      refine ⟨not_blank_append hblank _, ?_⟩
      rw [read?_append hblank hrest, hf, hread]
      rfl

/-! ## What is written -/

theorem toNat_unnamed (f : Flags) : f.unnamed.bits.toNat = 2 * (f.bits.toNat / 2) := by
  have hlt := f.bits.toNat_lt
  have hmask : f.unnamed.bits.toNat = f.bits.toNat &&& 4294967294 := UInt32.toNat_and _ _
  have hhalf : (f.bits.toNat &&& 4294967294) / 2 = f.bits.toNat / 2 % 2 ^ 31 := by
    rw [Nat.and_div_two, ← Nat.and_two_pow_sub_one_eq_mod]
  have heven : (f.bits.toNat &&& 4294967294) % 2 ≠ 1 := by
    rw [ne_eq, Nat.and_mod_two_eq_one]
    omega
  omega

theorem unnamed_eq_empty_iff (f : Flags) : f.unnamed = empty ↔ f.bits.toNat / 2 = 0 := by
  have hbits : f.unnamed = empty ↔ f.unnamed.bits = 0 := by
    rw [empty]
    cases f.unnamed
    simp
  rw [hbits, ← UInt32.toNat_inj, toNat_unnamed, UInt32.toNat_zero]
  omega

/-- The parts of the text: the name of the named bit, and the numeral of the other bits in base 16. -/
def partTexts (f : Flags) : List String :=
  (if f.bits.toNat % 2 = 1 then ["WAIT_CLOUD"] else []) ++
    if f.bits.toNat / 2 = 0 then []
    else ["0x" ++ String.ofList (Nat.toDigits 16 (2 * (f.bits.toNat / 2)))]

theorem text_eq_intercalate (f : Flags) : f.text = " | ".intercalate f.partTexts := by
  have hrest : '0' :: 'x' :: Text.hex32 f.unnamed.bits =
      "0x".toList ++ Nat.toDigits 16 (2 * (f.bits.toNat / 2)) := by
    rw [Text.hex32_eq_toDigits, toNat_unnamed]
    rfl
  have hname : String.ofList waitCloudName = "WAIT_CLOUD" := String.ofList_toList
  have hseparated : waitCloudName ++ ' ' :: '|' :: ' ' :: '0' :: 'x' :: Text.hex32 f.unnamed.bits =
      waitCloudName ++ (" | ".toList ++ ("0x".toList ++
        Nat.toDigits 16 (2 * (f.bits.toNat / 2)))) := by
    rw [hrest]
    rfl
  rw [text, render, hseparated, hrest, contains_waitCloud, partTexts]
  simp only [unnamed_eq_empty_iff, decide_eq_true_eq]
  by_cases hnamed : f.bits.toNat % 2 = 1
  · by_cases hnone : f.bits.toNat / 2 = 0
    · simp only [hnamed, hnone, if_true, List.append_nil, String.intercalate_singleton,
        hname]
    · simp only [hnamed, hnone, if_true, if_false, List.singleton_append, String.intercalate_cons_cons,
        String.intercalate_singleton, String.ofList_append, String.ofList_toList, hname,
        String.append_assoc]
  · by_cases hnone : f.bits.toNat / 2 = 0
    · simp only [hnamed, hnone, if_true, if_false, List.append_nil, String.intercalate_nil,
        String.ofList_nil]
    · simp only [hnamed, hnone, if_false, List.nil_append, String.intercalate_singleton,
        String.ofList_append, String.ofList_toList]

/-! ## Strings -/

theorem all_isBlank_eq_false {s : String} (h : ∃ c ∈ s.toList, Text.isBlank c = false) :
    s.toList.all Text.isBlank = false := by
  simpa using h

theorem parse?_intercalate {texts : List String} (hne : texts ≠ [])
    (htexts : ∀ s ∈ texts, (∃ c ∈ s.toList, Text.isBlank c = false) ∧ ∃ f, parse? s = some f) :
    parse? ("|".intercalate texts) = some (unite (texts.filterMap parse?)) := by
  have hlist : ∀ t ∈ texts.map String.toList, t.all Text.isBlank = false ∧ ∃ f, read? t = some f := by
    intro t ht
    obtain ⟨s, hs, rfl⟩ := List.mem_map.mp ht
    exact ⟨all_isBlank_eq_false (htexts s hs).1, (htexts s hs).2⟩
  have hread := (read?_intercalate (by simpa using hne) hlist).2
  rw [List.filterMap_map] at hread
  rw [parse?, String.toList_intercalate]
  exact hread

/-- The text of flags is the name of the named bit, if it is set, and the numeral of the other bits, if
any is, with bars between; and the flags are read back from it, all their bits. Two texts that can be read
and are not blank mean, with a bar between them, the bits of both; and of any number of such texts neither
the order counts nor how often each is there. -/
theorem text_keeps_every_bit :
    (∀ f : Flags, f.text = " | ".intercalate f.partTexts ∧ parse? f.text = some f) ∧
    (∀ (s t : String) (f g : Flags), (∃ c ∈ s.toList, Text.isBlank c = false) →
      (∃ c ∈ t.toList, Text.isBlank c = false) → parse? s = some f → parse? t = some g →
      parse? (s ++ "|" ++ t) = some ⟨f.bits ||| g.bits⟩) ∧
    ∀ texts texts' : List String, texts ≠ [] →
      (∀ s ∈ texts, (∃ c ∈ s.toList, Text.isBlank c = false) ∧ ∃ f, parse? s = some f) →
      (∀ s, s ∈ texts ↔ s ∈ texts') →
      parse? ("|".intercalate texts) = parse? ("|".intercalate texts') := by
  refine ⟨fun f => ⟨text_eq_intercalate f, parse?_text f⟩, ?_, ?_⟩
  · intro s t f g hs ht hf hg
    have hjoined : (s ++ "|" ++ t).toList = s.toList ++ '|' :: t.toList := by simp
    rw [parse?] at hf hg
    rw [parse?, hjoined, read?_append (all_isBlank_eq_false hs) (all_isBlank_eq_false ht), hf, hg]
    rfl
  · intro texts texts' hne htexts hsame
    obtain ⟨s, hs⟩ := List.exists_mem_of_ne_nil texts hne
    have hne' : texts' ≠ [] := List.ne_nil_of_mem ((hsame s).mp hs)
    have htexts' := fun s hs => htexts s ((hsame s).mpr hs)
    rw [parse?_intercalate hne htexts, parse?_intercalate hne' htexts']
    refine congrArg some (unite_eq_of_mem_iff fun f => ?_)
    rw [List.mem_filterMap, List.mem_filterMap]
    simp only [hsame]

theorem text_keeps_every_bit_sample :
    text ⟨0x80000001⟩ = "WAIT_CLOUD | 0x80000000" ∧ parse? "WAIT_CLOUD | 0x80000000" = some ⟨0x80000001⟩ ∧
    parse? (" 0x+0A" ++ "|" ++ "WAIT_CLOUD\t") = some ⟨0xB⟩ ∧
    parse? ("|".intercalate ["0x2", "WAIT_CLOUD", "0x2"]) =
      parse? ("|".intercalate ["WAIT_CLOUD", "0x2"]) := by
  obtain ⟨htext, hjoined, hsame⟩ := text_keeps_every_bit
  obtain ⟨hwritten, hread⟩ := htext ⟨0x80000001⟩
  have hsample : text ⟨0x80000001⟩ = "WAIT_CLOUD | 0x80000000" := by
    rw [hwritten]
    decide +kernel
  rw [hsample] at hread
  refine ⟨hsample, hread, ?_, ?_⟩
  · exact hjoined _ _ ⟨0xA⟩ ⟨1⟩ ⟨'0', by simp, by decide⟩ ⟨'W', by simp, by decide⟩
      (by decide +kernel) (by decide +kernel)
  · refine hsame _ _ (by simp) ?_ (by simp [or_comm])
    intro s hs
    simp only [List.mem_cons, List.not_mem_nil, or_false] at hs
    rcases hs with rfl | rfl | rfl
    · exact ⟨⟨'0', by simp, by decide⟩, ⟨2⟩, by decide +kernel⟩
    · exact ⟨⟨'W', by simp, by decide⟩, ⟨1⟩, by decide +kernel⟩
    · exact ⟨⟨'0', by simp, by decide⟩, ⟨2⟩, by decide +kernel⟩

end DeviceSleep.Flags
