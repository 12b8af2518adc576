import DeviceSleep.Interface
import DeviceSleep.Proofs.Text.Decimal
import DeviceSleep.Proofs.Text.Lowered
import DeviceSleep.Proofs.Text.Trimming

/-! How interfaces may be written. Past the blanks around it a text has to be, in lowercase, one of
nine names or a decimal index; no name begins as an index does, so that the order in which the two
are tried does not matter. An index of any length is read exactly, or not at all if eight bits do not
hold it. -/
namespace DeviceSleep.Interface
set_option autoImplicit false

/-- The names of each interface that has any. -/
def spellings : List (List String × UInt8) :=
  [(["loopback", "lo"], 1), (["mesh"], 2), (["ethernet", "eth"], 3), (["cellular"], 4),
   (["wifi", "wifi_sta"], 5), (["wifi_ap"], 6)]

/-- A lowercase text that means an interface. -/
inductive Means : List Char → Interface → Prop where
  | name {names : List String} {index : UInt8} {word : String}
      (hindex : (names, index) ∈ spellings) (hword : word ∈ names) : Means word.toList ⟨index⟩
  | index {sign digits : List Char} {i : Interface} (hsign : sign = [] ∨ sign = ['+'])
      (hdigits : Text.SpelledBy i.index.toNat digits) : Means (sign ++ digits) i

/-! ## Names -/

theorem lookup_words {names : List String} {index : UInt8} {word : String}
    (hindex : (names, index) ∈ spellings) (hword : word ∈ names) :
    words.lookup word = some ⟨index⟩ := by
  have hall : ∀ entry ∈ spellings, ∀ w ∈ entry.1, words.lookup w = some ⟨entry.2⟩ := by
    decide +kernel
  exact hall _ hindex word hword

theorem means_of_lookup {word : String} {i : Interface} (h : words.lookup word = some i) :
    Means word.toList i := by
  have hall : ∀ entry ∈ words, ∃ spelling ∈ spellings, entry.1 ∈ spelling.1 ∧
      entry.2 = ⟨spelling.2⟩ := by decide +kernel
  obtain ⟨before, after, hwords, -⟩ := List.lookup_eq_some_iff.mp h
  have hmem : (word, i) ∈ words := by simp [hwords]
  obtain ⟨⟨names, index⟩, hspelling, hword, rfl⟩ := hall _ hmem
  exact .name hspelling hword

/-- A name begins with a letter. -/
theorem lookup_words_of_index {sign digits : List Char} {n : Nat}
    (hsign : sign = [] ∨ sign = ['+']) (hdigits : Text.SpelledBy n digits) :
    words.lookup (String.ofList (sign ++ digits)) = none := by
  have hletters : ∀ entry ∈ words, (entry.1.toList.head?.all fun c => 57 < c.val) = true := by
    decide +kernel
  rw [List.lookup_eq_none_iff]
  intro entry hentry
  rw [bne_iff_ne]
  intro heq
  have hfirst := hletters entry hentry
  rw [← heq, String.toList_ofList] at hfirst
  rcases hsign with rfl | rfl
  · obtain ⟨hne, hall, -⟩ := hdigits
    obtain ⟨c, cs, rfl⟩ := List.exists_cons_of_ne_nil hne
    have hdigit := hall c List.mem_cons_self
    simp only [Char.isDigit, Bool.and_eq_true, decide_eq_true_eq] at hdigit
    have hletter : 57 < c.val := of_decide_eq_true hfirst
    exact absurd hdigit.2 (UInt32.not_le.mpr hletter)
  · have hletter : 57 < '+'.val := of_decide_eq_true hfirst
    exact absurd hletter (by decide)

/-! ## Indices -/

theorem ofNumeral?_eq_some_iff {cs : List Char} {i : Interface} :
    ofNumeral? cs = some i ↔ ∃ sign digits, cs = sign ++ digits ∧ (sign = [] ∨ sign = ['+']) ∧
      Text.SpelledBy i.index.toNat digits := by
  rw [ofNumeral?, Option.map_eq_some_iff]
  simp only [Text.unsigned?_eq_some_iff]
  constructor
  · rintro ⟨n, ⟨sign, digits, hsplit, hsign, hspelled, hlimit⟩, rfl⟩
    have hn : (UInt8.ofNat n).toNat = n := Nat.mod_eq_of_lt (by omega)
    refine ⟨sign, digits, hsplit, hsign, ?_⟩
    rw [hn]
    exact hspelled
  · rintro ⟨sign, digits, hsplit, hsign, hspelled⟩
    have hlimit := i.index.toNat_lt
    refine ⟨_, ⟨sign, digits, hsplit, hsign, hspelled, by omega⟩, ?_⟩
    rw [UInt8.ofNat_toNat]

theorem parse?_eq_some_iff {s : String} {i : Interface} :
    parse? s = some i ↔ Means (Text.lowercase (Text.trim s.toList)) i := by
  rw [parse?, Text.folded]
  generalize Text.lowercase (Text.trim s.toList) = word
  cases hlookup : words.lookup (String.ofList word) with
  | some j =>
    have hmeans := means_of_lookup hlookup
    rw [String.toList_ofList] at hmeans
    dsimp only
    constructor
    · rintro ⟨⟩
      exact hmeans
    · intro h
      generalize hword : word = cs at h
      cases h with
      | name hindex hname =>
        rw [hword, String.ofList_toList, lookup_words hindex hname] at hlookup
        exact hlookup.symm
      | index hsign hdigits =>
        rw [hword, lookup_words_of_index hsign hdigits] at hlookup
        cases hlookup
  | none =>
    dsimp only
    rw [String.toList_ofList, ofNumeral?_eq_some_iff]
    constructor
    · rintro ⟨sign, digits, rfl, hsign, hdigits⟩
      exact .index hsign hdigits
    · intro h
      cases h with
      | name hindex hname =>
        rw [String.ofList_toList, lookup_words hindex hname] at hlookup
        cases hlookup
      | index hsign hdigits => exact ⟨_, _, rfl, hsign, hdigits⟩

/-! ## Digits alone -/

theorem isLowered_of_isDigit {c : Char} (h : c.isDigit = true) :
    Text.isBlank c = false ∧ Text.IsLowered c := by
  have hall : ∀ n ∈ List.range 10, Text.isBlank (Char.ofNat (48 + n)) = false ∧
      Text.IsLowered (Char.ofNat (48 + n)) := by decide +kernel
  simp only [Char.isDigit, Bool.and_eq_true, decide_eq_true_eq] at h
  have hlow : 48 ≤ c.toNat := h.1
  have hhigh : c.toNat ≤ 57 := h.2
  have hc : 48 + (c.toNat - 48) = c.toNat := by omega
  have hdigit := hall (c.toNat - 48) (List.mem_range.mpr (by omega))
  rw [hc, Char.ofNat_toNat] at hdigit
  exact hdigit

theorem parse?_digits {digits : List Char} (hne : digits ≠ [])
    (hdigits : ∀ c ∈ digits, c.isDigit = true) :
    parse? (String.ofList digits) = (Text.readByte 0 digits).map Interface.mk := by
  have htrim : Text.trim digits = digits :=
    Text.trim_of_noBlank fun c hc => (isLowered_of_isDigit (hdigits c hc)).1
  have hlower : Text.lowercase digits = digits :=
    Text.lowercase_eq_self_iff.mpr fun c hc => (isLowered_of_isDigit (hdigits c hc)).2
  have hspelled : Text.SpelledBy _ digits := ⟨hne, hdigits, rfl⟩
  have hword := lookup_words_of_index (.inl rfl) hspelled
  rw [List.nil_append] at hword
  rw [parse?, Text.folded, String.toList_ofList, htrim, hlower, hword, Text.readByte_eq hdigits]
  dsimp only
  rw [String.toList_ofList]
  have hzero : (0 : UInt8).toNat = 0 := rfl
  rw [hzero]
  split
  · rename_i hfits
    refine ofNumeral?_eq_some_iff.mpr ⟨[], digits, rfl, .inl rfl, hne, hdigits, ?_⟩
    exact (Nat.mod_eq_of_lt hfits).symm
  · rename_i hfits
    rw [Option.map_none, Option.eq_none_iff_forall_ne_some]
    intro i hi
    obtain ⟨sign, rest, hsplit, hsign, -, hrest, hvalue⟩ := ofNumeral?_eq_some_iff.mp hi
    rcases hsign with rfl | rfl
    · rw [List.nil_append] at hsplit
      rw [← hsplit] at hvalue
      have hlt := i.index.toNat_lt
      omega
    · rw [hsplit] at hdigits
      exact absurd (hdigits '+' List.mem_cons_self) (by decide)

/-! ## Any text -/

/-- A text means an interface exactly if, past the blanks at its ends and in lowercase, it is a name
of the interface or spells its index, and any other text means none. On digits alone, however many,
the reader gives what a machine with eight bits gives that stops at the first step they do not
hold. -/
theorem parse?_reads_grammar (s : String) :
    (∀ i, parse? s = some i ↔ ∃ core, Text.Trims s.toList core ∧ Means (Text.lowercase core) i) ∧
    (parse? s = none ↔ ∀ core, Text.Trims s.toList core → ∀ i, ¬ Means (Text.lowercase core) i) ∧
    ∀ digits, digits ≠ [] → (∀ c ∈ digits, c.isDigit = true) →
      parse? (String.ofList digits) = (Text.readByte 0 digits).map Interface.mk := by
  simp only [Text.trims_iff, exists_eq_left', forall_eq']
  refine ⟨fun i => parse?_eq_some_iff, ?_, fun digits => parse?_digits⟩
  rw [Option.eq_none_iff_forall_ne_some]
  exact forall_congr' fun i => not_congr parse?_eq_some_iff

/-- An index just within eight bits behind a sign and zeros, one just beyond them, a name between
blanks that are not ASCII, and one with a letter whose lowercase form is two characters. -/
theorem parse?_reads_grammar_boundary :
    parse? "\u2003+000255\u3000" = some ⟨255⟩ ∧ parse? "000256" = none ∧
    parse? "\u2003WiFi_STA\u3000" = some wifiStation ∧ parse? "WİFI" = none := by
  obtain ⟨hindex, -, hdigits⟩ := parse?_reads_grammar "\u2003+000255\u3000"
  obtain ⟨hname, -, -⟩ := parse?_reads_grammar "\u2003WiFi_STA\u3000"
  refine ⟨?_, ?_, ?_, by decide +kernel⟩
  · refine (hindex ⟨255⟩).mpr ⟨'+' :: ['0', '0', '0', '2', '5', '5'], ?_, ?_⟩
    · rw [Text.trims_iff]
      decide +kernel
    · have hspelled : Text.SpelledBy 255 ['0', '0', '0', '2', '5', '5'] :=
        ⟨List.cons_ne_nil _ _, List.all_eq_true.mp rfl, rfl⟩
      exact Means.index (.inr rfl) hspelled
  · exact hdigits ['0', '0', '0', '2', '5', '6'] (List.cons_ne_nil _ _)
      (List.all_eq_true.mp rfl)
  · refine (hname wifiStation).mpr ⟨"WiFi_STA".toList, ?_, ?_⟩
    · rw [Text.trims_iff]
      decide +kernel
    · have hindex : (["wifi", "wifi_sta"], 5) ∈ spellings := by decide
      exact Means.name hindex (List.mem_cons_of_mem _ List.mem_cons_self)

end DeviceSleep.Interface
