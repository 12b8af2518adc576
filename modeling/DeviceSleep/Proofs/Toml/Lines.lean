import DeviceSleep.Proofs.Toml.Values
import DeviceSleep.Toml.Document

/-! Written lines are read back. A written value or a stretch of lines is one that is read as what it
should be whatever follows it, so that stretches can be put together; nothing that was written before
takes part in how a stretch is read. -/
namespace DeviceSleep.Toml
set_option autoImplicit false

variable {c : Char} {cs v rest : List Char} {t : Tree} {fuel limit : Nat} {path : List String}

/-! ## Keys -/

/-- No character of a bare key stands here. -/
def KeyEnded (rest : List Char) : Prop := ∀ d ∈ rest.head?, isBareKeyChar d = false

theorem keyEnded_cons (h : isBareKeyChar c = false) (rest : List Char) : KeyEnded (c :: rest) := by
  intro d hd
  cases hd
  exact h

theorem keyPart_bare (hne : cs ≠ []) (hcs : ∀ d ∈ cs, isBareKeyChar d = true)
    (hrest : KeyEnded rest) : keyPart (cs ++ rest) = some (String.ofList cs, rest) := by
  obtain ⟨hname, htail⟩ := cut_append hcs hrest
  have hfirst : ∀ {d : Char} {tail : List Char}, isBareKeyChar d = false →
      cs ++ rest ≠ d :: tail := by
    intro d tail hd h
    obtain ⟨first, more, rfl⟩ := List.exists_cons_of_ne_nil hne
    rw [← (List.cons.inj h).1, hcs first List.mem_cons_self] at hd
    cases hd
  rw [keyPart, hname, htail, if_neg (by simpa using hne)]
  · exact fun tail => hfirst (by decide)
  · exact fun tail => hfirst (by decide)

/-- A key is read back, bare or in quotes. -/
theorem keyPart_writeKey (hrest : KeyEnded rest) (cs : List Char) :
    keyPart (writeKey cs ++ rest) = some (String.ofList cs, rest) := by
  have hquoted : keyPart (quoted '"' (inBasic cs) ++ rest) = some (String.ofList cs, rest) := by
    rw [quoted, List.cons_append, List.cons_append, List.append_assoc, List.singleton_append,
      keyPart, basic_inBasic]
    rfl
  rw [writeKey]
  split_ifs with hbare hplain hsingle
  · obtain ⟨hne, hall⟩ := Bool.and_eq_true_iff.mp hbare
    exact keyPart_bare (by simpa using hne) (List.all_eq_true.mp hall) hrest
  · exact hquoted
  · simp only [Bool.and_eq_true, Bool.not_eq_true', List.contains_eq_mem, decide_eq_false_iff_not,
      List.any_eq_false, Bool.or_eq_true, not_or, beq_iff_eq] at hsingle
    obtain ⟨hcontrol, hquote⟩ := hsingle
    have hline : '\n' ∉ cs := fun h => (hcontrol '\n' h).2 rfl
    have hcontrol : cs.any isControl = false :=
      List.any_eq_false.mpr fun d hd => (hcontrol d hd).1
    rw [quoted, List.cons_append, List.cons_append, List.append_assoc, List.singleton_append,
      keyPart, literal_append hquote hline hcontrol]
    rfl
  · exact hquoted

theorem spaces_cons (h : isSpace c = false) (rest : List Char) : spaces (c :: rest) = c :: rest :=
  List.dropWhile_cons_of_neg (Bool.eq_false_iff.mp h)

/-- A key begins with a character of a bare key, or with a quote. -/
theorem exists_writeKey (cs : List Char) :
    ∃ first tail, writeKey cs = first :: tail ∧
      (isBareKeyChar first = true ∨ first = '"' ∨ first = '\'') := by
  rw [writeKey]
  split_ifs with hbare
  · obtain ⟨hne, hall⟩ := Bool.and_eq_true_iff.mp hbare
    cases cs with
    | nil => cases hne
    | cons c cs => exact ⟨c, cs, rfl, .inl (List.all_eq_true.mp hall c List.mem_cons_self)⟩
  · exact ⟨_, _, rfl, .inr (.inl rfl)⟩
  · exact ⟨_, _, rfl, .inr (.inr rfl)⟩
  · exact ⟨_, _, rfl, .inr (.inl rfl)⟩

theorem isSpace_of_isBareKeyChar (h : isBareKeyChar c = true) : isSpace c = false := by
  by_contra hspace
  rcases Bool.or_eq_true_iff.mp (Bool.not_eq_false _ ▸ hspace) with hblank | htab
  · rw [beq_iff_eq.mp hblank] at h
    cases h
  · rw [beq_iff_eq.mp htab] at h
    cases h

theorem spaces_writeKey (cs rest : List Char) : spaces (writeKey cs ++ rest) = writeKey cs ++ rest := by
  obtain ⟨first, tail, heq, hfirst⟩ := exists_writeKey cs
  rw [heq]
  refine spaces_cons ?_ (tail ++ rest)
  rcases hfirst with hbare | rfl | rfl
  · exact isSpace_of_isBareKeyChar hbare
  · rfl
  · rfl

/-- The last part of a key: behind it, and perhaps blanks, is no point. -/
theorem keyParts_last (hrest : KeyEnded rest) {d : Char} {after : List Char}
    (hafter : spaces rest = d :: after) (hpoint : d ≠ '.') (cs : List Char) :
    keyParts (limit + 1) (writeKey cs ++ rest) = some ([String.ofList cs], d :: after) := by
  rw [keyParts, spaces_writeKey, keyPart_writeKey hrest, Option.bind_eq_bind, Option.bind_some]
  dsimp only
  rw [hafter]
  split
  · rename_i heq
    exact absurd (List.cons.inj heq).1 hpoint
  · rfl

theorem keyParts_more (cs rest : List Char) :
    keyParts (limit + 1) (writeKey cs ++ '.' :: rest) =
      (keyParts limit rest).map fun r => (String.ofList cs :: r.1, r.2) := by
  rw [keyParts, spaces_writeKey, keyPart_writeKey (keyEnded_cons (by decide) rest)]
  rfl

/-! ## Stretches of lines -/

/-- A text that is read as a value, whatever follows it that can follow a value. -/
structure Reads (v : List Char) (t : Tree) : Prop where
  value : ∀ fuel depth rest, v.length < fuel → Ended rest →
    Toml.value fuel (depth + 1) (v ++ rest) = some (t, rest)
  start : ∀ rest, spaces (v ++ rest) = v ++ rest

theorem reads_text (cs : List Char) : Reads (writeText cs) (.text (String.ofList cs)) := by
  refine ⟨?_, ?_⟩
  · intro fuel depth rest hfuel hrest
    obtain ⟨fuel, rfl⟩ := Nat.exists_eq_add_of_le' (Nat.one_le_of_lt hfuel)
    exact value_writeText hrest cs
  · intro rest
    obtain ⟨quote, tail, hquote, heq⟩ := exists_writeText cs
    rw [heq]
    rcases hquote with rfl | rfl <;> rfl

theorem reads_texts (ts : List (List Char)) :
    Reads (writeTexts ts) (.list (ts.map fun t => .text (String.ofList t))) := by
  refine ⟨?_, ?_⟩
  · intro fuel depth rest hfuel _
    exact value_writeTexts ts hfuel
  · intro rest
    match ts with
    | [] => rfl
    | [_] => rfl
    | _ :: _ :: _ => rfl

theorem reads_bool (b : Bool) : Reads (writeBool b) (.bool b) := by
  refine ⟨?_, ?_⟩
  · intro fuel depth rest hfuel hrest
    obtain ⟨fuel, rfl⟩ := Nat.exists_eq_add_of_le' (Nat.one_le_of_lt hfuel)
    exact value_writeBool hrest b
  · intro rest
    cases b <;> rfl

theorem reads_nat {n : Nat} (h : n < 2 ^ 63) : Reads (writeNat n) (.int n) := by
  refine ⟨?_, ?_⟩
  · intro fuel depth rest hfuel hrest
    obtain ⟨fuel, rfl⟩ := Nat.exists_eq_add_of_le' (Nat.one_le_of_lt hfuel)
    exact value_writeNat hrest h
  · intro rest
    have hne : writeNat n ≠ [] := Nat.toDigits_ne_nil
    obtain ⟨first, tail, heq⟩ := List.exists_cons_of_ne_nil hne
    have hdigit : first.isDigit = true := by
      refine isDigit_of_mem_writeNat (n := n) ?_
      rw [heq]
      exact List.mem_cons_self
    have hbare : isBareKeyChar first = true := by
      simp [isBareKeyChar, Char.isAlphanum, hdigit]
    rw [heq]
    exact spaces_cons (isSpace_of_isBareKeyChar hbare) _

/-- A stretch of a text that is read as some lines, whatever follows it. -/
def ReadsLines (cs : List Char) (ls : List Line) : Prop :=
  ∀ fuel rest, cs.length + rest.length + 2 ≤ fuel →
    ∃ left, rest.length + 2 ≤ left ∧ lines fuel (cs ++ rest) = (lines left rest).map (ls ++ ·)

theorem ReadsLines.nil : ReadsLines [] [] := by
  intro fuel rest hfuel
  refine ⟨fuel, by simpa using hfuel, ?_⟩
  show lines fuel rest = (lines fuel rest).map id
  rw [Option.map_id, id]

variable {ls ms : List Line} {ds : List Char}

theorem ReadsLines.append (hcs : ReadsLines cs ls) (hds : ReadsLines ds ms) :
    ReadsLines (cs ++ ds) (ls ++ ms) := by
  intro fuel rest hfuel
  rw [List.length_append] at hfuel
  obtain ⟨middle, hmiddle, hfirst⟩ := hcs fuel (ds ++ rest) (by rw [List.length_append]; omega)
  obtain ⟨left, hleft, hsecond⟩ := hds middle rest (by rw [List.length_append] at hmiddle; omega)
  refine ⟨left, hleft, ?_⟩
  rw [List.append_assoc, hfirst, hsecond, Option.map_map]
  refine Option.map_congr fun more _ => ?_
  exact (List.append_assoc ls ms more).symm

theorem ReadsLines.flatMap {α : Type} {f : α → List Char} {g : α → List Line}
    (h : ∀ a, ReadsLines (f a) (g a)) (as : List α) : ReadsLines (as.flatMap f) (as.flatMap g) := by
  induction as with
  | nil => exact ReadsLines.nil
  | cons a as ih => exact (h a).append ih

/-- One line, read by itself. -/
theorem readsLines_of_line {first : Option Line} {d : Char} (hspace : isSpace d = false)
    (h : ∀ fuel rest, (d :: cs).length < fuel → line fuel (d :: cs ++ rest) = some (first, rest)) :
    ReadsLines (d :: cs) first.toList := by
  intro fuel rest hfuel
  obtain ⟨left, rfl⟩ := Nat.exists_eq_add_of_le' (show 1 ≤ fuel by omega)
  rw [List.length_cons] at hfuel
  refine ⟨left, by omega, ?_⟩
  rw [lines, List.cons_append, spaces_cons hspace]
  show (line (left + 1) (d :: cs ++ rest)).bind _ = _
  rw [h (left + 1) rest (by rw [List.length_cons]; omega), Option.map_eq_bind]
  rfl

/-! ## Lines -/

theorem readsLines_blank : ReadsLines ['\n'] [] := by
  show ReadsLines ['\n'] (Option.toList none)
  exact readsLines_of_line rfl fun _ _ _ => rfl

theorem lineEnd_of_isBareKeyChar (h : isBareKeyChar c = true) (cs : List Char) :
    lineEnd false (c :: cs) = none := by
  have hmark : ∀ {d : Char}, isBareKeyChar d = false → c ≠ d := by
    rintro d hd rfl
    rw [h] at hd
    cases hd
  rw [lineEnd, if_neg (by decide), if_neg (by simp [isSpace_of_isBareKeyChar h]),
    if_neg (hmark (by decide))]
  · exact hmark (by decide)
  · exact fun _ hreturn _ => hmark (by decide) hreturn

theorem writeKey_bare {cs : List Char} (hcs : cs.all isBareChar = true) (hne : cs ≠ []) :
    writeKey cs = cs := by
  rw [writeKey, if_pos (by simpa [hcs] using hne)]

/-- A bare name is the whole key where an equals sign follows. -/
theorem key_bare {name : String} (hname : name.toList.all isBareChar = true) (hne : name.toList ≠ [])
    (rest : List Char) : key (name.toList ++ ' ' :: '=' :: rest) = some ([name], '=' :: rest) := by
  have hlast : keyParts (78 + 1) (writeKey name.toList ++ ' ' :: '=' :: rest) =
      some ([String.ofList name.toList], '=' :: rest) :=
    keyParts_last (keyEnded_cons (by decide) _) rfl (by decide) _
  rwa [writeKey_bare hname hne, String.ofList_toList] at hlast

/-- A bare name and a value on a line. -/
theorem readsLines_pair (hv : Reads v t) {name : String} (hname : name.toList.all isBareChar = true)
    (hne : name.toList ≠ []) : ReadsLines (writePair name v) [.pair ([name], t)] := by
  obtain ⟨first, tail, hfirst⟩ := List.exists_cons_of_ne_nil hne
  have hbare : isBareKeyChar first = true := by
    rw [hfirst] at hname
    exact List.all_eq_true.mp hname first List.mem_cons_self
  have hwhole : writePair name v = first :: (tail ++ [' ', '=', ' '] ++ v ++ ['\n']) := by
    rw [writePair, hfirst]
    rfl
  have hform (rest : List Char) : writePair name v ++ rest =
      name.toList ++ ' ' :: '=' :: ' ' :: (v ++ '\n' :: rest) := by
    simp [writePair]
  rw [hwhole]
  show ReadsLines _ (Option.toList (some (.pair ([name], t))))
  refine readsLines_of_line (isSpace_of_isBareKeyChar hbare) fun fuel rest hfuel => ?_
  rw [← hwhole] at hfuel ⊢
  have hlength : v.length < fuel := by
    simp only [writePair, List.length_append] at hfuel
    omega
  have hnone : lineEnd false (name.toList ++ ' ' :: '=' :: ' ' :: (v ++ '\n' :: rest)) = none := by
    rw [hfirst]
    exact lineEnd_of_isBareKeyChar hbare _
  have hvalue : value fuel (nestingLimit - 1) (spaces (' ' :: (v ++ '\n' :: rest))) =
      some (t, '\n' :: rest) := by
    show value fuel (78 + 1) (spaces (v ++ '\n' :: rest)) = _
    rw [hv.start, hv.value fuel 78 _ hlength (ended_cons rfl rest)]
  have hbracket (more : List Char) :
      name.toList ++ ' ' :: '=' :: ' ' :: (v ++ '\n' :: rest) = '[' :: more → False := by
    rw [hfirst]
    intro h
    rw [(List.cons.inj h).1] at hbare
    cases hbare
  rw [hform, line, hnone]
  · show (key (name.toList ++ ' ' :: '=' :: ' ' :: (v ++ '\n' :: rest))).bind _ = _
    rw [key_bare hname hne]
    show (value fuel (nestingLimit - 1) (spaces (' ' :: (v ++ '\n' :: rest)))).bind _ = _
    rw [hvalue]
    rfl
  · exact fun _ => hbracket _
  · exact fun _ => hbracket _

/-! ## Headers -/

/-- Keys with points between them. -/
def writePath : List (List Char) → List Char
  | [] => []
  | [part] => writeKey part
  | part :: next :: parts => writeKey part ++ '.' :: writePath (next :: parts)

theorem keyParts_writePath {parts : List (List Char)} (hne : parts ≠ []) (hlimit : parts.length ≤ limit)
    (rest : List Char) : keyParts limit (writePath parts ++ ']' :: rest) =
      some (parts.map String.ofList, ']' :: rest) := by
  induction parts generalizing limit with
  | nil => exact absurd rfl hne
  | cons part parts ih =>
    rw [List.length_cons] at hlimit
    obtain ⟨limit, rfl⟩ := Nat.exists_eq_add_of_le' (show 1 ≤ limit by omega)
    cases parts with
    | nil => exact keyParts_last (keyEnded_cons (by decide) _) rfl (by decide) part
    | cons next parts =>
      rw [writePath, List.append_assoc, List.cons_append, keyParts_more,
        ih (List.cons_ne_nil _ _) (by omega)]
      rfl

section Headers
variable {parts : List (List Char)} (hne : parts ≠ []) (hlimit : parts.length < nestingLimit)
include hne hlimit

theorem readsLines_header :
    ReadsLines ('[' :: (writePath parts ++ [']', '\n'])) [.header (parts.map String.ofList)] := by
  show ReadsLines _ (Option.toList (some (.header (parts.map String.ofList))))
  refine readsLines_of_line rfl fun fuel rest _ => ?_
  have hkey : key (writePath parts ++ ']' :: '\n' :: rest) = _ :=
    keyParts_writePath hne (Nat.le_pred_of_lt hlimit) ('\n' :: rest)
  rw [List.cons_append, List.append_assoc, line]
  · show (key (writePath parts ++ ']' :: '\n' :: rest)).bind _ = _
    rw [hkey]
    rfl
  · intro more h
    have hsame : writePath parts ++ ']' :: '\n' :: rest = '[' :: more := h
    have hnone : key ('[' :: more) = none := rfl
    rw [hsame, hnone] at hkey
    cases hkey

theorem readsLines_element :
    ReadsLines ('[' :: '[' :: (writePath parts ++ [']', ']', '\n']))
      [.element (parts.map String.ofList)] := by
  show ReadsLines _ (Option.toList (some (.element (parts.map String.ofList))))
  refine readsLines_of_line rfl fun fuel rest _ => ?_
  have hkey : key (writePath parts ++ ']' :: ']' :: '\n' :: rest) = _ :=
    keyParts_writePath hne (Nat.le_pred_of_lt hlimit) (']' :: '\n' :: rest)
  rw [List.cons_append, List.cons_append, List.append_assoc, line]
  show (key (writePath parts ++ ']' :: ']' :: '\n' :: rest)).bind _ = _
  rw [hkey]
  rfl

end Headers

end DeviceSleep.Toml
