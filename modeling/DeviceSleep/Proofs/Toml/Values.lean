import DeviceSleep.Proofs.Text.Decimal
import DeviceSleep.Proofs.Toml.Quoted
import DeviceSleep.Toml.Value

/-! Written values are read back: texts in whatever quotes they need, lists of texts, booleans and
numbers. What follows a value on its line, or in its list, is a line feed, a comma or a bracket, and
none of these can belong to the value. -/
namespace DeviceSleep.Toml
set_option autoImplicit false

variable {c : Char} {cs rest : List Char} {fuel depth : Nat}

/-- A character that ends a value. -/
def isEnd (c : Char) : Bool := c == '\n' || c == ',' || c == ']'

/-- What stands behind a written value, at most. -/
def Ended (rest : List Char) : Prop := ∀ d ∈ rest.head?, isEnd d = true

theorem ended_cons (h : isEnd c = true) (rest : List Char) : Ended (c :: rest) := by
  intro d hd
  cases hd
  exact h

theorem Ended.ne (h : Ended rest) (hc : isEnd c = false) : ∀ d ∈ rest.head?, d ≠ c := by
  rintro d hd rfl
  rw [h d hd] at hc
  cases hc

theorem Ended.notWord (h : Ended rest) : ∀ d ∈ rest.head?, isWordChar d = false := by
  intro d hd
  have hd := h d hd
  simp only [isEnd, Bool.or_eq_true, beq_iff_eq] at hd
  rcases hd with (rfl | rfl) | rfl <;> decide

/-! ## Texts -/

/-- A quote that two more do not follow opens a text on one line. -/
theorem value_quote {quote : Char} (hquote : quote = '"' ∨ quote = '\'')
    (hopen : ∀ tail, rest ≠ quote :: quote :: tail) :
    value (fuel + 1) depth (quote :: rest) =
      (if quote = '"' then basic rest else literal rest).map fun r =>
        (.text (String.ofList r.1), r.2) := by
  rcases hquote with rfl | rfl
  · rw [value, if_pos rfl]
    exact hopen
  · rw [value, if_neg (by decide)]
    exact hopen

theorem value_threeDouble (rest : List Char) :
    value (fuel + 1) depth ('"' :: '"' :: '"' :: rest) =
      (basicLines (afterOpening rest)).map fun r => (.text (String.ofList r.1), r.2) := rfl

theorem value_threeSingle (rest : List Char) :
    value (fuel + 1) depth ('\'' :: '\'' :: '\'' :: rest) =
      (literalLines (afterOpening rest)).map fun r => (.text (String.ofList r.1), r.2) := rfl

theorem value_bracket (rest : List Char) : value (fuel + 1) (depth + 1) ('[' :: rest) =
    (items fuel depth rest).map fun r => (.list r.1, r.2) := rfl

theorem value_quoted (hrest : Ended rest) (cs : List Char) :
    value (fuel + 1) depth (quoted '"' (inBasic cs) ++ rest) =
      some (.text (String.ofList cs), rest) := by
  have hread := basic_inBasic cs rest
  rw [quoted, List.cons_append, List.cons_append, List.append_assoc, List.singleton_append,
    value_quote (.inl rfl), if_pos rfl, hread]
  · rfl
  · -- Two more quotes would close an empty text, with the third one behind it.
    intro tail h
    rw [h, basic] at hread
    cases hread
    exact hrest.ne (c := '"') (by decide) '"' rfl rfl

theorem value_literal (hrest : Ended rest) (hquote : '\'' ∉ cs) (hline : '\n' ∉ cs)
    (hcontrol : cs.any isControl = false) :
    value (fuel + 1) depth (quoted '\'' cs ++ rest) = some (.text (String.ofList cs), rest) := by
  have hread := literal_append hquote hline hcontrol rest
  rw [quoted, List.cons_append, List.cons_append, List.append_assoc, List.singleton_append,
    value_quote (.inr rfl), if_neg (by decide), hread]
  · rfl
  · intro tail h
    rw [h, literal] at hread
    cases hread
    exact hrest.ne (c := '\'') (by decide) '\'' rfl rfl

/-- The line feed that is put in front of lines is dropped again, and nothing else is. -/
theorem afterOpening_tripled {lines : Bool} (hreturn : ∀ d ∈ cs.head?, d ≠ '\r')
    (hline : lines = false → ∀ d ∈ cs.head?, d ≠ '\n') :
    afterOpening ((if lines then ['\n'] else []) ++ cs) = cs := by
  cases lines with
  | true => rfl
  | false =>
    show afterOpening cs = cs
    rw [afterOpening]
    · rintro tail rfl
      exact hline rfl '\n' rfl rfl
    · rintro tail rfl
      exact hreturn '\r' rfl rfl

theorem tripled_append (quote : Char) (lines : Bool) (inside rest : List Char) :
    tripled quote lines inside ++ rest =
      quote :: quote :: quote ::
        ((if lines then ['\n'] else []) ++ (inside ++ quote :: quote :: quote :: rest)) := by
  simp [tripled]

theorem value_basicLines (hrest : Ended rest) (cs : List Char) :
    value (fuel + 1) depth (tripled '"' (cs.contains '\n') (inBasicLines 0 cs) ++ rest) =
      some (.text (String.ofList cs), rest) := by
  have hread := basicLines_inBasicLines (hrest.ne (by decide)) cs (Nat.zero_le 2)
  rw [tripled_append, value_threeDouble, afterOpening_tripled, hread]
  · rfl
  · rintro d hd rfl
    rcases head?_inBasicLines cs _ hd with h | h | ⟨h, -⟩
    · cases h
    · cases h
    · exact h rfl
  · rintro hlines d hd rfl
    rcases head?_inBasicLines cs _ hd with h | h | ⟨-, h⟩
    · cases h
    · cases h
    · simp [List.mem_of_mem_head? h] at hlines

theorem value_literalLines (hrest : Ended rest) (hcontrol : cs.any isControl = false)
    (hrun : longestRun '\'' 0 0 cs ≤ 2) :
    value (fuel + 1) depth (tripled '\'' (cs.contains '\n') cs ++ rest) =
      some (.text (String.ofList cs), rest) := by
  have hread := literalLines_append (hrest.ne (by decide)) hcontrol hrun
  have hhead : ∀ d ∈ (cs ++ '\'' :: '\'' :: '\'' :: rest).head?, d = '\'' ∨ d ∈ cs := by
    intro d hd
    cases cs with
    | nil =>
      cases hd
      exact .inl rfl
    | cons c cs =>
      cases hd
      exact .inr List.mem_cons_self
  rw [tripled_append, value_threeSingle, afterOpening_tripled, hread]
  · rfl
  · rintro d hd rfl
    rcases hhead _ hd with h | h
    · cases h
    · exact absurd (List.any_eq_false.mp hcontrol _ h) (by decide)
  · rintro hlines d hd rfl
    rcases hhead _ hd with h | h
    · cases h
    · simp [h] at hlines

/-- A text is read back, whatever is in it. -/
theorem value_writeText (hrest : Ended rest) (cs : List Char) :
    value (fuel + 1) depth (writeText cs ++ rest) = some (.text (String.ofList cs), rest) := by
  rw [writeText]
  split_ifs with hplain hsingle htriple hliteral hlines
  · exact value_quoted hrest cs
  · simp only [Bool.and_eq_true, Bool.not_eq_true', List.contains_eq_mem, decide_eq_false_iff_not]
      at hsingle
    exact value_literal hrest hsingle.1.2 hsingle.2 hsingle.1.1
  · exact value_basicLines hrest cs
  · simp only [Bool.and_eq_true, Bool.not_eq_true', decide_eq_true_eq] at hliteral
    exact value_literalLines hrest hliteral.1 hliteral.2
  · exact value_basicLines hrest cs
  · exact value_quoted hrest cs

/-! ## Words -/

/-- Characters of one class end where another one stands. -/
theorem cut_append {p : Char → Bool} (hcs : ∀ d ∈ cs, p d = true)
    (hrest : ∀ d ∈ rest.head?, p d = false) :
    (cs ++ rest).takeWhile p = cs ∧ (cs ++ rest).dropWhile p = rest := by
  rw [List.takeWhile_append_of_pos hcs, List.dropWhile_append_of_pos hcs]
  cases rest with
  | nil => exact ⟨List.append_nil cs, rfl⟩
  | cons d ds =>
    have hd : ¬ p d = true := Bool.eq_false_iff.mp (hrest d rfl)
    rw [List.takeWhile_cons_of_neg hd, List.dropWhile_cons_of_neg hd]
    exact ⟨List.append_nil cs, rfl⟩

theorem value_word (hc : isWordChar c = true) (cs : List Char) :
    value (fuel + 1) depth (c :: cs) = scalar (c :: cs) := by
  have hfirst : ∀ {d : Char} {ds : List Char}, isWordChar d = false → c :: cs = d :: ds → False := by
    intro d ds hd h
    rw [(List.cons.inj h).1, hd] at hc
    cases hc
  rw [value]
  · exact fun _ => hfirst (by decide)
  · exact fun _ => hfirst (by decide)
  · exact fun _ => hfirst (by decide)
  · exact fun _ => hfirst (by decide)
  · exact fun _ => hfirst (by decide)
  · exact fun _ => hfirst (by decide)

/-- A word is read up to its end. -/
theorem value_of_word? (hrest : Ended rest) (hne : cs ≠ []) (hcs : ∀ d ∈ cs, isWordChar d = true)
    {t : Tree} (ht : word? cs = some t) : value (fuel + 1) depth (cs ++ rest) = some (t, rest) := by
  obtain ⟨hword, htail⟩ := cut_append hcs hrest.notWord
  have hspace : rest.head? ≠ some ' ' := fun h => hrest.ne (c := ' ') (by decide) ' ' h rfl
  obtain ⟨first, more, rfl⟩ := List.exists_cons_of_ne_nil hne
  rw [List.cons_append, value_word (hcs first List.mem_cons_self), ← List.cons_append, scalar,
    hword, htail, if_neg (fun h => hspace h.2.1), ht]
  rfl

theorem value_writeBool (hrest : Ended rest) (b : Bool) :
    value (fuel + 1) depth (writeBool b ++ rest) = some (.bool b, rest) := by
  have hletters : ∀ d ∈ writeBool b, isWordChar d = true := by
    cases b <;> simp [writeBool, isWordChar]
  cases b with
  | true => exact value_of_word? hrest (List.cons_ne_nil _ _) hletters rfl
  | false => exact value_of_word? hrest (List.cons_ne_nil _ _) hletters rfl

/-! ## Numbers -/

theorem isDigit_of_mem_writeNat {n : Nat} (h : c ∈ writeNat n) : c.isDigit = true :=
  Nat.isDigit_of_mem_toDigits (by decide) (by decide) h

/-- Digits without underscores are one group. -/
theorem grouped?_eq_self {ok : Char → Bool} (hunderscore : ok '_' = false) (hne : cs ≠ [])
    (h : ∀ d ∈ cs, ok d = true) : grouped? ok cs = some cs := by
  induction cs with
  | nil => exact absurd rfl hne
  | cons c cs ih =>
    obtain ⟨hc, hcs⟩ := List.forall_mem_cons.mp h
    cases cs with
    | nil => rw [grouped?, if_pos hc]
    | cons d ds =>
      have hd : d ≠ '_' := by
        rintro rfl
        rw [hcs '_' List.mem_cons_self] at hunderscore
        cases hunderscore
      rw [grouped?, if_pos hc, ih (List.cons_ne_nil d ds) hcs]
      · rfl
      · exact nofun
      · intro tail heq
        exact hd (List.cons.inj heq).1

theorem groupedValue?_writeNat (n : Nat) : groupedValue? 10 (writeNat n) = some n := by
  have hdigits : ∀ d ∈ writeNat n, d.isDigit = true := fun d => isDigit_of_mem_writeNat
  have hne : writeNat n ≠ [] := Nat.toDigits_ne_nil
  rw [groupedValue?, grouped?_eq_self (by decide) hne]
  · obtain ⟨c, cs, hcs⟩ := List.exists_cons_of_ne_nil hne
    have hread := Text.readDigits_of_isDigit hdigits 0
    rw [writeNat, Nat.ofDigitChars_ten_toDigits, ← writeNat] at hread
    show Text.digits? 10 (writeNat n) = some n
    rw [hcs] at hread ⊢
    exact hread
  · intro d hd
    rw [Text.digitIn?_of_isDigit (hdigits d hd)]
    rfl

/-- No number but zero begins with a zero. -/
theorem head?_writeNat {n : Nat} (h : n ≠ 0) : (writeNat n).head? ≠ some '0' := by
  induction n using Nat.strong_induction_on with
  | _ n ih =>
    by_cases hlt : n < 10
    · have hdigit : ∀ k < 10, k ≠ 0 → k.digitChar ≠ '0' := by decide
      rw [writeNat, Nat.toDigits_of_lt_base hlt, List.head?_cons, ne_eq, Option.some.injEq]
      exact hdigit n hlt h
    · have hfront := ih (n / 10) (by omega) (by omega)
      have hne : writeNat (n / 10) ≠ [] := Nat.toDigits_ne_nil
      obtain ⟨c, cs, hcs⟩ := List.exists_cons_of_ne_nil hne
      rw [writeNat, Nat.toDigits_of_base_le (by decide) (by omega), ← writeNat, hcs]
      rwa [hcs] at hfront

theorem whole?_writeNat (n : Nat) : whole? (writeNat n) = some n := by
  by_cases hzero : n = 0
  · rw [hzero]
    rfl
  · have hgroups := groupedValue?_writeNat n
    have hhead := head?_writeNat hzero
    generalize writeNat n = cs at hgroups hhead
    rw [whole?, hgroups]
    · rintro rfl
      exact hhead rfl
    · rintro tail rfl
      exact hhead rfl

theorem integer?_writeNat {n : Nat} (h : n < 2 ^ 63) : integer? (writeNat n) = some (n : Int) := by
  have hdigits : ∀ d ∈ writeNat n, d.isDigit = true := fun d => isDigit_of_mem_writeNat
  have hwhole := whole?_writeNat n
  generalize writeNat n = cs at hdigits hwhole
  have hsigned : signed cs = (false, cs) := by
    rw [signed]
    · rintro tail rfl
      exact absurd (hdigits '-' List.mem_cons_self) (by decide)
    · rintro tail rfl
      exact absurd (hdigits '+' List.mem_cons_self) (by decide)
  have hmark : ∀ {d : Char} {tail : List Char}, d.isDigit = false → cs ≠ '0' :: d :: tail := by
    rintro d tail hd rfl
    rw [hdigits d (List.mem_cons_of_mem _ List.mem_cons_self)] at hd
    cases hd
  unfold integer?
  split
  · exact absurd rfl (hmark (by decide))
  · exact absurd rfl (hmark (by decide))
  · exact absurd rfl (hmark (by decide))
  · rw [hsigned]
    dsimp only
    rw [hwhole]
    have hlow : Int64.minValue.toInt ≤ (n : Int) := Int.le_trans (by decide) (Int.natCast_nonneg n)
    have hhigh : (n : Int) ≤ Int64.maxValue.toInt := by
      show (n : Int) ≤ 2 ^ 63 - 1
      omega
    exact if_pos ⟨hlow, hhigh⟩

theorem value_writeNat (hrest : Ended rest) {n : Nat} (h : n < 2 ^ 63) :
    value (fuel + 1) depth (writeNat n ++ rest) = some (.int n, rest) := by
  have hdigits : ∀ d ∈ writeNat n, d.isDigit = true := fun d => isDigit_of_mem_writeNat
  have hne : writeNat n ≠ [] := Nat.toDigits_ne_nil
  refine value_of_word? hrest hne ?_ ?_
  · intro d hd
    have hd := hdigits d hd
    simp [isWordChar, Char.isAlphanum, hd]
  · have hletter : ∀ {d : Char} {tail : List Char}, d.isDigit = false → writeNat n ≠ d :: tail := by
      intro d tail hd heq
      have hmem : d ∈ writeNat n := heq ▸ List.mem_cons_self
      rw [hdigits d hmem] at hd
      cases hd
    have htrue : writeNat n ≠ "true".toList := hletter (by decide)
    have hfalse : writeNat n ≠ "false".toList := hletter (by decide)
    rw [word?, if_neg htrue, if_neg hfalse, integer?_writeNat h]

/-! ## Lists of texts -/

theorem exists_writeText (cs : List Char) :
    ∃ quote tail, (quote = '"' ∨ quote = '\'') ∧ writeText cs = quote :: tail := by
  unfold writeText
  dsimp only
  split_ifs <;> first | exact ⟨_, _, .inl rfl, rfl⟩ | exact ⟨_, _, .inr rfl, rfl⟩

theorem trivia_writeText (cs rest : List Char) :
    trivia false (writeText cs ++ rest) = some (writeText cs ++ rest) := by
  obtain ⟨quote, tail, hquote, heq⟩ := exists_writeText cs
  rw [heq]
  rcases hquote with rfl | rfl <;> rfl

theorem items_end (h : trivia false cs = some (']' :: rest)) :
    items (fuel + 1) depth cs = some ([], rest) := by
  rw [items, h]
  rfl

/-- A text in a list is read up to what follows it. -/
theorem items_text {t front next : List Char} (hnext : Ended next)
    (hfront : trivia false front = some (writeText t ++ next)) :
    items (fuel + 2) depth front =
      (trivia false next).bind fun
        | ',' :: rest =>
          (items (fuel + 1) depth rest).bind fun r => some (.text (String.ofList t) :: r.1, r.2)
        | ']' :: rest => some ([.text (String.ofList t)], rest)
        | _ => none := by
  have hvalue : value (fuel + 1) depth (writeText t ++ next) = some (.text (String.ofList t), next) :=
    value_writeText hnext t
  obtain ⟨quote, tail, hquote, heq⟩ := exists_writeText t
  rw [heq] at hvalue hfront
  rw [items, hfront]
  rcases hquote with rfl | rfl
  · show (value (fuel + 1) depth ('"' :: tail ++ next)).bind _ = _
    rw [hvalue]
    rfl
  · show (value (fuel + 1) depth ('\'' :: tail ++ next)).bind _ = _
    rw [hvalue]
    rfl

theorem items_comma {t front : List Char}
    (hfront : trivia false front = some (writeText t ++ ',' :: rest)) :
    items (fuel + 2) depth front =
      (items (fuel + 1) depth rest).bind fun r => some (.text (String.ofList t) :: r.1, r.2) := by
  rw [items_text (ended_cons rfl rest) hfront]
  rfl

/-- One text a line, each with a comma behind it. -/
theorem items_lines (ts : List (List Char)) (hfuel : ts.length + 1 ≤ fuel) :
    items fuel depth ('\n' ::
      (ts.flatMap (fun t => [' ', ' ', ' ', ' '] ++ writeText t ++ [',', '\n']) ++ ']' :: rest)) =
      some (ts.map fun t => .text (String.ofList t), rest) := by
  induction ts generalizing fuel with
  | nil =>
    obtain ⟨fuel, rfl⟩ := Nat.exists_eq_add_of_le' hfuel
    exact items_end rfl
  | cons t ts ih =>
    rw [List.length_cons] at hfuel
    obtain ⟨fuel, rfl⟩ := Nat.exists_eq_add_of_le' (show 2 ≤ fuel by omega)
    generalize hmore :
      ts.flatMap (fun t => [' ', ' ', ' ', ' '] ++ writeText t ++ [',', '\n']) ++ ']' :: rest = more
    have hrest : items (fuel + 1) depth ('\n' :: more) =
        some (ts.map fun t => .text (String.ofList t), rest) := by
      rw [← hmore]
      exact ih (by omega)
    have hblank : trivia false
        ('\n' :: ' ' :: ' ' :: ' ' :: ' ' :: (writeText t ++ ',' :: '\n' :: more)) =
        some (writeText t ++ ',' :: '\n' :: more) := trivia_writeText t _
    have hform : [' ', ' ', ' ', ' '] ++ writeText t ++ [',', '\n'] ++ more =
        ' ' :: ' ' :: ' ' :: ' ' :: (writeText t ++ ',' :: '\n' :: more) := by
      simp
    rw [List.flatMap_cons, List.append_assoc, hmore, hform, items_comma hblank, hrest]
    rfl

theorem length_le_flatMap {α : Type} {f : α → List Char} (hf : ∀ a, 1 ≤ (f a).length) (as : List α) :
    as.length ≤ (as.flatMap f).length := by
  induction as with
  | nil => exact Nat.le_refl 0
  | cons a as ih =>
    rw [List.flatMap_cons, List.length_append, List.length_cons]
    have ha := hf a
    omega

/-- A list of texts is read back. -/
theorem value_writeTexts (ts : List (List Char)) (hfuel : (writeTexts ts).length < fuel) :
    value fuel (depth + 1) (writeTexts ts ++ rest) =
      some (.list (ts.map fun t => .text (String.ofList t)), rest) := by
  match ts with
  | [] =>
    obtain ⟨fuel, rfl⟩ := Nat.exists_eq_add_of_le' (show 2 ≤ fuel from Nat.le_of_succ_le hfuel)
    show value (fuel + 2) (depth + 1) ('[' :: ']' :: rest) = _
    rw [value_bracket, items_end rfl]
    rfl
  | [t] =>
    have hlong : 3 ≤ fuel := by
      have hlength : (writeTexts [t]).length = (writeText t).length + 2 := by simp [writeTexts]
      omega
    obtain ⟨fuel, rfl⟩ := Nat.exists_eq_add_of_le' hlong
    have hform : writeTexts [t] ++ rest = '[' :: (writeText t ++ ']' :: rest) := by simp [writeTexts]
    rw [hform, value_bracket, items_text (ended_cons rfl rest) (trivia_writeText t _)]
    rfl
  | t :: t' :: ts =>
    have hform : writeTexts (t :: t' :: ts) = '[' :: '\n' :: ((t :: t' :: ts).flatMap
        (fun t => [' ', ' ', ' ', ' '] ++ writeText t ++ [',', '\n']) ++ [']']) := rfl
    have hcount := length_le_flatMap (f := fun t => [' ', ' ', ' ', ' '] ++ writeText t ++ [',', '\n'])
      (fun t => by simp) (t :: t' :: ts)
    rw [hform] at hfuel ⊢
    generalize t :: t' :: ts = ts at hcount hfuel ⊢
    rw [List.length_cons, List.length_cons, List.length_append, List.length_singleton] at hfuel
    obtain ⟨fuel, rfl⟩ := Nat.exists_eq_add_of_le' (show 1 ≤ fuel by omega)
    rw [List.cons_append, List.cons_append, List.append_assoc, List.singleton_append,
      value_bracket, items_lines ts (by omega)]
    rfl

end DeviceSleep.Toml
