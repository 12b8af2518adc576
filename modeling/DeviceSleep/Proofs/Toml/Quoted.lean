import DeviceSleep.Proofs.Text.Hexadecimal
import DeviceSleep.Toml.Quoted
import DeviceSleep.Toml.Writer
import Mathlib.Tactic.SplitIfs

/-! Quoted texts are read back as what was written, up to the closing quotes and no further. An escape
is read as the character it stands for, whatever follows it. In triple quotes, quotes of the text may
stand right before the closing ones, two at most; where they do, all of them are met at once. -/
namespace DeviceSleep.Toml
set_option autoImplicit false

variable {c : Char} {cs rest : List Char}

/-! ## Characters -/

theorem isPlain_of_isControl (hcontrol : isControl c = false) (hline : c ≠ '\n') :
    isPlain c = true := by
  obtain ⟨hlow, hdelete⟩ := Bool.or_eq_false_iff.mp hcontrol
  have hne : c ≠ '\u007F' := beq_eq_false_iff_ne.mp hdelete
  by_cases htab : c = '\t'
  · rw [htab]
    rfl
  · have hle : ' ' ≤ c := by
      by_contra hlt
      simp [Char.not_le.mp hlt, htab, hline] at hlow
    simp [isPlain, hle, hne]

theorem toNat_lt_of_isControl (h : isControl c = true) : c.toNat < 128 := by
  rcases Bool.or_eq_true_iff.mp h with hlow | hdelete
  · have hlt : c < ' ' := by
      by_contra hle
      simp [hle] at hlow
    have hlt : c.toNat < 32 := hlt
    omega
  · rw [beq_iff_eq.mp hdelete]
    decide

/-- Four hexadecimal digits are read back. -/
theorem digits?_hexUnit {n : Nat} (h : n < 65536) : Text.digits? 16 (Text.hexUnit n) = some n := by
  have hdigit : ∀ d < 16, Text.digitIn? 16 (Text.hexDigit d).toUpper = some d := by decide
  have hvalue :
      (((0 * 16 + n / 4096 % 16) * 16 + n / 256 % 16) * 16 + n / 16 % 16) * 16 + n % 16 = n := by
    omega
  simp only [Text.hexUnit, List.map_cons, List.map_nil, Text.digits?, Text.readDigits,
    hdigit _ (Nat.mod_lt _ (by decide : 0 < 16)), Option.bind_some, hvalue]

/-! ## Escapes -/

/-- A backslash and what is behind it stand for a character, whatever follows. -/
def Escapes (c : Char) (cs : List Char) : Prop :=
  ∃ body, cs = '\\' :: body ∧
    ∀ rest, escape? (body ++ rest) = some (c, rest) ∧ joinedLine? (body ++ rest) = none

theorem escapes_short {e c : Char} (h : (e, c) ∈ escapes) : Escapes c ['\\', e] := by
  have hall : ∀ pair ∈ escapes, escapes.lookup pair.1 = some pair.2 ∧ pair.1 ≠ 'u' ∧ pair.1 ≠ 'U' ∧
      isSpace pair.1 = false ∧ pair.1 ≠ '\n' ∧ pair.1 ≠ '\r' := by decide
  obtain ⟨hlookup, hunit, hlong, hspace, hfeed, hreturn⟩ := hall _ h
  refine ⟨[e], rfl, fun rest => ⟨?_, ?_⟩⟩
  · rw [List.singleton_append, escape?, if_neg hunit, if_neg hlong, if_pos rfl, hlookup]
    rfl
  · rw [joinedLine?, spaces, List.singleton_append, List.dropWhile_cons_of_neg (by simp [hspace])]
    split
    · rename_i heq
      exact absurd (List.cons.inj heq).1 hfeed
    · rename_i heq
      exact absurd (List.cons.inj heq).1 hreturn
    · rfl

theorem escapes_quote : Escapes '"' ['\\', '"'] := escapes_short (by decide)

theorem escapes_unit (h : c.toNat < 65536) : Escapes c (['\\', 'u'] ++ Text.hexUnit c.toNat) := by
  refine ⟨'u' :: Text.hexUnit c.toNat, rfl, fun rest => ⟨?_, rfl⟩⟩
  have hlength : (Text.hexUnit c.toNat).length = 4 := rfl
  have hvalid : c.toNat.isValidChar := c.valid
  rw [List.cons_append, escape?, if_pos rfl, if_neg (by decide), if_neg (by simp [hlength]),
    ← hlength, List.take_left, List.drop_left, digits?_hexUnit h]
  dsimp only [bind, Option.bind_some]
  rw [scalar?, if_pos hvalid, Char.ofNat_toNat]
  rfl

theorem escapes_of_escaped? (h : escaped? c = some cs) : Escapes c cs := by
  unfold escaped? at h
  split_ifs at h with hback htab hform hreturn hslash hcontrol
  · subst hback
    cases h
    exact escapes_short (by decide)
  · subst htab
    cases h
    exact escapes_short (by decide)
  · subst hform
    cases h
    exact escapes_short (by decide)
  · subst hreturn
    cases h
    exact escapes_short (by decide)
  · subst hslash
    cases h
    exact escapes_short (by decide)
  · cases h
    have hlt := toNat_lt_of_isControl hcontrol
    exact escapes_unit (by omega)

/-- What is not escaped can be read as it stands. -/
theorem plain_of_escaped? (h : escaped? c = none) :
    c ≠ '\\' ∧ c ≠ '\r' ∧ (c = '\n' ∨ isPlain c = true) := by
  unfold escaped? at h
  split_ifs at h with hback htab hform hreturn hslash hcontrol
  refine ⟨hslash, hreturn, ?_⟩
  by_cases hline : c = '\n'
  · exact .inl hline
  · exact .inr (isPlain_of_isControl (Bool.eq_false_iff.mpr hcontrol) hline)

/-! ## On one line -/

theorem basic_escape {es : List Char} (h : Escapes c es) (rest : List Char) :
    basic (es ++ rest) = (basic rest).map fun r => (c :: r.1, r.2) := by
  obtain ⟨body, rfl, hbody⟩ := h
  rw [List.cons_append, basic]
  split
  · rename_i hnone
    rw [(hbody rest).1] at hnone
    cases hnone
  · rename_i hsome
    rw [(hbody rest).1] at hsome
    cases hsome
    rfl

theorem basic_plain (hquote : c ≠ '"') (hslash : c ≠ '\\') (hplain : isPlain c = true)
    (rest : List Char) : basic (c :: rest) = (basic rest).map fun r => (c :: r.1, r.2) := by
  rw [basic, if_pos hplain]
  · exact hquote
  · exact hslash

/-- A text in double quotes is read back. -/
theorem basic_inBasic (cs rest : List Char) :
    basic (inBasic cs ++ '"' :: rest) = some (cs, rest) := by
  induction cs with
  | nil =>
    show basic ('"' :: rest) = _
    rw [basic]
  | cons c cs ih =>
    rw [inBasic, List.flatMap_cons, ← inBasic, List.append_assoc]
    by_cases hline : c = '\n'
    · have hfeed : Escapes '\n' ['\\', 'n'] := escapes_short (by decide)
      rw [if_pos hline, basic_escape hfeed, ih, hline]
      rfl
    · rw [if_neg hline]
      by_cases hquote : c = '"'
      · rw [if_pos hquote, basic_escape escapes_quote, ih, hquote]
        rfl
      · rw [if_neg hquote]
        cases hescaped : escaped? c with
        | some es =>
          rw [Option.getD_some, basic_escape (escapes_of_escaped? hescaped), ih]
          rfl
        | none =>
          obtain ⟨hslash, -, hplain⟩ := plain_of_escaped? hescaped
          rw [Option.getD_none, List.singleton_append,
            basic_plain hquote hslash (hplain.resolve_left hline), ih]
          rfl

/-- A text in single quotes is read back; it holds none, and no character that would be escaped for
being a control character. -/
theorem literal_append (hquote : '\'' ∉ cs) (hline : '\n' ∉ cs)
    (hcontrol : cs.any isControl = false) (rest : List Char) :
    literal (cs ++ '\'' :: rest) = some (cs, rest) := by
  induction cs with
  | nil =>
    rw [List.nil_append, literal]
  | cons c cs ih =>
    rw [List.mem_cons, not_or] at hquote hline
    obtain ⟨hc, hcs⟩ := Bool.or_eq_false_iff.mp hcontrol
    have hplain := isPlain_of_isControl hc (Ne.symm hline.1)
    rw [List.cons_append, literal, if_pos hplain, ih hquote.2 hline.2 hcs]
    · rfl
    · exact Ne.symm hquote.1

/-! ## On several lines -/

theorem closing_of_head? {quote : Char} (h : ∀ d ∈ rest.head?, d ≠ quote) (quotes : List Char)
    (hquotes : quotes = [] ∨ quotes = [quote] ∨ quotes = [quote, quote]) :
    closing quote (quotes ++ rest) = (quotes, rest) := by
  have hrest : ∀ d ds, rest = d :: ds → d ≠ quote := fun d ds heq => h d (heq ▸ rfl)
  rcases hquotes with rfl | rfl | rfl
  · cases rest with
    | nil => rfl
    | cons d ds =>
      have hd := hrest d ds rfl
      cases ds <;> simp [closing, hd]
  · cases rest with
    | nil => simp [closing]
    | cons d ds => simp [closing, hrest d ds rfl]
  · simp [closing]

theorem basicLines_escape {es : List Char} (h : Escapes c es) (rest : List Char) :
    basicLines (es ++ rest) = (basicLines rest).map fun r => (c :: r.1, r.2) := by
  obtain ⟨body, rfl, hbody⟩ := h
  obtain ⟨hescape, hjoined⟩ := hbody rest
  rw [List.cons_append, basicLines]
  split
  · rename_i hsome
    rw [hjoined] at hsome
    cases hsome
  · split
    · rename_i hnone
      rw [hescape] at hnone
      cases hnone
    · rename_i hsome
      rw [hescape] at hsome
      cases hsome
      rfl

theorem basicLines_plain (hslash : c ≠ '\\') (hreturn : c ≠ '\r')
    (hplain : c = '\n' ∨ isPlain c = true) (hopen : c = '"' → ∀ tail, rest ≠ '"' :: '"' :: tail) :
    basicLines (c :: rest) = (basicLines rest).map fun r => (c :: r.1, r.2) := by
  rw [basicLines, if_pos (by simpa using hplain)]
  · intro tail hc hrest
    exact hopen hc tail hrest
  · exact hslash
  · intro tail hc _
    exact hreturn hc

/-- Only a quote of the text itself is written as a quote. -/
theorem inBasicLines_eq_quote {run : Nat} {more tail : List Char}
    (h : inBasicLines run (c :: cs) ++ more = '"' :: tail) :
    c = '"' ∧ run ≠ 2 ∧ inBasicLines (run + 1) cs ++ more = tail := by
  rw [inBasicLines] at h
  split at h
  · rename_i hquote
    split at h
    · cases h
    · rename_i hrun
      exact ⟨hquote, hrun, (List.cons.inj h).2⟩
  · rename_i hquote
    rw [List.append_assoc] at h
    cases hescaped : escaped? c with
    | some es =>
      obtain ⟨body, rfl, -⟩ := escapes_of_escaped? hescaped
      rw [hescaped] at h
      cases h
    | none =>
      rw [hescaped] at h
      exact absurd (List.cons.inj h).1 hquote

/-- The first character is a quote, belongs to an escape, or is the first one of the text. -/
theorem head?_inBasicLines {d : Char} (cs more : List Char)
    (h : d ∈ (inBasicLines 0 cs ++ '"' :: more).head?) :
    d = '"' ∨ d = '\\' ∨ d ≠ '\r' ∧ d ∈ cs.head? := by
  cases cs with
  | nil =>
    cases h
    exact .inl rfl
  | cons c cs =>
    rw [inBasicLines] at h
    split at h
    · cases h
      exact .inl rfl
    · cases hescaped : escaped? c with
      | some es =>
        obtain ⟨body, rfl, -⟩ := escapes_of_escaped? hescaped
        rw [hescaped] at h
        cases h
        exact .inr (.inl rfl)
      | none =>
        rw [hescaped] at h
        cases h
        exact .inr (.inr ⟨(plain_of_escaped? hescaped).2.1, rfl⟩)

/-- A bare double quote belongs to the text: where the text ends behind it, the quotes that close are the
last three, and else a character follows before there are three of them. -/
theorem basicLines_quote (hrest : ∀ d ∈ rest.head?, d ≠ '"') {run : Nat} (hrun : run < 2)
    (hread : basicLines (inBasicLines (run + 1) cs ++ '"' :: '"' :: '"' :: rest) = some (cs, rest)) :
    basicLines ('"' :: (inBasicLines (run + 1) cs ++ '"' :: '"' :: '"' :: rest)) =
      some ('"' :: cs, rest) := by
  cases cs with
  | nil =>
    rw [inBasicLines, List.nil_append, basicLines]
    exact congrArg some (closing_of_head? hrest ['"'] (.inr (.inl rfl)))
  | cons d ds =>
    by_cases hall : run = 0 ∧ d = '"' ∧ ds = []
    · obtain ⟨rfl, rfl, rfl⟩ := hall
      show basicLines ('"' :: '"' :: '"' :: '"' :: '"' :: rest) = _
      rw [basicLines]
      exact congrArg some (closing_of_head? hrest ['"', '"'] (.inr (.inr rfl)))
    · rw [basicLines_plain (by decide) (by decide) (.inr (by decide)), hread]
      · rfl
      · intro _ tail htail
        obtain ⟨hd, hsecond, hmore⟩ := inBasicLines_eq_quote htail
        have hzero : run = 0 := by omega
        subst hzero
        cases ds with
        | nil => exact hall ⟨rfl, hd, rfl⟩
        | cons e es => exact absurd rfl (inBasicLines_eq_quote hmore).2.1

/-- A text in triple double quotes is read back. -/
theorem basicLines_inBasicLines (hrest : ∀ d ∈ rest.head?, d ≠ '"') (cs : List Char) {run : Nat}
    (hrun : run ≤ 2) :
    basicLines (inBasicLines run cs ++ '"' :: '"' :: '"' :: rest) = some (cs, rest) := by
  induction cs generalizing run with
  | nil =>
    rw [inBasicLines, List.nil_append, basicLines]
    exact congrArg some (closing_of_head? hrest [] (.inl rfl))
  | cons c cs ih =>
    rw [inBasicLines]
    by_cases hquote : c = '"'
    · subst hquote
      rw [if_pos rfl]
      by_cases hthird : run = 2
      · rw [if_pos hthird]
        show basicLines (['\\', '"'] ++ (inBasicLines 0 cs ++ '"' :: '"' :: '"' :: rest)) = _
        rw [basicLines_escape escapes_quote, ih (by omega)]
        rfl
      · rw [if_neg hthird, List.cons_append]
        exact basicLines_quote hrest (by omega) (ih (by omega))
    · rw [if_neg hquote, List.append_assoc]
      cases hescaped : escaped? c with
      | some es =>
        rw [Option.getD_some, basicLines_escape (escapes_of_escaped? hescaped), ih (by omega)]
        rfl
      | none =>
        obtain ⟨hslash, hreturn, hplain⟩ := plain_of_escaped? hescaped
        rw [Option.getD_none, List.singleton_append,
          basicLines_plain hslash hreturn hplain fun h => absurd h hquote, ih (by omega)]
        rfl

/-! ## Runs of quotes -/

theorem max_le_longestRun (quote : Char) (current longest : Nat) (cs : List Char) :
    max current longest ≤ longestRun quote current longest cs := by
  induction cs generalizing current longest with
  | nil => exact Nat.le_refl _
  | cons c cs ih =>
    rw [longestRun]
    split
    · exact Nat.le_trans (by omega) (ih (current + 1) longest)
    · exact Nat.le_trans (by omega) (ih 0 (max current longest))

theorem longestRun_mono (quote : Char) {current current' longest longest' : Nat}
    (hcurrent : current ≤ current') (hlongest : longest ≤ longest') (cs : List Char) :
    longestRun quote current longest cs ≤ longestRun quote current' longest' cs := by
  induction cs generalizing current current' longest longest' with
  | nil =>
    rw [longestRun, longestRun]
    omega
  | cons c cs ih =>
    rw [longestRun, longestRun]
    split
    · exact ih (by omega) hlongest
    · exact ih (Nat.le_refl 0) (by omega)

theorem longestRun_tail (quote c : Char) (cs : List Char) :
    longestRun quote 0 0 cs ≤ longestRun quote 0 0 (c :: cs) := by
  rw [longestRun.eq_2]
  split
  · exact longestRun_mono quote (by omega) (Nat.le_refl 0) cs
  · exact Nat.le_refl _

theorem literalLines_plain (hreturn : c ≠ '\r') (hplain : c = '\n' ∨ isPlain c = true)
    (hopen : c = '\'' → ∀ tail, rest ≠ '\'' :: '\'' :: tail) :
    literalLines (c :: rest) = (literalLines rest).map fun r => (c :: r.1, r.2) := by
  rw [literalLines, if_pos (by simpa using hplain)]
  · intro tail hc hrest
    exact hopen hc tail hrest
  · intro tail hc _
    exact hreturn hc

/-- A text in triple single quotes is read back; it holds no three of them in a row. -/
theorem literalLines_append (hrest : ∀ d ∈ rest.head?, d ≠ '\'')
    (hcontrol : cs.any isControl = false) (hrun : longestRun '\'' 0 0 cs ≤ 2) :
    literalLines (cs ++ '\'' :: '\'' :: '\'' :: rest) = some (cs, rest) := by
  induction cs with
  | nil =>
    rw [List.nil_append, literalLines]
    exact congrArg some (closing_of_head? hrest [] (.inl rfl))
  | cons c cs ih =>
    obtain ⟨hc, hcs⟩ := Bool.or_eq_false_iff.mp hcontrol
    have hreturn : c ≠ '\r' := by
      rintro rfl
      cases hc
    have hplain : c = '\n' ∨ isPlain c = true := by
      by_cases hline : c = '\n'
      · exact .inl hline
      · exact .inr (isPlain_of_isControl hc hline)
    by_cases hend : c = '\'' ∧ (cs = [] ∨ cs = ['\''])
    · obtain ⟨rfl, rfl | rfl⟩ := hend
      · show literalLines ('\'' :: '\'' :: '\'' :: '\'' :: rest) = _
        rw [literalLines]
        exact congrArg some (closing_of_head? hrest ['\''] (.inr (.inl rfl)))
      · show literalLines ('\'' :: '\'' :: '\'' :: '\'' :: '\'' :: rest) = _
        rw [literalLines]
        exact congrArg some (closing_of_head? hrest ['\'', '\''] (.inr (.inr rfl)))
    · rw [List.cons_append, literalLines_plain hreturn hplain,
        ih hcs (Nat.le_trans (longestRun_tail _ c cs) hrun)]
      · rfl
      · rintro rfl tail htail
        -- The text would go on with two more quotes.
        match cs, hend with
        | [], hend => exact hend ⟨rfl, .inl rfl⟩
        | [d], hend =>
          obtain ⟨rfl, -⟩ := List.cons.inj htail
          exact hend ⟨rfl, .inr rfl⟩
        | d :: e :: es, _ =>
          cases htail
          have hthree := max_le_longestRun '\'' 3 0 es
          have hrun : longestRun '\'' 3 0 es ≤ 2 := hrun
          omega

end DeviceSleep.Toml
