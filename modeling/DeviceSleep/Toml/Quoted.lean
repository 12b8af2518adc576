import DeviceSleep.Text.Numeral
import DeviceSleep.Toml.Blank

/-! Quoted TOML texts. Each reader starts behind the opening quotes and leaves what follows the
closing ones. -/
namespace DeviceSleep.Toml
set_option autoImplicit false

/-! ## Escapes -/

/-- The character of a number, unless the number is out of range or a surrogate. -/
def scalar? (n : Nat) : Option Char :=
  if n.isValidChar then some (Char.ofNat n) else none

def escapes : List (Char × Char) :=
  [('b', '\x08'), ('t', '\t'), ('n', '\n'), ('f', '\x0C'), ('r', '\r'), ('"', '"'), ('\\', '\\')]

/-- The character that an escape stands for, behind its backslash. -/
def escape? : List Char → Option (Char × List Char)
  | [] => none
  | c :: rest =>
    let length := if c = 'u' then 4 else if c = 'U' then 8 else 0
    if length = 0 then (escapes.lookup c).map fun e => (e, rest)
    else if rest.length < length then none
    else do
      let n ← Text.digits? 16 (rest.take length)
      let e ← scalar? n
      return (e, rest.drop length)

theorem escape?_shorter {cs rest : List Char} {c : Char} (h : escape? cs = some (c, rest)) :
    rest.length < cs.length := by
  cases cs with
  | nil => cases h
  | cons d ds =>
    simp only [escape?] at h
    generalize hn : (if d = 'u' then 4 else if d = 'U' then 8 else 0) = n at h
    split at h
    · simp only [Option.map_eq_some_iff, Prod.mk.injEq] at h
      obtain ⟨_, _, _, rfl⟩ := h
      simp
    · split at h
      · cases h
      · simp only [bind, Option.bind_eq_some_iff] at h
        obtain ⟨_, _, _, _, h⟩ := h
        cases h
        simp only [List.length_drop, List.length_cons]
        omega

/-! ## On one line -/

/-- A text in double quotes. -/
def basic (cs : List Char) : Option (List Char × List Char) :=
  match cs with
  | [] => none
  | '"' :: rest => some ([], rest)
  | '\\' :: rest =>
    match _h : escape? rest with
    | none => none
    | some (e, after) => (basic after).map fun r => (e :: r.1, r.2)
  | c :: rest => if isPlain c then (basic rest).map fun r => (c :: r.1, r.2) else none
termination_by cs.length
decreasing_by
  · have := escape?_shorter (by assumption)
    simp only [List.length_cons]
    omega
  · simp

/-- A text in single quotes, without escapes. -/
def literal : List Char → Option (List Char × List Char)
  | [] => none
  | '\'' :: rest => some ([], rest)
  | c :: rest => if isPlain c then (literal rest).map fun r => (c :: r.1, r.2) else none

/-! ## On several lines -/

/-- A line end right behind the opening quotes does not count. -/
def afterOpening : List Char → List Char
  | '\n' :: rest => rest
  | '\r' :: '\n' :: rest => rest
  | cs => cs

/-- Blanks and line ends. -/
def skipLines : List Char → List Char
  | ' ' :: rest => skipLines rest
  | '\t' :: rest => skipLines rest
  | '\n' :: rest => skipLines rest
  | '\r' :: '\n' :: rest => skipLines rest
  | cs => cs

/-- Behind a backslash: blanks and a line end join the lines, and all further blanks go too. -/
def joinedLine? (cs : List Char) : Option (List Char) :=
  match spaces cs with
  | '\n' :: rest => some (skipLines rest)
  | '\r' :: '\n' :: rest => some (skipLines rest)
  | _ => none

theorem skipLines_le (cs : List Char) : (skipLines cs).length ≤ cs.length := by
  fun_induction skipLines cs <;> simp_all <;> omega

theorem joinedLine?_le {cs rest : List Char} (h : joinedLine? cs = some rest) :
    rest.length ≤ cs.length := by
  have hs : (spaces cs).length ≤ cs.length := (List.dropWhile_sublist _).length_le
  unfold joinedLine? at h
  split at h
  · rename_i tail heq
    cases h
    have := skipLines_le tail
    rw [heq, List.length_cons] at hs
    omega
  · rename_i tail heq
    cases h
    have := skipLines_le tail
    rw [heq, List.length_cons, List.length_cons] at hs
    omega
  · cases h

/-- Behind three closing quotes up to two more belong to the text. -/
def closing (quote : Char) : List Char → List Char × List Char
  | c :: d :: rest =>
    if c = quote then (if d = quote then ([c, d], rest) else ([c], d :: rest)) else ([], c :: d :: rest)
  | [c] => if c = quote then ([c], []) else ([], [c])
  | [] => ([], [])

def basicLines (cs : List Char) : Option (List Char × List Char) :=
  match cs with
  | [] => none
  | '"' :: '"' :: '"' :: rest => some (closing '"' rest)
  | '\\' :: rest =>
    match _h : joinedLine? rest with
    | some after => basicLines after
    | none =>
      match _h : escape? rest with
      | none => none
      | some (e, after) => (basicLines after).map fun r => (e :: r.1, r.2)
  | '\r' :: '\n' :: rest => (basicLines rest).map fun r => ('\n' :: r.1, r.2)
  | c :: rest =>
    if c = '\n' || isPlain c then (basicLines rest).map fun r => (c :: r.1, r.2) else none
termination_by cs.length
decreasing_by
  · have := joinedLine?_le (by assumption)
    simp only [List.length_cons]
    omega
  · have := escape?_shorter (by assumption)
    simp only [List.length_cons]
    omega
  · simp only [List.length_cons]
    omega
  · simp

def literalLines : List Char → Option (List Char × List Char)
  | [] => none
  | '\'' :: '\'' :: '\'' :: rest => some (closing '\'' rest)
  | '\r' :: '\n' :: rest => (literalLines rest).map fun r => ('\n' :: r.1, r.2)
  | c :: rest =>
    if c = '\n' || isPlain c then (literalLines rest).map fun r => (c :: r.1, r.2) else none

end DeviceSleep.Toml
