import DeviceSleep.Json.Printer
import DeviceSleep.Proofs.Text.Hexadecimal
import Mathlib.Data.List.TakeWhile

/-! The text of a value determines the value. Every part of a text shows where it ends: a text at its
closing quote, a list or an object at its bracket, and a number where no digit follows. So if two texts
agree as far as they go, with any endings behind them, then they are texts of the same value. -/
namespace DeviceSleep.Json
set_option autoImplicit false

/-! ## Numbers -/

/-- What stands behind a value never continues a number. -/
def Closes (rest : List Char) : Prop := ∀ c ∈ rest.head?, c.isDigit = false

theorem closes_nil : Closes [] := nofun

theorem closes_cons {c : Char} (h : c.isDigit = false) (rest : List Char) : Closes (c :: rest) := by
  intro d hd
  cases hd
  exact h

theorem isDigit_of_mem_writeNat {n : Nat} {c : Char} (h : c ∈ writeNat n) : c.isDigit = true :=
  Nat.isDigit_of_mem_toDigits (by decide) (by decide) h

theorem writeNat_append_inj {m n : Nat} {r s : List Char} (hr : Closes r) (hs : Closes s)
    (h : writeNat m ++ r = writeNat n ++ s) : m = n ∧ r = s := by
  have hcut : ∀ (k : Nat) {rest : List Char}, Closes rest →
      (writeNat k ++ rest).takeWhile Char.isDigit = writeNat k := by
    intro k rest hrest
    rw [List.takeWhile_append_of_pos fun c hc => isDigit_of_mem_writeNat hc]
    cases rest with
    | nil => simp
    | cons c rest => rw [List.takeWhile_cons_of_neg (by simp [hrest c rfl]), List.append_nil]
  have hdigits : writeNat m = writeNat n := by
    rw [← hcut m hr, h, hcut n hs]
  have hvalue : m = n := by
    rw [← Nat.ofDigitChars_ten_toDigits (n := m), ← Nat.ofDigitChars_ten_toDigits (n := n)]
    exact congrArg (Nat.ofDigitChars 10 · 0) hdigits
  subst hvalue
  exact ⟨rfl, List.append_cancel_left h⟩

/-! ## Texts -/

/-- The character at the front of a text inside quotes, and what is behind it. -/
def readChar? : List Char → Option (Char × List Char)
  | '\\' :: 'u' :: '0' :: '0' :: high :: low :: rest => do
    let h ← Text.digit? high
    let l ← Text.digit? low
    return (Char.ofNat (16 * h + l), rest)
  | '\\' :: e :: rest => (escapes.find? fun escape => escape.2 = e).map fun escape => (escape.1, rest)
  | c :: rest => some (c, rest)
  | [] => none

theorem readChar?_escape {c e : Char} (h : (c, e) ∈ escapes) (rest : List Char) :
    readChar? ('\\' :: e :: rest) = some (c, rest) := by
  unfold escapes at h
  simp only [List.mem_cons, Prod.mk.injEq, List.not_mem_nil, or_false] at h
  rcases h with ⟨rfl, rfl⟩ | ⟨rfl, rfl⟩ | ⟨rfl, rfl⟩ | ⟨rfl, rfl⟩ | ⟨rfl, rfl⟩ | ⟨rfl, rfl⟩ |
    ⟨rfl, rfl⟩ <;> rfl

theorem readChar?_writeChar (c : Char) (rest : List Char) :
    readChar? (writeChar c ++ rest) = some (c, rest) := by
  unfold writeChar
  split
  · rename_i e he
    obtain ⟨before, after, hsplit, -⟩ := List.lookup_eq_some_iff.mp he
    have hmem : (c, e) ∈ escapes := by
      rw [hsplit]
      exact List.mem_append_right before List.mem_cons_self
    exact readChar?_escape hmem rest
  · rename_i hplain
    split
    · rename_i hcontrol
      have hc : c.toNat < 32 := hcontrol
      have hvalue : 16 * (c.toNat / 16) + c.toNat % 16 = c.toNat := Nat.div_add_mod c.toNat 16
      simp only [List.cons_append, List.nil_append, readChar?,
        Text.digit?_hexDigit (show c.toNat / 16 < 16 by omega),
        Text.digit?_hexDigit (show c.toNat % 16 < 16 by omega), Option.bind_eq_bind,
        Option.bind_some, hvalue, Char.ofNat_toNat]
      rfl
    · -- A backslash is always escaped, so this one is read as it stands.
      have hslash : c ≠ '\\' := by
        rintro rfl
        cases hplain
      rw [List.singleton_append, readChar?]
      · exact fun _ _ _ hc _ => hslash hc
      · exact fun _ _ hc _ => hslash hc

/-- No character is written with a quote in front. -/
theorem writeChar_ne_quote (c : Char) (rest r : List Char) : writeChar c ++ rest ≠ '"' :: r := by
  intro h
  have hread := readChar?_writeChar c rest
  rw [h] at hread
  obtain ⟨rfl, -⟩ : '"' = c ∧ r = rest := by simpa [readChar?] using hread
  cases h

theorem writeChar_append_inj {c d : Char} {r s : List Char}
    (h : writeChar c ++ r = writeChar d ++ s) : c = d ∧ r = s := by
  have hread := readChar?_writeChar c r
  rw [h, readChar?_writeChar d s] at hread
  cases hread
  exact ⟨rfl, rfl⟩

theorem quoted_append_inj {cs ds r s : List Char}
    (h : cs.flatMap writeChar ++ '"' :: r = ds.flatMap writeChar ++ '"' :: s) :
    cs = ds ∧ r = s := by
  induction cs generalizing ds with
  | nil =>
    cases ds with
    | nil =>
      cases h
      exact ⟨rfl, rfl⟩
    | cons d ds =>
      rw [List.flatMap_cons, List.append_assoc] at h
      exact absurd h.symm (writeChar_ne_quote d _ r)
  | cons c cs ih =>
    rw [List.flatMap_cons, List.append_assoc] at h
    cases ds with
    | nil => exact absurd h (writeChar_ne_quote c _ s)
    | cons d ds =>
      rw [List.flatMap_cons, List.append_assoc] at h
      obtain ⟨rfl, hrest⟩ := writeChar_append_inj h
      obtain ⟨rfl, rfl⟩ := ih hrest
      exact ⟨rfl, rfl⟩

theorem writeText_append_inj {s t : String} {r r' : List Char}
    (h : writeText s ++ r = writeText t ++ r') : s = t ∧ r = r' := by
  unfold writeText at h
  rw [List.cons_append, List.cons_append, List.append_assoc, List.append_assoc] at h
  obtain ⟨hchars, hrest⟩ := quoted_append_inj (List.cons.inj h).2
  exact ⟨String.toList_inj.mp hchars, hrest⟩

/-! ## Values -/

/-- What kind of value it is. -/
inductive Form where
  | null
  | bool
  | num
  | text
  | list
  | object
deriving DecidableEq

def form : Json → Form
  | .null => .null
  | .bool _ => .bool
  | .num _ => .num
  | .text _ => .text
  | .list _ => .list
  | .object _ => .object

/-- The kind of value that begins with a character. -/
def formOf (c : Char) : Form :=
  if c.isDigit then .num
  else if c = 'n' then .null
  else if c = '"' then .text
  else if c = '[' then .list
  else if c = '\x7b' then .object
  else .bool

theorem head?_pretty (level : Nat) (a : Json) :
    ∃ c, (a.pretty level).head? = some c ∧ formOf c = a.form := by
  cases a with
  | null => exact ⟨'n', rfl, rfl⟩
  | bool b => cases b <;> exact ⟨_, rfl, rfl⟩
  | num n =>
    have hne : writeNat n ≠ [] := Nat.toDigits_ne_nil
    obtain ⟨c, hc⟩ := Option.isSome_iff_exists.mp (List.isSome_head?.mpr hne)
    have hdigit := isDigit_of_mem_writeNat (List.mem_of_mem_head? hc)
    exact ⟨c, hc, if_pos hdigit⟩
  | text s => exact ⟨'"', rfl, rfl⟩
  | list items => cases items <;> exact ⟨'[', rfl, rfl⟩
  | object members => cases members <;> exact ⟨'\x7b', rfl, rfl⟩

theorem form_eq_of_pretty {level : Nat} {a b : Json} {r s : List Char}
    (h : a.pretty level ++ r = b.pretty level ++ s) : a.form = b.form := by
  obtain ⟨c, hc, ha⟩ := head?_pretty level a
  obtain ⟨d, hd, hb⟩ := head?_pretty level b
  have hhead := congrArg List.head? h
  rw [List.head?_append, List.head?_append, hc, hd] at hhead
  cases hhead
  rw [← ha, ← hb]

/-! ## Items and members -/

/-- What stands behind an item or a member: a comma and the next one, or what closes them all. -/
def more (next : List Char) : List Char := if next = [] then [] else ',' :: next

theorem prettyItems_eq_nil_iff {level : Nat} {items : List Json} :
    prettyItems level items = [] ↔ items = [] := by
  cases items with
  | nil => exact iff_of_true rfl rfl
  | cons item items => cases items <;> simp [prettyItems, newLine]

theorem prettyMembers_eq_nil_iff {level : Nat} {members : List (String × Json)} :
    prettyMembers level members = [] ↔ members = [] := by
  cases members with
  | nil => exact iff_of_true rfl rfl
  | cons member members => cases members <;> simp [prettyMembers, newLine]

theorem prettyItems_cons (level : Nat) (item : Json) (items : List Json) :
    prettyItems level (item :: items) =
      newLine level ++ (pretty level item ++ more (prettyItems level items)) := by
  unfold more
  cases items with
  | nil => simp [prettyItems]
  | cons next rest => simp [prettyItems, prettyItems_eq_nil_iff]

theorem prettyMembers_cons (level : Nat) (name : String) (value : Json)
    (members : List (String × Json)) :
    prettyMembers level ((name, value) :: members) =
      newLine level ++ (writeText name ++ ':' :: ' ' ::
        (pretty level value ++ more (prettyMembers level members))) := by
  unfold more
  cases members with
  | nil => simp [prettyMembers]
  | cons next rest => simp [prettyMembers, prettyMembers_eq_nil_iff]

theorem pretty_list_append (level : Nat) (item : Json) (items : List Json) (r : List Char) :
    pretty level (.list (item :: items)) ++ r =
      '[' :: (prettyItems (level + 1) (item :: items) ++
        '\n' :: (List.replicate (2 * level) ' ' ++ ']' :: r)) := by
  simp [pretty, newLine]

theorem pretty_object_append (level : Nat) (member : String × Json)
    (members : List (String × Json)) (r : List Char) :
    pretty level (.object (member :: members)) ++ r =
      '\x7b' :: (prettyMembers (level + 1) (member :: members) ++
        '\n' :: (List.replicate (2 * level) ' ' ++ '\x7d' :: r)) := by
  simp [pretty, newLine]

theorem closes_more (next r : List Char) : Closes (more next ++ '\n' :: r) := by
  unfold more
  split <;> exact closes_cons rfl _

/-- A comma tells that there is another one, and a line feed that there is none. -/
theorem more_append_inj {xs ys r s : List Char}
    (h : more xs ++ '\n' :: r = more ys ++ '\n' :: s) :
    (xs = [] ↔ ys = []) ∧ xs ++ '\n' :: r = ys ++ '\n' :: s := by
  unfold more at h
  split at h <;> split at h
  · rename_i hx hy
    exact ⟨iff_of_true hx hy, by rw [hx, hy]; exact h⟩
  · cases h
  · cases h
  · rename_i hx hy
    exact ⟨iff_of_false hx hy, (List.cons.inj h).2⟩

/-! ## The whole text -/

mutual

theorem pretty_append_inj (a b : Json) (level : Nat) {r s : List Char} (hr : Closes r)
    (hs : Closes s) (h : a.pretty level ++ r = b.pretty level ++ s) : a = b ∧ r = s := by
  -- The first character tells the constructor, which leaves one case of `b` for each of `a`.
  have hform := form_eq_of_pretty h
  cases a with
  | null =>
    cases b <;> cases hform
    exact ⟨rfl, List.append_cancel_left h⟩
  | bool v =>
    cases b <;> cases hform
    rename_i w
    cases v <;> cases w <;> cases h <;> exact ⟨rfl, rfl⟩
  | num m =>
    cases b <;> cases hform
    obtain ⟨rfl, rfl⟩ := writeNat_append_inj hr hs h
    exact ⟨rfl, rfl⟩
  | text v =>
    cases b <;> cases hform
    obtain ⟨rfl, rfl⟩ := writeText_append_inj h
    exact ⟨rfl, rfl⟩
  | list xs =>
    cases b <;> cases hform
    rename_i ys
    cases xs with
    | nil =>
      cases ys with
      | nil =>
        cases h
        exact ⟨rfl, rfl⟩
      | cons y ys =>
        rw [pretty_list_append, prettyItems_cons] at h
        cases h
    | cons x xs =>
      rw [pretty_list_append] at h
      cases ys with
      | nil =>
        rw [prettyItems_cons] at h
        cases h
      | cons y ys =>
        rw [pretty_list_append] at h
        obtain ⟨hitems, hrest⟩ := prettyItems_append_inj (x :: xs) (y :: ys) (level + 1)
          (iff_of_false nofun nofun) (List.cons.inj h).2
        rw [hitems]
        exact ⟨rfl, (List.cons.inj (List.append_cancel_left hrest)).2⟩
  | object xs =>
    cases b <;> cases hform
    rename_i ys
    cases xs with
    | nil =>
      cases ys with
      | nil =>
        cases h
        exact ⟨rfl, rfl⟩
      | cons y ys =>
        rw [pretty_object_append, prettyMembers_cons] at h
        cases h
    | cons x xs =>
      rw [pretty_object_append] at h
      cases ys with
      | nil =>
        rw [prettyMembers_cons] at h
        cases h
      | cons y ys =>
        rw [pretty_object_append] at h
        obtain ⟨hmembers, hrest⟩ := prettyMembers_append_inj (x :: xs) (y :: ys) (level + 1)
          (iff_of_false nofun nofun) (List.cons.inj h).2
        rw [hmembers]
        exact ⟨rfl, (List.cons.inj (List.append_cancel_left hrest)).2⟩

theorem prettyItems_append_inj (xs ys : List Json) (level : Nat) {r s : List Char}
    (hempty : xs = [] ↔ ys = [])
    (h : prettyItems level xs ++ '\n' :: r = prettyItems level ys ++ '\n' :: s) :
    xs = ys ∧ r = s := by
  cases xs with
  | nil =>
    rw [hempty.mp rfl] at h ⊢
    exact ⟨rfl, (List.cons.inj h).2⟩
  | cons x xs =>
    cases ys with
    | nil => cases hempty.mpr rfl
    | cons y ys =>
      simp only [prettyItems_cons, List.append_assoc] at h
      obtain ⟨rfl, hmore⟩ := pretty_append_inj x y level (closes_more _ r) (closes_more _ s)
        (List.append_cancel_left h)
      obtain ⟨hnil, hrest⟩ := more_append_inj hmore
      rw [prettyItems_eq_nil_iff, prettyItems_eq_nil_iff] at hnil
      obtain ⟨rfl, rfl⟩ := prettyItems_append_inj xs ys level hnil hrest
      exact ⟨rfl, rfl⟩

theorem prettyMembers_append_inj (xs ys : List (String × Json)) (level : Nat) {r s : List Char}
    (hempty : xs = [] ↔ ys = [])
    (h : prettyMembers level xs ++ '\n' :: r = prettyMembers level ys ++ '\n' :: s) :
    xs = ys ∧ r = s := by
  cases xs with
  | nil =>
    rw [hempty.mp rfl] at h ⊢
    exact ⟨rfl, (List.cons.inj h).2⟩
  | cons x xs =>
    cases ys with
    | nil => cases hempty.mpr rfl
    | cons y ys =>
      obtain ⟨name, value⟩ := x
      obtain ⟨name', value'⟩ := y
      simp only [prettyMembers_cons, List.append_assoc, List.cons_append] at h
      obtain ⟨rfl, hvalue⟩ := writeText_append_inj (List.append_cancel_left h)
      obtain ⟨rfl, hmore⟩ := pretty_append_inj value value' level (closes_more _ r)
        (closes_more _ s) (List.cons.inj (List.cons.inj hvalue).2).2
      obtain ⟨hnil, hrest⟩ := more_append_inj hmore
      rw [prettyMembers_eq_nil_iff, prettyMembers_eq_nil_iff] at hnil
      obtain ⟨rfl, rfl⟩ := prettyMembers_append_inj xs ys level hnil hrest
      exact ⟨rfl, rfl⟩

end

/-- No two values have the same text. -/
theorem pretty_inj {level : Nat} {a b : Json} (h : a.pretty level = b.pretty level) : a = b := by
  refine (pretty_append_inj a b level closes_nil closes_nil ?_).1
  rw [h]

end DeviceSleep.Json
