/-! White space in the sense of Unicode, and text without it at either end. -/
namespace DeviceSleep.Text
set_option autoImplicit false

/-- The 25 characters of the property White_Space, as closed intervals. -/
def blanks : List (Nat × Nat) :=
  [(0x9, 0xD), (0x20, 0x20), (0x85, 0x85), (0xA0, 0xA0), (0x1680, 0x1680), (0x2000, 0x200A),
   (0x2028, 0x2029), (0x202F, 0x202F), (0x205F, 0x205F), (0x3000, 0x3000)]

def isBlank (c : Char) : Bool :=
  blanks.any fun r => r.1 ≤ c.toNat && c.toNat ≤ r.2

def trimLeft (cs : List Char) : List Char := cs.dropWhile isBlank

/-- Drops the blanks at the end, keeping those that a later character follows. -/
def trimRight : List Char → List Char
  | [] => []
  | c :: cs =>
    match trimRight cs with
    | [] => if isBlank c then [] else [c]
    | rest => c :: rest

def trim (cs : List Char) : List Char := trimRight (trimLeft cs)

theorem trimRight_append_blank (cs : List Char) (c : Char) (h : isBlank c = true) :
    trimRight (cs ++ [c]) = trimRight cs := by
  induction cs with
  | nil => simp [trimRight, h]
  | cons d cs ih => simp only [List.cons_append, trimRight, ih]

theorem trimRight_eq_self_of_last (cs : List Char) (c : Char) (h : isBlank c = false) :
    trimRight (cs ++ [c]) = cs ++ [c] := by
  induction cs with
  | nil => simp [trimRight, h]
  | cons d cs ih =>
    rw [List.cons_append, trimRight, ih]
    cases cs <;> rfl

end DeviceSleep.Text
