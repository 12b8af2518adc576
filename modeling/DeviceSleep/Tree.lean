import DeviceSleep.Decimal.Binary64

/-! Values as a configuration file holds them, before they are read as anything in particular. -/
namespace DeviceSleep
set_option autoImplicit false

inductive Tree where
  /-- A place that is there but holds nothing. -/
  | nil
  | bool (value : Bool)
  | int (value : Int)
  | real (value : Binary64)
  | text (value : String)
  /-- A date, a time or both, in its standard form. -/
  | time (value : String)
  | list (items : List Tree)
  | table (entries : List (String × Tree))
deriving Repr

namespace Tree

/-! ## Equality -/

mutual

def same : Tree → Tree → Bool
  | .nil, .nil => true
  | .bool a, .bool b => a == b
  | .int a, .int b => a == b
  | .real a, .real b => a == b
  | .text a, .text b => a == b
  | .time a, .time b => a == b
  | .list items, .list others => sameItems items others
  | .table entries, .table others => sameEntries entries others
  | _, _ => false

def sameItems : List Tree → List Tree → Bool
  | [], [] => true
  | t :: items, u :: others => same t u && sameItems items others
  | _, _ => false

def sameEntries : List (String × Tree) → List (String × Tree) → Bool
  | [], [] => true
  | (name, t) :: entries, (other, u) :: others => name == other && same t u && sameEntries entries others
  | _, _ => false

end

mutual

theorem same_iff (t u : Tree) : same t u = true ↔ t = u := by
  cases t with
  | list items =>
    cases u with
    | list others => rw [same, sameItems_iff items others, list.injEq]
    | _ => simp [same]
  | table entries =>
    cases u with
    | table others => rw [same, sameEntries_iff entries others, table.injEq]
    | _ => simp [same]
  | _ => cases u <;> simp [same]
termination_by structural t

theorem sameItems_iff (items others : List Tree) : sameItems items others = true ↔ items = others := by
  cases items with
  | nil => cases others <;> simp [sameItems]
  | cons t items =>
    cases others with
    | nil => simp [sameItems]
    | cons u others =>
      rw [sameItems, Bool.and_eq_true, same_iff t u, sameItems_iff items others, List.cons.injEq]
termination_by structural items

theorem sameEntries_iff (entries others : List (String × Tree)) :
    sameEntries entries others = true ↔ entries = others := by
  cases entries with
  | nil => cases others <;> simp [sameEntries]
  | cons entry entries =>
    obtain ⟨name, t⟩ := entry
    cases others with
    | nil => simp [sameEntries]
    | cons other others =>
      obtain ⟨name', u⟩ := other
      rw [sameEntries, Bool.and_eq_true, Bool.and_eq_true, beq_iff_eq, same_iff t u,
        sameEntries_iff entries others, List.cons.injEq, Prod.mk.injEq]
termination_by structural entries

end

instance decidableEq : DecidableEq Tree := fun t u => decidable_of_iff _ (same_iff t u)

end Tree

end DeviceSleep
