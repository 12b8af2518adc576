import DeviceSleep.Profile

/-! Values that are written so that they can be read: in a list one by one, a name as what it names,
and a number up to the limit of its field. -/
namespace DeviceSleep
set_option autoImplicit false

/-- What is made of each element and read back is the list again. -/
theorem mapM_map_eq_some {α β : Type} {write : α → β} {read : β → Option α} {l : List α}
    (h : ∀ a ∈ l, read (write a) = some a) : (l.map write).mapM read = some l := by
  induction l with
  | nil => rfl
  | cons a l ih =>
    rw [List.map_cons, List.mapM_cons, h a List.mem_cons_self,
      ih fun b hb => h b (List.mem_cons_of_mem a hb)]
    rfl

theorem Tree.listOf?_map {α : Type} {write : α → Tree} {read : Tree → Option α}
    (h : ∀ a, read (write a) = some a) (l : List α) : Tree.listOf? read (.list (l.map write)) = some l :=
  mapM_map_eq_some fun a _ => h a

theorem Mode.read_name (m : Mode) : Mode.read .file (.text m.name) = some m := by
  cases m <;> decide +kernel

theorem Trigger.read_name (t : Trigger) : Trigger.read .file (.text t.name) = some t := by
  cases t <;> decide +kernel

theorem Rules.natural?_file {n limit : Nat} (h : n ≤ limit) :
    Rules.file.natural? limit (.int n) = some n := by
  show Rules.exactNatural? limit (.int n) = some n
  rw [Rules.exactNatural?, if_pos ⟨Int.natCast_nonneg n, Int.ofNat_le.mpr h⟩, Int.toNat_natCast]

end DeviceSleep
