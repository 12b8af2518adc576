import DeviceSleep.Tree

/-! Tables are hashed: what goes through one meets its entries in an order that nothing in them decides.
So the orders are given from outside, and any may be given. -/
namespace DeviceSleep
set_option autoImplicit false

/-- An order in which the entries of a table are met: all of them, each once. -/
structure Arrangement where
  arrange : List (String × Tree) → List (String × Tree)
  perm : ∀ entries, (arrange entries).Perm entries

/-- Entries as they are listed. -/
def Arrangement.listed : Arrangement := ⟨id, fun entries => .refl entries⟩

/-- The orders of the tables of a file, each by the names that lead to it. -/
abbrev TableOrders := List String → Arrangement

/-- The orders of the tables that are gone through when settings are gathered: those of the file, and that
of what the environment sets. -/
structure Hashing where
  file : TableOrders
  collected : Arrangement

def Hashing.listed : Hashing := ⟨fun _ => .listed, .listed⟩

/-- What a program finds around it: variables with their values, and the orders of the tables that it
makes. -/
structure Environment where
  vars : List (String × String)
  hashing : Hashing

namespace Tree

mutual

/-- The tables of a tree as they are gone through; those in lists never are. -/
def hashed (orders : TableOrders) (path : List String) : Tree → Tree
  | .table entries => .table ((orders path).arrange (hashedEntries orders path entries))
  | t => t

def hashedEntries (orders : TableOrders) (path : List String) :
    List (String × Tree) → List (String × Tree)
  | [] => []
  | (name, t) :: rest => (name, hashed orders (path ++ [name]) t) :: hashedEntries orders path rest

end

end Tree

end DeviceSleep
