import DeviceSleep.Tree

/-! A TOML table while it is being put together. How a table came about decides what may still be
added to it: one that a dotted key made takes further dotted keys of the same section, one that only
stood on the way to a header may still get a header of its own, and one that has had its header, or a
value, takes nothing. -/
namespace DeviceSleep.Toml
set_option autoImplicit false

inductive Origin where
  /-- It stood on the way to a header. -/
  | passed
  /-- A dotted key made it. -/
  | dotted
  /-- It had a header. -/
  | header
deriving DecidableEq, Repr

inductive Node where
  | value (tree : Tree)
  | table (origin : Origin) (entries : List (String × Node))
  /-- The elements of an array of tables, the last one first. -/
  | tables (elements : List (List (String × Node)))

namespace Node

abbrev Entries := List (String × Node)

/-- Changes the entry of a name, or makes one at the end. -/
def modify (name : String) (f : Option Node → Option Node) : Entries → Option Entries
  | [] => (f none).map fun node => [(name, node)]
  | (key, node) :: rest =>
    if key = name then (f (some node)).map fun node => (key, node) :: rest
    else (modify name f rest).map ((key, node) :: ·)

/-- Adds the value of a key that nothing has yet. -/
def addNew (tree : Tree) : Option Node → Option Node
  | none => some (.value tree)
  | some _ => none

/-- Adds a value under a dotted key: the tables on its way are made, or are such as dotted keys and
headers passed through; the last of them must be one that a dotted key made. -/
def insert (tree : Tree) : List String → Entries → Option Entries
  | [], _ => none
  | [name], entries => modify name (addNew tree) entries
  | name :: next :: path, entries =>
    modify name
      (fun
        | none => (insert tree (next :: path) []).map (.table .dotted)
        | some (.table .dotted inner) => (insert tree (next :: path) inner).map (.table .dotted)
        | some (.table .passed inner) =>
          if path.isEmpty then none else (insert tree (next :: path) inner).map (.table .passed)
        | some (.tables (last :: earlier)) =>
          if path.isEmpty then none
          else (insert tree (next :: path) last).map fun inner => .tables (inner :: earlier)
        | some _ => none)
      entries

/-- Adds the pairs of one section or inline table. -/
def insertAll : List (List String × Tree) → Entries → Option Entries
  | [], entries => some entries
  | (path, tree) :: pairs, entries => (insert tree path entries).bind (insertAll pairs)

def ofPairs (pairs : List (List String × Tree)) : Option Entries := insertAll pairs []

/-- Changes what stands under the path of a header, given how the last name of the path is dealt with.
Tables on the way are made as needed, and of an array of tables the last element is meant. -/
def under (f : String → Entries → Option Entries) : List String → Entries → Option Entries
  | [], _ => none
  | [name], entries => f name entries
  | name :: next :: path, entries =>
    modify name
      (fun
        | none => (under f (next :: path) []).map (.table .passed)
        | some (.table origin inner) => (under f (next :: path) inner).map (.table origin)
        | some (.tables (last :: earlier)) =>
          (under f (next :: path) last).map fun inner => .tables (inner :: earlier)
        | some _ => none)
      entries

/-- A table under its own header: new, or so far only passed. Either way it comes last. -/
def openTable (pairs : List (List String × Tree)) (name : String) (entries : Entries) :
    Option Entries :=
  match entries.lookup name with
  | none => (ofPairs pairs).map fun inner => entries ++ [(name, .table .header inner)]
  | some (.table .passed inner) =>
    (insertAll pairs inner).map fun inner =>
      entries.filter (fun entry => entry.1 != name) ++ [(name, .table .header inner)]
  | some _ => none

/-- One more element of an array of tables. -/
def appendTable (pairs : List (List String × Tree)) (name : String) : Entries → Option Entries :=
  modify name fun
    | none => (ofPairs pairs).map fun entries => .tables [entries]
    | some (.tables elements) => (ofPairs pairs).map fun entries => .tables (entries :: elements)
    | some _ => none

mutual

/-- The finished value. -/
def tree : Node → Tree
  | .value t => t
  | .table _ entries => .table (trees entries)
  | .tables elements => .list (elementTrees elements [])

def trees : Entries → List (String × Tree)
  | [] => []
  | (name, node) :: rest => (name, tree node) :: trees rest

/-- The elements, turned round. -/
def elementTrees : List Entries → List Tree → List Tree
  | [], done => done
  | element :: rest, done => elementTrees rest (.table (trees element) :: done)

end

end Node

end DeviceSleep.Toml
