import DeviceSleep.Breakdown
import DeviceSleep.Config.Hashing
import DeviceSleep.Config.KeyPath
import DeviceSleep.Text.Split
import DeviceSleep.Text.Word
import DeviceSleep.Tree

/-! Settings gathered into one table. Setting a place makes the tables and lists on the way, in place
of anything else that stands there; a table that is set is merged, name by name, into the table that
is there. The names in tables are kept in lowercase, except inside lists. The orders in which the tables of a
file and the variables of the environment are met are given from outside, and may be any; a table that was
made here does not tell in which order its names came. -/
namespace DeviceSleep
set_option autoImplicit false

abbrev Settings := List (String × Tree)

namespace Settings

/-- The entries of a table; anything else has none. -/
def entriesOf : Tree → Settings
  | .table entries => entries
  | _ => []

/-- The items of a list; anything else has none. -/
def itemsOf : Tree → List Tree
  | .list items => items
  | _ => []

def replace (name : String) (t : Tree) : Settings → Settings
  | [] => []
  | (key, old) :: rest => if key = name then (key, t) :: rest else (key, old) :: replace name t rest

/-- Adds a name before the first that is greater. -/
def insert (name : String) (t : Tree) : Settings → Settings
  | [] => [(name, t)]
  | (key, old) :: rest =>
    if name < key then (name, t) :: (key, old) :: rest else (key, old) :: insert name t rest

/-- Gives a name its value, in the place of the one that it has. -/
def put (name : String) (t : Tree) (settings : Settings) : Settings :=
  if (settings.lookup name).isSome then replace name t settings else insert name t settings

/-- Changes the value of a name. -/
def update (name : String) (f : Option Tree → Tree) (settings : Settings) : Settings :=
  put name (f (settings.lookup name)) settings

mutual

/-- Sets a name. -/
def merge (name : String) (value : Tree) (settings : Settings) : Settings :=
  match value with
  | .table incoming =>
    update (Text.lower name) (fun old => mergeAll incoming (old.getD (.table []))) settings
  | value => update (Text.lower name) (fun _ => value) settings

/-- Sets names of a table one after the other; without any, the value stays what it is. -/
def mergeAll (incoming : List (String × Tree)) (target : Tree) : Tree :=
  match incoming with
  | [] => target
  | (name, value) :: rest => mergeAll rest (.table (merge name value (entriesOf target)))

end

/-- The number of places that no list reaches. -/
def maxPlaces : Nat := UInt32.size

/-- Where an index points in a list, which may be behind its end. -/
def position (index : Int) (length : Nat) : Except Breakdown Nat :=
  if 0 ≤ index then
    if index.toNat < maxPlaces then .ok index.toNat else .error .tooManyPlaces
  else if (-index).toNat ≤ length then .ok (length - (-index).toNat)
  else .error .beforeList

/-- Sets the place that the steps lead to from a value. -/
def place (value : Tree) : List Step → Tree → Except Breakdown Tree
  | [], _ => .ok value
  | [.child name], target => .ok (.table (merge name value (entriesOf target)))
  | .child name :: step :: steps, target => do
    let entries := entriesOf target
    let inner ← place value (step :: steps) ((entries.lookup name).getD .nil)
    return .table (update name (fun _ => inner) entries)
  | .index index :: steps, target => do
    let items := itemsOf target
    let n ← position index items.length
    let padded := items ++ List.replicate (n + 1 - items.length) .nil
    let inner ← place value steps (padded[n]?.getD .nil)
    return .list (padded.set n inner)

/-- Sets the place of a path. -/
def set (settings : Settings) (path : KeyPath) (value : Tree) : Except Breakdown Settings :=
  (place value (.child path.name :: path.steps) (.table settings)).map entriesOf

/-- Sets places one after the other. -/
def setAll : List (KeyPath × Tree) → Settings → Except Breakdown Settings
  | [], settings => .ok settings
  | (path, value) :: rest, settings => (settings.set path value).bind (setAll rest)

/-! ## Sources

Every outermost name of a source is a path, in lowercase. -/

/-- The variables that hold settings begin so, in any letter case. -/
def variableStart : List Char := "dormant__".toList

/-- The setting that a variable of the environment makes, if it makes one: behind the beginning, two
underscores stand for a point. -/
def ofVariable? (entry : String × String) : Option (String × Tree) :=
  (Text.after? variableStart (Text.lowercase entry.1.toList)).map fun rest =>
    (String.ofList (Text.replacePair '_' '_' '.' rest), .text entry.2)

/-- The settings of variables, as one table; of two with one name the later counts. -/
def collect (vars : List (String × String)) : Settings :=
  (vars.filterMap ofVariable?).foldl (fun settings entry => settings.put entry.1 entry.2) []

/-- The places of the environment, in the order in which they are met. -/
def ofEnvironment (environment : Environment) : List (KeyPath × Tree) :=
  (environment.hashing.collected.arrange (collect environment.vars)).map fun entry =>
    (KeyPath.ofText entry.1, entry.2)

/-- The places of a file, in the order in which they are met. A value that becomes an item of a list is
taken as it is, and any other is gone through. -/
def ofFile (orders : TableOrders) (file : Tree) : List (KeyPath × Tree) :=
  ((orders []).arrange (entriesOf file)).map fun entry =>
    let path := KeyPath.ofText (Text.lower entry.1)
    (path, if path.isItem then entry.2 else entry.2.hashed orders [entry.1])

/-- The settings of a file and of the environment over them, met in the orders that are given. -/
def gather (file : Tree) (environment : Environment) : Except Breakdown Settings :=
  setAll (ofFile environment.hashing.file file ++ ofEnvironment environment) []

end Settings

end DeviceSleep
