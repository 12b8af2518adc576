import DeviceSleep.Toml.Value

/-! A TOML text as a whole: lines, gathered into sections under their headers, put together as one
table. -/
namespace DeviceSleep.Toml
set_option autoImplicit false

abbrev Pair := List String × Tree

inductive Line where
  | pair (pair : Pair)
  /-- `[path]` -/
  | header (path : List String)
  /-- `[[path]]` -/
  | element (path : List String)

/-- Reads one line behind its leading blanks; the line may hold nothing but a comment. -/
def line (fuel : Nat) : List Char → Option (Option Line × List Char)
  | '[' :: '[' :: rest => do
    let (path, rest) ← key rest
    match rest with
    | ']' :: ']' :: rest => (lineEnd false rest).map fun r => (some (.element path), r)
    | _ => none
  | '[' :: rest => do
    let (path, rest) ← key rest
    match rest with
    | ']' :: rest => (lineEnd false rest).map fun r => (some (.header path), r)
    | _ => none
  | cs =>
    match lineEnd false cs with
    | some rest => some (none, rest)
    | none => do
      let (path, rest) ← key cs
      match rest with
      | '=' :: rest =>
        let (v, rest) ← value fuel (nestingLimit - 1) (spaces rest)
        (lineEnd false rest).map fun r => (some (.pair (path, v)), r)
      | _ => none

/-- Reads line after line; `fuel` bounds their number and the steps within each. -/
def lines : Nat → List Char → Option (List Line)
  | 0, _ => none
  | fuel + 1, cs =>
    match spaces cs with
    | [] => some []
    | cs => do
      let (first, rest) ← line (fuel + 1) cs
      let more ← lines fuel rest
      return first.toList ++ more

/-- The pairs of a section, up to the next header. -/
def sectionPairs : List Line → List Pair
  | .pair p :: rest => p :: sectionPairs rest
  | _ => []

/-- Adds every section behind the pairs at the top. -/
def addSections : List Line → Node.Entries → Option Node.Entries
  | [], entries => some entries
  | .pair _ :: rest, entries => addSections rest entries
  | .header path :: rest, entries =>
    (Node.under (Node.openTable (sectionPairs rest)) path entries).bind (addSections rest)
  | .element path :: rest, entries =>
    (Node.under (Node.appendTable (sectionPairs rest)) path entries).bind (addSections rest)

def assemble (ls : List Line) : Option Node.Entries :=
  (Node.ofPairs (sectionPairs ls)).bind (addSections ls)

/-- A mark of byte order may stand at the very beginning. -/
def afterMark : List Char → List Char
  | '\uFEFF' :: rest => rest
  | cs => cs

/-- The table of a text, or `none` if the text is not TOML. -/
def parse? (s : String) : Option Tree := do
  let cs := afterMark s.toList
  let ls ← lines (cs.length + 2) cs
  let entries ← assemble ls
  return .table (Node.trees entries)

end DeviceSleep.Toml
