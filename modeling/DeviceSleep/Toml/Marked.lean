import DeviceSleep.Toml.Moment
import DeviceSleep.Tree

/-! Tables that stand for a date or a time. Where a whole document is taken in without knowing what it
is about, a table whose first key is the mark is the moment that its value gives as a text; other
keys of it do not count. -/
namespace DeviceSleep.Toml
set_option autoImplicit false

/-- The key that marks such a table. -/
def momentMark : String := "$__toml_private_datetime"

/-- The moment that a value gives as a text. -/
def momentOf : Tree → Option Tree
  | .text s => (moment? s.toList).map fun cs => .time (String.ofList cs)
  | _ => none

mutual

/-- Replaces the marked tables by their moments; `none` if one gives no moment. -/
def unmark : Tree → Option Tree
  | .table [] => some (.table [])
  | .table ((key, value) :: rest) =>
    if key = momentMark then momentOf value
    else do
      let first ← unmark value
      let more ← unmarkEntries rest
      return .table ((key, first) :: more)
  | .list items => (unmarkItems items).map .list
  | t => some t

def unmarkEntries : List (String × Tree) → Option (List (String × Tree))
  | [] => some []
  | (key, value) :: rest => do
    let first ← unmark value
    let more ← unmarkEntries rest
    return (key, first) :: more

def unmarkItems : List Tree → Option (List Tree)
  | [] => some []
  | item :: items => do
    let first ← unmark item
    let more ← unmarkItems items
    return first :: more

end

end DeviceSleep.Toml
