import DeviceSleep.Control

/-! The program: it reads the command line, the environment and the files that are needed, and prints
what the tool says. -/
namespace DeviceSleep.Program
set_option autoImplicit false

/-- What a path leads to on the machine. -/
def stateOf (path : String) : IO FileState := do
  try
    let bytes ← IO.FS.readBinFile path
    return (String.fromUTF8? bytes).elim .binary .text
  catch _ =>
    try
      let place ← IO.FS.realPath path
      return if ← place.isDir then .directory else .missing
    catch _ => return .missing

/-- Adds the states of paths to those that are known. -/
def explore (known : List (String × FileState)) (paths : List String) :
    IO (List (String × FileState)) := do
  let found ← paths.mapM fun path => do return (path, ← stateOf path)
  return known ++ found

def diskOf (known : List (String × FileState)) : Disk := fun path =>
  (known.lookup path).getD .missing

/-- A variable and its value, cut at the first equals sign. -/
def entryOf (cs : List Char) : String × String :=
  (String.ofList (cs.takeWhile (· ≠ '=')), String.ofList ((cs.dropWhile (· ≠ '=')).drop 1))

/-- The variables of the process; tables are gone through as they are listed. -/
def environment : IO Environment := do
  let bytes ← IO.FS.readBinFile "/proc/self/environ"
  let text := (String.fromUTF8? bytes).getD ""
  return ⟨((Text.pieces '\x00' text.toList).filter (!·.isEmpty)).map entryOf, .listed⟩

end DeviceSleep.Program

open DeviceSleep in
def main (line : List String) : IO UInt32 := do
  let settings ← Program.environment
  let first ← Program.explore [] (Control.neededFiles (Program.diskOf []) settings line)
  let known ← Program.explore first (Control.neededFiles (Program.diskOf first) settings line)
  let outcome := Control.run .standard (Program.diskOf known) settings line
  for event in outcome.events do
    IO.eprintln s!"{event.level.name} {event.text}"
  for text in outcome.error do
    IO.eprintln text
  IO.print outcome.output
  return UInt32.ofNat outcome.code
