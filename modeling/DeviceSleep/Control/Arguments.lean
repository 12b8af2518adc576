/-! The words of a command line. Options for the whole tool stand before the subcommand; each is given
at most once. A word that begins with a hyphen is an option, except a single hyphen, and except after
a double one, behind which every word is an operand. -/
namespace DeviceSleep.Control
set_option autoImplicit false

inductive Format where
  | json
  | hex
deriving DecidableEq, Repr

inductive Command where
  /-- Prints the request of a profile. -/
  | showProfile (profile : Option String) (format : Format)
  /-- Tries the request of a profile on a platform. -/
  | check (profile : Option String)
  /-- Lists the profiles. -/
  | profiles
  /-- Lists the built-in platforms. -/
  | platforms
deriving DecidableEq, Repr

structure Arguments where
  config : Option String
  platform : Option String
  command : Command
deriving DecidableEq, Repr

/-- What a command line asks for. -/
inductive CommandLine where
  | run (arguments : Arguments)
  | version
  | help
  | refused
deriving DecidableEq, Repr

/-! ## Words -/

inductive Word where
  /-- A double hyphen. -/
  | escape
  /-- An option by its name, with the value behind an equals sign, if there is one. -/
  | long (name : String) (value : Option String)
  /-- An option by its letter, with a value attached to it, if there is one. -/
  | short (letter : Char) (value : Option String)
  | plain (word : String)
deriving DecidableEq, Repr

/-- The part before an equals sign, and the part behind it, if there is one. -/
def atEquals (cs : List Char) : String × Option String :=
  let name := String.ofList (cs.takeWhile (· ≠ '='))
  match cs.dropWhile (· ≠ '=') with
  | [] => (name, none)
  | _ :: value => (name, some (String.ofList value))

/-- The value attached to a letter; an equals sign may stand between. -/
def attached : List Char → Option String
  | [] => none
  | '=' :: value => some (String.ofList value)
  | value => some (String.ofList value)

def Word.ofText (s : String) : Word :=
  match s.toList with
  | ['-', '-'] => .escape
  | '-' :: '-' :: rest =>
    let (name, value) := atEquals rest
    .long name value
  | '-' :: letter :: rest => .short letter (attached rest)
  | _ => .plain s

/-- The value of an option: the one attached, or the next word unless that is an option. -/
def valueOf (value : Option String) (rest : List String) : Option (String × List String) :=
  match value, rest with
  | some v, rest => some (v, rest)
  | none, [] => none
  | none, word :: rest =>
    match Word.ofText word with
    | .plain v => some (v, rest)
    | _ => none

/-! ## Subcommands -/

/-- What a subcommand takes. -/
structure Shape where
  takesProfile : Bool
  takesFormat : Bool

/-- What has been read behind a subcommand. -/
inductive Operands where
  | read (profile : Option String) (format : Option Format)
  | help
  | refused
deriving DecidableEq, Repr

def formatOf? : String → Option Format
  | "json" => some .json
  | "hex" => some .hex
  | _ => none

/-- Takes one more operand. -/
def operand (shape : Shape) (profile : Option String) (word : String) : Option (Option String) :=
  if shape.takesProfile && profile.isNone then some (some word) else none

/-- Words that are all operands. -/
def operandsOnly (shape : Shape) (profile : Option String) (format : Option Format) :
    List String → Operands
  | [] => .read profile format
  | word :: rest =>
    match operand shape profile word with
    | none => .refused
    | some profile => operandsOnly shape profile format rest

/-- The words behind a subcommand; `fuel` bounds their number. -/
def operands (shape : Shape) (profile : Option String) (format : Option Format) :
    Nat → List String → Operands
  | _, [] => .read profile format
  | 0, _ => .refused
  | fuel + 1, word :: rest =>
    match Word.ofText word with
    | .escape => operandsOnly shape profile format rest
    | .plain word =>
      match operand shape profile word with
      | none => .refused
      | some profile => operands shape profile format fuel rest
    | .short 'h' _ => .help
    | .long "help" none => .help
    | .long "format" value =>
      match valueOf value rest with
      | none => .refused
      | some (v, rest) =>
        match formatOf? v with
        | some f =>
          if shape.takesFormat && format.isNone then operands shape profile (some f) fuel rest
          else .refused
        | none => .refused
    | _ => .refused

def shapes : List (String × Shape) :=
  [("show", ⟨true, true⟩), ("check", ⟨true, false⟩), ("profiles", ⟨false, false⟩),
   ("platforms", ⟨false, false⟩)]

def commandOf (name : String) (profile : Option String) (format : Option Format) : Command :=
  match name with
  | "show" => .showProfile profile (format.getD .json)
  | "check" => .check profile
  | "profiles" => .profiles
  | _ => .platforms

/-- Behind the word `help` at most one subcommand is named. -/
def helpOn : List String → CommandLine
  | [] => .help
  | [name] => if name = "help" ∨ (shapes.lookup name).isSome then .help else .refused
  | _ => .refused

/-! ## The whole line -/

/-- Reads the words in order; `fuel` bounds their number. -/
def words (config platform : Option String) : Nat → List String → CommandLine
  | _, [] => .refused
  | 0, _ => .refused
  | fuel + 1, word :: rest =>
    let setConfig (value : Option String) : CommandLine :=
      match valueOf value rest with
      | none => .refused
      | some (v, rest) =>
        if config.isSome || v == "" then .refused else words (some v) platform fuel rest
    let setPlatform (value : Option String) : CommandLine :=
      match valueOf value rest with
      | none => .refused
      | some (v, rest) => if platform.isSome then .refused else words config (some v) fuel rest
    match Word.ofText word with
    | .long "config" value => setConfig value
    | .short 'c' value => setConfig value
    | .long "platform" value => setPlatform value
    | .short 'p' value => setPlatform value
    | .long "version" none => .version
    | .short 'V' _ => .version
    | .long "help" none => .help
    | .short 'h' _ => .help
    | .plain "help" => helpOn rest
    | .plain name =>
      match shapes.lookup name with
      | none => .refused
      | some shape =>
        match operands shape none none rest.length rest with
        | .read profile format => .run ⟨config, platform, commandOf name profile format⟩
        | .help => .help
        | .refused => .refused
    | _ => .refused

/-- Reads a command line. The environment may name the configuration where the line does not; an empty
name is refused in either place. -/
def CommandLine.parse (environment : List (String × String)) (line : List String) : CommandLine :=
  match words none none line.length line with
  | .run a =>
    match a.config, environment.lookup "DORMANT_CONFIG" with
    | some _, _ => .run a
    | none, none => .run a
    | none, some "" => .refused
    | none, some path => .run { a with config := some path }
  | other => other

end DeviceSleep.Control
