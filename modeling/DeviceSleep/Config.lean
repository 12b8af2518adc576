import DeviceSleep.Breakdown
import DeviceSleep.Profile

/-! A configuration: the platform, the profile to use when none is named, and the profiles by name.
Names that differ in letter case only are the same name; a configuration is brought to lowercase
names once, when it is loaded, and looked up in lowercase from then on. -/
namespace DeviceSleep
set_option autoImplicit false

/-! ## Profiles by name -/

/-- Profiles in increasing order of their names, by code point. -/
abbrev Profiles := List (String × Profile)

namespace Profiles

/-- Adds a profile in its place; one of the same name is replaced. -/
def insert (name : String) (p : Profile) : Profiles → Profiles
  | [] => [(name, p)]
  | (n, q) :: rest =>
    if name = n then (name, p) :: rest
    else if name < n then (name, p) :: (n, q) :: rest
    else (n, q) :: insert name p rest

def ofList (entries : List (String × Profile)) : Profiles :=
  entries.foldl (fun profiles entry => insert entry.1 entry.2 profiles) []

/-- Moves profiles to lowercase names, in order; the first whose name is taken then is an error. -/
def lowered : Profiles → Profiles → Except Problem Profiles
  | done, [] => .ok done
  | done, (name, p) :: rest =>
    let key := Text.lower name
    if (done.lookup key).isSome then .error (.repeatedProfile name)
    else lowered (insert key p done) rest

end Profiles

structure Config where
  platform : String
  defaultProfile : Option String
  profiles : Profiles
deriving DecidableEq, Repr

namespace Config

/-- Why a configuration cannot be loaded, used or saved. -/
inductive Failure where
  | notFound (path : String)
  | invalid (problem : Problem)
  | unknownProfile (name : String)
  /-- The file could not be read or written. -/
  | unreadable
  /-- The file is no configuration. -/
  | malformed
  /-- The layers together are no configuration. -/
  | layers
  | broken (cause : Breakdown)
deriving DecidableEq, Repr

namespace Failure

/-- The text of a failure; of those that a reader or the system explains it is not fixed. -/
def message? : Failure → Option String
  | notFound path => some s!"Configuration file not found: {path}"
  | invalid problem => some s!"Invalid configuration: {problem.message}"
  | unknownProfile name => some s!"Unknown sleep profile: {name}"
  | unreadable => none
  | malformed => none
  | layers => none
  | broken cause => some cause.message

end Failure

def defaultPlatform : String := "cellular"

def default : Config := ⟨defaultPlatform, none, []⟩

/-! ## Names -/

def normalize (c : Config) : Except Failure Config :=
  match Profiles.lowered [] c.profiles with
  | .error problem => .error (.invalid problem)
  | .ok profiles => .ok ⟨c.platform, c.defaultProfile.map Text.lower, profiles⟩

/-- The profile of a name in any letter case, or the default one. -/
def profile (c : Config) (name : Option String) : Except Failure Profile :=
  match name.or c.defaultProfile with
  | none => .error (.invalid .noProfileSelected)
  | some name =>
    match c.profiles.lookup (Text.lower name) with
    | none => .error (.unknownProfile name)
    | some p => .ok p

/-! ## Reading -/

def fieldNames : List String := ["platform", "default_profile", "profiles"]

def readProfiles (rules : Rules) (t : Tree) : Option Profiles := do
  let entries ← t.entries?
  let profiles ← entries.mapM fun entry => (Profile.read rules entry.2).map fun p => (entry.1, p)
  return Profiles.ofList profiles

def read (rules : Rules) (t : Tree) : Option Config := do
  let fields : Fields ← rules.fields? fieldNames t
  let platform ← fields.withDefault "platform" defaultPlatform rules.text?
  let defaultProfile ← fields.optional "default_profile" rules rules.text?
  let profiles ← fields.withDefault "profiles" [] (readProfiles rules)
  return ⟨platform, defaultProfile, profiles⟩

end Config

end DeviceSleep
