import DeviceSleep.Config
import DeviceSleep.Config.Settings
import DeviceSleep.Files
import DeviceSleep.Toml.Document
import DeviceSleep.Toml.Marked

/-! Loading a configuration: from a file that is taken at its word, or from a file and the
environment over it, whose values are converted. In the second way a file that is missing or no text
counts as empty. Whatever is loaded has lowercase names. -/
namespace DeviceSleep.Config
set_option autoImplicit false

/-! ## A file by itself -/

/-- The configuration that a text describes, with names as they are written. -/
def ofText (text : String) : Except Failure Config :=
  match (Toml.parse? text).bind (read .file) with
  | none => .error .malformed
  | some c => .ok c

def load (disk : Disk) (path : String) : Except Failure Config :=
  match disk path with
  | .missing => .error (.notFound path)
  | .directory => .error .unreadable
  | .binary => .error .unreadable
  | .text text => (ofText text).bind normalize

/-! ## Layers -/

/-- The text of a file; a path that leads to no file may lack the ending `.toml`. -/
def layerText (disk : Disk) (path : String) : String :=
  match disk path with
  | .text text => text
  | .binary => ""
  | _ =>
    match (Path.withEnding path ".toml").map disk with
    | some (.text text) => text
    | _ => ""

/-- What is reported when layers have been loaded. -/
def loaded (c : Config) : Event :=
  ⟨.debug, .config, s!"Loaded {c.profiles.length} sleep profile(s) for platform {c.platform}"⟩

/-- The configuration of a tree of settings and the environment over it. -/
def ofLayers (file : Tree) (environment : Environment) : Except Failure Config :=
  match Settings.gather file environment with
  | .error cause => .error (.broken cause)
  | .ok settings =>
    match read .layered (.table settings) with
    | none => .error .layers
    | some c => c.normalize

/-- The configuration of a text and the environment over it. -/
def ofLayeredText (text : String) (environment : Environment) :
    Except Failure Config :=
  match (Toml.parse? text).bind Toml.unmark with
  | some (.table entries) => ofLayers (.table entries) environment
  | _ => .error .layers

/-- A load and what it reports. -/
abbrev Loading := Except Failure Config × List Event

def reported (result : Except Failure Config) : Loading :=
  match result with
  | .ok c => (.ok c, [c.loaded])
  | .error e => (.error e, [])

def loadLayered (disk : Disk) (path : String) (environment : Environment) : Loading :=
  reported (ofLayeredText (layerText disk path) environment)

/-- Where a configuration is looked for when no path is given, in order. -/
def standardPaths : List String := ["/var/lib/dormant/sleep.toml", "/etc/dormant/sleep.toml"]

def loadDefault (disk : Disk) (environment : Environment) : Loading :=
  match standardPaths.find? fun path => disk path != .missing with
  | some path => loadLayered disk path environment
  | none =>
    let (result, events) := reported (ofLayeredText "" environment)
    (result, ⟨.warn, .config, "No configuration file found, using defaults"⟩ :: events)

end DeviceSleep.Config
