import DeviceSleep.Config.Loading
import DeviceSleep.Control.Arguments
import DeviceSleep.Control.Directive
import DeviceSleep.Control.Report
import DeviceSleep.Platform.Loading
import DeviceSleep.Text.HexDump
import DeviceSleep.Text.Shielded

/-! The command line tool: it shows the request of a profile, tries it on a platform, and lists
profiles and platforms. Nothing here puts a device to sleep. -/
namespace DeviceSleep.Control
set_option autoImplicit false

/-! ## What can go wrong -/

inductive Trouble where
  /-- The configuration could not be loaded: that of a path, or the default one. -/
  | loading (path : Option String)
  | noProfileGiven
  | config (failure : Config.Failure)
  | platformFile (path : String)
  | unknownPlatform (id : String)
  | rejected (profile : String) (refusal : Refusal)
  | broken (cause : Breakdown)
deriving DecidableEq, Repr

namespace Trouble

/-- The text of a trouble; below it stands the cause, where that has a text of its own. -/
def message : Trouble → String
  | loading (some path) => s!"Error: Failed to load {path}"
  | loading none => "Error: Failed to load default configuration"
  | noProfileGiven => "Error: No profile given and no default_profile configured"
  | config failure => "Error: " ++ failure.message?.getD ""
  | platformFile path => s!"Error: Failed to load platform profile {path}"
  | unknownPlatform id =>
    s!"Error: Unknown platform: {id} (known: " ++ ", ".intercalate Platform.builtinIds ++ ")"
  | rejected profile refusal =>
    s!"Error: Profile {profile} rejected\n\nCaused by:\n    {refusal.message}"
  | broken cause => cause.message

end Trouble

/-- A result or the trouble that prevented it, and what was reported on the way. -/
abbrev Run (α : Type) := Except Trouble α × List Event

namespace Run

variable {α β : Type}

def done (a : α) : Run α := (.ok a, [])

def fail (t : Trouble) : Run α := (.error t, [])

def report (events : List Event) : Run Unit := (.ok (), events)

/-- One after the other; after trouble nothing follows. -/
def andThen (r : Run α) (f : α → Run β) : Run β :=
  match r with
  | (.error t, events) => (.error t, events)
  | (.ok a, events) =>
    let (result, more) := f a
    (result, events ++ more)

end Run

/-! ## Steps -/

def loadConfig (disk : Disk) (environment : Environment) (path : Option String) :
    Run Config :=
  let (result, events) :=
    match path with
    | some path => Config.loadLayered disk path environment
    | none => Config.loadDefault disk environment
  match result with
  | .ok c => (.ok c, events)
  | .error (.broken cause) => (.error (.broken cause), events)
  | .error _ => (.error (.loading path), events)

/-- The name of the selected profile, as it was given, and its request. -/
def buildProfile (has : Capabilities) (c : Config) (name : Option String) :
    Run (String × Builder) :=
  match name.or c.defaultProfile with
  | none => Run.fail .noProfileGiven
  | some name =>
    match c.profile (some name) with
    | .error failure => Run.fail (.config failure)
    | .ok p =>
      match p.build has with
      | (.error problem, events) => (.error (.config (.invalid problem)), events)
      | (.ok b, events) =>
        let warning : List Event :=
          if b.valid then []
          else
            [⟨.warn, .control, s!"Profile {name} does not produce a valid sleep configuration"⟩]
        (.ok (name, b), events ++ warning)

/-- A platform is a file if its name ends in `.toml`, and else one that is built in. -/
def loadPlatform (disk : Disk) (id : String) : Run Platform :=
  if Path.ending? id = some "toml" then
    match Platform.load disk id with
    | (.ok p, events) => (.ok p, events)
    | (.error _, events) => (.error (.platformFile id), events)
  else
    match Platform.builtin id with
    | .ok p => Run.done p
    | .error _ => Run.fail (.unknownPlatform (Text.lower id))

/-- The text of a built profile in a format. -/
def showText (has : Capabilities) (name : String) (b : Builder) : Format → List Char
  | .json => (b.report has name).pretty 0
  | .hex => Text.HexDump.render b.descriptor.encode

def showProfile (has : Capabilities) (c : Config) (name : Option String) (format : Format) :
    Run (List Char) :=
  (buildProfile has c name).andThen fun (name, b) =>
    Run.done (showText has name b format ++ ['\n'])

/-- What is reported before a request is tried. -/
def checking (has : Capabilities) (name : String) (b : Builder) (p : Platform) : List Event :=
  [⟨.info, .control, s!"Checking profile {name} against platform {p.id}"⟩] ++
    (if b.descriptor.cloudMustPersist has then
      [⟨.info, .control, "No network wakeup configured: cloud session will be closed first"⟩]
    else [])

/-- Tries a request on a platform and gives the reason why the device woke. -/
def sleepOn (name : String) (b : Builder) (p : Platform) : Run WakeReason :=
  let attempt := (Recorder.fresh p).enterSleep b
  match attempt.answer with
  | .ok reason => (.ok reason, attempt.events)
  | .error refusal => (.error (.rejected name refusal), attempt.events)

/-- The reason why a profile of the configuration would end its sleep on a platform. -/
def checkProfile (has : Capabilities) (disk : Disk) (c : Config) (platform : Option String)
    (name : Option String) : Run WakeReason :=
  (buildProfile has c name).andThen fun (name, b) =>
    (loadPlatform disk (platform.getD c.platform)).andThen fun p =>
      (Run.report (checking has name b p)).andThen fun _ => sleepOn name b p

/-- A text with blanks behind it up to a width. -/
def padded (width : Nat) (s : String) : List Char :=
  s.toList ++ List.replicate (width - s.length) ' '

/-- A line of the list of profiles; a star marks the default one. -/
def profileLine (c : Config) (entry : String × Profile) : List Char :=
  (if c.defaultProfile = some entry.1 then '*' else ' ') :: ' ' :: padded 16 entry.1 ++
    ' ' :: entry.2.mode.name.toList ++ ['\n']

def profileLines (c : Config) : List Char := c.profiles.flatMap (profileLine c)

def platformLines : List Char :=
  Platform.builtins.flatMap fun p => padded 10 p.id ++ ' ' :: p.name.toList ++ ['\n']

/-! ## The whole tool -/

/-- The output of a command. -/
def perform (has : Capabilities) (disk : Disk) (c : Config) (a : Arguments) : Run (List Char) :=
  match a.command with
  | .showProfile name format => showProfile has c name format
  | .check name =>
    (checkProfile has disk c a.platform name).andThen fun reason =>
      Run.done (reason.json.compact ++ ['\n'])
  | .profiles => Run.done (profileLines c)
  | .platforms => Run.done platformLines

def execute (has : Capabilities) (disk : Disk) (environment : Environment)
    (a : Arguments) : Run (List Char) :=
  (loadConfig disk environment a.config).andThen fun c => perform has disk c a

/-- What the tool leaves behind. -/
structure Outcome where
  code : Nat
  output : String
  error : Option String
  events : List Event
deriving DecidableEq, Repr

/-- Work that broke off. -/
def Outcome.broken (events : List Event) : Outcome := ⟨101, "", none, events⟩

/-- The events that directives let through, as they are printed. -/
def shown (directives : List Directive) (events : List Event) : List Event :=
  (events.filter (Directive.shows directives)).map fun e => { e with text := Text.shielded e.text }

def versionText : String := "dormant-ctl 0.1.0\n"

def helpText : String :=
  "Usage: dormant-ctl [-c CONFIG] [-p PLATFORM] (show | check | profiles | platforms)\n"

/-- How a command ends whose events are shown as directives say. -/
def ending (directives : List Directive) (r : Run (List Char)) : Outcome :=
  let printed := shown directives r.2
  match r.1 with
  | .ok output => ⟨0, String.ofList output, none, printed⟩
  | .error (.broken _) => Outcome.broken printed
  | .error trouble => ⟨1, "", some trouble.message, printed⟩

/-- Runs a command line. Before it is read, the directives are. -/
def run (has : Capabilities) (disk : Disk) (environment : Environment)
    (line : List String) : Outcome :=
  match Directive.ofSetting (environment.vars.lookup "RUST_LOG"),
      CommandLine.parse environment.vars line with
  | none, _ => Outcome.broken []
  | some _, .refused => ⟨2, "", none, []⟩
  | some _, .version => ⟨0, versionText, none, []⟩
  | some _, .help => ⟨0, helpText, none, []⟩
  | some directives, .run a => ending directives (execute has disk environment a)

/-! ## Files -/

/-- The files that a command line may need, as far as the configuration found so far tells. -/
def neededFiles (disk : Disk) (environment : Environment) (line : List String) :
    List String :=
  match CommandLine.parse environment.vars line with
  | .run a =>
    let configs :=
      match a.config with
      | some path => path :: (Path.withEnding path ".toml").toList
      | none => Config.standardPaths
    let platforms :=
      match a.platform, (loadConfig disk environment a.config).1 with
      | some id, _ => [id]
      | none, .ok c => [c.platform]
      | none, .error _ => []
    configs ++ platforms
  | _ => []

end DeviceSleep.Control
