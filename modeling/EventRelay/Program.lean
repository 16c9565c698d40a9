import EventRelay.Server.Basic
import EventRelay.Settings.DotEnv
import EventRelay.Settings.Options

/-!
# The whole program

From the command line and the environment to settings, and from settings to a
run. A run ends by itself if the server cannot be started; if it can, the run
goes on until the process is interrupted.
-/

namespace EventRelay.Program

/-- Why there are no settings to run with. -/
inductive Failure where
  /-- What was asked for on the command line is not a run. -/
  | usage (o : CommandLine.Outcome)
  /-- The environment cannot have a variable of the file. -/
  | unsettable (u : DotEnv.Unsettable)
  deriving Repr, DecidableEq

/-- The environment of the program: it has the variables of a file added to it, where
there is one. -/
def environment (env : String → Option String) :
    Option String → Except Failure (String → Option String)
  | none => .ok env
  | some text => (DotEnv.extend env text).mapError .unsettable

/-- The settings of the program. -/
def settings (env : String → Option String) (file : Option String) (arguments : List String) :
    Except Failure Settings := do
  let env ← environment env file
  (Settings.read env arguments).mapError .usage

/-- The code of a process that gave up because of a request past a limit of the
platform. -/
def crashCode : Nat := 101

/-- What a process that gives up leaves on the error stream: why it does, after an
empty line. -/
def crashLines (reason : String) : List String := ["", reason]

/-- What the program prints if it has no settings to run with, and the code that
the process ends with. -/
structure Refused where
  code : Nat
  output : List String := []
  error : List String := []
  deriving Repr, DecidableEq

/-- Help and version are what was asked for; anything else is an error. -/
def refuse : Failure → Refused
  | .unsettable u =>
    { code := crashCode
      error := crashLines s!"cannot set {u.name}: its value has a null character" }
  | .usage o =>
    let line := [o.headline Settings.program .suspends]
    match o with
    | .help | .version => { code := 0, output := line }
    | _ => { code := 2, error := line }

/-- How a run goes on after the server was to be started. -/
inductive Course where
  /-- The process ends, with a code. -/
  | ends (code : Nat)
  /-- The server serves until the process is interrupted. -/
  | serves (app : App) (origins : OriginPolicy)
  deriving Repr

/-- The beginning of a run: what it reports, in order, and how it goes on. -/
structure Run where
  notices : List Notice
  course : Course
  /-- Lines on the error stream that are no reports. -/
  complaint : List String := []
  deriving Repr

/-- The code of the process, or `none` if it is there until it is interrupted. -/
def Run.code? (r : Run) : Option Nat :=
  match r.course with
  | .ends code => some code
  | .serves .. => none

/-- A run that a request past a limit of the platform puts an end to. -/
def Run.crash (notices : List Notice) (reason : String) : Run :=
  { notices, course := .ends crashCode, complaint := crashLines reason }

/-- Everything a relay has reported, in order, and the relay with an empty journal. -/
def takeNotices (app : App) : List Notice × App :=
  (app.broker.journal.reverse, { app with broker := app.broker.clearJournal })

/-- Begins a run with its settings at the given time, after a fault in taking the address
if there was one. -/
def run (settings : Settings) (now : Nat) (fault : Option ServerFault) : Run :=
  let starting := Notice.starting settings.environment.name settings.sessionTtl
  match App.start settings now with
  | .error fault => .crash [starting] fault.message
  | .ok app =>
    match app.serve fault with
    | (app, .ok origins) =>
      let (notices, app) := takeNotices app
      { notices := starting :: notices, course := .serves app origins }
    | (app, .error .wildcard) =>
      .crash (starting :: (takeNotices app).1) ServerFault.wildcard.message
    | (app, .error fault) =>
      let app := (app.note (.serverFailed fault.message)).shutdown
      { notices := starting :: (takeNotices app).1, course := .ends 1 }

/-- The line of a notice on the terminal. -/
def terminalLine (n : Notice) : String := s!"[{n.level.name}] {n.text}"

/-- Errors go to the error stream, everything else to the output. -/
def isError (n : Notice) : Bool := n.level == .error

/-- The lines of notices that are shown, on one of the two streams. -/
def lines (verbosity : Verbosity) (errors : Bool) (notices : List Notice) : List String :=
  (notices.filter fun n => verbosity.shows n.level && isError n == errors).map terminalLine

end EventRelay.Program
