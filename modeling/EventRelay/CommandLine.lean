import EventRelay.Text.Plain

/-!
# Reading a command line

A program's options are given as data: each `Flag` has its names, the
environment variable that stands in for it, and how its values change the
settings. `read` goes through the arguments from left to right, then asks the
environment about the options that were not given; what neither names keeps its
default.

An option's value is looked at when the next option comes, or at the end, so an
argument nobody knows is reported before a bad value just before it.
-/

namespace EventRelay.CommandLine

/-- What is wrong with the value of an option. -/
inductive ValueFault where
  /-- An empty text where one of a few values has to be named. -/
  | missing
  /-- None of the few values that are possible. -/
  | notAChoice
  /-- No value of the option's kind, for the reason given. -/
  | unreadable (reason : String)
  deriving Repr, DecidableEq

/-- Why a command line does not give settings. -/
inductive Outcome where
  /-- Help was asked for. -/
  | help
  /-- The version was asked for. -/
  | version
  | unknown (argument : String)
  /-- A value was given to an option that has none. -/
  | surplus (value option : String)
  /-- An option was given twice. -/
  | repeated (option : String)
  /-- An option was given without its value. -/
  | missing (option : String)
  | notAChoice (value option : String)
  | unreadable (value option reason : String)
  deriving Repr, DecidableEq

/-- What a program says of itself. -/
structure Program where
  name : String
  version : String
  deriving Repr, DecidableEq

/-- The line shown for an outcome on a terminal, where the texts given are marked. -/
def Outcome.message (program : Program) : Outcome → String
  | .help => s!"Usage: {program.name} [OPTIONS]"
  | .version => program.version
  | .unknown argument => s!"error: unexpected argument '{Text.marked argument}' found"
  | .surplus value option =>
    s!"error: unexpected value '{Text.marked value}' for '{option}' found; no more were expected"
  | .repeated option => s!"error: the argument '{option}' cannot be used multiple times"
  | .missing option => s!"error: a value is required for '{option}' but none was supplied"
  | .notAChoice value option => s!"error: invalid value '{Text.marked value}' for '{option}'"
  | .unreadable value option reason =>
    s!"error: invalid value '{Text.marked value}' for '{option}': {reason}"

/-- The first line of what is shown for an outcome where there is no terminal. -/
def Outcome.headline (program : Program) (i : Text.Interruption) (o : Outcome) : String :=
  Text.firstLine (Text.shown i (o.message program))

/-- An option that changes settings of type `σ`. -/
structure Flag (σ : Type) where
  long : String
  short : Option Char := none
  /-- What the value is called; `none` for a switch, which has no value. -/
  value : Option String := none
  /-- The option may be given several times. -/
  repeatable : Bool := false
  /-- The environment variable that stands in for the option. -/
  env : String
  /-- Settings changed by the values given so far, the latest last. -/
  apply : List String → σ → Except ValueFault σ

namespace Flag

variable {σ : Type}

/-- How the option is written in messages. -/
def label (f : Flag σ) : String :=
  match f.value with
  | none => s!"--{f.long}"
  | some value => s!"--{f.long} <{value}>"

/-- Settings changed by the values, or what to say about the last of them. -/
def set (f : Flag σ) (values : List String) (settings : σ) : Except Outcome σ :=
  match f.apply values settings with
  | .ok settings => .ok settings
  | .error .missing => .error (.missing f.label)
  | .error .notAChoice => .error (.notAChoice (values.getLastD "") f.label)
  | .error (.unreadable reason) => .error (.unreadable (values.getLastD "") f.label reason)

end Flag

/-- What has been read so far. -/
structure Progress (σ : Type) where
  settings : σ
  /-- The values given for each option, by its long name. -/
  given : List (String × List String) := []
  /-- The last option, as long as its value has not been looked at. -/
  waiting : Option (Flag σ × Option String) := none
  /-- Options are over: `--` has been read. -/
  trailing : Bool := false

namespace Progress

variable {σ : Type}

/-- Takes an option with its value. -/
def take (p : Progress σ) (f : Flag σ) (value : String) : Except Outcome (Progress σ) :=
  match p.given.lookup f.long, f.repeatable with
  | some _, false => .error (.repeated f.label)
  | earlier, _ => do
    let values := earlier.getD [] ++ [value]
    let settings ← f.set values p.settings
    .ok { p with settings, given := (f.long, values) :: p.given }

/-- Looks at the value of the last option. -/
def resolve (p : Progress σ) : Except Outcome (Progress σ) :=
  match p.waiting with
  | none => .ok p
  | some (f, none) => .error (.missing f.label)
  | some (f, some value) => { p with waiting := none }.take f value

/-- An option without an attached value. -/
def enter (p : Progress σ) (f : Flag σ) : Except Outcome (Progress σ) := do
  let p ← p.resolve
  match f.value with
  | none => p.take f "true"
  | some _ => .ok { p with waiting := some (f, none) }

/-- An option with an attached value. -/
def attach (p : Progress σ) (f : Flag σ) (value : String) : Except Outcome (Progress σ) := do
  let p ← p.resolve
  p.take f value

/-- Help or the version is asked for, once the option before it is seen to be right. -/
def ask (p : Progress σ) (o : Outcome) : Except Outcome (Progress σ) := do
  let _ ← p.resolve
  .error o

/-- A long option: its name, and the value attached to it. -/
def long (flags : List (Flag σ)) (p : Progress σ) (name : String) (value : Option String) :
    Except Outcome (Progress σ) :=
  match flags.find? (·.long == name), value with
  | some f, none => p.enter f
  | some f, some value =>
    if f.value.isSome then p.attach f value else .error (.surplus value f.label)
  | none, none =>
    if name = "help" then p.ask .help
    else if name = "version" then p.ask .version
    else .error (.unknown s!"--{name}")
  | none, some value =>
    if name = "help" || name = "version" then .error (.surplus value s!"--{name}")
    else .error (.unknown s!"--{name}")

/-- A cluster of short options. The first one that has a value takes the rest of
the cluster for it, without a leading `=`. -/
def cluster (flags : List (Flag σ)) (p : Progress σ) : List Char → Except Outcome (Progress σ)
  | [] => .ok p
  | c :: rest =>
    match flags.find? (·.short == some c) with
    | some f =>
      if f.value.isSome then
        match rest with
        | [] => p.enter f
        | '=' :: value => p.attach f (String.ofList value)
        | value => p.attach f (String.ofList value)
      else do
        let p ← p.enter f
        cluster flags p rest
    | none =>
      if c = 'h' then p.ask .help
      else if c = 'V' then p.ask .version
      else .error (.unknown s!"-{c}")

/-- An argument that is no option: the value of the option before it, if that one
still needs a value. -/
def word (p : Progress σ) (argument : String) : Except Outcome (Progress σ) :=
  match p.waiting with
  | some (f, none) => .ok { p with waiting := some (f, some argument) }
  | _ => .error (.unknown argument)

/-- Reads one argument. -/
def step (flags : List (Flag σ)) (p : Progress σ) (argument : String) :
    Except Outcome (Progress σ) :=
  if p.trailing then .error (.unknown argument)
  else
    match argument.toList with
    | ['-', '-'] => .ok { p with trailing := true }
    | '-' :: '-' :: option =>
      let name := option.takeWhile (· ≠ '=')
      let value := (option.drop name.length).drop 1
      p.long flags (String.ofList name)
        (if name.length < option.length then some (String.ofList value) else none)
    | '-' :: c :: rest => p.cluster flags (c :: rest)
    | _ => p.word argument

/-- Asks the environment about an option that was not given. -/
def consult (env : String → Option String) (p : Progress σ) (f : Flag σ) :
    Except Outcome (Progress σ) :=
  match p.given.lookup f.long, env f.env with
  | none, some value => p.take f value
  | _, _ => .ok p

end Progress

/-- Settings as the arguments and the environment have them, from the defaults. -/
def read {σ : Type} (flags : List (Flag σ)) (env : String → Option String) (defaults : σ)
    (arguments : List String) : Except Outcome σ := do
  let p ← arguments.foldlM (Progress.step flags) { settings := defaults }
  let p ← p.resolve
  let p ← flags.foldlM (Progress.consult env) p
  .ok p.settings

end EventRelay.CommandLine
