import EventRelay.Text.Alphanumeric
import EventRelay.Text.Blank
import EventRelay.Text.Split

/-!
# Variables from a file

A file of lines `NAME=value` that adds variables to the environment. Values may
be quoted, strongly with `'` or weakly with `"`, may run over several lines
inside quotes, and may refer to other variables as `$NAME` or `${NAME}`. What
follows a `#` after a blank is a comment.

Reading stops at the first line that is wrong; the variables before it count.
The environment wins over the file. It cannot hold a null character, and a value
with one is more than the file may ask for.
-/

namespace EventRelay.DotEnv

/-! ## Lines -/

/-- Where the reader of lines stands in the text. -/
inductive LineState where
  | plain
  /-- After a blank, where a comment may start. -/
  | blank
  | escaped
  | strong
  | strongEscaped
  | weak
  | weakEscaped
  deriving Repr, DecidableEq

/-- The state after a character, unless a comment starts there. -/
def LineState.next (s : LineState) (c : Char) : Option LineState :=
  let opening : LineState :=
    if c = '\\' then .escaped else if c = '"' then .weak else if c = '\'' then .strong else .plain
  match s with
  | .plain =>
    some (if Text.isBlank c && c ≠ '\n' && c ≠ '\r' then .blank else opening)
  | .blank => if c = '#' then none else some opening
  | .escaped => some .plain
  | .strong => some (if c = '\\' then .strongEscaped else if c = '\'' then .plain else .strong)
  | .strongEscaped => some .strong
  | .weak => some (if c = '\\' then .weakEscaped else if c = '"' then .plain else .weak)
  | .weakEscaped => some .weak

/-- A line of the file, or the rest of a file that ends inside of one. -/
inductive Line where
  | whole (cs : List Char)
  | cut
  deriving Repr, DecidableEq

/-- A line without its line ending. -/
def chomp (cs : List Char) : List Char :=
  match cs.reverse with
  | '\n' :: '\r' :: rest => rest.reverse
  | '\n' :: rest => rest.reverse
  | _ => cs

/-- A physical line is up to and including its line feed. -/
def physicalLines : List Char → List (List Char)
  | [] => []
  | c :: rest =>
    match physicalLines rest with
    | [] => [[c]]
    | line :: lines => if c = '\n' then [c] :: line :: lines else (c :: line) :: lines

/-- Reads a physical line from a state: the state at its end, and the line as far
as no comment starts. -/
def scan (s : LineState) : List Char → Option LineState × List Char
  | [] => (some s, [])
  | c :: rest =>
    match s.next c with
    | none => (none, [])
    | some s =>
      let (final, kept) := scan s rest
      (final, c :: kept)

def isComment (cs : List Char) : Bool := (cs.dropWhile Text.isBlank).head? = some '#'

/-- Joins physical lines into lines that are whole. `pending` is what has been
read of the present line, and `state` where its reader stands. -/
def joinLines (state : LineState) (pending : List Char) : List (List Char) → List Line
  | [] => if state = .plain then [] else [.cut]
  | line :: rest =>
    if isComment (pending ++ line) then joinLines .plain [] rest
    else
      match scan state line with
      | (none, kept) => .whole (pending ++ kept) :: joinLines .plain [] rest
      | (some .plain, kept) => .whole (chomp (pending ++ kept)) :: joinLines .plain [] rest
      | (some state, kept) => joinLines state (pending ++ kept) rest

/-! ## Values -/

/-- Looks up a variable that a value refers to; one that is not set is empty. -/
abbrev Lookup := String → String

/-- What is being read of a reference to a variable. -/
inductive Reference where
  | none
  /-- After `$`. -/
  | open (name : List Char)
  /-- After `${`. -/
  | braced (name : List Char)
  deriving Repr, DecidableEq

/-- Where the reader of a value stands. -/
structure ValueState where
  output : List Char := []
  strong : Bool := false
  weak : Bool := false
  escaped : Bool := false
  reference : Reference := .none
  /-- A blank has ended the value; only a comment may follow. -/
  ended : Bool := false
  deriving Repr, DecidableEq

namespace ValueState

def push (v : ValueState) (cs : List Char) : ValueState := { v with output := v.output ++ cs }

/-- A character of a reference. The name after a dollar sign is made up of letters and
digits. -/
def refer (lookup : Lookup) (v : ValueState) (c : Char) : ValueState :=
  match v.reference with
  | .none => v
  | .open name =>
    if Text.isAlphanumeric c then { v with reference := .open (name ++ [c]) }
    else if c = '\x7b' && name.isEmpty then { v with reference := .braced [] }
    else
      let v := v.push (lookup (String.ofList name)).toList
      if c = '$' then { v with reference := .open [] }
      else { v with reference := .none }.push [c]
  | .braced name =>
    if c = '\x7d' then
      { v with reference := .none }.push (lookup (String.ofList name)).toList
    else { v with reference := .braced (name ++ [c]) }

/-- The state after a character that may stand there. -/
def next (lookup : Lookup) (v : ValueState) (c : Char) : Option ValueState :=
  if v.ended then if c = ' ' || c = '\t' then some v else none
  else if v.escaped then
    if c = '\\' || c = '\'' || c = '"' || c = '$' || c = ' ' then
      some ({ v with escaped := false }.push [c])
    else if c = 'n' then some ({ v with escaped := false }.push ['\n'])
    else none
  else if v.strong then some (if c = '\'' then { v with strong := false } else v.push [c])
  else if v.reference ≠ .none then some (v.refer lookup c)
  else if c = '$' then some { v with reference := .open [] }
  else if v.weak then
    some
      (if c = '"' then { v with weak := false }
      else if c = '\\' then { v with escaped := true }
      else v.push [c])
  else if c = '\'' then some { v with strong := true }
  else if c = '"' then some { v with weak := true }
  else if c = '\\' then some { v with escaped := true }
  else if c = ' ' || c = '\t' then some { v with ended := true }
  else some (v.push [c])

/-- Reads characters to the end, or to a comment after the value. -/
def run (lookup : Lookup) (v : ValueState) : List Char → Option ValueState
  | [] => some v
  | c :: rest =>
    if v.ended && c = '#' then some v else (v.next lookup c).bind fun v => v.run lookup rest

/-- The value read, if no quote or brace is left open. -/
def finish? (lookup : Lookup) (v : ValueState) : Option String :=
  if v.strong || v.weak then none
  else
    match v.reference with
    | .braced _ => none
    | .open name => some (String.ofList (v.output ++ (lookup (String.ofList name)).toList))
    | .none => some (String.ofList v.output)

end ValueState

def value? (lookup : Lookup) (cs : List Char) : Option String :=
  (({} : ValueState).run lookup cs).bind fun v => v.finish? lookup

/-! ## Entries -/

def isKeyStart (c : Char) : Bool := c.isAlpha || c = '_'

def isKeyChar (c : Char) : Bool := c.isAlphanum || c = '_' || c = '.'

def skipBlanks (cs : List Char) : List Char := cs.dropWhile Text.isBlank

/-- A name and what follows it and its blanks. -/
def key? (cs : List Char) : Option (String × List Char) :=
  if (cs.head?.map isKeyStart).getD false then
    some (String.ofList (cs.takeWhile isKeyChar), skipBlanks (cs.dropWhile isKeyChar))
  else none

def afterEquals? : List Char → Option (List Char)
  | '=' :: rest => some rest
  | _ => none

/-- The name that a line sets, which may have `export` in front, and the rest of
the line. -/
def assignment? (cs : List Char) : Option (String × List Char) := do
  let (name, rest) ← key? cs
  match afterEquals? rest with
  | some value => some (name, skipBlanks value)
  | none =>
    if name = "export" then
      let (name, rest) ← key? rest
      some (name, skipBlanks (← afterEquals? rest))
    else none

/-- What a line means. -/
inductive Entry where
  | nothing
  | variable (name value : String)
  | wrong
  deriving Repr, DecidableEq

def entryOf (lookup : Lookup) (cs : List Char) : Entry :=
  let cs := Text.trimChars cs
  if cs.isEmpty || cs.head? = some '#' then .nothing
  else
    match assignment? cs with
    | none => .wrong
    | some (name, rest) =>
      if rest.isEmpty || rest.head? = some '#' then .variable name ""
      else
        match value? lookup rest with
        | none => .wrong
        | some value => .variable name value

/-- The names that the values of a file may refer to. -/
def mentioned : List Char → List String
  | [] => []
  | '$' :: '\x7b' :: rest => String.ofList (rest.takeWhile (· ≠ '\x7d')) :: mentioned rest
  | '$' :: rest => String.ofList (rest.takeWhile Text.isAlphanumeric) :: mentioned rest
  | _ :: rest => mentioned rest

/-- The variable in the environment, or else the first one of the file so far. -/
def lookupIn (env : String → Option String) (file : List (String × String)) : Lookup := fun name =>
  ((env name).or (file.lookup name)).getD ""

/-- A variable that cannot be set, because its value has a null character. -/
structure Unsettable where
  name : String
  deriving Repr, DecidableEq

/-- The variables that lines set, added to those of the file so far, up to a line
that is wrong. The first value of a name is the one that counts, and the only one that
has to be set. -/
def collect (env : String → Option String) (file : List (String × String)) :
    List Line → Except Unsettable (List (String × String))
  | [] => .ok file
  | .cut :: _ => .ok file
  | .whole cs :: rest =>
    match entryOf (lookupIn env file) cs with
    | .wrong => .ok file
    | .nothing => collect env file rest
    | .variable name value =>
      if ((env name).or (file.lookup name)).isNone && value.toList.contains '\x00' then
        .error ⟨name⟩
      else collect env (file ++ [(name, value)]) rest

/-- The environment with the variables of a file added to it. -/
def extend (env : String → Option String) (text : String) :
    Except Unsettable (String → Option String) := do
  let cs := text.toList
  let cs := if cs.head? = some '\uFEFF' then cs.drop 1 else cs
  let file ← collect env [] (joinLines .plain [] (physicalLines cs))
  .ok fun name => (env name).or (file.lookup name)

end EventRelay.DotEnv
