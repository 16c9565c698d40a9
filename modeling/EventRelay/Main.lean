import EventRelay.Http.Wire
import EventRelay.Program
import Std.Async

/-!
# The process

The program's connection to the outside: arguments, environment and file, the
clock, the random source, the terminal and the sockets. What there is to decide
is decided by `EventRelay.Program` and `EventRelay.App`.
-/

namespace EventRelay.Process

open Std.Async

/-! ## Settings -/

/-- The text of a file in the working directory, or else in the nearest directory
above that has it, at most `levels` of them. -/
def readNearest (name : String) : Nat → IO (Option String)
  | 0 => return none
  | levels + 1 => do
    try return some (← IO.FS.readFile name)
    catch _ => readNearest s!"../{name}" levels

/-- The variables of the environment that matter to the settings. -/
def readEnvironment (file : Option String) : IO (String → Option String) := do
  let names := Settings.options.map (·.env) ++ DotEnv.mentioned (file.getD "").toList
  let entries ← names.mapM fun name => do return (name, ← IO.getEnv name)
  return fun name => (entries.lookup name).join

/-! ## The terminal -/

def print (verbosity : Verbosity) (notices : List Notice) : IO Unit := do
  (Program.lines verbosity true notices).forM IO.eprintln
  (Program.lines verbosity false notices).forM IO.println
  (← IO.getStdout).flush

/-! ## The relay in real time -/

/-- The relay of this process. -/
structure Relay where
  app : Std.Mutex App
  origins : OriginPolicy
  verbosity : Verbosity

/-- Brings the relay's clock up to date, does something with the relay, and prints
what it reports. -/
def Relay.perform {α : Type} (r : Relay) (action : App → App × α) : IO α :=
  r.app.atomically do
    let (app, result) := action ((← get).advance (← IO.monoMsNow))
    let (notices, app) := Program.takeNotices app
    print r.verbosity notices
    set app
    return result

/-- Session ids from the random source. The later ones are for the case that the
earlier ones are taken. -/
def draw : IO (List Draw) :=
  (List.range 4).mapM fun _ => do
    try
      let bytes ← IO.getRandomBytes 16
      return .ok (SessionId.ofNat (bytes.foldl (fun n b => n * 256 + b.toNat) 0))
    catch e => return .error e.toString

/-- The pause between two looks at the clock or at a stream, in milliseconds. -/
def pause : Std.Time.Millisecond.Offset := 20

/-- The time that streams are given to send their last frames, in milliseconds. -/
def farewell : Std.Time.Millisecond.Offset := 100

/-- Lets what is due happen, as long as the broker runs. -/
partial def keepTime (r : Relay) : Async Unit := do
  if ← (r.perform fun app => (app, app.broker.isRunning) : IO Bool) then
    sleep pause
    keepTime r

/-! ## Connections -/

/-- Reads until the head of a request is there. -/
partial def readHead (socket : TCP.Socket.Client) (input : Bytes) :
    Async (Option (List (List Char))) := do
  match ← socket.recv? 4096 with
  | none => return none
  | some more =>
    let input := input ++ more.toList
    match Http.Wire.headLines? input with
    | some head => return some head
    | none => if Http.Wire.maxHead < input.length then return none else readHead socket input

/-- Reads until the other end of a connection has gone, and takes that down. -/
partial def watch (socket : TCP.Socket.Client) (gone : IO.Ref Bool) : Async Unit := do
  let more ← try socket.recv? 4096 catch _ => pure none
  if more.isSome then watch socket gone else gone.set true

def send (socket : TCP.Socket.Client) (text : String) : Async Unit :=
  if text = "" then pure () else socket.send text.toUTF8

/-- Sends the frames of a stream as they come, until the stream ends or the other
end of its connection has gone. -/
partial def sendFrames (r : Relay) (socket : TCP.Socket.Client) (gone : IO.Ref Bool)
    (stream : EventStream) : Async Unit := do
  let (stream, frames, readEnd) ← (r.perform fun app => app.frames stream 100 : IO _)
  try send socket (String.join (frames.map Frame.text))
  catch _ => gone.set true
  if readEnd = .closed then return
  if ← gone.get then
    (r.perform fun app => (app.dropStream stream, ()) : IO Unit)
  else
    if readEnd = .pending then sleep pause
    sendFrames r socket gone stream

/-- Answers the request of a connection. -/
def converse (r : Relay) (socket : TCP.Socket.Client) : Async Unit := do
  let peer ← try pure (Http.Peer.read? (toString (← socket.getPeerName))) catch _ => pure none
  match ← readHead socket [] with
  | none => return
  | some head =>
    let response ←
      match Http.Wire.request? head peer with
      | none => pure { status := 400, body := .text "" }
      | some request =>
        let draws ← draw
        (r.perform fun app => app.answer r.origins request draws : IO _)
    let head := Http.Wire.head response
    match response.body with
    | .text text => send socket (head ++ text)
    | .ongoing stream =>
      let gone ← IO.mkRef false
      try send socket head catch _ => gone.set true
      background (watch socket gone)
      sendFrames r socket gone stream
  socket.shutdown

/-- Takes connections, and serves each one by itself. -/
partial def acceptAll (listener : TCP.Socket.Server) (r : Relay) : Async Unit := do
  let socket ← listener.accept
  background (try converse r socket catch _ => pure ())
  acceptAll listener r

/-! ## Serving -/

/-- The address of the settings. -/
def addressOf (settings : Settings) : Async Std.Net.SocketAddress := do
  let port := settings.port.toUInt16
  let host := settings.interface.toList.filter fun c => c ≠ '[' && c ≠ ']'
  let found ← DNS.getAddrInfo (String.ofList host) (toString settings.port)
  match (found : Array Std.Net.IPAddr).toList with
  | .v4 address :: _ => return .v4 { addr := address, port }
  | .v6 address :: _ => return .v6 { addr := address, port }
  | [] => throw (IO.userError s!"no address for {settings.interface}")

/-- Takes the address of the settings, or says why it cannot be taken. -/
def listen (settings : Settings) : Async (Except ServerFault TCP.Socket.Server) := do
  try
    let listener ← TCP.Socket.Server.mk
    listener.bind (← addressOf settings)
    listener.listen 1024
    return .ok listener
  catch
    | .resourceBusy .. => return .error .addressInUse
    | e => return .error (.addressRefused e.toString)

/-- Serves until the process is interrupted, then closes all streams. -/
def serve (listener : TCP.Socket.Server) (r : Relay) : Async UInt32 := do
  let interruption ← Signal.Waiter.mk .sigint false
  let interrupted ← interruption.wait
  background (keepTime r)
  background (acceptAll listener r)
  discard (await interrupted)
  (r.perform fun app => (app.interrupt, ()) : IO Unit)
  sleep farewell
  (r.perform fun app => (app.shutdown, ()) : IO Unit)
  return 0

/-- Runs the program with its settings. -/
def run (settings : Settings) : Async UInt32 := do
  let now ← IO.monoMsNow
  let listener ← listen settings
  let fault := match listener with | .ok _ => none | .error fault => some fault
  let run := Program.run settings now fault
  print settings.verbosity run.notices
  run.complaint.forM fun line => (IO.eprintln line : IO Unit)
  match run.course, listener with
  | .serves app origins, .ok listener =>
    serve listener { app := ← Std.Mutex.new app, origins, verbosity := settings.verbosity }
  | .serves .., .error _ => return 1
  | .ends code, _ => return code.toUInt32

end EventRelay.Process

open EventRelay in
def main (arguments : List String) : IO UInt32 := do
  let depth := ((← IO.currentDir).toString.toList.filter (· = '/')).length
  let file ← Process.readNearest ".env" (depth + 1)
  match Program.settings (← Process.readEnvironment file) file arguments with
  | .error failure =>
    let refused := Program.refuse failure
    refused.output.forM IO.println
    refused.error.forM IO.eprintln
    return refused.code.toUInt32
  | .ok settings => (Process.run settings).block
