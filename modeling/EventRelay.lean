import EventRelay.App.Arrival
import EventRelay.App.Basic
import EventRelay.App.Routes
import EventRelay.Broker.Basic
import EventRelay.Broker.Forward
import EventRelay.Broker.Loop
import EventRelay.Broker.Timing
import EventRelay.Client
import EventRelay.Clock
import EventRelay.CommandLine
import EventRelay.Event
import EventRelay.EventStream
import EventRelay.Fault
import EventRelay.Http.Exchange
import EventRelay.Http.Header
import EventRelay.Http.Peer
import EventRelay.Http.Query
import EventRelay.Http.Uri
import EventRelay.Http.Wire
import EventRelay.Hub
import EventRelay.Identity
import EventRelay.Main
import EventRelay.Notice
import EventRelay.Notification
import EventRelay.Program
import EventRelay.Refusal
import EventRelay.Registry
import EventRelay.Ring
import EventRelay.Server.Basic
import EventRelay.Server.Cors
import EventRelay.Session
import EventRelay.Settings.Basic
import EventRelay.Settings.DotEnv
import EventRelay.Settings.Options
import EventRelay.Table
import EventRelay.Text.Alphanumeric
import EventRelay.Text.Blank
import EventRelay.Text.Hex
import EventRelay.Text.Integer
import EventRelay.Text.Json
import EventRelay.Text.Plain
import EventRelay.Text.Split
import EventRelay.Text.Utf8
import EventRelay.Proofs.Ring
import EventRelay.Proofs.Queue
import EventRelay.Proofs.Session
import EventRelay.Proofs.Table
import EventRelay.Proofs.Place
import EventRelay.Proofs.Projection
import EventRelay.Proofs.Admission
import EventRelay.Proofs.Run
import EventRelay.Proofs.Sound
import EventRelay.Proofs.Reordering
import EventRelay.Proofs.Ownership
import EventRelay.Proofs.Fate
import EventRelay.Proofs.Reading
import EventRelay.Proofs.Tracked
import EventRelay.Proofs.Following
import EventRelay.Proofs.Resumption
import EventRelay.Proofs.Ledger
import EventRelay.Proofs.Step
import EventRelay.Proofs.Trail
import EventRelay.Proofs.Stream
import EventRelay.Proofs.Reclaiming
import EventRelay.Proofs.Stall
import EventRelay.Proofs.Repeats
import EventRelay.Proofs.Loop
import EventRelay.Proofs.Life
import EventRelay.Proofs.Smooth
import EventRelay.Proofs.Patience
import EventRelay.Proofs.EventSource
import EventRelay.Proofs.RoundTrip
import EventRelay.Proofs.FieldText
import EventRelay.Proofs.Echo
import EventRelay.Proofs.Cookies
import EventRelay.Proofs.Retention
import EventRelay.Proofs.Later
import EventRelay.Proofs.Answers
import EventRelay.Proofs.Sweeping
import EventRelay.Proofs.Isolation
import EventRelay.Proofs.Comeback
import EventRelay.Proofs.Endings
import EventRelay.Proofs.Expiry
import EventRelay.Proofs.Missed
import EventRelay.Proofs.Faults
import EventRelay.Proofs.Room
import EventRelay.Proofs.Abandonment
import EventRelay.Proofs.Reachable
import EventRelay.Proofs.Serving
import EventRelay.Proofs.Stopping
import EventRelay.Proofs.Wakeups
import EventRelay.Proofs.Options
import EventRelay.Proofs.Origins
import EventRelay.Proofs.Stretch
import EventRelay.Proofs.Browser
import EventRelay.Proofs.Revisit
