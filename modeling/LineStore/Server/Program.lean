import LineStore.CommandLine.Flag
import LineStore.CommandLine.Report
import LineStore.Server.Connection
import LineStore.Server.Listening
import LineStore.Store.Dump
import LineStore.Text.Quoted

/-!
The server as a program: its flags, how it starts or fails to, and what it prints at the end.

Flags are read first. Then the variables of the environment are read, all of them, so a malformed one is
a failure even where a flag takes its place.
-/

namespace LineStore.Server

open CommandLine

/-- The flags of the server. -/
inductive ServerFlag where
  | address
  | workers
  | buckets
  | lockDelay
  | noDump
deriving DecidableEq, Repr

/-- How the flags of the server are written. -/
def serverFlags : List (Flag ServerFlag) :=
  [{ long := "addr", letter? := some 'a', takesValue := true, meaning := .address },
    { long := "workers", letter? := some 'w', takesValue := true, meaning := .workers },
    { long := "buckets", letter? := some 'b', takesValue := true, meaning := .buckets },
    { long := "lock-delay-ms", takesValue := true, meaning := .lockDelay },
    { long := "no-dump", meaning := .noDump }]

/-- What the flags of a command line say. -/
structure ServerFlags where
  address? : Option String := none
  workers? : Option Nat := none
  buckets? : Option Nat := none
  lockDelay? : Option Span := none
  noDump : Bool := false
deriving DecidableEq, Repr

namespace ServerFlags

/-- The number that a flag is given. Nothing may stand around it. -/
def number? (value? : Option Bytes) : Option Nat :=
  (textOf? value?).bind fun text => Text.numeral? Settings.numberBound text.toList

def add (flag : ServerFlag) (value? : Option Bytes) (flags : ServerFlags) : Option ServerFlags :=
  match flag with
  | .address =>
    (fill flags.address? (textOf? value?)).map fun address? => { flags with address? }
  | .workers =>
    (fill flags.workers? (number? value?)).map fun workers? => { flags with workers? }
  | .buckets =>
    (fill flags.buckets? (number? value?)).map fun buckets? => { flags with buckets? }
  | .lockDelay =>
    (fill flags.lockDelay? ((number? value?).map Span.ofMilliseconds)).map fun lockDelay? =>
      { flags with lockDelay? }
  | .noDump => if flags.noDump then none else some { flags with noDump := true }

/-- The settings with what the flags say in place of what they said. -/
def apply (flags : ServerFlags) (settings : Settings) : Settings :=
  { settings with
    address := flags.address?.getD settings.address
    workers := flags.workers?.getD settings.workers
    buckets := flags.buckets?.getD settings.buckets
    lockDelay := flags.lockDelay?.getD settings.lockDelay
    dumpAtEnd := settings.dumpAtEnd && !flags.noDump }

end ServerFlags

def Settings.text (settings : Settings) : String :=
  s!"ServerConfig \x7b addr: \"{Text.Quoting.field.text settings.address}\", " ++
    s!"workers: {settings.workers}, buckets: {settings.buckets}, " ++
    s!"lock_delay: {settings.lockDelay.text}, backlog: {settings.backlog}, " ++
    s!"dump_on_shutdown: {settings.dumpAtEnd} \x7d"

/-- The settings that flags and variables make of the defaults, once they have been checked. -/
def effectiveSettings (flags : ServerFlags) (environment : Variable → Option String) :
    Except Failure Settings := do
  let settings := flags.apply (← ({} : Settings).override environment)
  settings.check
  return settings

/-- A server that listens. -/
structure Running where
  settings : Settings
  machine : Network.Machine
  responder : Responder Store

/-- How a start of the server ends. -/
inductive Start where
  | help
  | version
  | misused
  /-- It failed with this report. The settings are known if they were found good. -/
  | failed (settings? : Option Settings) (report : String)
  | running (server : Running)

def versionLine : String := "skvs-server 0.1.0"

/-- Starts a server with settings that were found good. -/
def launch (network : Network) (settings : Settings) : Start :=
  match Store.open? settings.buckets settings.lockOptions with
  | .error fault => .failed (some settings) (report fault.message [])
  | .ok store =>
    match listenAs network settings with
    | .error failure =>
      .failed (some settings) (report s!"failed to start server on {settings.address}" failure.chain)
    | .ok machine => .running { settings, machine, responder := { state := store } }

/-- Starts the server with this command line and environment. -/
def start (network : Network) (arguments : List Bytes) (environment : Variable → Option String) :
    Start :=
  match understand serverFlags ServerFlags.add arguments {} with
  | .help => .help
  | .version => .version
  | .misused => .misused
  | .run flags =>
    match effectiveSettings flags environment with
    | .error failure => .failed none (reportChain failure.chain)
    | .ok settings => launch network settings

namespace Running

/-- Serves one client that sends these octets, closes its side and reads to the end. -/
def attend (server : Running) (octets : Bytes) : Bytes × Running :=
  let (answered, _) := Connection.receive Store.engine {} octets {} server.responder
  (answered.written, { server with responder := answered.responder })

/-- Serves clients one after another, if they find their way to the server. -/
def attendAll (network : Network) (server : Running) :
    List Bytes → Except Network.Fault (List Bytes × Running)
  | [] => .ok ([], server)
  | octets :: rest => do
    network.connect server.machine true
    let (replies, server) := server.attend octets
    let (others, server) ← server.attendAll network rest
    return (replies :: others, server)

/-- What is printed when the server ends, if anything. -/
def farewell? (server : Running) : Option String :=
  if server.settings.dumpAtEnd then some (server.responder.state.dump.1.text ++ "\n") else none

end Running

end LineStore.Server
