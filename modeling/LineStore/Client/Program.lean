import LineStore.Client.Link
import LineStore.CommandLine.Flag
import LineStore.CommandLine.Report
import LineStore.Network.Basic

/-!
The client as a program: it sends the lines that it reads, prints the line that comes back for each, and
ends at an empty line or when there are no more.
-/

namespace LineStore.Client

open CommandLine

/-- The flags of the client. -/
inductive ClientFlag where
  | host
  | port
  | interactive
deriving DecidableEq, Repr

/-- How the flags of the client are written. -/
def clientFlags : List (Flag ClientFlag) :=
  [{ long := "ip", letter? := some 'i', takesValue := true, meaning := .host },
    { long := "port", letter? := some 'p', takesValue := true, meaning := .port },
    { long := "interactive", letter? := some 't', meaning := .interactive }]

/-- The host that is connected to if no other is named. -/
def defaultHost : String := "127.0.0.1"

/-- The port that is connected to if no other is named. -/
def defaultPort : UInt16 := 8080

/-- The greatest port that only a system's own servers listen on. -/
def lastReservedPort : UInt16 := 1024

/-- What the flags of a command line say. -/
structure ClientFlags where
  host? : Option String := none
  port? : Option UInt16 := none
  interactive : Bool := false
deriving DecidableEq, Repr

namespace ClientFlags

/-- The port that a flag is given. A sign may stand before it, and zero may be negative. -/
def portOf? (value? : Option Bytes) : Option UInt16 := do
  let text ← textOf? value?
  let number ← match text.toList with
    | '-' :: digits => (Text.digits? digits).filter (· = 0)
    | digits => Text.numeral? UInt16.size digits
  return UInt16.ofNat number

def add (flag : ClientFlag) (value? : Option Bytes) (flags : ClientFlags) : Option ClientFlags :=
  match flag with
  | .host => (fill flags.host? (textOf? value?)).map fun host? => { flags with host? }
  | .port => (fill flags.port? (portOf? value?)).map fun port? => { flags with port? }
  | .interactive =>
    if flags.interactive then none else some { flags with interactive := true }

end ClientFlags

/-- How a run of the client ends. -/
structure Run (σ : Type) where
  exitCode : Nat
  /-- What it printed, if that is told. -/
  output? : Option Bytes := none
  /-- What it reported, if it failed. -/
  report? : Option String := none
  /-- The connection at the end, if there was one. -/
  link? : Option (Link σ) := none

variable {σ : Type}

def versionLine : String := "skvs-client 0.1.0"

/-- What is printed before a line is read. -/
def prompt (interactive : Bool) : Bytes :=
  if interactive then Utf8.encode "> " else []

/-- The text of a line of input without the line feed and carriage returns at its end. -/
def inputText? (line : Bytes) : Option String :=
  (Utf8.decode? line).map trimLineEnd

/-- Sends lines of input until there are no more, one of them is empty, or something fails. The answers
and the prompts are printed in their order. -/
def forward (peer : Peer σ) (interactive : Bool) :
    List Bytes → Link σ → Bytes × Except (List String) Unit × Link σ
  | [], link => (prompt interactive, .ok (), link.disconnect peer)
  | line :: rest, link =>
    match inputText? line with
    | none => (prompt interactive, .error [Network.Fault.malformedText.message], link)
    | some text =>
      if text.isEmpty then (prompt interactive, .ok (), link.disconnect peer)
      else
        match link.call peer (.request text) with
        | (.error failure, link) => (prompt interactive, .error failure.chain, link)
        | (.ok answer, link) =>
          let printed := match answer with
            | .line text => Utf8.encode text ++ [lineFeed]
            | .reply reply => reply.encode
          let (output, result, link) := forward peer interactive rest link
          (prompt interactive ++ printed ++ output, result, link)

/-- The lines of the input, the last of which may lack its line feed. -/
def inputLines (input : Bytes) : List Bytes :=
  let (lines, tail) := input.lines
  if tail.isEmpty then lines else lines ++ [tail]

/-- Runs the client. `listening?` is the peer that listens on the port, if one does. -/
def run (network : Network) (peer : Peer σ) (listening? : Option σ) (arguments : List Bytes)
    (input : Bytes) : Run σ :=
  match understand clientFlags ClientFlags.add arguments {} with
  | .help => { exitCode := 0 }
  | .version => { exitCode := 0, output? := some (Utf8.encode versionLine ++ [lineFeed]) }
  | .misused => { exitCode := 2 }
  | .run flags =>
    let host := flags.host?.getD defaultHost
    let port := flags.port?.getD defaultPort
    if port ≤ lastReservedPort then
      { exitCode := 1, output? := some [], report? := some (report s!"invalid port number {port}" []) }
    else
      let connected := do
        network.connect (← network.resolve host) listening?.isSome
      match connected, listening? with
      | .ok (), some state =>
        let (output, result, link) := forward peer flags.interactive (inputLines input) { peer := state }
        match result with
        | .ok () => { exitCode := 0, output? := some output, link? := some link }
        | .error chain =>
          { exitCode := 1, output? := some output, report? := some (reportChain chain)
            link? := some link }
      | .error fault, _ =>
        { exitCode := 1, output? := some []
          report? := some
            (report s!"failed to connect to {host}:{port}" (Failure.network fault).chain) }
      | .ok (), none => { exitCode := 1, output? := some [] }

end LineStore.Client
