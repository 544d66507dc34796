import LineStore.Client.Program
import LineStore.Server.Program

/-!
The command line. Without sockets of its own, the program serves one client on its standard streams, and
prints the store when that client is done. With `client` as its first argument it is the client of a
store of its own, which starts empty.
-/

namespace LineStore

/-- The variables of the environment that are set. -/
def readEnvironment : IO (Server.Variable → Option String) := do
  let texts ← Server.Variable.all.filterMapM fun source => do
    return (← IO.getEnv source.name).map fun text => (source, text)
  return (texts.lookup ·)

/-- Reads everything from a stream. -/
partial def readAll (stream : IO.FS.Stream) (read : ByteArray) : IO Bytes := do
  let chunk ← stream.read 4096
  if chunk.isEmpty then return read.data.toList else readAll stream (read ++ chunk)

def writeAll (stream : IO.FS.Stream) (octets : Bytes) : IO Unit := do
  stream.write ⟨octets.toArray⟩
  stream.flush

/-- Serves the standard streams as one connection, reading until it ends. -/
partial def serveStreams (framer : Framer) (responder : Responder Store) : IO (Responder Store) := do
  let chunk ← (← IO.getStdin).read 4096
  if chunk.isEmpty then return responder
  let (answered, framer) :=
    Server.Connection.receive Store.engine {} chunk.data.toList framer responder
  writeAll (← IO.getStdout) answered.written
  if answered.ending?.isSome then return answered.responder
  serveStreams framer answered.responder

/-- Runs the server and gives its exit code. -/
def runServer (arguments : List Bytes) : IO UInt32 := do
  match Server.start .loopbackOnly arguments (← readEnvironment) with
  | .help =>
    IO.println "usage: [-a HOST:PORT] [-w WORKERS] [-b BUCKETS] [--lock-delay-ms MS] [--no-dump]"
    return 0
  | .version =>
    IO.println Server.versionLine
    return 0
  | .misused => return 2
  | .failed _ report =>
    IO.eprint report
    return 1
  | .running server =>
    let responder ← serveStreams {} server.responder
    IO.print (({ server with responder } : Server.Running).farewell?.getD "")
    return 0

/-- The store behind a client's connection, as its peer. -/
def storePeer : Client.Peer (Framer × Responder Store) := fun octets (framer, responder) =>
  let (answered, framer) := Server.Connection.receive Store.engine {} octets framer responder
  (answered.written, (framer, answered.responder))

/-- Runs the client and gives its exit code. -/
def runClient (arguments : List Bytes) : IO UInt32 := do
  let responder : Responder Store := { state := .empty 1024 (by decide) }
  let input ← readAll (← IO.getStdin) .empty
  let run := Client.run .loopbackOnly storePeer (some ({}, responder)) arguments input
  writeAll (← IO.getStdout) (run.output?.getD [])
  IO.eprint (run.report?.getD "")
  return UInt32.ofNat run.exitCode

end LineStore

def main (arguments : List String) : IO UInt32 :=
  match arguments with
  | "client" :: rest => LineStore.runClient (rest.map LineStore.Utf8.encode)
  | _ => LineStore.runServer (arguments.map LineStore.Utf8.encode)
