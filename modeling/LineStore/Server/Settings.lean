import LineStore.Lock.State
import LineStore.Server.Failure
import LineStore.Text.Blank
import LineStore.Text.Numeral

/-!
The settings of a server: defaults, which variables of the environment change, and checks.
-/

namespace LineStore.Server

/-- How a server is run. -/
structure Settings where
  address : String := "0.0.0.0:8080"
  /-- How many connections are served at a time. -/
  workers : Nat := 10
  buckets : Nat := 1024
  /-- How long every release of a lock is held up. -/
  lockDelay : Span := {}
  /-- How many connections may wait to be accepted. -/
  backlog : Nat := 20
  /-- Whether the store is printed at the end. -/
  dumpAtEnd : Bool := true
deriving DecidableEq, Repr

namespace Settings

/-- Numbers of settings are below this, so that each fits a word. -/
def numberBound : Nat := UInt64.size

/-- The number that the text of a variable means. Blanks around it do not count. -/
def number (source : Variable) (text : String) : Except Failure Nat :=
  match Text.numeral? numberBound (Text.trim text.toList) with
  | some n => .ok n
  | none => .error (.setting (.notANumber source text))

/-- Changes one setting to what the text of its variable means. -/
def change (settings : Settings) (source : Variable) (text : String) : Except Failure Settings :=
  match source with
  | .address => .ok { settings with address := text }
  | .workers => (number source text).map fun n => { settings with workers := n }
  | .buckets => (number source text).map fun n => { settings with buckets := n }
  | .lockDelay =>
    (number source text).map fun n => { settings with lockDelay := .ofMilliseconds n }

/-- Changes every setting whose variable has a text, in order. The first bad text counts. -/
def override (settings : Settings) (environment : Variable → Option String) :
    Except Failure Settings :=
  Variable.all.foldlM (fun settings source =>
    match environment source with
    | some text => settings.change source text
    | none => .ok settings) settings

/-- Accepts settings that a server can run with. -/
def check (settings : Settings) : Except Failure Unit :=
  if settings.workers = 0 then .error (.setting (.zero .workers))
  else if settings.buckets = 0 then .error (.setting (.zero .buckets))
  else if settings.backlog = 0 then .error (.setting (.zero .backlog))
  else .ok ()

/-- The options of the locks: room for every worker to write at once. -/
def lockOptions (settings : Settings) : Lock.Options where
  ringCapacity := settings.workers
  releaseDelay := settings.lockDelay

end Settings

end LineStore.Server
