import LineStore.Wire.Command
import LineStore.Wire.Limits

/-!
Requests and how they are read.

The text of a request is its command, a key and, if the command takes one, a value, with any number of
spaces between, before and after them. Only the space separates: every other character belongs to a word.
-/

namespace LineStore

/-- A command with its key and perhaps a value. -/
structure Request where
  command : Command
  key : String
  value? : Option String
deriving DecidableEq, Repr

/-- What a buffer of octets amounts to. -/
inductive Reading where
  /-- The line has not ended and may still do so in time. -/
  | incomplete
  /-- The line is no request. -/
  | invalid
  | request (request : Request)
deriving DecidableEq, Repr

namespace Request

/-- The words of a text: what is left of it between its spaces. -/
def words (text : List Char) : List (List Char) :=
  (text.splitOn ' ').filter (· ≠ [])

/-- The request of which these are the words. -/
def ofWords? : List (List Char) → Option Request
  | name :: key :: rest =>
    match Command.ofWord? name with
    | none => none
    | some command =>
      let key := String.ofList key
      if KeyFits key then
        match command.takesValue, rest with
        | true, [value] => some { command, key, value? := some (String.ofList value) }
        | false, [] => some { command, key, value? := none }
        | _, _ => none
      else none
  | _ => none

/-- The request that a line without its line feed spells. One carriage return at its end is not read. -/
def ofBody? (body : Bytes) : Option Request :=
  match Utf8.decode? body.dropReturn with
  | some text => ofWords? (words text.toList)
  | none => none

/-- The reading of a line without its line feed. -/
def readBody (body : Bytes) : Reading :=
  match ofBody? body with
  | some request => .request request
  | none => .invalid

/-- Reads the first line of a buffer. A buffer of `maxLineBytes` octets has to be one line, and a longer
one is never read. -/
def read (buffer : Bytes) : Reading :=
  if maxLineBytes < buffer.length then .invalid
  else if buffer.length = maxLineBytes then
    if buffer.getLast? = some lineFeed then readBody buffer.dropLast else .invalid
  else
    match buffer.cutLine? with
    | some (line, _) => readBody line.dropLast
    | none => .incomplete

end Request

/-- A line with nothing on it, by which a client asks to be disconnected. -/
def Bytes.IsBareLine (line : Bytes) : Prop :=
  line = [lineFeed] ∨ line = [carriageReturn, lineFeed]

instance (line : Bytes) : Decidable line.IsBareLine :=
  inferInstanceAs (Decidable (line = [lineFeed] ∨ line = [carriageReturn, lineFeed]))

end LineStore
