/-!
The four commands of the line protocol. A command is named in capitals on the wire and recognised in
any mixture of ASCII capitals and small letters.
-/

namespace LineStore

/-- What a request asks for. -/
inductive Command where
  /-- Store a value under a key that has none. -/
  | create
  /-- Tell the value of a key. -/
  | read
  /-- Replace the value of a key that has one. -/
  | update
  /-- Forget a key and its value. -/
  | delete
deriving DecidableEq, Repr

namespace Command

/-- The commands, in the order in which they are listed to users. -/
def all : List Command := [create, read, update, delete]

/-- The name of a command on the wire. -/
def name : Command → String
  | create => "CREATE"
  | read => "READ"
  | update => "UPDATE"
  | delete => "DELETE"

/-- The command that a word names, whatever the case of its ASCII letters. -/
def ofWord? (word : List Char) : Option Command :=
  all.find? fun command => command.name.toList = word.map Char.toUpper

def takesValue : Command → Bool
  | create | update => true
  | read | delete => false

theorem ofWord?_eq_some_iff {word : List Char} {command : Command} :
    ofWord? word = some command ↔ word.map Char.toUpper = command.name.toList := by
  simp only [ofWord?, all, List.find?]
  constructor
  · intro h
    split at h
    · simp_all
    · split at h
      · simp_all
      · split at h
        · simp_all
        · split at h <;> simp_all
  · intro h
    rw [h]
    cases command <;> decide

end Command

end LineStore
