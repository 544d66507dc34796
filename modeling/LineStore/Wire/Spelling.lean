import LineStore.Wire.Grammar

/-!
The ways to write a request.

`Request.Spells` says which texts stand for a request. A spelling is one of them taken apart: the words as they
are written, and the number of spaces at each place where spaces may stand.
-/

namespace LineStore.Request

/-- A text of a name, a key and perhaps a value, with spaces between, before and after them. -/
structure Spelling where
  before : Nat
  name : List Char
  between : Nat
  key : List Char
  /-- The value and the number of spaces before it. -/
  value? : Option (Nat × List Char)
  after : Nat
deriving DecidableEq, Repr

namespace Spelling

/-- What follows the key. -/
def tail (spelling : Spelling) : List Char :=
  match spelling.value? with
  | none => spaces spelling.after
  | some (between, value) => spaces between ++ (value ++ spaces spelling.after)

def text (spelling : Spelling) : List Char :=
  spaces spelling.before ++
    (spelling.name ++ (spaces spelling.between ++ (spelling.key ++ spelling.tail)))

/-- Whether a spelling is one of this request. -/
structure Writes (spelling : Spelling) (request : Request) : Prop where
  name : spelling.name.map Char.toUpper = request.command.name.toList
  between : 0 < spelling.between
  key_isWord : IsWord spelling.key
  key_eq : String.ofList spelling.key = request.key
  key_fits : KeyFits request.key
  value_eq : spelling.value?.map (fun part => String.ofList part.2) = request.value?
  value_isWord : ∀ part ∈ spelling.value?, 0 < part.1 ∧ IsWord part.2
  takesValue : request.command.takesValue = spelling.value?.isSome

end Spelling

end LineStore.Request
