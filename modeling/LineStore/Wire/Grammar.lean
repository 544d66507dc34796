import LineStore.Wire.Request

/-!
The grammar of requests, stated without reading one.

`Request.Spells` holds between a request and the texts that stand for it: the name of the command in any
case, the key and perhaps a value, each a run of characters without a space, with spaces around them.
-/

namespace LineStore.Request

/-- A run of at least one character, none of them a space. -/
def IsWord (word : List Char) : Prop :=
  word ≠ [] ∧ ' ' ∉ word

/-- A text of `n` spaces. -/
def spaces (n : Nat) : List Char :=
  List.replicate n ' '

/-- The texts that stand for a request. -/
inductive Spells : Request → List Char → Prop where
  | bare {command : Command} {name key : List Char} (before between after : Nat)
      (hname : name.map Char.toUpper = command.name.toList) (hvalue : command.takesValue = false)
      (hkey : IsWord key) (hfits : KeyFits (String.ofList key)) :
      Spells { command, key := String.ofList key, value? := none }
        (spaces before ++ name ++ spaces (between + 1) ++ key ++ spaces after)
  | valued {command : Command} {name key value : List Char} (before between between' after : Nat)
      (hname : name.map Char.toUpper = command.name.toList) (hvalue : command.takesValue = true)
      (hkey : IsWord key) (hfits : KeyFits (String.ofList key)) (hword : IsWord value) :
      Spells { command, key := String.ofList key, value? := some (String.ofList value) }
        (spaces before ++ name ++ spaces (between + 1) ++ key ++ spaces (between' + 1) ++ value
          ++ spaces after)

end LineStore.Request
