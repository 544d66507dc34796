import LineStore.Text.Extender
import LineStore.Text.Printable

/-!
Text as it is quoted in messages: characters that would not show, or that would end the quotation, are
written as an escape.
-/

namespace LineStore.Text

/-- Which characters are written as escapes besides those that are always so. -/
structure Quoting where
  single : Bool
  double : Bool
  /-- Extenders, wherever they stand, and not only at the start of the text. -/
  extenders : Bool
deriving DecidableEq, Repr

namespace Quoting

/-- Both quotes are escaped, and an extender that has nothing to join. -/
def message : Quoting where
  single := true
  double := true
  extenders := false

/-- A field of a record in double quotes. -/
def field : Quoting where
  single := false
  double := true
  extenders := true

/-- The escape of a character by its code point. -/
def codePoint (c : Char) : List Char :=
  ['\\', 'u', '\x7b'] ++ Nat.toDigits 16 c.toNat ++ ['\x7d']

/-- One character of a quoted text. Extenders are escaped if `extenders`. -/
def char (quoting : Quoting) (extenders : Bool) (c : Char) : List Char :=
  if c = '\x00' then ['\\', '0']
  else if c = '\t' then ['\\', 't']
  else if c = '\r' then ['\\', 'r']
  else if c = '\n' then ['\\', 'n']
  else if c = '\\' ∨ (c = '"' ∧ quoting.double) ∨ (c = '\'' ∧ quoting.single) then ['\\', c]
  else if extenders && isExtender c then codePoint c
  else if isPrintable c then [c]
  else codePoint c

/-- A quoted text, without the quotes around it. -/
def text (quoting : Quoting) (text : String) : String :=
  match text.toList with
  | [] => ""
  | c :: rest =>
    String.ofList (quoting.char true c ++ rest.flatMap (quoting.char quoting.extenders))

end Quoting

end LineStore.Text
