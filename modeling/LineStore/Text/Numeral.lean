/-!
Unsigned numerals: in decimal, and in the base that a numeral's first characters mark.
-/

namespace LineStore.Text

/-- The value of a digit in a base of at most sixteen. Letters of either case follow the nine. -/
def digitIn? (base : Nat) (c : Char) : Option Nat :=
  let value? :=
    if '0' ≤ c ∧ c ≤ '9' then some (c.toNat - '0'.toNat)
    else if 'a' ≤ c ∧ c ≤ 'f' then some (c.toNat - 'a'.toNat + 10)
    else if 'A' ≤ c ∧ c ≤ 'F' then some (c.toNat - 'A'.toNat + 10)
    else none
  value?.filter (· < base)

/-- The value of a text of digits in a base, at least one. -/
def digitsIn? (base : Nat) : List Char → Option Nat
  | [] => none
  | text => text.foldlM (fun n c => (digitIn? base c).map (base * n + ·)) 0

/-- The value of a text of decimal digits, at least one. -/
def digits? : List Char → Option Nat :=
  digitsIn? 10

/-- The value of a text of digits whose base its start marks: `0x` stands before hexadecimal digits, `0`
before octal ones, and decimal digits have no mark. -/
def markedDigits? : List Char → Option Nat
  | '0' :: 'x' :: digits => digitsIn? 16 digits
  | '0' :: 'X' :: digits => digitsIn? 16 digits
  | '0' :: digits => digitsIn? 8 ('0' :: digits)
  | digits => digitsIn? 10 digits

/-- A numeral: digits after at most one plus sign. Its value has to be below `bound`. -/
def numeral? (bound : Nat) (text : List Char) : Option Nat :=
  let digits := if text.head? = some '+' then text.tail else text
  (digits? digits).filter (· < bound)

example : numeral? 100 ['+', '4', '2'] = some 42 := by decide

example : numeral? 100 ['+'] = none := by decide

example : numeral? 100 ['1', '0', '0'] = none := by decide

example : markedDigits? ['0', 'x', '1', 'F'] = some 31 := by decide

example : markedDigits? ['0', '1', '7'] = some 15 ∧ markedDigits? ['0', '8'] = none := by decide

end LineStore.Text
