import LineStore.Bytes
import LineStore.Text.Utf8

/-!
Flags on a command line.

A flag is given by its long name after two dashes or by one letter after one dash. Letters may be run
together. A value follows after an equals sign, directly after a letter, or as the next argument, which
then must not look like a flag. There are no other arguments. Arguments are read from left to right, and
the first one that asks for help, asks for the version, or is a fault decides.
-/

namespace LineStore.CommandLine

/-- A flag whose meaning is of type `α`. -/
structure Flag (α : Type) where
  long : String
  letter? : Option Char := none
  takesValue : Bool := false
  meaning : α

/-- What a program can be told. -/
inductive Meaning (α : Type) where
  | help
  | version
  | own (flag : α)

/-- One finding in the arguments. -/
inductive Finding (α : Type) where
  /-- A flag, with its value if it takes one. -/
  | given (meaning : Meaning α) (value? : Option Bytes)
  | fault

variable {α : Type}

def dash : UInt8 := 0x2D

def equals : UInt8 := 0x3D

/-- The flags that every program has, after its own. -/
def withCommonFlags (own : List (Flag α)) : List (Flag (Meaning α)) :=
  own.map (fun flag => { flag with meaning := .own flag.meaning }) ++
    [{ long := "help", letter? := some 'h', meaning := .help },
      { long := "version", letter? := some 'V', meaning := .version }]

/-- Whether an argument looks like flags. A single dash does not. -/
def looksLikeFlags (argument : Bytes) : Bool :=
  argument.head? = some dash && argument ≠ [dash]

/-- What is found in the letters after one dash, and the flag whose value is in the next argument, if
there is one. -/
def findLetters (flags : List (Flag (Meaning α))) : Bytes → List (Finding α) × Option (Meaning α)
  | [] => ([], none)
  | letter :: rest =>
    match flags.find? fun flag => flag.letter?.any fun c => c.toNat = letter.toNat with
    | none => ([.fault], none)
    | some flag =>
      if flag.takesValue then
        match rest with
        | [] => ([], some flag.meaning)
        | next :: value =>
          ([.given flag.meaning (some (if next = equals then value else rest))], none)
      else
        let (found, pending?) := findLetters flags rest
        (.given flag.meaning none :: found, pending?)

/-- What is found in a long name, perhaps with a value after an equals sign. -/
def findLong (flags : List (Flag (Meaning α))) (text : Bytes) :
    List (Finding α) × Option (Meaning α) :=
  let name := text.takeWhile (· ≠ equals)
  let value? := (text.dropWhile (· ≠ equals)).tail?
  match flags.find? fun flag => Utf8.encode flag.long = name with
  | none => ([.fault], none)
  | some flag =>
    match flag.takesValue, value? with
    | true, some value => ([.given flag.meaning (some value)], none)
    | true, none => ([], some flag.meaning)
    | false, some _ => ([.fault], none)
    | false, none => ([.given flag.meaning none], none)

/-- What is found in one argument that is no value. -/
def findIn (flags : List (Flag (Meaning α))) (argument : Bytes) :
    List (Finding α) × Option (Meaning α) :=
  if looksLikeFlags argument then
    match argument with
    | _ :: second :: rest =>
      if second = dash then findLong flags rest else findLetters flags (second :: rest)
    | _ => ([.fault], none)
  else ([.fault], none)

/-- What is found in the arguments, the first of which is the value of `pending?` if that is some flag.
Two dashes alone end the flags, so nothing may follow them. -/
def find (flags : List (Flag (Meaning α))) : Option (Meaning α) → List Bytes → List (Finding α)
  | some _, [] => [.fault]
  | none, [] => []
  | some meaning, argument :: rest =>
    if looksLikeFlags argument then [.fault]
    else .given meaning (some argument) :: find flags none rest
  | none, argument :: rest =>
    if argument = [dash, dash] then if rest.isEmpty then [] else [.fault]
    else
      let (found, pending?) := findIn flags argument
      found ++ find flags pending? rest

/-- How a command line is understood, with the flags gathered in a value of type `β`. -/
inductive Understanding (β : Type) where
  | help
  | version
  | misused
  | run (flags : β)

/-- Gathers findings. `add` adds a flag of the program, unless it was there before or its value is
malformed. -/
def gather {β : Type} (add : α → Option Bytes → β → Option β) :
    List (Finding α) → β → Understanding β
  | [], flags => .run flags
  | .fault :: _, _ => .misused
  | .given .help _ :: _, _ => .help
  | .given .version _ :: _, _ => .version
  | .given (.own flag) value? :: rest, flags =>
    match add flag value? flags with
    | some flags => gather add rest flags
    | none => .misused

def understand {β : Type} (own : List (Flag α)) (add : α → Option Bytes → β → Option β)
    (arguments : List Bytes) (flags : β) : Understanding β :=
  gather add (find (withCommonFlags own) none arguments) flags

/-- Fills in what was missing. It must have been missing. -/
def fill {γ : Type} (old? new? : Option γ) : Option (Option γ) :=
  match old?, new? with
  | none, some new => some (some new)
  | _, _ => none

def textOf? (value? : Option Bytes) : Option String :=
  value?.bind Utf8.decode?

end LineStore.CommandLine
