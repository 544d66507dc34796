/-!
How a program reports that it failed: what it was about, and what was behind that.
-/

namespace LineStore.CommandLine

/-- The lines of a cause: the first one after its number if there are several causes, the others in line
with it. -/
def causeText (number? : Option Nat) (cause : String) : String :=
  let indent := match number? with
    | some _ => "       "
    | none => "    "
  let first := match number? with
    | some number =>
      let digits := toString number
      String.ofList (List.replicate (5 - digits.length) ' ') ++ digits ++ ": "
    | none => indent
  first ++ ("\n" ++ indent).intercalate (cause.splitOn "\n")

/-- The report of a failure and its causes, outermost first. -/
def report (message : String) (causes : List String) : String :=
  let listed := match causes with
    | [] => []
    | [cause] => [causeText none cause]
    | _ => causes.zipIdx.map fun numbered => causeText (some numbered.2) numbered.1
  let section? := if listed.isEmpty then "" else "\n\nCaused by:\n" ++ "\n".intercalate listed
  s!"Error: {message}{section?}\n"

/-- The report of a failure and what is behind it, outermost first. -/
def reportChain : List String → String
  | [] => report "" []
  | message :: causes => report message causes

end LineStore.CommandLine
