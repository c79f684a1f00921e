import PhpTokens.Scan.Event

/-!
What a command leaves behind. A command that is used wrongly prints nothing and has status 2, one
that fails has status 1, and one that fails for a single reason says so in a report of two parts:
what was being done, and what prevented it.
-/
namespace PhpTokens.CommandLine

structure Result where
  status : Nat
  output : String := ""
  report : String := ""
  log : List String := []
  deriving DecidableEq, Repr

namespace Result

def usageError : Result := { status := 2 }

end Result

/-- Text whose lines after the first are indented like the first. -/
def indentLines (s : String) : String :=
  String.ofList (s.toList.flatMap fun c => if c = '\n' then "\n    ".toList else [c])

/-- A report: the context of a failure, and its cause on an indented line. -/
def failureReport (context cause : String) : String :=
  "Error: " ++ context ++ "\n\nCaused by:\n    " ++ indentLines cause ++ "\n"

end PhpTokens.CommandLine
