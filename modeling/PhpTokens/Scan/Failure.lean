import PhpTokens.Scan.Lexeme
import PhpTokens.SourceText

/-!
What can go wrong: a file that cannot be read, and a text that cannot be divided into tokens. A
lexical error names the line and the column where the offending piece begins.
-/
namespace PhpTokens

/-- A fault in a text and the place where its piece begins. -/
structure ScanError where
  fault : Fault
  line : Nat
  column : Nat
  deriving DecidableEq, Repr

namespace ScanError

def message (e : ScanError) : String :=
  let place := "line " ++ toString e.line ++ ", column " ++ toString e.column
  match e.fault with
  | .strayCharacter c => "unexpected character " ++ Quoted.char c ++ " at " ++ place
  | .openString => "unterminated string literal starting at " ++ place
  | .openComment => "unterminated comment starting at " ++ place

end ScanError

/-- Why a source has no tokens. -/
inductive Failure where
  | unreadable (path : SystemText) (cause : ReadError)
  | lexical (error : ScanError)
  deriving DecidableEq, Repr

namespace Failure

def message : Failure → String
  | .unreadable path cause => "cannot read source file " ++ path.display ++ ": " ++ cause.message
  | .lexical error => error.message

/-- The line and column that the failure points at, if it is about a place in a text. -/
def location? : Failure → Option (Nat × Nat)
  | .unreadable _ _ => none
  | .lexical error => some (error.line, error.column)

end Failure
end PhpTokens
