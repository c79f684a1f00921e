import PhpTokens.Scan.Failure

/-!
The log of a run. Every event has a level, the part of the program it comes from and a text, and
a reader of the log sees the events up to a chosen level of detail.
-/
namespace PhpTokens

/-- Levels from the most to the least urgent. -/
inductive Level where
  | error | warn | info | debug | trace
  deriving DecidableEq, Repr

namespace Level

def rank : Level → Nat
  | .error => 0
  | .warn => 1
  | .info => 2
  | .debug => 3
  | .trace => 4

def label : Level → String
  | .error => "ERROR"
  | .warn => "WARN"
  | .info => "INFO"
  | .debug => "DEBUG"
  | .trace => "TRACE"

/-- The level asked for by repeating the option for more detail. -/
def ofVerbosity : Nat → Level
  | 0 => .warn
  | 1 => .info
  | 2 => .debug
  | _ => .trace

end Level

inductive Event where
  /-- The text of a file was read. -/
  | loaded (path : SystemText) (bytes : Nat)
  /-- A scanner was set up for a text. -/
  | created (rules : Rules) (bytes : Nat)
  /-- A token was found; the end of the text is not reported. -/
  | token (kind : Kind) (line column : Nat)
  /-- A string literal or comment that begins here runs to the end of the text. -/
  | openString (line column : Nat)
  | openComment (line column : Nat)
  | finished (tokens : Nat)
  | failed (error : ScanError)
  /-- A directory entry could not be looked at. -/
  | skipped (path : SystemText) (cause : ReadError)
  deriving DecidableEq, Repr

namespace Event

def level : Event → Level
  | .token .. => .trace
  | .openString .. | .openComment .. | .skipped .. => .warn
  | .loaded .. | .created .. | .finished .. | .failed .. => .debug

def target : Event → String
  | .loaded .. => "php_lexer::source"
  | .skipped .. => "scan_corpus"
  | _ => "php_lexer::lexer"

/-- The fields that give a place. -/
def placeFields (line column : Nat) : String :=
  "line=" ++ toString line ++ " column=" ++ toString column

def message : Event → String
  | .loaded path bytes => "loaded source path=" ++ path.display ++ " bytes=" ++ toString bytes
  | .created rules bytes =>
    "creating lexer config=" ++ rules.logText ++ " bytes=" ++ toString bytes
  | .token kind line column => "token kind=" ++ kind.label ++ " " ++ placeFields line column
  | .openString line column =>
    "unterminated string literal runs to end of input " ++ placeFields line column
  | .openComment line column => "comment runs to end of input " ++ placeFields line column
  | .finished tokens => "scan finished tokens=" ++ toString tokens
  | .failed error => "lexing failed error=" ++ error.message
  | .skipped path cause =>
    "skipping unreadable entry error=IO error for operation on " ++ path.display ++ ": " ++
      cause.message

/-- The event as a line of the log. -/
def toText (e : Event) : String := e.level.label ++ " " ++ e.target ++ ": " ++ e.message

/-- The lines of the log that are at least as urgent as the level asked for. -/
def lines (detail : Level) (events : List Event) : List String :=
  (events.filter fun e => e.level.rank ≤ detail.rank).map toText

end Event
end PhpTokens
