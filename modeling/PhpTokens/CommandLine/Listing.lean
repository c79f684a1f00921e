import PhpTokens.CommandLine.Options
import PhpTokens.CommandLine.Result
import PhpTokens.FileTree
import PhpTokens.Rules.OfJson
import PhpTokens.Scan.Scanner

/-!
The command that lists the tokens of one file, as lines of text or as JSON. It prints all tokens
or none: if the file or its configuration cannot be read, or the text has no tokens, there is only
a report.
-/
namespace PhpTokens.CommandLine

/-- The forms in which tokens are listed. -/
inductive ListingForm where
  | plain
  /-- With positions. -/
  | located
  | json
  deriving DecidableEq, Repr

/-- Where the rules come from. -/
inductive RulesOrigin where
  | standard
  | legacy
  | file (path : SystemText)
  deriving DecidableEq, Repr

structure ListingOptions where
  file : SystemText
  form : ListingForm
  rules : RulesOrigin
  lenient : Bool
  verbosity : Nat
  deriving DecidableEq, Repr

namespace ListingOptions

def forms : List OptionForm :=
  [⟨"json", .flag, none⟩, ⟨"positions", .flag, none⟩, ⟨"legacy", .flag, none⟩,
    ⟨"lenient", .flag, none⟩, ⟨"config", .value, none⟩, ⟨"verbose", .counter, some 'v'⟩]

/-- The options that arguments ask for. The legacy rules and a configuration file exclude each
other; JSON has positions in any case. -/
def ofArguments? (arguments : List SystemText) : Option ListingOptions := do
  let a ← parse? forms arguments
  let file ← a.operand?
  let rules ← match a.value? "config", a.has "legacy" with
    | none, false => some .standard
    | none, true => some .legacy
    | some path, false => some (.file path)
    | some _, true => none
  return {
    file
    form := if a.has "json" then .json else if a.has "positions" then .located else .plain
    rules
    lenient := a.has "lenient"
    verbosity := a.count "verbose" }

/-- The files that the command reads. -/
def paths (options : ListingOptions) : List SystemText :=
  match options.rules with
  | .file path => [path, options.file]
  | _ => [options.file]

end ListingOptions

/-- Why a listing fails. -/
inductive ListingFailure where
  | readingConfig (path : SystemText) (cause : ReadError)
  | parsingConfig (path : SystemText) (cause : JsonText.Refusal)
  | source (path : SystemText) (cause : ReadError)
  | lexing (path : SystemText) (cause : ScanError)

namespace ListingFailure

def context : ListingFailure → String
  | .readingConfig path _ => "reading config " ++ path.display
  | .parsingConfig path _ => "parsing config " ++ path.display
  | .source path cause => (Failure.unreadable path cause).message
  | .lexing path _ => "lexing " ++ path.display

def cause : ListingFailure → String
  | .readingConfig _ cause => cause.message
  | .parsingConfig _ cause => cause.message
  | .source _ cause => cause.message
  | .lexing _ cause => cause.message

def report (f : ListingFailure) : String := failureReport f.context f.cause

end ListingFailure

namespace Listing

def loadRules (files : Files) : RulesOrigin → Except ListingFailure Rules
  | .standard => .ok {}
  | .legacy => .ok .legacy
  | .file path =>
    match files path >>= SourceText.decode with
    | .error cause => .error (.readingConfig path cause)
    | .ok text =>
      match Rules.ofJson text with
      | .error cause => .error (.parsingConfig path cause)
      | .ok rules => .ok rules

/-- The rules that the options ask for. -/
def rules (files : Files) (options : ListingOptions) : Except ListingFailure Rules :=
  (loadRules files options.rules).map fun r => if options.lenient then r.lenient else r

/-- The listing of tokens in a form. -/
def write (form : ListingForm) (tokens : List Token) : String :=
  match form with
  | .plain => String.join (tokens.map fun t => t.toText ++ "\n")
  | .located => String.join (tokens.map fun t => t.toLocatedText ++ "\n")
  | .json => (Json.array (tokens.map Token.toJson)).pretty 0 ++ "\n"

/-- The tokens of a file, and what was logged on the way. -/
def scan (files : Files) (options : ListingOptions) :
    Except ListingFailure (List Token) × List Event :=
  match rules files options with
  | .error failure => (.error failure, [])
  | .ok rules =>
    match files options.file >>= SourceText.ofBytes options.file with
    | .error cause => (.error (.source options.file cause), [])
    | .ok source =>
      let scan := (Scanner.start rules source.text).drain
      (scan.outcome.mapError (.lexing options.file),
        [.loaded options.file source.size, .created rules source.size] ++ scan.events)

def runWith (files : Files) (options : ListingOptions) : Result :=
  let (outcome, events) := scan files options
  let log := Event.lines (.ofVerbosity options.verbosity) events
  match outcome with
  | .ok tokens => { status := 0, output := write options.form tokens, log }
  | .error failure => { status := 1, report := failure.report, log }

/-- Runs the command on its arguments. -/
def run (files : Files) (arguments : List SystemText) : Result :=
  match ListingOptions.ofArguments? arguments with
  | none => .usageError
  | some options => runWith files options

end Listing
end PhpTokens.CommandLine
