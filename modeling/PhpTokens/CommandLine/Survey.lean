import PhpTokens.CommandLine.Options
import PhpTokens.CommandLine.Result
import PhpTokens.Corpus

/-!
The command that scans a corpus and prints the report. A directory that is not there has no files,
which is worth a warning and no failure; the command fails if a file does.
-/
namespace PhpTokens.CommandLine

structure SurveyOptions where
  directory : SystemText
  legacy : Bool
  lenient : Bool
  verbosity : Nat
  deriving DecidableEq, Repr

namespace SurveyOptions

def forms : List OptionForm :=
  [⟨"legacy", .flag, none⟩, ⟨"lenient", .flag, none⟩, ⟨"verbose", .counter, some 'v'⟩]

def ofArguments? (arguments : List SystemText) : Option SurveyOptions := do
  let a ← parse? forms arguments
  return {
    directory := ← a.operand?
    legacy := a.has "legacy"
    lenient := a.has "lenient"
    verbosity := a.count "verbose" }

def rules (options : SurveyOptions) : Rules :=
  let r : Rules := if options.legacy then .legacy else {}
  if options.lenient then r.lenient else r

end SurveyOptions

namespace Survey

/-- The report on the corpus that `tree` holds, and what was logged on the way. -/
def scan (options : SurveyOptions) (tree : Except ReadError FileTree) (files : Files) :
    Corpus.Report × List Event :=
  match tree with
  | .error cause => (.ofVerdicts [], [.skipped options.directory cause])
  | .ok tree =>
    let unopened := Corpus.unopened options.directory tree
    let verdicts := (Corpus.sources options.directory tree).map (Corpus.judge files options.rules)
    (.ofVerdicts verdicts,
      unopened.map (.skipped · .nameTooLong) ++ verdicts.flatMap (·.events))

def runWith (options : SurveyOptions) (tree : Except ReadError FileTree) (files : Files) :
    Result :=
  let (report, events) := scan options tree files
  { status := if report.failed.isEmpty then 0 else 1
    output := report.toText options.directory
    log := Event.lines (.ofVerbosity options.verbosity) events }

/-- Runs the command on its arguments, where `find` looks up a path. -/
def run (find : SystemText → Except ReadError FileTree) (files : Files)
    (arguments : List SystemText) : Result :=
  match SurveyOptions.ofArguments? arguments with
  | none => .usageError
  | some options => runWith options (find options.directory) files

end Survey
end PhpTokens.CommandLine
