import PhpTokens.FileTree
import PhpTokens.Scan.Scanner

/-!
Scanning a corpus: every source file below a directory is divided into tokens, each on its own,
and a report counts the successes and names the failures. Files may be scanned in any order; the
report puts the failures into the order of their paths, name by name.
-/
namespace PhpTokens.Corpus
open FileTree (Found slash)

/-- The last name of a path. -/
def lastName (path : SystemText) : SystemText :=
  ⟨(path.bytes.reverse.takeWhile (· != slash)).reverse⟩

/-- A file is a source file if its name is something other than nothing before `.php`. -/
def isSource (path : SystemText) : Bool :=
  let name := lastName path
  let ending := SystemText.ofString ".php"
  ending.bytes.isSuffixOf name.bytes && ending.size < name.size

/-- The source files at and below the place that a path leads to. -/
def sources (path : SystemText) (tree : FileTree) : List Found :=
  ((tree.walk path []).filterMap Except.toOption).filter (isSource ·.path)

/-- The directories that cannot be opened because their paths are too long. -/
def unopened (path : SystemText) (tree : FileTree) : List SystemText :=
  (tree.walk path []).filterMap fun
    | .error directory => some directory
    | .ok _ => none

/-- What became of one file: the number of its tokens, or why it has none. -/
structure Verdict where
  path : SystemText
  names : List SystemText
  outcome : Except Failure Nat
  events : List Event

/-- Reads and scans one file. -/
def judge (files : Files) (rules : Rules) (file : Found) : Verdict :=
  match files file.path >>= SourceText.ofBytes file.path with
  | .error cause => ⟨file.path, file.names, .error (.unreadable file.path cause), []⟩
  | .ok source =>
    let scan := (Scanner.start rules source.text).drain
    { path := file.path
      names := file.names
      outcome :=
        match scan.outcome with
        | .ok tokens => .ok tokens.length
        | .error error => .error (.lexical error)
      events := [.loaded file.path source.size, .created rules source.size] ++ scan.events }

/-- A file that has no tokens. -/
structure FailedFile where
  path : SystemText
  names : List SystemText
  failure : Failure
  deriving DecidableEq, Repr

structure Report where
  found : Nat
  lexed : Nat
  tokens : Nat
  /-- In the order of the names on the way to the file. -/
  failed : List FailedFile
  deriving DecidableEq, Repr

namespace Verdict

def tokens? (v : Verdict) : Option Nat := v.outcome.toOption

def failed? (v : Verdict) : Option FailedFile :=
  match v.outcome with
  | .ok _ => none
  | .error failure => some ⟨v.path, v.names, failure⟩

end Verdict

namespace Report

def ofVerdicts (verdicts : List Verdict) : Report :=
  { found := verdicts.length
    lexed := (verdicts.filterMap Verdict.tokens?).length
    tokens := (verdicts.filterMap Verdict.tokens?).foldr (· + ·) 0
    failed := (verdicts.filterMap Verdict.failed?).mergeSort fun a b =>
      !List.lex b.names a.names SystemText.precedes }

/-- The report on a corpus named `directory`. -/
def toText (directory : SystemText) (r : Report) : String :=
  String.join
    (["Scanning directory: " ++ directory.display ++ "\n",
      "Found " ++ toString r.found ++ " PHP files\n"] ++
    (r.failed.map fun f => "FAIL " ++ f.path.display ++ ": " ++ f.failure.message ++ "\n") ++
    ["Lexed OK: " ++ toString r.lexed ++ "\n",
      "Failed: " ++ toString r.failed.length ++ "\n",
      "Tokens: " ++ toString r.tokens ++ "\n"])

end Report
end PhpTokens.Corpus
