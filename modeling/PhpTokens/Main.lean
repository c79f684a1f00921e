import PhpTokens.CommandLine.Listing
import PhpTokens.CommandLine.Survey

/-!
The program. Its first argument names a command, `list` or `corpus`, and the rest are arguments of
that command. The files the command needs are read first; the command itself then works on what
was read. The log and the report go to standard error.
-/
namespace PhpTokens.Program
open CommandLine

/-- The system's number for an error, which may be handed on negated. -/
def systemNumber (code : UInt32) : UInt32 := if code < 0x80000000 then code else 0 - code

/-- What prevented a file from being read. -/
def readErrorOf (e : IO.Error) : ReadError :=
  match e with
  | .noFileOrDirectory _ _ _ => .notFound
  | .inappropriateType _ code _ =>
    if systemNumber code = 20 then .notDirectory else .isDirectory
  | .resourceExhausted _ code _ | .invalidArgument _ code _ =>
    if systemNumber code = 36 then .nameTooLong else .other (toString e)
  | _ => .other (toString e)

/-- The bytes of a file. The system is asked for it by characters, so the bytes of the path must be
the form of some. -/
def readFile (path : SystemText) : IO (Except ReadError ByteArray) := do
  try return .ok (← IO.FS.readBinFile path.display)
  catch e => return .error (readErrorOf e)

/-- Reads the files at these paths. -/
def readFiles (paths : List SystemText) : IO Files := do
  let contents ← paths.mapM fun path => return (path, ← readFile path)
  return fun path => (contents.lookup path).getD (.error .notFound)

/-- The entry with all that is below it. Links and devices are left out, and so are the bytes of
files, which are read later. -/
partial def loadEntry (entry : IO.FS.DirEntry) : IO (Option (SystemText × FileTree)) := do
  let name := SystemText.ofString entry.fileName
  match (← entry.path.symlinkMetadata).type with
  | .file => return some (name, .file .empty)
  | .dir =>
    let entries ← (← entry.path.readDir).toList.filterMapM loadEntry
    return some (name, .directory entries)
  | _ => return none

/-- What a path leads to. -/
def loadTree (path : SystemText) : IO (Except ReadError FileTree) := do
  try
    let place ← IO.FS.realPath path.display
    if ← place.isDir then
      return .ok (.directory (← (← place.readDir).toList.filterMapM loadEntry))
    else return .ok (.file .empty)
  catch e => return .error (readErrorOf e)

def list (arguments : List SystemText) : IO Result := do
  match ListingOptions.ofArguments? arguments with
  | none => return .usageError
  | some options => return Listing.runWith (← readFiles options.paths) options

def corpus (arguments : List SystemText) : IO Result := do
  match SurveyOptions.ofArguments? arguments with
  | none => return .usageError
  | some options =>
    let tree ← loadTree options.directory
    let found :=
      match tree with
      | .error _ => []
      | .ok tree => Corpus.sources options.directory tree
    return Survey.runWith options tree (← readFiles (found.map (·.path)))

/-- Writes what a command leaves behind and gives its status. -/
def finish (r : Result) : IO UInt32 := do
  for line in r.log do IO.eprintln line
  IO.print r.output
  IO.eprint r.report
  return r.status.toUInt32

end PhpTokens.Program

def main (arguments : List String) : IO UInt32 := do
  match arguments with
  | "list" :: rest =>
    PhpTokens.Program.finish (← PhpTokens.Program.list (rest.map .ofString))
  | "corpus" :: rest =>
    PhpTokens.Program.finish (← PhpTokens.Program.corpus (rest.map .ofString))
  | _ => PhpTokens.Program.finish .usageError
