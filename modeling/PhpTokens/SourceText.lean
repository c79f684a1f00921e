import PhpTokens.Text.Place
import PhpTokens.Text.SystemText
import PhpTokens.Text.Utf8

/-!
Source texts, each with the path it was read from if it was read from a file. Characters and parts
of a text can be had by byte offset; an offset inside a character names nothing.
-/
namespace PhpTokens

/-- Why the text of a file cannot be had. -/
inductive ReadError where
  | notFound
  | notDirectory
  | isDirectory
  | nameTooLong
  | invalidUtf8
  | nulInName
  | other (reason : String)
  deriving DecidableEq, Repr

def ReadError.message : ReadError → String
  | .notFound => "No such file or directory (os error 2)"
  | .notDirectory => "Not a directory (os error 20)"
  | .isDirectory => "Is a directory (os error 21)"
  | .nameTooLong => "File name too long (os error 36)"
  | .invalidUtf8 => "stream did not contain valid UTF-8"
  | .nulInName => "file name contained an unexpected NUL byte"
  | .other reason => reason

/-- A text to be divided into tokens. -/
structure SourceText where
  text : String
  path : Option SystemText := none
  deriving DecidableEq, Repr

namespace SourceText

/-- The text that the bytes of a file encode. -/
def decode (content : ByteArray) : Except ReadError String :=
  match String.fromUTF8? content with
  | some text => .ok text
  | none => .error .invalidUtf8

/-- The source read from the path given, whose bytes are these. -/
def ofBytes (path : SystemText) (content : ByteArray) : Except ReadError SourceText :=
  (decode content).map fun text => { text, path := some path }

/-- The number of bytes. -/
def size (s : SourceText) : Nat := Utf8.size s.text.toList

def isEmpty (s : SourceText) : Bool := s.text.isEmpty

/-- The text from a byte offset on. -/
def dropBytes? (offset : Nat) (cs : List Char) : Option (List Char) :=
  (Utf8.charsIn? offset cs).map cs.drop

/-- The text of an extent, if both its ends are edges of characters in order. -/
def partOf? (extent : Extent) (cs : List Char) : Option (List Char) := do
  let rest ← dropBytes? extent.start cs
  guard (extent.start ≤ extent.stop)
  let count ← Utf8.charsIn? (extent.stop - extent.start) rest
  return rest.take count

/-- The character that begins at a byte offset. -/
def char? (s : SourceText) (offset : Nat) : Option Char :=
  (dropBytes? offset s.text.toList).bind List.head?

/-- The text of an extent. -/
def part? (s : SourceText) (extent : Extent) : Option String :=
  (partOf? extent s.text.toList).map String.ofList

end SourceText
end PhpTokens
