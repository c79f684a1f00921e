import PhpTokens.Text.Utf8

/-!
Why and where reading a JSON text stops. A reader that fails knows the text it has not read; the
length of that text in bytes fixes the place of the failure in the whole. Refusals are sorted into
three: the text ends too soon, it is not JSON, or it is JSON of the wrong shape.
-/
namespace PhpTokens.JsonText

/-- What is wrong with a text. -/
inductive Cause where
  | endInList
  | endInObject
  | endInString
  | endInValue
  | expectedColon
  | expectedListEnd
  | expectedObjectEnd
  | expectedIdent
  | expectedValue
  | invalidEscape
  | invalidNumber
  | numberOutOfRange
  | controlCharacter
  | keyNotString
  | loneSurrogate
  | brokenPair
  | trailingComma
  | trailingText
  | wrongType (found expected : String)
  | unknownWord (found : String) (expected : List String)
  | duplicateField (name : String)
  deriving DecidableEq, Repr

namespace Cause

/-- A word between back quotes. -/
def mark (word : String) : String := "\x60" ++ word ++ "\x60"

def message : Cause → String
  | .endInList => "EOF while parsing a list"
  | .endInObject => "EOF while parsing an object"
  | .endInString => "EOF while parsing a string"
  | .endInValue => "EOF while parsing a value"
  | .expectedColon => "expected " ++ mark ":"
  | .expectedListEnd => "expected " ++ mark "," ++ " or " ++ mark "]"
  | .expectedObjectEnd => "expected " ++ mark "," ++ " or " ++ mark "\x7d"
  | .expectedIdent => "expected ident"
  | .expectedValue => "expected value"
  | .invalidEscape => "invalid escape"
  | .invalidNumber => "invalid number"
  | .numberOutOfRange => "number out of range"
  | .controlCharacter => "control character (\\u0000-\\u001F) found while parsing a string"
  | .keyNotString => "key must be a string"
  | .loneSurrogate => "lone leading surrogate in hex escape"
  | .brokenPair => "unexpected end of hex escape"
  | .trailingComma => "trailing comma"
  | .trailingText => "trailing characters"
  | .wrongType found expected => "invalid type: " ++ found ++ ", expected " ++ expected
  | .unknownWord found expected =>
    "unknown variant " ++ mark found ++ ", expected " ++ " or ".intercalate (expected.map mark)
  | .duplicateField name => "duplicate field " ++ mark name

end Cause

/-- A cause and the number of bytes that are left behind the place it is about. -/
structure Stop where
  cause : Cause
  left : Nat
  deriving DecidableEq, Repr

namespace Stop

/-- A failure before the text given. -/
def before (cause : Cause) (rest : List Char) : Stop := ⟨cause, Utf8.size rest⟩

/-- A failure about the first byte of the text given, or about its end if there is none. -/
def about (cause : Cause) (rest : List Char) : Stop := ⟨cause, Utf8.size rest - 1⟩

end Stop

/-- Readers in a row succeed only if each of them does. -/
theorem ok_of_bind {step : Except Stop α} {next : α → Except Stop β} {b : β}
    (h : (step >>= next) = .ok b) : ∃ a, step = .ok a ∧ next a = .ok b := by
  cases step with
  | error stop => cases h
  | ok a => exact ⟨a, rfl, h⟩

/-- A failure with its place: a line counted from one, and the bytes read on that line. -/
structure Refusal where
  cause : Cause
  line : Nat
  column : Nat
  deriving DecidableEq, Repr

namespace Refusal

def message (f : Refusal) : String :=
  f.cause.message ++ " at line " ++ toString f.line ++ " column " ++ toString f.column

/-- The line and column reached `bytes` further on from the place given. -/
def placeFrom (line column : Nat) : (bytes : Nat) → List Char → Nat × Nat
  | _, [] => (line, column)
  | bytes, c :: cs =>
    if bytes < c.utf8Size then (line, column + bytes)
    else if c = '\n' then placeFrom (line + 1) 0 (bytes - 1) cs
    else placeFrom line (column + c.utf8Size) (bytes - c.utf8Size) cs

def ofStop (text : List Char) (s : Stop) : Refusal :=
  let (line, column) := placeFrom 1 0 (Utf8.size text - s.left) text
  ⟨s.cause, line, column⟩

end Refusal
end PhpTokens.JsonText
