import PhpTokens.Json
import PhpTokens.Text.Place
import PhpTokens.Text.Quoted
import PhpTokens.Token.Keyword
import PhpTokens.Token.Symbol

/-!
Tokens: the pieces that a source text is divided into, with their kind, their exact text and
their place. They are printed as lines of text or as JSON, and from either form a reader can
tell every part of the token that the form shows.
-/
namespace PhpTokens

/-- What a token is. -/
inductive Kind where
  | keyword (word : Keyword)
  | identifier
  | number
  | stringLiteral
  | variableName
  | comment
  | symbol (s : Symbol)
  /-- The end of the source text, which is reported as a token without text. -/
  | endOfInput
  deriving DecidableEq, Repr

namespace Kind

/-- The stable name of a kind in all output. -/
def label : Kind → String
  | .keyword word => word.label
  | .identifier => "Identifier"
  | .number => "LNumber"
  | .stringLiteral => "StringLiteral"
  | .variableName => "Variable"
  | .comment => "Comment"
  | .symbol s => s.label
  | .endOfInput => "Eof"

def isReserved : Kind → Bool
  | .keyword _ => true
  | _ => false

def all : List Kind :=
  Keyword.all.map .keyword ++
    [.identifier, .number, .stringLiteral, .variableName, .comment, .endOfInput] ++
    Symbol.all.map .symbol

def ofLabel? (label : String) : Option Kind := all.find? (·.label == label)

end Kind

structure Token where
  kind : Kind
  text : String
  place : Place
  extent : Extent
  deriving DecidableEq, Repr

namespace Token

/-- The kind and the quoted text. -/
def toText (t : Token) : String := t.kind.label ++ ": " ++ Quoted.text t.text

/-- The kind, the quoted text and the place. -/
def toLocatedText (t : Token) : String := t.toText ++ " @ " ++ t.place.toText

def toJson (t : Token) : Json :=
  .object
    [("kind", .string t.kind.label),
      ("text", .string t.text),
      ("position", .object
        [("line", .number t.place.line),
          ("column", .number t.place.column),
          ("length", .number t.place.length)]),
      ("span", .object [("start", .number t.extent.start), ("end", .number t.extent.stop)])]

end Token
end PhpTokens
