/-!
Operators and punctuation, each with its one spelling. Where one spelling begins another the
longer one wins, so the table is searched from the longest spelling down.
-/
namespace PhpTokens

inductive Symbol where
  | identical | openTag
  | doubleColon
  | minusAssign | arrow | decrement | minusLess | minusColon
  | logicalAnd | logicalOr
  | plusAssign | equal | notEqual
  | openBrace | closeBrace | openParen | closeParen
  | semicolon | backslash | comma | dot | colon
  | minus | plus | ampersand | pipe | assign | bang
  deriving DecidableEq, Repr

namespace Symbol

/-- All symbols, longer spellings before shorter ones. -/
def all : List Symbol :=
  [.openTag, .identical,
    .doubleColon, .minusAssign, .arrow, .decrement, .minusLess, .minusColon, .logicalAnd,
    .logicalOr, .plusAssign, .equal, .notEqual,
    .openBrace, .closeBrace, .openParen, .closeParen, .semicolon, .backslash, .comma, .dot,
    .colon, .minus, .plus, .ampersand, .pipe, .assign, .bang]

def spelling : Symbol → List Char
  | .openTag => ['<', '?', 'p', 'h', 'p']
  | .identical => ['=', '=', '=']
  | .doubleColon => [':', ':']
  | .minusAssign => ['-', '=']
  | .arrow => ['-', '>']
  | .decrement => ['-', '-']
  | .minusLess => ['-', '<']
  | .minusColon => ['-', ':']
  | .logicalAnd => ['&', '&']
  | .logicalOr => ['|', '|']
  | .plusAssign => ['+', '=']
  | .equal => ['=', '=']
  | .notEqual => ['!', '=']
  | .openBrace => ['\x7b']
  | .closeBrace => ['\x7d']
  | .openParen => ['(']
  | .closeParen => [')']
  | .semicolon => [';']
  | .backslash => ['\\']
  | .comma => [',']
  | .dot => ['.']
  | .colon => [':']
  | .minus => ['-']
  | .plus => ['+']
  | .ampersand => ['&']
  | .pipe => ['|']
  | .assign => ['=']
  | .bang => ['!']

/-- The name of the symbol's kind of token. -/
def label : Symbol → String
  | .openTag => "OpenTag"
  | .identical => "EqEqEq"
  | .doubleColon => "DoubleColon"
  | .minusAssign => "MinusEq"
  | .arrow => "Arrow"
  | .decrement => "Dec"
  | .minusLess => "MinusLt"
  | .minusColon => "MinusColon"
  | .logicalAnd => "AmpersandAmpersand"
  | .logicalOr => "PipePipe"
  | .plusAssign => "PlusEq"
  | .equal => "EqEq"
  | .notEqual => "BangEq"
  | .openBrace => "OpenBrace"
  | .closeBrace => "CloseBrace"
  | .openParen => "OpenParen"
  | .closeParen => "CloseParen"
  | .semicolon => "SemiColon"
  | .backslash => "NsSeparator"
  | .comma => "Comma"
  | .dot => "Dot"
  | .colon => "Colon"
  | .minus => "Minus"
  | .plus => "Plus"
  | .ampersand => "Ampersand"
  | .pipe => "Pipe"
  | .assign => "Eq"
  | .bang => "Bang"

/-- The symbol with the longest spelling that a text begins with. -/
def leading? (text : List Char) : Option Symbol := all.find? (·.spelling.isPrefixOf text)

end Symbol
end PhpTokens
