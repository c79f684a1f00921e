/-!
The reserved words. All are written in lower case except `null`, which any mixture of cases
spells. No reserved word begins another, so at most one stands at the front of a text.
-/
namespace PhpTokens

inductive Keyword where
  | namespaceWord | classWord | extendsWord | implementsWord
  | publicWord | protectedWord | privateWord
  | newWord | nullWord | trueWord
  deriving DecidableEq, Repr

namespace Keyword

def all : List Keyword :=
  [.namespaceWord, .classWord, .extendsWord, .implementsWord, .publicWord, .protectedWord,
    .privateWord, .newWord, .nullWord, .trueWord]

/-- The word in lower case. -/
def spelling : Keyword → List Char
  | .namespaceWord => ['n', 'a', 'm', 'e', 's', 'p', 'a', 'c', 'e']
  | .classWord => ['c', 'l', 'a', 's', 's']
  | .extendsWord => ['e', 'x', 't', 'e', 'n', 'd', 's']
  | .implementsWord => ['i', 'm', 'p', 'l', 'e', 'm', 'e', 'n', 't', 's']
  | .publicWord => ['p', 'u', 'b', 'l', 'i', 'c']
  | .protectedWord => ['p', 'r', 'o', 't', 'e', 'c', 't', 'e', 'd']
  | .privateWord => ['p', 'r', 'i', 'v', 'a', 't', 'e']
  | .newWord => ['n', 'e', 'w']
  | .nullWord => ['n', 'u', 'l', 'l']
  | .trueWord => ['t', 'r', 'u', 'e']

/-- The name of the keyword's kind of token. -/
def label : Keyword → String
  | .namespaceWord => "Namespace"
  | .classWord => "Class"
  | .extendsWord => "Extends"
  | .implementsWord => "Implements"
  | .publicWord => "Public"
  | .protectedWord => "Protected"
  | .privateWord => "Private"
  | .newWord => "New"
  | .nullWord => "Null"
  | .trueWord => "True"

/-- A text spells the keyword. Only ASCII letters have two cases here. -/
def spelledBy (k : Keyword) (text : List Char) : Bool :=
  match k with
  | .nullWord => text.map Char.toLower == k.spelling
  | _ => text == k.spelling

/-- The keyword at the front of a text, whatever follows it, when the keywords are tried in the
order of `order`. -/
def leadingIn? (order : List Keyword) (text : List Char) : Option Keyword :=
  order.find? fun k => k.spelledBy (text.take k.spelling.length)

/-- The keyword at the front of a text. -/
def leading? (text : List Char) : Option Keyword := leadingIn? all text

/-- The keyword that is the whole of a word. -/
def ofWord? : List Char → Option Keyword
  | ['n', 'a', 'm', 'e', 's', 'p', 'a', 'c', 'e'] => some .namespaceWord
  | ['c', 'l', 'a', 's', 's'] => some .classWord
  | ['e', 'x', 't', 'e', 'n', 'd', 's'] => some .extendsWord
  | ['i', 'm', 'p', 'l', 'e', 'm', 'e', 'n', 't', 's'] => some .implementsWord
  | ['p', 'u', 'b', 'l', 'i', 'c'] => some .publicWord
  | ['p', 'r', 'o', 't', 'e', 'c', 't', 'e', 'd'] => some .protectedWord
  | ['p', 'r', 'i', 'v', 'a', 't', 'e'] => some .privateWord
  | ['n', 'e', 'w'] => some .newWord
  | ['t', 'r', 'u', 'e'] => some .trueWord
  | word => if word.map Char.toLower = ['n', 'u', 'l', 'l'] then some .nullWord else none

end Keyword
end PhpTokens
