import PhpTokens.Unicode.Alphabetic
import PhpTokens.Unicode.Numeric
import PhpTokens.Unicode.WhiteSpace

/-!
The classes of characters that decide how source text is divided. They follow the properties of
the character and not its alphabet, so `é` is a letter and the no-break space is blank. A
character may be in several classes: Roman numerals are digits and letters.
-/
namespace PhpTokens.CharClass

/-- Separates tokens and is part of none. -/
def isBlank (c : Char) : Bool := CodeSet.whiteSpace.contains c

/-- Any number sign, not only the ten digits. -/
def isNumeral (c : Char) : Bool := CodeSet.numeric.contains c

def isLetter (c : Char) : Bool := CodeSet.alphabetic.contains c

/-- May continue a word: a letter, a digit or the underscore. -/
def isWordPart (c : Char) : Bool := isLetter c || isNumeral c || c == '_'

/-- Opens and closes string literals. -/
def isQuoteMark (c : Char) : Bool := c == '"'

/-- Opens comments. -/
def isCommentMark (c : Char) : Bool := c == '#'

end PhpTokens.CharClass
