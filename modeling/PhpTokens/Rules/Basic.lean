/-!
The rules of a scan. Four choices are open, each between two rules, and the first rule of each
pair is the default. The legacy rules are the second ones throughout: they keep the positions and
the keyword cuts that older tools rely on.
-/
namespace PhpTokens

/-- How reserved words are told from identifiers. -/
inductive KeywordRule where
  /-- A word is read to its end and then looked up: `classify` is an identifier. -/
  | wholeWord
  /-- A reserved word is cut off wherever a word begins with one: `classify` is `class`, then
  `ify`. -/
  | leading
  deriving DecidableEq, Repr

/-- When a line break begins a new line. -/
inductive NewlineRule where
  /-- When the break has been passed. -/
  | whenPassed
  /-- When the reader comes to stand before the break, which is then the first column of the
  new line. -/
  | whenNext
  deriving DecidableEq, Repr

/-- The place that a token reports. -/
inductive Anchor where
  /-- Where its text begins. -/
  | start
  /-- Where the reader stands after it. -/
  | finish
  deriving DecidableEq, Repr

/-- What becomes of a string literal or a comment that the text ends before. -/
inductive OpenEndRule where
  /-- It is an error. -/
  | strict
  /-- The rest of the text belongs to it. -/
  | lenient
  deriving DecidableEq, Repr

/-- One rule for each choice. -/
structure Rules where
  keywords : KeywordRule := .wholeWord
  newlines : NewlineRule := .whenPassed
  anchor : Anchor := .start
  unterminated : OpenEndRule := .strict
  deriving DecidableEq, Repr, Inhabited

namespace Rules

def legacy : Rules := ⟨.leading, .whenNext, .finish, .lenient⟩

/-- The same rules, but open literals and comments are accepted. -/
def lenient (r : Rules) : Rules := { r with unterminated := .lenient }

/-- The four choices by name. -/
inductive Field where
  | keywords | newlines | anchor | unterminated
  deriving DecidableEq, Repr

/-- A choice together with the rule taken for it. -/
inductive Setting where
  | keywords (rule : KeywordRule)
  | newlines (rule : NewlineRule)
  | anchor (rule : Anchor)
  | unterminated (rule : OpenEndRule)
  deriving DecidableEq, Repr

/-- The choices in the order in which they are written. -/
def Field.all : List Field := [.keywords, .newlines, .anchor, .unterminated]

def Field.name : Field → String
  | .keywords => "keywords"
  | .newlines => "newlines"
  | .anchor => "anchor"
  | .unterminated => "unterminated"

/-- The two settings of a choice, the default first. -/
def Field.settings : Field → List Setting
  | .keywords => [.keywords .wholeWord, .keywords .leading]
  | .newlines => [.newlines .whenPassed, .newlines .whenNext]
  | .anchor => [.anchor .start, .anchor .finish]
  | .unterminated => [.unterminated .strict, .unterminated .lenient]

def Field.ofName? (name : String) : Option Field := Field.all.find? (·.name == name)

/-- The word for a setting in configuration files. -/
def Setting.word : Setting → String
  | .keywords .wholeWord => "whole_word"
  | .keywords .leading => "prefix"
  | .newlines .whenPassed => "on_consume"
  | .newlines .whenNext => "lookahead"
  | .anchor .start => "start"
  | .anchor .finish => "end"
  | .unterminated .strict => "strict"
  | .unterminated .lenient => "lenient"

/-- The word for a setting in the log. -/
def Setting.logWord : Setting → String
  | .keywords .wholeWord => "WholeWord"
  | .keywords .leading => "Prefix"
  | .newlines .whenPassed => "OnConsume"
  | .newlines .whenNext => "Lookahead"
  | .anchor .start => "Start"
  | .anchor .finish => "End"
  | .unterminated .strict => "Strict"
  | .unterminated .lenient => "Lenient"

def Field.ofWord? (field : Field) (word : String) : Option Setting :=
  field.settings.find? (·.word == word)

/-- The setting of one choice. -/
def setting (r : Rules) : Field → Setting
  | .keywords => .keywords r.keywords
  | .newlines => .newlines r.newlines
  | .anchor => .anchor r.anchor
  | .unterminated => .unterminated r.unterminated

/-- The rules with one choice set. -/
def set (r : Rules) : Setting → Rules
  | .keywords rule => { r with keywords := rule }
  | .newlines rule => { r with newlines := rule }
  | .anchor rule => { r with anchor := rule }
  | .unterminated rule => { r with unterminated := rule }

/-- The rules as they stand in the log. -/
def logText (r : Rules) : String :=
  let part (f : Field) := f.name ++ ": " ++ (r.setting f).logWord
  "LexerConfig \x7b " ++ ", ".intercalate (Field.all.map part) ++ " \x7d"

end Rules
end PhpTokens
