/-! JSON texts and the values they are texts of. Blanks may stand around every value, name and mark,
a character of a string may be written as it is or escaped, in one unit or as a surrogate pair, and
the members of an object have any names, also the same ones. A number is kept as it is written. -/

namespace PhpTokens.JsonText

/-- A value that a JSON text has, with the members of objects in the order of the text. -/
inductive Datum where
  | null
  | bool (b : Bool)
  | number (numeral : List Char)
  | string (s : String)
  | array (items : List Datum)
  | object (members : List (String × Datum))

def IsBlanks (cs : List Char) : Prop := ∀ c ∈ cs, c ∈ [' ', '\t', '\n', '\r']

instance (cs : List Char) : Decidable (IsBlanks cs) := List.decidableBAll _ cs

section Strings

/-- A hexadecimal digit of either case. -/
def IsHexDigit (n : Nat) (c : Char) : Prop := n < 16 ∧ (c = n.digitChar ∨ c = n.digitChar.toUpper)

/-- Four hexadecimal digits and the number they make. -/
inductive CodeUnit : Nat → List Char → Prop where
  | digits {k l m n : Nat} {a b c d : Char} (ha : IsHexDigit k a) (hb : IsHexDigit l b)
      (hc : IsHexDigit m c) (hd : IsHexDigit n d) :
      CodeUnit (((k * 16 + l) * 16 + m) * 16 + n) [a, b, c, d]

/-- The characters with a short escape, and what stands behind the backslash. -/
def shortEscapes : List (Char × Char) :=
  [('"', '"'), ('\\', '\\'), ('/', '/'), ('\x08', 'b'), ('\x0c', 'f'), ('\n', 'n'), ('\r', 'r'),
    ('\t', 't')]

/-- What may stand behind a backslash for a character. -/
inductive Escape : Char → List Char → Prop where
  | short {c l : Char} (h : (c, l) ∈ shortEscapes) : Escape c [l]
  | unit {c : Char} {digits : List Char} (h : CodeUnit c.toNat digits) : Escape c ('u' :: digits)
  | pair {c : Char} {leading trailing : Nat} {front back : List Char}
      (hleading : 0xd800 ≤ leading ∧ leading ≤ 0xdbff)
      (htrailing : 0xdc00 ≤ trailing ∧ trailing ≤ 0xdfff)
      (hc : c.toNat = 0x10000 + (leading - 0xd800) * 0x400 + (trailing - 0xdc00))
      (hfront : CodeUnit leading front) (hback : CodeUnit trailing back) :
      Escape c ('u' :: (front ++ '\\' :: 'u' :: back))

/-- How a character may be written in a string. -/
inductive SpellsChar : Char → List Char → Prop where
  | plain {c : Char} (hcontrol : 0x20 ≤ c.toNat) (hquote : c ≠ '"') (hbackslash : c ≠ '\\') :
      SpellsChar c [c]
  | escape {c : Char} {cs : List Char} (h : Escape c cs) : SpellsChar c ('\\' :: cs)

/-- How the characters of a string may be written between its quotes. -/
inductive Spells : List Char → List Char → Prop where
  | nil : Spells [] []
  | cons {c : Char} {piece cs body : List Char} (hc : SpellsChar c piece) (hcs : Spells cs body) :
      Spells (c :: cs) (piece ++ body)

end Strings

section Numbers

def IsDigits (cs : List Char) : Prop := ∀ c ∈ cs, c.isDigit = true

inductive IsInteger : List Char → Prop where
  | zero : IsInteger ['0']
  | other {c : Char} {cs : List Char} (hc : c.isDigit = true) (hzero : c ≠ '0') (hcs : IsDigits cs) :
      IsInteger (c :: cs)

inductive IsFraction : List Char → Prop where
  | none : IsFraction []
  | digits {cs : List Char} (hne : cs ≠ []) (hcs : IsDigits cs) : IsFraction ('.' :: cs)

inductive IsExponent : List Char → Prop where
  | none : IsExponent []
  | digits {letter : Char} {sign cs : List Char} (hletter : letter ∈ ['e', 'E'])
      (hsign : sign ∈ [[], ['+'], ['-']]) (hne : cs ≠ []) (hcs : IsDigits cs) :
      IsExponent (letter :: (sign ++ cs))

inductive IsNumeral : List Char → Prop where
  | mk {sign integer fraction exponent : List Char} (hsign : sign ∈ [[], ['-']])
      (hinteger : IsInteger integer) (hfraction : IsFraction fraction)
      (hexponent : IsExponent exponent) :
      IsNumeral (sign ++ (integer ++ (fraction ++ exponent)))

end Numbers

mutual

/-- A value without blanks around it. -/
inductive Text : Datum → List Char → Prop where
  | null : Text .null ['n', 'u', 'l', 'l']
  | true : Text (.bool Bool.true) ['t', 'r', 'u', 'e']
  | false : Text (.bool Bool.false) ['f', 'a', 'l', 's', 'e']
  | number {numeral : List Char} (h : IsNumeral numeral) : Text (.number numeral) numeral
  | string {s : String} {body : List Char} (h : Spells s.toList body) :
      Text (.string s) ('"' :: (body ++ ['"']))
  | emptyArray {cs : List Char} (h : IsBlanks cs) : Text (.array []) ('[' :: (cs ++ [']']))
  | array {items : List Datum} {cs : List Char} (h : Items items cs) :
      Text (.array items) ('[' :: (cs ++ [']']))
  | emptyObject {cs : List Char} (h : IsBlanks cs) :
      Text (.object []) ('\x7b' :: (cs ++ ['\x7d']))
  | object {members : List (String × Datum)} {cs : List Char} (h : Members members cs) :
      Text (.object members) ('\x7b' :: (cs ++ ['\x7d']))

/-- A value with blanks around it. -/
inductive Padded : Datum → List Char → Prop where
  | mk {d : Datum} {front cs back : List Char} (hfront : IsBlanks front) (h : Text d cs)
      (hback : IsBlanks back) : Padded d (front ++ (cs ++ back))

/-- One item or more, with commas between them. -/
inductive Items : List Datum → List Char → Prop where
  | one {d : Datum} {cs : List Char} (h : Padded d cs) : Items [d] cs
  | more {d : Datum} {ds : List Datum} {cs rest : List Char} (h : Padded d cs)
      (hrest : Items ds rest) : Items (d :: ds) (cs ++ ',' :: rest)

/-- A name with blanks around it, and a value. -/
inductive Member : String × Datum → List Char → Prop where
  | mk {name : String} {d : Datum} {front body back cs : List Char} (hfront : IsBlanks front)
      (hname : Spells name.toList body) (hback : IsBlanks back) (h : Padded d cs) :
      Member (name, d) (front ++ '"' :: (body ++ '"' :: (back ++ ':' :: cs)))

/-- One member or more, with commas between them. -/
inductive Members : List (String × Datum) → List Char → Prop where
  | one {m : String × Datum} {cs : List Char} (h : Member m cs) : Members [m] cs
  | more {m : String × Datum} {ms : List (String × Datum)} {cs rest : List Char} (h : Member m cs)
      (hrest : Members ms rest) : Members (m :: ms) (cs ++ ',' :: rest)

end

/-- The whole of a text is a JSON text of a value. -/
def IsText (d : Datum) (text : String) : Prop := Padded d text.toList

end PhpTokens.JsonText
