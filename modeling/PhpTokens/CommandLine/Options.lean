import PhpTokens.Text.SystemText

/-!
Command-line arguments. An option is given by its name behind two dashes, or by a letter behind
one; letters may share a dash. An option that takes a value has it behind an equals sign or in the
next argument, and that one may begin with a dash only if it is a single dash. Two dashes alone
end the options. All else is an operand.
-/
namespace PhpTokens.CommandLine

/-- How an option is used. -/
inductive Usage where
  /-- At most once. -/
  | flag
  /-- Any number of times, and the number counts. -/
  | counter
  /-- At most once, with a value that is not empty. -/
  | value
  deriving DecidableEq, Repr

/-- An option that a command knows. -/
structure OptionForm where
  name : String
  usage : Usage
  letter : Option Char := none
  deriving DecidableEq, Repr

/-- What has been given: the names of options without a value, with repetitions, the values of
the others, and the operands. -/
structure Arguments where
  given : List String := []
  values : List (String × SystemText) := []
  operands : List SystemText := []
  deriving DecidableEq, Repr

namespace Arguments

def has (a : Arguments) (name : String) : Bool := a.given.contains name

def count (a : Arguments) (name : String) : Nat := a.given.count name

def value? (a : Arguments) (name : String) : Option SystemText := a.values.lookup name

def addOption (a : Arguments) (name : String) : Arguments := { a with given := a.given ++ [name] }

def addValue (a : Arguments) (name : String) (value : SystemText) : Arguments :=
  { a with values := a.values ++ [(name, value)] }

def addOperand (a : Arguments) (operand : SystemText) : Arguments :=
  { a with operands := a.operands ++ [operand] }

/-- An option has been used as its form says. -/
def usesWell (a : Arguments) (form : OptionForm) : Bool :=
  match form.usage with
  | .flag => a.count form.name ≤ 1
  | .counter => true
  | .value =>
    let values := a.values.filter (·.1 == form.name)
    values.length ≤ 1 && values.all (·.2.bytes != [])

/-- The operand, if there is exactly one and it is not empty. -/
def operand? (a : Arguments) : Option SystemText :=
  match a.operands with
  | [operand] => if operand.bytes = [] then none else some operand
  | _ => none

end Arguments

/-- What the next argument may be. -/
inductive Expecting where
  | anything
  /-- The value of the option named. -/
  | valueOf (name : String)
  | onlyOperands
  deriving DecidableEq, Repr

def equals : UInt8 := 0x3D

/-- The text in front of the first equals sign, and the text behind it if there is one. -/
def splitAtEquals (bytes : List UInt8) : List UInt8 × Option (List UInt8) :=
  let name := bytes.takeWhile (· != equals)
  match bytes.drop name.length with
  | [] => (name, none)
  | _ :: value => (name, some value)

/-- An option given by name, behind its two dashes. -/
def readNamed? (forms : List OptionForm) (a : Arguments) (body : List UInt8) :
    Option (Arguments × Expecting) := do
  let (name, value) := splitAtEquals body
  let form ← forms.find? (SystemText.ofString ·.name == ⟨name⟩)
  match form.usage, value with
  | .value, some value => return (a.addValue form.name ⟨value⟩, .anything)
  | .value, none => return (a, .valueOf form.name)
  | _, some _ => none
  | _, none => return (a.addOption form.name, .anything)

/-- Options given by their letters, behind the dash. -/
def readLetters? (forms : List OptionForm) (a : Arguments) : List UInt8 → Option Arguments
  | [] => some a
  | letter :: letters => do
    let form ← forms.find? (·.letter.map String.utf8EncodeChar == some [letter])
    guard (form.usage ≠ .value)
    readLetters? forms (a.addOption form.name) letters

/-- Takes one argument. -/
def readArgument? (forms : List OptionForm) (a : Arguments) (expecting : Expecting)
    (argument : SystemText) : Option (Arguments × Expecting) :=
  match expecting, argument.bytes with
  | .onlyOperands, _ => some (a.addOperand argument, .onlyOperands)
  -- 0x2D is a dash
  | .valueOf name, [0x2D] => some (a.addValue name argument, .anything)
  | .valueOf _, 0x2D :: _ => none
  | .valueOf name, _ => some (a.addValue name argument, .anything)
  | .anything, [0x2D] => some (a.addOperand argument, .anything)
  | .anything, [0x2D, 0x2D] => some (a, .onlyOperands)
  | .anything, 0x2D :: 0x2D :: body => readNamed? forms a body
  | .anything, 0x2D :: letters => (readLetters? forms a letters).map (·, .anything)
  | .anything, _ => some (a.addOperand argument, .anything)

/-- Takes the arguments in turn; an option must not be left without its value. -/
def readArguments? (forms : List OptionForm) (a : Arguments) (expecting : Expecting) :
    List SystemText → Option Arguments
  | [] =>
    match expecting with
    | .valueOf _ => none
    | _ => some a
  | argument :: arguments => do
    let (a, expecting) ← readArgument? forms a expecting argument
    readArguments? forms a expecting arguments

/-- The arguments of a command, if they use its options as they are meant. -/
def parse? (forms : List OptionForm) (arguments : List SystemText) : Option Arguments := do
  let a ← readArguments? forms {} .anything arguments
  guard (forms.all a.usesWell)
  return a

end PhpTokens.CommandLine
