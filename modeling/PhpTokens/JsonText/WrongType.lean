import PhpTokens.JsonText.NumberText
import PhpTokens.Text.Quoted

/-!
The failure at a JSON value of the wrong shape. The value is named in the message, and to be named
it is read: a string, a number or a fixed word in full, a list or an object only as what it is. If
the value is not JSON, that is the failure.
-/
namespace PhpTokens.JsonText

/-- The failure after a value has been named, when `rest` follows it. -/
def namedStop (expected : String) : Except Stop (String × List Char) → Stop
  | .ok (found, rest) => .before (.wrongType found expected) rest
  | .error stop => stop

/-- The failure at a value that is not what is expected. -/
def wrongType (expected : String) (cs : List Char) : Stop :=
  namedStop expected <|
    match cs with
    | [] => .error (.before .endInValue [])
    | c :: rest =>
      if c = 'n' then (expectWord ['u', 'l', 'l'] rest).map ("null", ·)
      else if c = 't' then
        (expectWord ['r', 'u', 'e'] rest).map ("boolean " ++ Cause.mark "true", ·)
      else if c = 'f' then
        (expectWord ['a', 'l', 's', 'e'] rest).map ("boolean " ++ Cause.mark "false", ·)
      else if c = '-' then (readNumber true rest).map fun (n, rest) => (n.describe, rest)
      else if isDigit c then (readNumber false cs).map fun (n, rest) => (n.describe, rest)
      else if c = '"' then
        (readString rest).map fun (s, rest) => ("string " ++ Quoted.text s, rest)
      else if c = '[' then .ok ("sequence", cs)
      else if c = '\x7b' then .ok ("map", cs)
      else .error (.about .expectedValue cs)

end PhpTokens.JsonText
