import Preview.Json.Basic

/-
  Compact JSON text.

  Key definitions include:
    * `Json.quote`
    * `Json.print`
    * `Json.text`
-/

namespace Preview

namespace Json

------------------------------------------------------------
-- Strings
------------------------------------------------------------

/- The hexadecimal digit of a number below sixteen. -/
def hexDigit (n : Nat) : Char :=
  if n < 10 then Digits.digit n
  else Char.ofNat ('a'.toNat + (n - 10))

/-
  A character inside quotes.  Quotes, backslashes and control
  characters are escaped and nothing else is.
-/
def escape (c : Char) : List Char :=
  if c = '"' then ['\\', '"']
  else if c = '\\' then ['\\', '\\']
  else if c.toNat = 8 then ['\\', 'b']
  else if c.toNat = 9 then ['\\', 't']
  else if c.toNat = 10 then ['\\', 'n']
  else if c.toNat = 12 then ['\\', 'f']
  else if c.toNat = 13 then ['\\', 'r']
  else if c.toNat < 32 then
    ['\\', 'u', '0', '0',
      hexDigit (c.toNat / 16), hexDigit (c.toNat % 16)]
  else [c]

/- A text in quotes, with escapes where it needs them. -/
def quote (s : String) : List Char :=
  '"' :: s.toList.flatMap escape ++ ['"']

------------------------------------------------------------
-- Values
------------------------------------------------------------

/- An integer in digits, and any other number as short as it can
   be told from its neighbours. -/
def Number.print : Number → List Char
  | .int i =>
      (if i < 0 then ['-'] else []) ++ Digits.ofNat i.natAbs
  | .float x => (Shortest.text x).toList

mutual

/- A value without any blanks. -/
def print : Json → List Char
  | null => "null".toList
  | bool true => "true".toList
  | bool false => "false".toList
  | number n => n.print
  | string s => quote s
  | array [] => ['[', ']']
  | array (x :: xs) => '[' :: print x ++ printItems xs
  | object [] => ['\x7b', '\x7d']
  | object ((k, x) :: fs) =>
      '\x7b' :: quote k ++ ':' :: print x ++ printFields fs

/- The items after the first one, and the closing bracket. -/
def printItems : List Json → List Char
  | [] => [']']
  | x :: xs => ',' :: print x ++ printItems xs

/- The fields after the first one, and the closing brace. -/
def printFields : List (String × Json) → List Char
  | [] => ['\x7d']
  | (k, x) :: fs =>
      ',' :: quote k ++ ':' :: print x ++ printFields fs

end

/- A value in one line, without blanks. -/
def text (j : Json) : String :=
  String.ofList j.print

end Json

end Preview
