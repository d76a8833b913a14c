import Preview.Text.Unprinted

/-
  A text between double quotes, as error messages show it.

  Quotes, backslashes and the usual control characters have
  escapes of one letter; other characters that do not print
  are shown by their number.

  Key definitions include:
    * `Quoted.escape`
    * `Quoted.text`
-/

namespace Preview

namespace Quoted

/- A character by its number in hexadecimal digits. -/
def byNumber (c : Char) : List Char :=
  '\\' :: 'u' :: '\x7b' :: Nat.toDigits 16 c.toNat ++
    ['\x7d']

/- A character as quoted texts show it: itself, a short escape,
   or its number. -/
def escape (c : Char) : List Char :=
  if c = '"' then ['\\', '"']
  else if c = '\\' then ['\\', '\\']
  else if c = '\n' then ['\\', 'n']
  else if c = '\r' then ['\\', 'r']
  else if c = '\t' then ['\\', 't']
  else if c.toNat = 0 then ['\\', '0']
  else if c.toNat < 32 || c.toNat = 127 then byNumber c
  else if c.toNat < 128 then [c]
  else if Unprinted.contains c.toNat then byNumber c
  else [c]

/- A text in quotes, with escapes where it needs them. -/
def text (s : String) : String :=
  String.ofList ('"' :: s.toList.flatMap escape ++ ['"'])

end Quoted

end Preview
