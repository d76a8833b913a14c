import Preview.Text.Digits

/-
  Texts with backslash escapes.

  A backslash introduces a short escape, or a character by
  four or eight hexadecimal digits.  In a block of lines a
  backslash at the end of a line also removes the line break
  and the blanks that begin the next lines.

  Key definitions include:
    * `Escaped.isPlain`
    * `Escaped.decode?`
-/

namespace Preview

namespace Escaped

/- The blanks within a line. -/
def isSpacing (c : Char) : Bool :=
  c = ' ' || c = '\t'

/- Characters that need no escape in a line. -/
def isPlain (c : Char) : Bool :=
  c = '\t' || (32 ≤ c.toNat && c.toNat ≠ 127)

/- The character that a short escape stands for. -/
def short? (c : Char) : Option Char :=
  if c = '"' || c = '\\' then some c
  else if c = 'b' then some '\x08'
  else if c = 't' then some '\t'
  else if c = 'n' then some '\n'
  else if c = 'f' then some '\x0c'
  else if c = 'r' then some '\r'
  else none

/- The character with a number in hexadecimal digits. -/
def numbered? (ds : List Char) : Option Char := do
  let n ← Digits.toNatIn? 16 ds
  if n.isValidChar then some (Char.ofNat n) else none

/- Whether only blanks precede the end of the line. -/
def endsLine (cs : List Char) : Bool :=
  match cs.dropWhile isSpacing with
  | '\n' :: _ => true
  | _ => false

/-
  The text that is meant; none if an escape is unknown or a
  character must not occur.  While folding, blanks and line
  breaks are passed over.
-/
def decode? (block folding : Bool) :
    List Char → Option (List Char)
  | [] => some []
  | ['\\'] => none
  | '\\' :: 'u' :: a :: b :: c :: d :: rest => do
      let x ← numbered? [a, b, c, d]
      let xs ← decode? block false rest
      return x :: xs
  | '\\' :: 'U' :: a :: b :: c :: d :: e :: f :: g :: h ::
      rest => do
      let x ← numbered? [a, b, c, d, e, f, g, h]
      let xs ← decode? block false rest
      return x :: xs
  | '\\' :: e :: rest =>
      match short? e with
      | some x => (decode? block false rest).map (x :: ·)
      | none =>
          if block && endsLine (e :: rest) then
            decode? block true rest
          else none
  | c :: rest =>
      if folding && (isSpacing c || c = '\n') then
        decode? block true rest
      else if isPlain c || (block && c = '\n') then
        (decode? block false rest).map (c :: ·)
      else none

end Escaped

end Preview
