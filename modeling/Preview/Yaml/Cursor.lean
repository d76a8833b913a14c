/-
  A place in YAML text, and the characters that YAML tells
  apart.

  Key definitions include:
    * `Yaml.Cursor`
    * `Yaml.Cursor.advance`
    * `Yaml.Cursor.advanceLine`
    * `Yaml.Cursor.span`
    * `Yaml.isBreak`
    * `Yaml.admits`
-/

namespace Preview

namespace Yaml

------------------------------------------------------------
-- Characters
------------------------------------------------------------

/- Characters that end a line. -/
def isBreak (c : Char) : Bool :=
  c = '\r' || c = '\n' || c.toNat = 0x85 ||
    c.toNat = 0x2028 || c.toNat = 0x2029

/- Blanks within a line. -/
def isBlank (c : Char) : Bool :=
  c = ' ' || c = '\t'

/- Letters, digits and marks of names. -/
def isName (c : Char) : Bool :=
  ('0' ≤ c && c ≤ '9') || ('A' ≤ c && c ≤ 'Z') ||
    ('a' ≤ c && c ≤ 'z') || c = '_' || c = '-'

/- The character that may stand before a document. -/
def byteOrderMark : Char := '\ufeff'

/- Characters that may occur in a stream at all. -/
def admits (c : Char) : Bool :=
  let n := c.toNat
  n = 0x09 || n = 0x0A || n = 0x0D ||
    (0x20 ≤ n && n ≤ 0x7E) || n = 0x85 ||
    (0xA0 ≤ n && n ≤ 0xD7FF) ||
    (0xE000 ≤ n && n ≤ 0xFFFD) || 0x10000 ≤ n

/- Whether a text starts with a blank, a break or nothing. -/
def atGap : List Char → Bool
  | [] => true
  | c :: _ => isBlank c || isBreak c

/- Whether a text starts with a line break or nothing. -/
def atLineEnd : List Char → Bool
  | [] => true
  | c :: _ => isBreak c

/- Whether a character comes next. -/
def startsWith (c : Char) : List Char → Bool
  | [] => false
  | d :: _ => d = c

/- Three dashes or three dots that stand alone. -/
def isDocumentMark : List Char → Bool
  | '-' :: '-' :: '-' :: r => atGap r
  | '.' :: '.' :: '.' :: r => atGap r
  | _ => false

------------------------------------------------------------
-- Cursors
------------------------------------------------------------

/- The rest of a text and how much precedes it. -/
structure Cursor where
  rest : List Char
  index : Nat
  line : Nat
  column : Nat
deriving Inhabited

namespace Cursor

/- Pass some characters of a line. -/
def advance (c : Cursor) (n : Nat) : Cursor :=
  { c with
    rest := c.rest.drop n
    index := c.index + n
    column := c.column + n }

/- The line break that a text starts with, as it counts in
   a scalar, and its length. -/
def lineBreak : List Char → List Char × Nat
  | '\r' :: '\n' :: _ => (['\n'], 2)
  | '\r' :: _ => (['\n'], 1)
  | '\n' :: _ => (['\n'], 1)
  | '\u0085' :: _ => (['\n'], 1)
  | '\u2028' :: _ => (['\u2028'], 1)
  | '\u2029' :: _ => (['\u2029'], 1)
  | _ => ([], 0)

/- Pass a line break, if there is one. -/
def advanceLine (c : Cursor) : Cursor :=
  match (lineBreak c.rest).2 with
  | 0 => c
  | n =>
      { rest := c.rest.drop n
        index := c.index + n
        line := c.line + 1
        column := 0 }

/- Pass the characters of a line that satisfy a test. -/
def span
    (p : Char → Bool)
    (c : Cursor) :
    List Char × Cursor :=
  let taken := c.rest.takeWhile p
  (taken, c.advance taken.length)

/- Pass blanks. -/
def skipBlanks (c : Cursor) : Cursor :=
  (c.span isBlank).2

/- Pass a comment, if there is one. -/
def skipComment (c : Cursor) : Cursor :=
  if startsWith '#' c.rest then
    (c.span (fun d => !isBreak d)).2
  else c

/- Whether a document mark starts here. -/
def atDocumentMark (c : Cursor) : Bool :=
  c.column == 0 && isDocumentMark c.rest

end Cursor

end Yaml

end Preview
