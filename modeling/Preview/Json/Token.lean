import Preview.Text.Digits

/-
  The tokens of JSON text.

  A text is cut into tokens by a machine that reads one
  character at a time.  A string whose escapes leave half of
  a surrogate pair alone is still a token; it only has no
  text.

  Key definitions include:
    * `Json.Numeral`
    * `Json.Token`
    * `Json.Mode`
    * `Json.Token.scan?`
-/

namespace Preview

namespace Json

------------------------------------------------------------
-- Numerals
------------------------------------------------------------

/- The parts of a number as written. -/
structure Numeral where
  negative : Bool
  whole : List Char
  fraction : List Char
  exponent : Option (Bool × List Char)
  float : Bool
deriving DecidableEq, Inhabited

/- The sign and digits that follow an exponent mark. -/
def Numeral.exponent? (cs : List Char) :
    Option (Bool × List Char) :=
  let (negative, ds) :=
    match cs with
    | '+' :: ds => (false, ds)
    | '-' :: ds => (true, ds)
    | ds => (false, ds)
  if !ds.isEmpty && ds.all Digits.isDigit then
    some (negative, ds)
  else none

/-
  A numeral has an optional minus sign, a whole part without
  leading zeros, and optionally a fraction and an exponent,
  each with at least one digit.
-/
def Numeral.ofChars? (cs : List Char) : Option Numeral :=
  let (negative, cs) :=
    match cs with
    | '-' :: r => (true, r)
    | r => (false, r)
  let whole := cs.takeWhile Digits.isDigit
  let rest := cs.dropWhile Digits.isDigit
  let plain : Bool :=
    match whole with
    | [] => false
    | '0' :: _ :: _ => false
    | _ => true
  if !plain then none
  else
    let (point, rest) :=
      match rest with
      | '.' :: r => (true, r)
      | r => (false, r)
    let fraction :=
      if point then rest.takeWhile Digits.isDigit else []
    let rest :=
      if point then rest.dropWhile Digits.isDigit else rest
    if point && fraction.isEmpty then none
    else
      match rest with
      | [] => some ⟨negative, whole, fraction, none, point⟩
      | c :: r =>
          if c = 'e' || c = 'E' then
            (Numeral.exponent? r).map
              (fun e =>
                ⟨negative, whole, fraction, some e, true⟩)
          else none

------------------------------------------------------------
-- Tokens
------------------------------------------------------------

/- A sign, a word, a number or a text of JSON. -/
inductive Token where
  | openObject
  | closeObject
  | openArray
  | closeArray
  | comma
  | colon
  | null
  | bool (value : Bool)
  | number (value : Numeral)
  | string (value : Option String)
deriving DecidableEq

/- A character of a string, or half of a surrogate pair. -/
inductive Piece where
  | char (c : Char)
  | high (unit : Nat)
  | low (unit : Nat)
deriving DecidableEq

/- The piece that a four-digit escape stands for. -/
def Piece.ofUnit (u : Nat) : Piece :=
  if 0xD800 ≤ u ∧ u < 0xDC00 then high u
  else if 0xDC00 ≤ u ∧ u < 0xE000 then low u
  else char (Char.ofNat u)

/- Join the pairs of a string; none if a half stands alone. -/
def Piece.join? : List Piece → Option (List Char)
  | [] => some []
  | .char c :: ps => (join? ps).map (c :: ·)
  | .high h :: .low l :: ps =>
      let c := Char.ofNat
        (0x10000 + (h - 0xD800) * 0x400 + (l - 0xDC00))
      (join? ps).map (c :: ·)
  | _ => none

------------------------------------------------------------
-- Scanning
------------------------------------------------------------

/- What the machine is reading; pieces are held reversed. -/
inductive Mode where
  | between
  | word (done : List Char)
  | numeral (done : List Char)
  | inside (done : List Piece)
  | escape (done : List Piece)
  | unit (done : List Piece) (left value : Nat)

/- The characters between tokens. -/
def isBlank (c : Char) : Bool :=
  c = ' ' || c = '\t' || c = '\n' || c = '\r'

/- The characters that a number is written with. -/
def isNumeralChar (c : Char) : Bool :=
  Digits.isDigit c || c = '-' || c = '+' || c = '.' ||
    c = 'e' || c = 'E'

/- The characters that a word is written with. -/
def isLetter (c : Char) : Bool :=
  'a' ≤ c && c ≤ 'z'

/- The character that a short escape stands for. -/
def unescape? (c : Char) : Option Char :=
  if c = '"' || c = '\\' || c = '/' then some c
  else if c = 'b' then some '\x08'
  else if c = 'f' then some '\x0c'
  else if c = 'n' then some '\n'
  else if c = 'r' then some '\r'
  else if c = 't' then some '\t'
  else none

/- The three words that have a meaning. -/
def Token.ofWord? (cs : List Char) : Option Token :=
  if cs = "null".toList then some .null
  else if cs = "true".toList then some (.bool true)
  else if cs = "false".toList then some (.bool false)
  else none

/- A character outside of strings, words and numbers. -/
def Mode.start? (c : Char) : Option (List Token × Mode) :=
  if isBlank c then some ([], .between)
  else if c = '\x7b' then some ([.openObject], .between)
  else if c = '\x7d' then some ([.closeObject], .between)
  else if c = '[' then some ([.openArray], .between)
  else if c = ']' then some ([.closeArray], .between)
  else if c = ',' then some ([.comma], .between)
  else if c = ':' then some ([.colon], .between)
  else if c = '"' then some ([], .inside [])
  else if c = '-' || Digits.isDigit c then
    some ([], .numeral [c])
  else if isLetter c then some ([], .word [c])
  else none

/- The token that the end of the text would complete. -/
def Mode.finish? : Mode → Option (List Token)
  | .between => some []
  | .word done => (Token.ofWord? done.reverse).map ([·])
  | .numeral done =>
      (Numeral.ofChars? done.reverse).map ([.number ·])
  | _ => none

/- Read one character. -/
def Mode.step? (m : Mode) (c : Char) :
    Option (List Token × Mode) :=
  match m with
  | .between => start? c
  | .word done =>
      if isLetter c then some ([], .word (c :: done))
      else do
        let ts ← finish? (.word done)
        let (us, m) ← start? c
        return (ts ++ us, m)
  | .numeral done =>
      if isNumeralChar c then some ([], .numeral (c :: done))
      else do
        let ts ← finish? (.numeral done)
        let (us, m) ← start? c
        return (ts ++ us, m)
  | .inside done =>
      if c = '"' then
        let text :=
          (Piece.join? done.reverse).map String.ofList
        some ([.string text], .between)
      else if c = '\\' then some ([], .escape done)
      else if c.toNat < 32 then none
      else some ([], .inside (.char c :: done))
  | .escape done =>
      if c = 'u' then some ([], .unit done 4 0)
      else
        (unescape? c).map
          (fun c => ([], .inside (.char c :: done)))
  | .unit done left value =>
      (Digits.valueIn? 16 c).map fun d =>
        let value := 16 * value + d
        if left ≤ 1 then
          ([], .inside (Piece.ofUnit value :: done))
        else ([], .unit done (left - 1) value)

/- The tokens of the rest of a text. -/
def Mode.scan? (m : Mode) : List Char → Option (List Token)
  | [] => m.finish?
  | c :: cs => do
      let (ts, m) ← m.step? c
      let us ← m.scan? cs
      return ts ++ us

/- The tokens of a text. -/
def Token.scan? (cs : List Char) : Option (List Token) :=
  Mode.between.scan? cs

end Json

end Preview
