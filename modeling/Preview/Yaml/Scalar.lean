import Preview.Text.Digits
import Preview.Yaml.Cursor

/-
  The text of YAML scalars: plain, quoted and block scalars.

  A line break between two lines of text folds into a blank,
  further breaks are kept.  Block scalars keep their breaks
  when they are literal, and a mark decides what becomes of
  the breaks at their end.

  Key definitions include:
    * `Yaml.Fold`
    * `Yaml.Scalar.plain?`
    * `Yaml.Scalar.quoted?`
    * `Yaml.Scalar.block?`
-/

namespace Preview

namespace Yaml

------------------------------------------------------------
-- Folding
------------------------------------------------------------

/- The blanks and breaks since the last text of a scalar. -/
structure Fold where
  blanks : List Char
  leading : List Char
  trailing : List Char
  broken : Bool
deriving Inhabited

namespace Fold

/- No blanks and no breaks. -/
def empty : Fold := ⟨[], [], [], false⟩

/- The text that takes their place before more text. -/
def join (f : Fold) : List Char :=
  if f.broken then
    if f.leading = ['\n'] then
      if f.trailing.isEmpty then [' '] else f.trailing
    else f.leading ++ f.trailing
  else f.blanks

/- Blanks count only while the line goes on. -/
def addBlank (f : Fold) (c : Char) : Fold :=
  if f.broken then f else { f with blanks := f.blanks ++ [c] }

/- The first break ends the line; the blanks before it are
   dropped. -/
def addBreak (f : Fold) (b : List Char) : Fold :=
  if f.broken then { f with trailing := f.trailing ++ b }
  else ⟨[], b, [], true⟩

end Fold

/-
  Pass blanks and breaks.  Where a least column is given, a
  tab before it on a new line is refused.
-/
def passGap
    (least : Option Nat) :
    Nat → Fold → Cursor → Option (Fold × Cursor)
  | 0, f, c => some (f, c)
  | fuel + 1, f, c =>
      match c.rest with
      | [] => some (f, c)
      | d :: _ =>
          if isBlank d then
            if f.broken && d = '\t' &&
                (least.any (fun n => c.column < n)) then none
            else
              passGap least fuel (f.addBlank d) (c.advance 1)
          else if isBreak d then
            passGap least fuel
              (f.addBreak (Cursor.lineBreak c.rest).1)
              c.advanceLine
          else some (f, c)

namespace Scalar

------------------------------------------------------------
-- Plain Scalars
------------------------------------------------------------

/- The signs of flow collections. -/
def isFlowMark (c : Char) : Bool :=
  c = ',' || c = '[' || c = ']' || c = '\x7b' || c = '\x7d'

/- Whether a plain scalar ends before this text. -/
def plainEnds (flow : Bool) : List Char → Bool
  | [] => true
  | c :: r =>
      isBlank c || isBreak c || (c = ':' && atGap r) ||
        (flow && isFlowMark c)

/- A colon before a flow mark is refused in flow context. -/
def plainRefuses (flow : Bool) : List Char → Bool
  | ':' :: c :: _ => flow && (isFlowMark c || c = '?')
  | _ => false

/- The characters of a plain scalar up to a gap. -/
def plainRun?
    (flow : Bool) :
    Nat → List Char → Cursor → Option (List Char × Cursor)
  | 0, done, c => some (done.reverse, c)
  | fuel + 1, done, c =>
      match c.rest with
      | [] => some (done.reverse, c)
      | d :: _ =>
          if isBlank d || isBreak d then
            some (done.reverse, c)
          else if plainRefuses flow c.rest then none
          else if plainEnds flow c.rest then
            some (done.reverse, c)
          else plainRun? flow fuel (d :: done) (c.advance 1)

/-
  The lines of a plain scalar: its text, the gap after it and
  the place reached.
-/
def plainLines?
    (flow : Bool)
    (least : Nat) :
    Nat → List Char → Fold → Cursor →
      Option (List Char × Fold × Cursor)
  | 0, text, f, c => some (text, f, c)
  | fuel + 1, text, f, c =>
      if c.atDocumentMark || startsWith '#' c.rest then
        some (text, f, c)
      else do
        let (run, c) ← plainRun? flow c.rest.length [] c
        let text :=
          if run.isEmpty then text else text ++ f.join ++ run
        let f := if run.isEmpty then f else Fold.empty
        match c.rest with
        | [] => some (text, f, c)
        | d :: _ =>
            if !(isBlank d || isBreak d) then
              some (text, f, c)
            else do
              let (f, c) ←
                passGap (some least) c.rest.length f c
              if !flow && c.column < least then
                some (text, f, c)
              else plainLines? flow least fuel text f c

/-
  A plain scalar, the place after it and whether a line break
  was passed on the way.
-/
def plain?
    (flow : Bool)
    (least : Nat)
    (c : Cursor) :
    Option (List Char × Bool × Cursor) := do
  let (text, f, c) ←
    plainLines? flow least (c.rest.length + 1) []
      Fold.empty c
  return (text, f.broken, c)

------------------------------------------------------------
-- Quoted Scalars
------------------------------------------------------------

/- The character of a one-letter escape. -/
def escaped? (c : Char) : Option Char :=
  match c with
  | '0' => some '\x00'
  | 'a' => some '\x07'
  | 'b' => some '\x08'
  | 't' => some '\t'
  | '\t' => some '\t'
  | 'n' => some '\n'
  | 'v' => some '\x0b'
  | 'f' => some '\x0c'
  | 'r' => some '\r'
  | 'e' => some '\x1b'
  | ' ' => some ' '
  | '"' => some '"'
  | '/' => some '/'
  | '\\' => some '\\'
  | 'N' => some '\u0085'
  | '_' => some '\u00a0'
  | 'L' => some '\u2028'
  | 'P' => some '\u2029'
  | _ => none

/- How many hexadecimal digits an escape letter announces. -/
def codeLength? (c : Char) : Option Nat :=
  match c with
  | 'x' => some 2
  | 'u' => some 4
  | 'U' => some 8
  | _ => none

/- A character by its number, if it is one. -/
def ofCode? (n : Nat) : Option Char :=
  if n < 0xD800 ∨ (0xDFFF < n ∧ n ≤ 0x10FFFF) then
    some (Char.ofNat n)
  else none

/-
  The characters of a quoted scalar up to a gap or the closing
  quote; the flag tells of an escaped line break.
-/
def quotedRun?
    (single : Bool) :
    Nat → List Char → Cursor →
      Option (List Char × Bool × Cursor)
  | 0, done, c => some (done.reverse, false, c)
  | fuel + 1, done, c =>
      match c.rest with
      | [] => some (done.reverse, false, c)
      | d :: r =>
          if isBlank d || isBreak d then
            some (done.reverse, false, c)
          else if single then
            if d = '\'' then
              if startsWith '\'' r then
                quotedRun? single fuel ('\'' :: done)
                  (c.advance 2)
              else some (done.reverse, false, c)
            else
              quotedRun? single fuel (d :: done) (c.advance 1)
          else if d = '"' then some (done.reverse, false, c)
          else if d = '\\' then
            match r with
            | [] => none
            | e :: r =>
                if isBreak e then
                  some (done.reverse, true,
                    (c.advance 1).advanceLine)
                else
                  match codeLength? e with
                  | none => do
                      let x ← escaped? e
                      quotedRun? single fuel (x :: done)
                        (c.advance 2)
                  | some n => do
                      let ds := r.take n
                      if ds.length < n then none
                      let x ← ofCode? (← Digits.toNatIn? 16 ds)
                      quotedRun? single fuel (x :: done)
                        (c.advance (2 + n))
          else
            quotedRun? single fuel (d :: done) (c.advance 1)

/- The text of a quoted scalar up to its closing quote, line by
   line. -/
def quotedLines?
    (single : Bool) :
    Nat → List Char → Cursor → Option (List Char × Cursor)
  | 0, _, _ => none
  | fuel + 1, text, c =>
      if c.atDocumentMark || c.rest.isEmpty then none
      else do
        let (run, broken, c) ←
          quotedRun? single c.rest.length [] c
        let text := text ++ run
        if startsWith (if single then '\'' else '"') c.rest then
          some (text, c.advance 1)
        else do
          let f : Fold := { Fold.empty with broken := broken }
          let (f, c) ← passGap none c.rest.length f c
          quotedLines? single fuel (text ++ f.join) c

/- A quoted scalar, from its opening quote on. -/
def quoted? (single : Bool) (c : Cursor) :
    Option (List Char × Cursor) :=
  quotedLines? single (c.rest.length + 1) [] (c.advance 1)

------------------------------------------------------------
-- Block Scalars
------------------------------------------------------------

/- What becomes of the breaks at the end of a block. -/
inductive Chomp where
  | strip
  | clip
  | keep
deriving DecidableEq

/- The sign that tells what becomes of the last breaks. -/
def chomp? (c : Char) : Option Chomp :=
  if c = '+' then some .keep
  else if c = '-' then some .strip
  else none

/- The marks after the indicator: chomping and indentation,
   in either order. -/
def header? (c : Cursor) : Option (Chomp × Nat × Cursor) :=
  let indentation? (c : Cursor) : Option (Nat × Cursor) :=
    match c.rest with
    | d :: _ =>
        if d = '0' then none
        else if Digits.isDigit d then
          some (Digits.value d, c.advance 1)
        else some (0, c)
    | [] => some (0, c)
  match c.rest with
  | d :: _ =>
      match chomp? d with
      | some k => do
          let (n, c) ← indentation? (c.advance 1)
          return (k, n, c)
      | none => do
          let (n, c) ← indentation? c
          if n = 0 then return (.clip, 0, c)
          else
            match c.rest with
            | e :: _ =>
                match chomp? e with
                | some k => return (k, n, c.advance 1)
                | none => return (.clip, n, c)
            | [] => return (.clip, n, c)
  | [] => some (.clip, 0, c)

/-
  Pass indentation and empty lines.  Without an indentation
  (zero), all blanks count as indentation and the widest line
  is reported; a tab among them is refused.
-/
def blockGap? (indent : Nat) :
    Nat → Nat → List Char → Cursor →
      Option (Nat × List Char × Cursor)
  | 0, widest, breaks, c => some (widest, breaks, c)
  | fuel + 1, widest, breaks, c =>
      let inside (n : Nat) : Bool := indent = 0 || n < indent
      let blanks := (c.rest.takeWhile (· = ' ')).length
      let blanks :=
        if indent = 0 then blanks
        else min blanks (indent - c.column)
      let c := c.advance blanks
      let widest := max widest c.column
      if inside c.column && startsWith '\t' c.rest then none
      else
        match c.rest with
        | d :: _ =>
            if isBreak d then
              blockGap? indent fuel widest
                (breaks ++ (Cursor.lineBreak c.rest).1)
                c.advanceLine
            else some (widest, breaks, c)
        | [] => some (widest, breaks, c)

/- The lines of a block and the breaks after the last one. -/
def blockLines?
    (literal : Bool)
    (indent : Nat) :
    Nat → List Char → List Char → List Char → Bool → Cursor →
      Option (List Char × List Char × List Char × Cursor)
  | 0, text, leading, trailing, _, c =>
      some (text, leading, trailing, c)
  | fuel + 1, text, leading, trailing, wasBlank, c =>
      match c.rest with
      | [] => some (text, leading, trailing, c)
      | d :: _ =>
          if c.column ≠ indent then
            some (text, leading, trailing, c)
          else do
            let blank := isBlank d
            let gap :=
              if !literal && leading = ['\n'] && !wasBlank &&
                  !blank then
                if trailing.isEmpty then [' '] else []
              else leading
            let (line, c) := c.span (fun e => !isBreak e)
            let text := text ++ gap ++ trailing ++ line
            let leading := (Cursor.lineBreak c.rest).1
            let c := c.advanceLine
            let (_, trailing, c) ←
              blockGap? indent (c.rest.length + 1) 0 [] c
            blockLines? literal indent fuel text leading
              trailing blank c

/-
  A block scalar, from its indicator on, inside a collection
  of the given indentation.
-/
def block?
    (literal : Bool)
    (parent : Int)
    (c : Cursor) :
    Option (List Char × Cursor) := do
  let (chomp, n, c) ← header? (c.advance 1)
  let c := c.skipBlanks.skipComment
  if !atLineEnd c.rest then none
  let c := c.advanceLine
  let given : Nat :=
    if n = 0 then 0
    else if 0 ≤ parent then parent.toNat + n
    else n
  let (widest, breaks, c) ←
    blockGap? given (c.rest.length + 1) 0 [] c
  let indent : Nat :=
    if given ≠ 0 then given
    else max (max widest (parent + 1).toNat) 1
  let (text, leading, trailing, c) ←
    blockLines? literal indent (c.rest.length + 1) [] []
      breaks false c
  let text := if chomp = .strip then text else text ++ leading
  let text := if chomp = .keep then text ++ trailing else text
  return (text, c)

end Scalar

end Yaml

end Preview
