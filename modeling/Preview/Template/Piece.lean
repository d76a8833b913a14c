import Preview.Text.Blank
import Preview.Template.Term

/-
  A template as a list of texts and tags.

  A text runs up to the next tag; a backslash before a tag
  makes it part of the text.  Then blanks are settled: a tag
  may ask for the blanks beside it to be dropped, and a block
  tag that stands alone on its line takes the line with it.

  A template has parts of its own: a definition gives a name
  to a part, and an inclusion prints the part of some name.

  Key definitions include:
    * `Template.Inclusion`
    * `Template.Tag`
    * `Template.Piece`
    * `Template.Piece.scan`
    * `Template.Piece.settle`
-/

namespace Preview

namespace Template

------------------------------------------------------------
-- Tags
------------------------------------------------------------

/- The helper of a block, what it is called with, and the
   names that it gives to what it passes to its body. -/
structure Opening where
  helper : String
  arguments : Arguments
  names : List String
deriving Inhabited

/- The name of a part, which may have to be computed. -/
inductive PartName where
  | written (name : String)
  | computed (term : Term)
deriving Inhabited

/- The part that is included, what it is called with, and
   what its lines are indented by. -/
structure Inclusion where
  name : PartName
  arguments : Arguments
  indent : List Char
deriving Inhabited

/-
  What a tag asks for.
    * `value` prints a term
    * `computed` prints a term, unless its text is the name
      of a helper
    * `inclusion` prints a part
    * `including` opens a block that is printed when there is
      no part of the name
    * `definition` and `defining` name a part; only the
      latter, which opens a block, has one
-/
inductive Tag where
  | value (term : Term)
  | computed (term : Term)
  | inclusion (inclusion : Inclusion)
  | definition (opening : Opening)
  | opening (opening : Opening)
  | including (inclusion : Inclusion)
  | defining (opening : Opening)
  | chained (opening : Opening)
  | otherwise
  | closing (name : String)
  | comment
deriving Inhabited

namespace Tag

/- Tags that take the line on which they stand alone. -/
def takesLine : Tag → Bool
  | value _ => false
  | computed _ => false
  | _ => true

/- Tags that leave the blanks before them when they do. -/
def keepsIndent : Tag → Bool
  | inclusion _ => true
  | _ => false

/- A tag that stands behind some blanks. -/
def indented (blanks : List Char) : Tag → Tag
  | inclusion i => inclusion { i with indent := blanks }
  | tag => tag

end Tag

/-
  A piece of a template.
    * `tag` also tells whether the blanks before and after it
      are dropped
    * `verbatim` is a text in which tags mean nothing, with
      the blanks that precede it
-/
inductive Piece where
  | text (cs : List Char)
  | tag (tag : Tag) (trimBefore trimAfter : Bool)
  | verbatim (blanks cs : List Char)
deriving Inhabited

------------------------------------------------------------
-- Reading Tags
------------------------------------------------------------

/- A mark at the start of a text, and whether it is there. -/
def mark (word : String) (cs : List Char) : Bool × List Char :=
  match after? word.toList (skipSpace cs) with
  | some rest => (true, skipSpace rest)
  | none => (false, skipSpace cs)

/- The end of a tag, and whether it drops blanks. -/
def tagEnd? (close : String) (cs : List Char) :
    Option (Bool × List Char) :=
  let (trim, rest) := mark "~" cs
  (after? close.toList rest).map (trim, ·)

/- More than terms in these characters can be nested. -/
def termFuel (cs : List Char) : Nat :=
  2 * cs.length + 4

/- The names after `as`, if there are any. -/
def blockNames (cs : List Char) : List String × List Char :=
  let named : Option (List String × List Char) := do
    let rest ← after? "as".toList (skipSpace cs)
    let rest ← after? ['|'] (skipSpace rest)
    let (first, rest) ← name? (skipSpace rest)
    let (names, rest) :=
      match name? (skipSpace rest) with
      | some (second, rest) => ([first, second], rest)
      | none => ([first], rest)
    let rest ← after? ['|'] (skipSpace rest)
    some (names, rest)
  named.getD ([], cs)

/- A helper with its arguments and names. -/
def opening? (cs : List Char) :
    Except Error (Option (Opening × List Char)) :=
  match name? cs with
  | none => .ok none
  | some (helper, rest) => do
      let (args, rest) ← arguments (termFuel rest) rest
      let (names, rest) := blockNames rest
      .ok (some (⟨helper, args, names⟩, rest))

/- A name of parts at the start of a text. -/
def partName? (cs : List Char) : Option (String × List Char) :=
  match cs.span
    (fun c => (isSymbol c && c ≠ '$') || isSeparator c) with
  | ([], _) => none
  | (name, rest) => some (String.ofList name, rest)

/- The name of an included part. -/
def includedName? (cs : List Char) :
    Except Error (Option (PartName × List Char)) :=
  match partName? cs, cs with
  | some (name, rest), _ => .ok (some (.written name, rest))
  | none, '(' :: _ => do
      match ← Term.scan? (termFuel cs) cs with
      | some (term, rest) => .ok (some (.computed term, rest))
      | none => .ok none
  | none, _ =>
      .ok ((Reference.scan? cs).map fun (ref, rest) =>
        (.written ref.text, rest))

/- An inclusion with its arguments. -/
def inclusion? (cs : List Char) :
    Except Error (Option (Inclusion × List Char)) := do
  match ← includedName? cs with
  | none => .ok none
  | some (name, rest) => do
      let (args, rest) ← arguments (termFuel rest) rest
      .ok (some (⟨name, args, []⟩, rest))

/- A reference or a bracketed call. -/
def named? (cs : List Char) :
    Except Error (Option (Tag × List Char)) :=
  match cs with
  | '(' :: _ => do
      match ← Term.scan? (termFuel cs) cs with
      | some (term, rest) => .ok (some (.computed term, rest))
      | none => .ok none
  | _ =>
      .ok ((Reference.scan? cs).map fun (ref, rest) =>
        (.value (.reference ref), rest))

/- What a printing tag holds. -/
def printed? (cs : List Char) :
    Except Error (Option (Tag × List Char)) := do
  let applied : Option (Tag × List Char) ←
    match name? cs with
    | none => .ok none
    | some (helper, rest) => do
        let (args, rest) ← arguments (termFuel rest) rest
        if args.isEmpty then .ok none
        else
          .ok (some
            (.value (.call helper args.positional args.named),
              rest))
  match applied with
  | some found => .ok (some found)
  | none => named? cs

/- A piece and the text after it. -/
abbrev Scanned := Piece × List Char

/- Close what was read as a tag. -/
def close?
    (trimBefore : Bool)
    (closeMark : String)
    (found : Option (Tag × List Char)) :
    Option Scanned := do
  let (tag, rest) ← found
  let (trimAfter, rest) ← tagEnd? closeMark rest
  some (.tag tag trimBefore trimAfter, rest)

/- A printing tag in three braces; `cs` follows them. -/
def braced? (cs : List Char) :
    Except Error (Option Scanned) := do
  let (trimBefore, start) := mark "~" cs
  match close? trimBefore "\x7d\x7d\x7d" (← printed? start) with
  | some found => .ok (some found)
  | none =>
      let found ← printed? (skipSpace cs)
      .ok (close? false "\x7d\x7d"
        (found.bind fun (tag, rest) =>
          (after? ['\x7d'] (skipSpace rest)).map (tag, ·)))

/- A tag that continues or ends a branch of a block. -/
def branch? (trimBefore : Bool) (word : String)
    (cs : List Char) : Except Error (Option Scanned) :=
  match after? word.toList cs with
  | none => .ok none
  | some rest =>
      match close? trimBefore "\x7d\x7d"
        (some (.otherwise, rest)) with
      | some found => .ok (some found)
      | none =>
          if word = "else" && !atWordEnd rest then .ok none
          else do
            let found ← opening? (skipSpace rest)
            .ok (close? trimBefore "\x7d\x7d"
              (found.map fun (o, rest) => (.chained o, rest)))

/- A tag that opens a block; `cs` follows its mark. -/
def opened? (cs : List Char) :
    Except Error (Option (Tag × List Char)) := do
  match skipSpace cs with
  | '>' :: rest =>
      .ok ((← inclusion? (skipSpace rest)).map
        fun (i, rest) => (.including i, rest))
  | '*' :: rest =>
      .ok ((← opening? (skipSpace rest)).map
        fun (o, rest) => (.defining o, rest))
  | rest =>
      .ok ((← opening? rest).map
        fun (o, rest) => (.opening o, rest))

/- A tag that closes a block; `cs` follows its mark. -/
def closed? (trimBefore : Bool) (cs : List Char) :
    Option Scanned :=
  let close (found : Option (String × List Char)) :=
    close? trimBefore "\x7d\x7d"
      (found.map fun (name, rest) => (.closing name, rest))
  (close (name? (skipSpace cs))).orElse fun _ =>
    close (partName? (skipSpace cs))

/- A tag in two braces; `cs` follows them. -/
def plain? (cs : List Char) :
    Except Error (Option Scanned) := do
  let (trimBefore, start) := mark "~" cs
  match start with
  | '\x7b' :: rest =>
      let found ← printed? (skipSpace rest)
      .ok (close? trimBefore "\x7d\x7d"
        (found.bind fun (tag, rest) =>
          (after? ['\x7d'] (skipSpace rest)).map (tag, ·)))
  | '&' :: rest =>
      .ok (close? trimBefore "\x7d\x7d"
        (← named? (skipSpace rest)))
  | '>' :: rest =>
      .ok (close? trimBefore "\x7d\x7d"
        ((← inclusion? (skipSpace rest)).map
          fun (i, rest) => (.inclusion i, rest)))
  | '*' :: rest =>
      .ok (close? trimBefore "\x7d\x7d"
        ((← opening? (skipSpace rest)).map
          fun (o, rest) => (.definition o, rest)))
  | '#' :: rest =>
      .ok (close? trimBefore "\x7d\x7d" (← opened? rest))
  | '/' :: rest => .ok (closed? trimBefore rest)
  | _ =>
      match ← branch? trimBefore "else" start with
      | some found => .ok (some found)
      | none =>
          match ← branch? trimBefore "^" start with
          | some found => .ok (some found)
          | none =>
              .ok (close? trimBefore "\x7d\x7d"
                (← printed? start))

/- What follows the first occurrence of a word. -/
def past? (word : List Char) : List Char → Option (List Char)
  | [] => after? word []
  | c :: cs =>
      match after? word (c :: cs) with
      | some rest => some rest
      | none => past? word cs

/- A comment; `cs` follows the mark that opens it. -/
def comment? (cs : List Char) : Option Scanned :=
  let long : Option (List Char) := do
    let rest ← after? ['-', '-'] (skipSpace cs)
    past? "--\x7d\x7d".toList rest
  (long.orElse fun _ => past? "\x7d\x7d".toList cs).map
    fun rest => (.tag .comment false false, rest)

------------------------------------------------------------
-- Reading Texts
------------------------------------------------------------

/- A backslash that is dropped from before a tag, and what it
   leaves in the text. -/
def escaped? (cs : List Char) :
    Option (List Char × List Char) :=
  match cs with
  | '\\' :: '\x7b' :: '\x7b' :: '\x7b' :: '\x7b' :: rest =>
      some (['\x7b', '\x7b', '\x7b', '\x7b'], rest)
  | '\\' :: '\x7b' :: '\x7b' :: rest =>
      some (['\x7b', '\x7b'], rest)
  | '\\' :: rest =>
      match rest.span (· = '\\') with
      | ([], _) => none
      | (slashes, '\x7b' :: '\x7b' :: rest) =>
          some (slashes, '\x7b' :: '\x7b' :: rest)
      | _ => none
  | _ => none

/- A text up to some opening braces or the end. -/
def textBefore (braces : List Char) :
    Nat → List Char → List Char × List Char
  | 0, cs => ([], cs)
  | _ + 1, [] => ([], [])
  | fuel + 1, c :: cs =>
      match escaped? (c :: cs) with
      | some (kept, rest) =>
          let (text, rest) := textBefore braces fuel rest
          (kept ++ text, rest)
      | none =>
          match after? braces (c :: cs) with
          | some _ => ([], c :: cs)
          | none =>
              let (text, rest) := textBefore braces fuel cs
              (c :: text, rest)

/-
  A block in which tags mean nothing; `cs` follows its four
  braces.
-/
def verbatim? (cs : List Char) :
    Except Error (Option (List Piece × List Char)) := do
  let (trimBefore, start) := mark "~" cs
  let opened :=
    close? trimBefore "\x7d\x7d\x7d\x7d"
      ((← opening? start).map fun (o, rest) =>
        (.opening o, rest))
  match opened with
  | none => .ok none
  | some (opened, rest) =>
      let blanks := rest.takeWhile isSpace
      let start := skipSpace rest
      let (inner, rest) :=
        textBefore "\x7b\x7b\x7b\x7b".toList
          (start.length + 1) start
      let closed : Option Scanned := do
        let rest ← after? "\x7b\x7b\x7b\x7b".toList rest
        let (trimBefore, rest) := mark "~" rest
        let rest ← after? ['/'] rest
        let (name, rest) ← name? (skipSpace rest)
        close? trimBefore "\x7d\x7d\x7d\x7d"
          (some (.closing name, rest))
      .ok (closed.map fun (closed, rest) =>
        ([opened, .verbatim blanks inner, closed], rest))

/- The pieces of the next tag; `cs` follows two braces. -/
def tag? (cs : List Char) :
    Except Error (Option (List Piece × List Char)) :=
  match cs with
  | '\x7b' :: '\x7b' :: rest => verbatim? rest
  | '\x7b' :: rest => do
      .ok ((← braced? rest).map fun (p, rest) => ([p], rest))
  | '!' :: rest =>
      .ok ((comment? rest).map fun (p, rest) => ([p], rest))
  | _ => do
      .ok ((← plain? cs).map fun (p, rest) => ([p], rest))

/- The pieces of a text. -/
def Piece.scanWithin :
    Nat → List Char → Except Error (List Piece)
  | 0, _ => .error .malformed
  | fuel + 1, cs =>
      match cs with
      | [] => .ok []
      | '\x7b' :: '\x7b' :: rest => do
          match ← tag? rest with
          | none => .error .malformed
          | some (pieces, rest) =>
              .ok (pieces ++ (← scanWithin fuel rest))
      | _ => do
          let (run, rest) :=
            textBefore ['\x7b', '\x7b'] (cs.length + 1) cs
          .ok (.text run :: (← scanWithin fuel rest))

/- Take a template apart into texts and tags. -/
def Piece.scan (source : String) :
    Except Error (List Piece) :=
  let cs := source.toList
  Piece.scanWithin (cs.length + 1) cs

------------------------------------------------------------
-- Blanks
------------------------------------------------------------

/- Blanks that do not end a line. -/
def isGap (c : Char) : Bool :=
  c = ' ' || c = '\t'

/- The characters that end a line. -/
def isNewline (c : Char) : Bool :=
  c = '\n' || c = '\r'

/- Drop characters from the end. -/
def trimEnd (drop : Char → Bool) (cs : List Char) :
    List Char :=
  (cs.reverse.dropWhile drop).reverse

/- The blanks after the last character that is none. -/
def lastBlanks (cs : List Char) : List Char :=
  (cs.reverse.takeWhile isGap).reverse

/- Whether a text ends in an empty line; `first` tells that
   nothing comes before the text. -/
def endsLine (first : Bool) (cs : List Char) : Bool :=
  match cs.reverse.dropWhile isGap with
  | [] => first
  | c :: _ => isNewline c

/- Whether a text starts with an empty line. -/
def startsLine (cs : List Char) : Bool :=
  match cs.dropWhile isGap with
  | [] => false
  | c :: _ => isNewline c

/- Whether nothing else follows on the line. -/
def lineIsOver : List Piece → Bool
  | [] => true
  | .text cs :: _ => startsLine cs
  | .verbatim blanks cs :: _ => startsLine (blanks ++ cs)
  | .tag _ _ _ :: _ => false

/- Drop the rest of a line that holds blanks only. -/
def dropLine (cs : List Char) : List Char :=
  match cs.dropWhile isGap with
  | '\r' :: '\n' :: rest => rest
  | '\n' :: rest => rest
  | rest => rest

/-
  What the tags so far mean for the next text.
    * `dropBlanks`: blanks at its start are dropped
    * `dropLine`: the rest of the line is dropped
    * `first`: nothing has been read
-/
structure Margin where
  dropBlanks : Bool
  dropLine : Bool
  first : Bool

namespace Margin

/- Nothing has been read, and nothing is to be dropped. -/
def start : Margin :=
  ⟨false, false, true⟩

/- Settle the start of a text. -/
def settleStart (m : Margin) (cs : List Char) : List Char :=
  if m.dropBlanks then Blank.skip cs
  else if m.dropLine then Template.dropLine cs
  else cs

/- Settle the end of a text before a tag. -/
def settleEnd
    (m : Margin)
    (written cs : List Char) :
    List Piece → List Char
  | .tag tag trimBefore _ :: rest =>
      let cs :=
        if trimBefore then trimEnd Blank.isBlank cs else cs
      if tag.takesLine && !tag.keepsIndent &&
          lineIsOver rest && endsLine m.first written then
        trimEnd isGap cs
      else cs
  | _ => cs

/- The margin after a tag; `written` is the text before. -/
def afterTag
    (m : Margin)
    (tag : Tag)
    (trimAfter : Bool)
    (written : List Char)
    (rest : List Piece) : Margin :=
  let alone := lineIsOver rest && endsLine m.first written
  match tag with
  | .comment => ⟨m.dropBlanks, alone, false⟩
  | tag =>
      ⟨trimAfter,
        if tag.takesLine then alone else m.dropLine, false⟩

end Margin

/-
  Settle the blanks of all pieces.  `written` is the text
  just before, as it was written.
-/
def Piece.settleFrom (m : Margin) (written : List Char) :
    List Piece → List Piece
  | [] => []
  | .text cs :: rest =>
      if m.dropBlanks && cs.all isSpace then
        settleFrom m cs rest
      else
        let settled :=
          m.settleEnd cs (m.settleStart cs) rest
        .text settled ::
          settleFrom ⟨m.dropBlanks, false, m.first⟩ cs rest
  | .verbatim blanks cs :: rest =>
      let written := blanks ++ cs
      .text (m.settleEnd written (m.settleStart cs) rest) ::
        settleFrom m written rest
  | .tag t trimBefore trimAfter :: rest =>
      let blanks :=
        if trimBefore then [] else lastBlanks written
      .tag (t.indented blanks) trimBefore trimAfter ::
        settleFrom (m.afterTag t trimAfter written rest) []
          rest

/- Drop the blanks and lines that tags take with them. -/
def Piece.settle (pieces : List Piece) : List Piece :=
  settleFrom .start [] pieces

end Template

end Preview
