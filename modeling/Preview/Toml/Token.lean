import Preview.Text.Escaped

/-
  The tokens of TOML text.

  A text is cut into tokens by a machine that reads one
  character at a time.  Blanks are tokens, because they tell
  the parts of a number from separate words; comments are
  none.

  Key definitions include:
    * `Toml.Quote`
    * `Toml.Token`
    * `Toml.Mode`
    * `Toml.Token.scan?`
-/

namespace Preview

namespace Toml

------------------------------------------------------------
-- Tokens
------------------------------------------------------------

/- Texts with escapes, and texts that stand as they are. -/
inductive Quote where
  | basic
  | literal
deriving DecidableEq

/- The character that opens and closes a quoted text. -/
def Quote.mark : Quote → Char
  | basic => '"'
  | literal => '\''

/-
  A token.
    * `sign` is a bracket, a brace, an equals sign, a comma or
      a dot
    * `word` is a run of letters, digits and signs of numbers
    * `text` is a quoted text, on a line or in a block
-/
inductive Token where
  | blank (c : Char)
  | newline
  | sign (c : Char)
  | word (cs : List Char)
  | text (block : Bool) (value : String)
deriving DecidableEq

/- The characters that are tokens of their own. -/
def isSign (c : Char) : Bool :=
  c = '[' || c = ']' || c = '\x7b' || c = '\x7d' ||
    c = '=' || c = ',' || c = '.'

/- The characters of bare keys and values. -/
def isWord (c : Char) : Bool :=
  c.isAlphanum || c = '_' || c = '-' || c = '+' || c = ':'

/- The way of quoting that a character opens. -/
def quoteOf? (c : Char) : Option Quote :=
  if c = '"' then some .basic
  else if c = '\'' then some .literal
  else none

/-
  The text between quotes.  A line break right after the
  quotes that open a block does not count.
-/
def Token.ofBody? (q : Quote) (block : Bool) (cs : List Char) :
    Option Token :=
  let cs :=
    match block, cs with
    | true, '\n' :: rest => rest
    | _, cs => cs
  let body :=
    match q with
    | .basic => Escaped.decode? block false cs
    | .literal =>
        if cs.all fun c =>
          Escaped.isPlain c || (block && c = '\n')
        then some cs else none
  body.map fun cs => .text block (String.ofList cs)

------------------------------------------------------------
-- Scanning
------------------------------------------------------------

/-
  What the machine is reading; characters are held reversed.
    * `opening` and `paired` have read one and two quotes
    * `inside` tells whether the next character is escaped
    * `closing` has read some quotes in a block
-/
inductive Mode where
  | between
  | comment
  | word (done : List Char)
  | opening (q : Quote)
  | paired (q : Quote)
  | inside (q : Quote) (block escaped : Bool) (done : List Char)
  | closing (q : Quote) (count : Nat) (done : List Char)

namespace Mode

/- A character outside of texts, words and comments. -/
def start? (c : Char) : Option (List Token × Mode) :=
  if Escaped.isSpacing c then some ([.blank c], .between)
  else if c = '\n' then some ([.newline], .between)
  else if c = '#' then some ([], .comment)
  else if isSign c then some ([.sign c], .between)
  else if isWord c then some ([], .word [c])
  else (quoteOf? c).map fun q => ([], .opening q)

/- A character of a text that does not close it. -/
def within? (q : Quote) (block escaped : Bool)
    (done : List Char) (c : Char) : Option Mode :=
  if c = '\n' && !block then none
  else
    let escapes := q = .basic && c = '\\' && !escaped
    some (.inside q block escapes (c :: done))

/- The block that ends with some quotes; more than three of
   them are in part its own. -/
def block? (q : Quote) (count : Nat) (done : List Char) :
    Option Token :=
  Token.ofBody? q true
    (done.reverse ++ List.replicate (count - 3) q.mark)

/- The tokens that the end of the text would complete. -/
def finish? : Mode → Option (List Token)
  | between => some []
  | comment => some []
  | word done => some [.word done.reverse]
  | paired _ => some [.text false ""]
  | closing q count done =>
      if count < 3 then none
      else (block? q count done).map ([·])
  | _ => none

/- Complete a token, and go on with the next character. -/
def next? (m : Mode) (c : Char) :
    Option (List Token × Mode) := do
  let ts ← m.finish?
  let (us, m) ← start? c
  return (ts ++ us, m)

/- Read one character. -/
def step? (m : Mode) (c : Char) : Option (List Token × Mode) :=
  match m with
  | between => start? c
  | comment =>
      if c = '\n' then some ([.newline], .between)
      else if Escaped.isPlain c then some ([], .comment)
      else none
  | word done =>
      if isWord c then some ([], .word (c :: done))
      else m.next? c
  | opening q =>
      if c = q.mark then some ([], .paired q)
      else (within? q false false [] c).map ([], ·)
  | paired q =>
      if c = q.mark then some ([], .inside q true false [])
      else m.next? c
  | inside q block escaped done =>
      if c = q.mark && !escaped then
        if block then some ([], .closing q 1 done)
        else
          (Token.ofBody? q false done.reverse).map
            (fun t => ([t], .between))
      else (within? q block escaped done c).map ([], ·)
  | closing q count done =>
      if c = q.mark then
        if count < 4 then some ([], .closing q (count + 1) done)
        else (block? q 5 done).map (fun t => ([t], .between))
      else if count < 3 then
        (within? q true false
          (List.replicate count q.mark ++ done) c).map ([], ·)
      else m.next? c

/- The tokens of the rest of a text. -/
def scan? (m : Mode) : List Char → Option (List Token)
  | [] => m.finish?
  | c :: cs => do
      let (ts, m) ← m.step? c
      let us ← m.scan? cs
      return ts ++ us

end Mode

/- Write every line break as one character. -/
def lines : List Char → List Char
  | '\r' :: '\n' :: rest => '\n' :: lines rest
  | c :: rest => c :: lines rest
  | [] => []

/- The tokens of a text, which may begin with a mark of its
   encoding. -/
def Token.scan? (cs : List Char) : Option (List Token) :=
  match cs with
  | '\ufeff' :: rest => Mode.between.scan? (lines rest)
  | cs => Mode.between.scan? (lines cs)

end Toml

end Preview
