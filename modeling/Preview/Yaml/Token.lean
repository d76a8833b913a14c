import Preview.Yaml.Scalar

/-
  The tokens of YAML text.

  Indentation is turned into tokens that open and close block
  collections.  A key without an indicator is recognised only
  when the colon after it is met; the tokens that announce it
  are then put before it, so the scan remembers for every
  open flow collection where a key could have started.

  Key definitions include:
    * `Yaml.Token`
    * `Yaml.Scan`
    * `Yaml.Scan.next?`
    * `Yaml.Token.scan?`
-/

namespace Preview

namespace Yaml

------------------------------------------------------------
-- Tokens
------------------------------------------------------------

/- A directive, a mark of a document, a sign of a collection, or
   what stands in one; blocks are opened and closed by tokens
   that have no text of their own. -/
inductive Token where
  | version (major minor : Nat)
  | tagDirective (handle expansion : String)
  | documentStart
  | documentEnd
  | streamEnd
  | blockSequence
  | blockMapping
  | blockEnd
  | flowSequence
  | flowSequenceEnd
  | flowMapping
  | flowMappingEnd
  | blockEntry
  | flowEntry
  | key
  | value
  | aliased (name : String)
  | anchor (name : String)
  | tag (handle suffix : String)
  | scalar (text : String) (plain : Bool)
deriving DecidableEq, Repr

------------------------------------------------------------
-- Scan State
------------------------------------------------------------

/- A place where a key without an indicator may start. -/
structure KeyStart where
  required : Bool
  number : Nat
  index : Nat
  line : Nat
  column : Nat

/-
  The state of a scan.  Tokens are held reversed; there is one
  possible key for the block context and one for every open
  flow collection, the innermost first.
-/
structure Scan where
  cursor : Cursor
  tokens : List Token
  indent : Int
  indents : List Int
  keyAllowed : Bool
  keys : List (Option KeyStart)
  finished : Bool

namespace Scan

/- The scan of a text that begins. -/
def start (cs : List Char) : Scan :=
  { cursor := ⟨cs, 0, 0, 0⟩
    tokens := []
    indent := -1
    indents := []
    keyAllowed := true
    keys := [none]
    finished := false }

/- Whether the scan is inside a flow collection. -/
def inFlow (s : Scan) : Bool :=
  1 < s.keys.length

/- Put a token after those scanned so far. -/
def emit (s : Scan) (t : Token) : Scan :=
  { s with tokens := t :: s.tokens }

/- Put a token before the one with the given number. -/
def emitAt (s : Scan) (number : Nat) (t : Token) : Scan :=
  let after := s.tokens.length - number
  { s with
    tokens :=
      s.tokens.take after ++ t :: s.tokens.drop after }

------------------------------------------------------------
-- Possible Keys
------------------------------------------------------------

/- Give up the possible key of the innermost collection. -/
def dropKey? (s : Scan) : Option Scan :=
  match s.keys with
  | some k :: r =>
      if k.required then none
      else some { s with keys := none :: r }
  | _ => some s

/-
  Give up the possible keys that are on an earlier line or
  more than 1024 characters back.
-/
def dropStaleKeys? (s : Scan) : Option Scan := do
  let keys ← s.keys.mapM fun k =>
    match k with
    | none => some none
    | some k =>
        if k.line < s.cursor.line ∨
            k.index + 1024 < s.cursor.index then
          if k.required then none else some none
        else some (some k)
  return { s with keys := keys }

/- Remember this place if a key may start here. -/
def saveKey? (s : Scan) : Option Scan :=
  if s.keyAllowed then do
    let c := s.cursor
    let k : KeyStart :=
      { required := !s.inFlow && s.indent == c.column
        number := s.tokens.length
        index := c.index
        line := c.line
        column := c.column }
    let s ← s.dropKey?
    return { s with keys := some k :: s.keys.drop 1 }
  else some s

------------------------------------------------------------
-- Indentation
------------------------------------------------------------

/- Open a block collection at a column beyond the indent. -/
def openBlock
    (s : Scan)
    (column : Nat)
    (number : Option Nat)
    (t : Token) : Scan :=
  if s.inFlow || s.indent ≥ column then s
  else
    let s := { s with
      indents := s.indent :: s.indents
      indent := column }
    match number with
    | none => s.emit t
    | some n => s.emitAt n t

/- Close the block collections beyond a column. -/
def closeBlocksFrom (column : Int) :
    List Int → Int → List Token → Int × List Int × List Token
  | [], indent, ts => (indent, [], ts)
  | i :: is, indent, ts =>
      if column < indent then
        closeBlocksFrom column is i (.blockEnd :: ts)
      else (indent, i :: is, ts)

/- Close the blocks whose items start after a column. -/
def closeBlocks (s : Scan) (column : Int) : Scan :=
  if s.inFlow then s
  else
    let (indent, indents, tokens) :=
      closeBlocksFrom column s.indents s.indent s.tokens
    { s with
      indent := indent
      indents := indents
      tokens := tokens }

------------------------------------------------------------
-- Gaps
------------------------------------------------------------

/- Pass blanks, comments and line breaks before a token. -/
def skipGap : Nat → Scan → Scan
  | 0, s => s
  | fuel + 1, s =>
      let c := s.cursor
      let c :=
        if c.index = 0 ∧ startsWith byteOrderMark c.rest then
          c.advance 1
        else c
      let tabs := s.inFlow || !s.keyAllowed
      let c := (c.span
        (fun d => d = ' ' || (tabs && d = '\t'))).2
      let c := c.skipComment
      match c.rest with
      | [] => { s with cursor := c }
      | d :: _ =>
          if isBreak d then
            skipGap fuel { s with
              cursor := c.advanceLine
              keyAllowed := s.keyAllowed || !s.inFlow }
          else { s with cursor := c }

------------------------------------------------------------
-- Directives
------------------------------------------------------------

/- A handle: an exclamation mark, a name and maybe a second
   exclamation mark, which a directive insists on. -/
def handle? (directive : Bool) (c : Cursor) :
    Option (List Char × Cursor) :=
  if !startsWith '!' c.rest then none
  else
    let (name, c) := (c.advance 1).span isName
    if startsWith '!' c.rest then
      some ('!' :: name ++ ['!'], c.advance 1)
    else if directive && !name.isEmpty then none
    else some ('!' :: name, c)

/- The characters of a tag that stand for themselves. -/
def isUriMark (verbatim : Bool) (c : Char) : Bool :=
  isName c || ";/?:@&=+$.%!~*'()".toList.contains c ||
    (verbatim && ",[]".toList.contains c)

/- A byte written as a percent sign and two digits. -/
def byte? : List Char → Option (Nat × List Char)
  | '%' :: a :: b :: r => do
      let n ← Digits.toNatIn? 16 [a, b]
      return (n, r)
  | _ => none

/- Further bytes of an encoded character. -/
def trailBytes? :
    Nat → Nat → List Char → Option (Nat × List Char)
  | 0, n, cs => some (n, cs)
  | k + 1, n, cs => do
      let (b, cs) ← byte? cs
      if b / 64 = 2 then trailBytes? k (64 * n + b % 64) cs
      else none

/- A character encoded by percent signs, and its length. -/
def encodedChar? (cs : List Char) :
    Option (Char × Nat) := do
  let (b, r) ← byte? cs
  let (n, more) ←
    if b < 0x80 then some (b, 0)
    else if b / 32 = 6 then some (b % 32, 1)
    else if b / 16 = 14 then some (b % 16, 2)
    else if b / 8 = 30 then some (b % 8, 3)
    else none
  let (n, _) ← trailBytes? more n r
  let ch ← Scalar.ofCode? n
  return (ch, 3 * (more + 1))

/- The characters of a tag with their escapes resolved. -/
def uriRun? (verbatim : Bool) :
    Nat → List Char → Cursor → Option (List Char × Cursor)
  | 0, done, c => some (done.reverse, c)
  | fuel + 1, done, c =>
      match c.rest with
      | [] => some (done.reverse, c)
      | d :: _ =>
          if d = '%' then do
            let (x, n) ← encodedChar? c.rest
            uriRun? verbatim fuel (x :: done) (c.advance n)
          else if isUriMark verbatim d then
            uriRun? verbatim fuel (d :: done) (c.advance 1)
          else some (done.reverse, c)

/- A name of the characters of URIs. -/
def uri? (verbatim mayBeEmpty : Bool) (c : Cursor) :
    Option (List Char × Cursor) := do
  let (u, c) ← uriRun? verbatim c.rest.length [] c
  if u.isEmpty && !mayBeEmpty then none else return (u, c)

/- A version number of up to nine digits. -/
def versionNumber? (c : Cursor) : Option (Nat × Cursor) :=
  let (ds, c) := c.span Digits.isDigit
  if ds.isEmpty ∨ 9 < ds.length then none
  else some (Digits.toNat ds, c)

/- A directive, which takes a whole line. -/
def directive? (c : Cursor) : Option (Token × Cursor) := do
  let (name, c) := (c.advance 1).span isName
  if name.isEmpty || !atGap c.rest then none
  let (t, c) ←
    if name = "YAML".toList then do
      let (major, c) ← versionNumber? c.skipBlanks
      if !startsWith '.' c.rest then none
      let (minor, c) ← versionNumber? (c.advance 1)
      pure (Token.version major minor, c)
    else if name = "TAG".toList then do
      let (h, c) ← handle? true c.skipBlanks
      if !(c.rest.head?.any isBlank) then none
      let (u, c) ← uri? true false c.skipBlanks
      if !atGap c.rest then none
      pure
        (Token.tagDirective (String.ofList h)
          (String.ofList u), c)
    else none
  let c := c.skipBlanks.skipComment
  if !atLineEnd c.rest then none
  return (t, c.advanceLine)

------------------------------------------------------------
-- Anchors and Tags
------------------------------------------------------------

/- The name of an anchor or alias. -/
def anchorName? (c : Cursor) :
    Option (String × Cursor) :=
  let (name, c) := (c.advance 1).span isName
  let ends : Bool :=
    atGap c.rest ||
      c.rest.head?.any
        ("?:,]\x7d%@`".toList.contains ·)
  if name.isEmpty || !ends then none
  else some (String.ofList name, c)

/- A tag: in angle brackets, by a handle and a suffix, or by one
   mark alone. -/
def tag? (flow : Bool) (c : Cursor) :
    Option (Token × Cursor) := do
  let (handle, suffix, c) ←
    match c.rest with
    | _ :: '<' :: _ => do
        let (u, c) ← uri? true false (c.advance 2)
        if !startsWith '>' c.rest then none
        pure ([], u, c.advance 1)
    | _ => do
        let (h, c) ← handle? false c
        if 2 ≤ h.length ∧ h.getLast? = some '!' then do
          let (u, c) ← uri? false false c
          pure (h, u, c)
        else do
          let (u, c) ← uri? false true c
          let u := h.drop 1 ++ u
          if u.isEmpty then pure ([], ['!'], c)
          else pure (['!'], u, c)
  if atGap c.rest || (flow && startsWith ',' c.rest) then
    some
      (.tag (String.ofList handle) (String.ofList suffix), c)
  else none

------------------------------------------------------------
-- Single Tokens
------------------------------------------------------------

/- A mark that starts or ends a document. -/
def documentMark? (s : Scan) (t : Token) : Option Scan := do
  let s ← (s.closeBlocks (-1)).dropKey?
  return { s.emit t with
    cursor := s.cursor.advance 3
    keyAllowed := false }

/- End the stream, and with it every block. -/
def finish? (s : Scan) : Option Scan := do
  let s ← (s.closeBlocks (-1)).dropKey?
  return { s.emit .streamEnd with
    keyAllowed := false
    finished := true }

/- Open a flow collection; a key may start inside it. -/
def flowOpen? (s : Scan) (t : Token) : Option Scan := do
  let s ← s.saveKey?
  return { s.emit t with
    cursor := s.cursor.advance 1
    keyAllowed := true
    keys := none :: s.keys }

/- Close a flow collection. -/
def flowClose? (s : Scan) (t : Token) : Option Scan := do
  let s ← s.dropKey?
  return { s.emit t with
    cursor := s.cursor.advance 1
    keyAllowed := false
    keys := if s.inFlow then s.keys.drop 1 else s.keys }

/- Go on to the next entry of a flow collection. -/
def flowEntry? (s : Scan) : Option Scan := do
  let s ← s.dropKey?
  return { s.emit .flowEntry with
    cursor := s.cursor.advance 1
    keyAllowed := true }

/- Go on to the next entry of a block sequence, which its first
   entry opens. -/
def blockEntry? (s : Scan) : Option Scan := do
  if !s.inFlow && !s.keyAllowed then none
  let s := s.openBlock s.cursor.column none .blockSequence
  let s ← s.dropKey?
  return { s.emit .blockEntry with
    cursor := s.cursor.advance 1
    keyAllowed := true }

/- Mark a key, which opens a block mapping outside flows. -/
def key? (s : Scan) : Option Scan := do
  if !s.inFlow && !s.keyAllowed then none
  let s := s.openBlock s.cursor.column none .blockMapping
  let s ← s.dropKey?
  return { s.emit .key with
    cursor := s.cursor.advance 1
    keyAllowed := !s.inFlow }

/- Mark a value; what may have been a key is one now, and may
   open a block mapping where it began. -/
def value? (s : Scan) : Option Scan := do
  let s ←
    match s.keys with
    | some k :: r =>
        let s := { s with keys := none :: r }
        let s := s.emitAt k.number .key
        let s := s.openBlock k.column (some k.number)
          .blockMapping
        some { s with keyAllowed := false }
    | _ =>
        if !s.inFlow && !s.keyAllowed then none
        else
          let s := s.openBlock s.cursor.column none
            .blockMapping
          some { s with keyAllowed := !s.inFlow }
  return { s.emit .value with cursor := s.cursor.advance 1 }

/- A token that may itself be a key. -/
def keyable?
    (s : Scan)
    (read : Cursor → Option (Token × Cursor)) :
    Option Scan := do
  let s ← s.saveKey?
  let (t, c) ← read s.cursor
  return { s.emit t with cursor := c, keyAllowed := false }

/- Scan a scalar without quotes. -/
def plain? (s : Scan) : Option Scan := do
  let s ← s.saveKey?
  let (text, broken, c) ←
    Scalar.plain? s.inFlow (s.indent + 1).toNat s.cursor
  return { s.emit (.scalar (String.ofList text) true) with
    cursor := c
    keyAllowed := broken }

/- Scan a scalar that stands on lines of its own. -/
def block? (s : Scan) (literal : Bool) : Option Scan := do
  let s ← s.dropKey?
  let (text, c) ← Scalar.block? literal s.indent s.cursor
  return { s.emit (.scalar (String.ofList text) false) with
    cursor := c
    keyAllowed := true }

/- Scan a scalar in quotes, which may be a key. -/
def quoted? (s : Scan) (single : Bool) : Option Scan :=
  s.keyable? fun c => do
    let (text, c) ← Scalar.quoted? single c
    return (.scalar (String.ofList text) false, c)

/- Whether a plain scalar may start here. -/
def plainStarts (flow : Bool) : List Char → Bool
  | [] => false
  | c :: r =>
      if c = '-' then !(r.head?.any isBlank)
      else if c = '?' || c = ':' then !flow && !atGap r
      else
        !(isBlank c || isBreak c ||
          ",[]\x7b\x7d#&*!|>'\"%@`".toList.contains c)

------------------------------------------------------------
-- The Scan
------------------------------------------------------------

/- Read the next token, with the tokens it implies. -/
def next? (s : Scan) : Option Scan := do
  let s := skipGap (s.cursor.rest.length + 1) s
  let s ← s.dropStaleKeys?
  let s := s.closeBlocks s.cursor.column
  let rest := s.cursor.rest
  match rest with
  | [] => s.finish?
  | c :: r =>
      if s.cursor.column = 0 ∧ c = '%' then do
        let s ← (s.closeBlocks (-1)).dropKey?
        let (t, k) ← directive? s.cursor
        return { s.emit t with
          cursor := k
          keyAllowed := false }
      else if s.cursor.atDocumentMark then
        s.documentMark?
          (if c = '-' then .documentStart else .documentEnd)
      else if c = '[' then s.flowOpen? .flowSequence
      else if c = '\x7b' then s.flowOpen? .flowMapping
      else if c = ']' then s.flowClose? .flowSequenceEnd
      else if c = '\x7d' then s.flowClose? .flowMappingEnd
      else if c = ',' then s.flowEntry?
      else if c = '-' && atGap r then s.blockEntry?
      else if c = '?' && (s.inFlow || atGap r) then s.key?
      else if c = ':' && (s.inFlow || atGap r) then s.value?
      else if c = '*' then
        s.keyable? fun k =>
          (anchorName? k).map fun (n, k) => (.aliased n, k)
      else if c = '&' then
        s.keyable? fun k =>
          (anchorName? k).map fun (n, k) => (.anchor n, k)
      else if c = '!' then s.keyable? (tag? s.inFlow)
      else if c = '|' && !s.inFlow then s.block? true
      else if c = '>' && !s.inFlow then s.block? false
      else if c = '\'' then s.quoted? true
      else if c = '"' then s.quoted? false
      else if plainStarts s.inFlow rest then s.plain?
      else none

/- Scan tokens up to the end of the stream. -/
def run? : Nat → Scan → Option Scan
  | 0, _ => none
  | fuel + 1, s => do
      let s ← s.next?
      if s.finished then some s else run? fuel s

end Scan

/- The tokens of a text. -/
def Token.scan? (cs : List Char) : Option (List Token) := do
  if !cs.all admits then none
  let cs :=
    if startsWith byteOrderMark cs then cs.drop 1 else cs
  let s ← (Scan.start cs).run? (cs.length + 2)
  return s.tokens.reverse

end Yaml

end Preview
