import Preview.Toml.Scalar
import Preview.Toml.Token
import Preview.Toml.Tree

/-
  TOML documents.

  A document is a list of lines, each with a header or with a
  key and its value.  Values may run over several lines only
  inside the brackets of an array.  A machine reads one token
  at a time and keeps the open values on a stack.

  Key definitions include:
    * `Toml.Frame`
    * `Toml.State`
    * `Toml.Document`
    * `Toml.Document.step?`
    * `Toml.ofText?`
-/

namespace Preview

namespace Toml

------------------------------------------------------------
-- States
------------------------------------------------------------

/- What a value is for: the key of a line, an array with some
   items, or a key of an inline table with some fields. -/
inductive Frame where
  | line (path : List String) (key : String)
  | array (done : List Setting)
  | inline (done : Fields) (path : List String) (key : String)

/- What the parts of a key are for. -/
inductive Target where
  | line
  | header (array : Bool)
  | inline (done : Fields) (stack : List Frame)

/-
  What may come next; the parts of keys are held reversed.
    * `header` has read one bracket
    * `closing` has read one of two closing brackets
    * `date` has read a date and a blank, which a time may
      follow
    * `more` has read a value of an array or inline table
-/
inductive State where
  | start
  | header
  | part (t : Target) (done : List String)
  | parted (t : Target) (done : List String)
  | closing (done : List String)
  | value (stack : List Frame)
  | bare (stack : List Frame) (done : List Char)
  | date (stack : List Frame) (done : List Char)
  | item (done : List Setting) (stack : List Frame)
  | more (done : List Setting) (stack : List Frame)
  | first (stack : List Frame)
  | moreFields (done : Fields) (stack : List Frame)
  | ended

/- The document so far, and the path of the last header. -/
structure Document where
  root : Fields
  path : List String

/- Keys have less than 80 parts, and values nest less than 80
   deep. -/
def limit : Nat := 80

------------------------------------------------------------
-- Values
------------------------------------------------------------

namespace Document

/- Put a finished value where it belongs. -/
def put? (d : Document) (s : Setting) :
    List Frame → Option (Document × State)
  | .line path key :: _ => do
      let root ← within? (define? key s path) d.path d.root
      return ({ d with root }, .ended)
  | .array done :: stack =>
      some (d, .more (done ++ [s]) stack)
  | .inline done path key :: stack => do
      let fs ← define? key s path done
      return (d, .moreFields fs stack)
  | [] => none

/- Begin a value. -/
def begin? (d : Document) (stack : List Frame) :
    Token → Option (Document × State)
  | .word cs => some (d, .bare stack cs)
  | .text _ s => d.put? (.text s) stack
  | .sign '[' =>
      if stack.length < limit then some (d, .item [] stack)
      else none
  | .sign '\x7b' =>
      if stack.length < limit then some (d, .first stack)
      else none
  | _ => none

/- Finish a value that has no quotes. -/
def finish? (d : Document) : State → Option (Document × State)
  | .bare stack done => do d.put? (← scalar? done) stack
  | .date stack done => do d.put? (← scalar? done) stack
  | s => some (d, s)

------------------------------------------------------------
-- Keys
------------------------------------------------------------

/- Read a part of a key. -/
def part? (t : Target) (done : List String) :
    Token → Option State
  | .word cs =>
      if cs.all fun c => c.isAlphanum || c = '_' || c = '-'
      then some (.parted t (String.ofList cs :: done))
      else none
  | .text false s => some (.parted t (s :: done))
  | .blank _ => some (.part t done)
  | _ => none

/- What ends a key; its last part is the key proper. -/
def endKey? (d : Document) (t : Target) (key : String)
    (path : List String) (c : Char) :
    Option (Document × State) :=
  if limit ≤ path.length + 1 then none
  else
    match t, c with
    | .line, '=' => some (d, .value [.line path key])
    | .inline done stack, '=' =>
        some (d, .value (.inline done path key :: stack))
    | .header false, ']' => do
        let root ← within? (openTable? key) path d.root
        return (⟨root, path ++ [key]⟩, .ended)
    | .header true, ']' =>
        some (d, .closing (key :: path.reverse))
    | _, _ => none

/- The array header is complete. -/
def openArray? (d : Document) :
    List String → Option (Document × State)
  | key :: done => do
      let path := done.reverse
      let root ← within? (openItem? key) path d.root
      return (⟨root, path ++ [key]⟩, .ended)
  | [] => none

------------------------------------------------------------
-- Steps
------------------------------------------------------------

/- Read one token when no bare value is being read. -/
def settled? (d : Document) :
    State → Token → Option (Document × State)
  | .start, .newline => some (d, .start)
  | .start, .blank _ => some (d, .start)
  | .start, .sign '[' => some (d, .header)
  | .start, t => (part? .line [] t).map (d, ·)
  | .header, .sign '[' => some (d, .part (.header true) [])
  | .header, t => (part? (.header false) [] t).map (d, ·)
  | .part t done, token => (part? t done token).map (d, ·)
  | .parted t done, .blank _ => some (d, .parted t done)
  | .parted t done, .sign '.' => some (d, .part t done)
  | .parted t (key :: done), .sign c =>
      endKey? d t key done.reverse c
  | .closing done, .sign ']' => openArray? d done
  | .value stack, .blank _ => some (d, .value stack)
  | .value stack, t => begin? d stack t
  | .item done stack, .sign ']' => put? d (.list done) stack
  | .item done stack, .newline => some (d, .item done stack)
  | .item done stack, .blank _ => some (d, .item done stack)
  | .item done stack, t => begin? d (.array done :: stack) t
  | .more done stack, .sign ']' => put? d (.list done) stack
  | .more done stack, .sign ',' => some (d, .item done stack)
  | .more done stack, .newline => some (d, .more done stack)
  | .more done stack, .blank _ => some (d, .more done stack)
  | .first stack, .sign '\x7d' => put? d .none stack
  | .first stack, .blank _ => some (d, .first stack)
  | .first stack, t =>
      (part? (.inline [] stack) [] t).map (d, ·)
  | .moreFields done stack, .sign '\x7d' =>
      put? d (group done) stack
  | .moreFields done stack, .sign ',' =>
      some (d, .part (.inline done stack) [])
  | .moreFields done stack, .blank _ =>
      some (d, .moreFields done stack)
  | .ended, .blank _ => some (d, .ended)
  | .ended, .newline => some (d, .start)
  | _, _ => none

/- Read one token. -/
def step? : Document × State → Token →
    Option (Document × State)
  | (d, .bare stack done), .word cs =>
      some (d, .bare stack (done ++ cs))
  | (d, .bare stack done), .sign '.' =>
      some (d, .bare stack (done ++ ['.']))
  | (d, .bare stack done), .blank ' ' =>
      if isDate done then some (d, .date stack done)
      else do
        let (d, s) ← finish? d (.bare stack done)
        settled? d s (.blank ' ')
  | (d, .date stack done), .word cs =>
      some (d, .bare stack (done ++ ' ' :: cs))
  | (d, s), t => do
      let (d, s) ← finish? d s
      settled? d s t

/- The settings of a document that ends here. -/
def close? (d : Document) (s : State) : Option Setting := do
  let (d, s) ← finish? d s
  match s with
  | .start => some (group d.root)
  | .ended => some (group d.root)
  | _ => none

end Document

/- The settings of a text. -/
def ofText? (text : String) : Option Setting := do
  let ts ← Token.scan? text.toList
  let (d, s) ←
    ts.foldlM Document.step? (⟨[], []⟩, State.start)
  d.close? s

end Toml

end Preview
