/-
  References to values in a template.

  A reference names a value by fields, starting from the
  current value, from the root, or from an enclosing block.
  Fields are names or bracketed texts, separated by points or
  slashes; the field `this` stays where it is.

  Key definitions include:
    * `Template.Step`
    * `Template.Reference`
    * `Template.Reference.scan?`
-/

namespace Preview

namespace Template

------------------------------------------------------------
-- Characters
------------------------------------------------------------

/- Characters of names. -/
def isSymbol (c : Char) : Bool :=
  ('a' ≤ c && c ≤ 'z') || ('A' ≤ c && c ≤ 'Z') ||
    ('0' ≤ c && c ≤ '9') || c = '_' || c = '-' || c = '$' ||
    0x80 ≤ c.toNat

/- What separates the fields of a reference. -/
def isSeparator (c : Char) : Bool :=
  c = '.' || c = '/'

/- Blanks inside a tag and between tags. -/
def isSpace (c : Char) : Bool :=
  c = ' ' || c = '\t' || c = '\n' || c = '\r'

/- What follows the spaces at the start. -/
def skipSpace (cs : List Char) : List Char :=
  cs.dropWhile isSpace

/- The rest of a text after a word that starts it. -/
def after? : List Char → List Char → Option (List Char)
  | [], cs => some cs
  | _ :: _, [] => none
  | w :: ws, c :: cs => if w = c then after? ws cs else none

/- A name at the start of a text. -/
def name? (cs : List Char) : Option (String × List Char) :=
  match cs.span isSymbol with
  | ([], _) => none
  | (name, rest) => some (String.ofList name, rest)

------------------------------------------------------------
-- References
------------------------------------------------------------

/- One step from a value to another. -/
inductive Step where
  | root
  | loopVariable
  | up
  | field (name : String)
deriving DecidableEq, Repr, Inhabited

/- The steps of a reference, and the reference as written. -/
structure Reference where
  steps : List Step
  text : String
deriving DecidableEq, Repr, Inhabited

namespace Reference

/- A word and a separator after it. -/
def separated? (word : String) (cs : List Char) :
    Option (List Char) :=
  match after? word.toList cs with
  | some (c :: rest) => if isSeparator c then some rest else none
  | _ => none

/- A field, which is a name or any text in brackets. -/
def field? (cs : List Char) : Option (String × List Char) :=
  match cs with
  | '[' :: rest =>
      match rest.span (· ≠ ']') with
      | (key, _ :: rest) => some (String.ofList key, rest)
      | _ => none
  | _ => name? cs

/- The steps out of enclosing blocks. -/
def ups : Nat → List Char → List Step × List Char
  | 0, cs => ([], cs)
  | fuel + 1, cs =>
      match separated? ".." cs with
      | none => ([], cs)
      | some rest =>
          let (steps, rest) := ups fuel rest
          (.up :: steps, rest)

/- The step to a field; `this` is no step. -/
def fieldStep (name : String) : List Step :=
  if name = "this" then [] else [.field name]

/- The fields after the first one. -/
def fields : Nat → List Char → List Step × List Char
  | 0, cs => ([], cs)
  | fuel + 1, cs =>
      match cs with
      | [] => ([], [])
      | c :: rest =>
          if !isSeparator c then ([], cs)
          else
            match field? rest with
            | none => ([], cs)
            | some (name, rest) =>
                let (steps, rest) := fields fuel rest
                (fieldStep name ++ steps, rest)

/- A reference at the start of a text. -/
def scan? (cs : List Char) :
    Option (Reference × List Char) := do
  let rest :=
    ((separated? "this" cs).orElse
      (fun _ => after? "./".toList cs)).getD cs
  let (root, rest) :=
    match separated? "@root" rest with
    | some rest => ([Step.root], rest)
    | none => ([], rest)
  let (loop, rest) :=
    match rest with
    | '@' :: rest => ([Step.loopVariable], rest)
    | _ => ([], rest)
  let (outward, rest) := ups rest.length rest
  let (name, rest) ← field? rest
  let (inward, rest) := fields rest.length rest
  let steps :=
    root ++ loop ++ outward ++ fieldStep name ++ inward
  let text :=
    String.ofList (cs.take (cs.length - rest.length))
  some (⟨steps, text⟩, rest)

end Reference

end Template

end Preview
