import Preview.Json.Raw
import Preview.Template.Reference

/-
  The terms inside the tags of a template.

  A term is a JSON literal, a reference, or the call of a
  helper.  A literal with the outer form of a value that is
  none after all makes the whole template malformed, whether
  it is reached or not.

  Key definitions include:
    * `Template.Error`
    * `Template.Term`
    * `Template.Term.scan?`
    * `Template.arguments`
-/

namespace Preview

namespace Template

------------------------------------------------------------
-- Errors
------------------------------------------------------------

/- Why a template has no rendered text. -/
inductive Error where
  | malformed
  | mismatched (opened closed : String)
  | missing (reference : String)
  | unknownHelper (name : String)
  | noArgument (helper : String) (index : Nat)
  | badIndex (key : String)
  | badLevel (level : String)
  | unknownPart (name : String)
  | unknownDefinition (name : String)
  | unnamedPart
  | emptyPart
  | endlessInclusion
deriving DecidableEq, Repr

/- The text of an error. -/
def Error.message : Error → String
  | malformed => "malformed template"
  | mismatched opened closed =>
      "block " ++ opened ++ " is closed as " ++ closed
  | missing reference => "no value for " ++ reference
  | unknownHelper name => "no helper " ++ name
  | noArgument helper index =>
      "helper " ++ helper ++ " has no argument " ++
        toString index
  | badIndex key => "not an index: " ++ key
  | badLevel level => "not a log level: " ++ level
  | unknownPart name => "no part " ++ name
  | unknownDefinition name => "no definition by " ++ name
  | unnamedPart => "a part has no name"
  | emptyPart => "a part has no block"
  | endlessInclusion => "parts include each other endlessly"

------------------------------------------------------------
-- Literals
------------------------------------------------------------

/- Characters that may follow a backslash in a string. -/
def isEscaped (quote c : Char) : Bool :=
  c = quote || c = '\\' || c = '/' || c = 'b' || c = 'f' ||
    c = 'n' || c = 'r' || c = 't'

/- The digits of base sixteen. -/
def isHexDigit (c : Char) : Bool :=
  ('0' ≤ c && c ≤ '9') || ('a' ≤ c && c ≤ 'f') ||
    ('A' ≤ c && c ≤ 'F')

/- What follows the closing quote of a string. -/
def afterString? (quote : Char) :
    List Char → Option (List Char)
  | [] => none
  | '\\' :: 'u' :: a :: b :: c :: d :: rest =>
      if [a, b, c, d].all isHexDigit then
        afterString? quote rest
      else none
  | '\\' :: c :: rest =>
      if isEscaped quote c then afterString? quote rest else none
  | c :: rest =>
      if c = quote then some rest
      else if c = '\\' then none
      else afterString? quote rest

/- Whether a word ends here. -/
def atWordEnd : List Char → Bool
  | [] => true
  | c :: _ => !isSymbol c

/- What follows a word that stands alone. -/
def afterWord? (word : String) (cs : List Char) :
    Option (List Char) :=
  (after? word.toList cs).filter atWordEnd

/- The ten digits. -/
def isDigit (c : Char) : Bool :=
  '0' ≤ c && c ≤ '9'

/- Skip an exponent, if there is one. -/
def skipExponent : List Char → List Char
  | 'E' :: rest =>
      let digits := (after? ['-'] rest).getD rest
      match digits.span isDigit with
      | ([], _) => 'E' :: rest
      | (_, rest) => rest
  | cs => cs

/- What follows a number. -/
def afterNumber? (cs : List Char) : Option (List Char) :=
  let digits := (after? ['-'] cs).getD cs
  match digits.span isDigit with
  | ([], _) => none
  | (_, rest) =>
      let rest := (after? ['.'] rest).getD rest
      let rest := skipExponent (rest.dropWhile isDigit)
      if atWordEnd rest then some rest else none

mutual

/- What follows a literal. -/
def afterLiteral? : Nat → List Char → Option (List Char)
  | 0, _ => none
  | fuel + 1, cs =>
      match cs with
      | '"' :: rest => afterString? '"' rest
      | '\'' :: rest => afterString? '\'' rest
      | '[' :: rest =>
          let rest := skipSpace rest
          match afterLiteral? fuel rest with
          | some rest => afterItems? fuel rest
          | none => afterItems? fuel rest
      | '\x7b' :: rest =>
          let rest := skipSpace rest
          match afterField? fuel rest with
          | some rest => afterFields? fuel rest
          | none => afterFields? fuel rest
      | _ =>
          (afterNumber? cs).orElse fun _ =>
          (afterWord? "null" cs).orElse fun _ =>
          (afterWord? "true" cs).orElse fun _ =>
          afterWord? "false" cs

/- The items after the first one, and the closing bracket. -/
def afterItems? : Nat → List Char → Option (List Char)
  | 0, _ => none
  | fuel + 1, cs =>
      match skipSpace cs with
      | ',' :: rest => do
          afterItems? fuel
            (← afterLiteral? fuel (skipSpace rest))
      | ']' :: rest => some rest
      | _ => none

/- A key and its value. -/
def afterField? : Nat → List Char → Option (List Char)
  | 0, _ => none
  | fuel + 1, cs =>
      let key :=
        match cs with
        | '"' :: rest => afterString? '"' rest
        | '\'' :: rest => afterString? '\'' rest
        | _ => none
      match key.map skipSpace with
      | some (':' :: rest) => afterLiteral? fuel (skipSpace rest)
      | _ => none

/- The fields after the first one, and the closing brace. -/
def afterFields? : Nat → List Char → Option (List Char)
  | 0, _ => none
  | fuel + 1, cs =>
      match skipSpace cs with
      | ',' :: rest => do
          afterFields? fuel
            (← afterField? fuel (skipSpace rest))
      | '\x7d' :: rest => some rest
      | _ => none

end

/- The inside of a single-quoted string in double quotes. -/
def requote : List Char → List Char
  | [] => []
  | '\\' :: '\'' :: rest => '\'' :: requote rest
  | '"' :: rest => '\\' :: '"' :: requote rest
  | c :: rest => c :: requote rest

/- The JSON text of a literal. -/
def literalText (cs : List Char) : String :=
  match cs with
  | '\'' :: rest =>
      String.ofList ('"' :: requote rest.dropLast ++ ['"'])
  | _ => String.ofList cs

------------------------------------------------------------
-- Terms
------------------------------------------------------------

/- A value as a template writes it, a reference into the data,
   or a helper with its arguments. -/
inductive Term where
  | literal (value : Json)
  | reference (ref : Reference)
  | call
    (helper : String)
    (arguments : List Term)
    (named : List (String × Term))
deriving Inhabited

/- What a helper is called with. -/
structure Arguments where
  positional : List Term
  named : List (String × Term)
deriving Inhabited

/- No arguments. -/
def Arguments.empty : Arguments :=
  ⟨[], []⟩

/- Whether no argument is given. -/
def Arguments.isEmpty (a : Arguments) : Bool :=
  a.positional.isEmpty && a.named.isEmpty

/- The words that are no terms. -/
def atKeyword (cs : List Char) : Bool :=
  ["as", "else"].any fun word =>
    match after? word.toList cs with
    | some rest => atWordEnd (skipSpace rest)
    | none => false

mutual

/- A term at the start of a text, if there is one. -/
def Term.scan? :
    Nat → List Char → Except Error (Option (Term × List Char))
  | 0, _ => .ok none
  | fuel + 1, cs =>
      if atKeyword cs then .ok none
      else
        match afterLiteral? (cs.length + 1) cs with
        | some rest =>
            let written := cs.take (cs.length - rest.length)
            match Json.ofText? (literalText written) with
            | some value => .ok (some (.literal value, rest))
            | none => .error .malformed
        | none =>
            match Reference.scan? cs with
            | some (ref, rest) =>
                .ok (some (.reference ref, rest))
            | none =>
                match cs with
                | '(' :: rest => call? fuel (skipSpace rest)
                | _ => .ok none

/- A call up to its closing bracket. -/
def call? :
    Nat → List Char → Except Error (Option (Term × List Char))
  | 0, _ => .ok none
  | fuel + 1, cs => do
      let applied : Option (Term × List Char) ←
        match name? cs with
        | none => .ok none
        | some (helper, rest) => do
            let (args, rest) ← arguments fuel rest
            if args.isEmpty then .ok none
            else
              .ok (some
                (.call helper args.positional args.named, rest))
      let called : Option (Term × List Char) :=
        applied.orElse fun _ =>
          (Reference.scan? cs).map fun (ref, rest) =>
            (.call ref.text [] [], rest)
      match called.map (fun c => (c.1, skipSpace c.2)) with
      | some (term, ')' :: rest) => .ok (some (term, rest))
      | _ => .ok none

/- The arguments at the start of a text. -/
def arguments :
    Nat → List Char → Except Error (Arguments × List Char)
  | 0, cs => .ok (.empty, cs)
  | fuel + 1, cs => do
      let start := skipSpace cs
      let named ← namedTerm? fuel start
      match named with
      | some (field, rest) =>
          let (args, rest) ← arguments fuel rest
          .ok ({ args with named := field :: args.named }, rest)
      | none =>
          match ← Term.scan? fuel start with
          | none => .ok (.empty, cs)
          | some (term, rest) =>
              let (args, rest) ← arguments fuel rest
              .ok
                ({ args with
                    positional := term :: args.positional },
                  rest)

/- A named argument. -/
def namedTerm? :
    Nat → List Char →
      Except Error (Option ((String × Term) × List Char))
  | 0, _ => .ok none
  | fuel + 1, cs =>
      match name? cs with
      | none => .ok none
      | some (name, rest) =>
          match skipSpace rest with
          | '=' :: rest => do
              match ← Term.scan? fuel (skipSpace rest) with
              | none => .ok none
              | some (term, rest) =>
                  .ok (some ((name, term), rest))
          | _ => .ok none

end

end Template

end Preview
