import Preview.Config.Setting
import Preview.Text.Blank
import Preview.Text.Escaped

/-
  Settings from environment variables.

  The name of a variable is a path of names behind a common
  start, in any case; two underscores or a dot separate the
  names.  Its value is read as a flag, a number, a list or a
  group if it is written as one, and is a text otherwise.

  Key definitions include:
    * `Variable.path?`
    * `Variable.value`
    * `Variable.settings`
-/

namespace Preview

namespace Variable

------------------------------------------------------------
-- Names
------------------------------------------------------------

/- What is left of a name behind a start in any case. -/
def behind? : List Char → List Char → Option (List Char)
  | [], cs => some cs
  | _ :: _, [] => none
  | s :: ss, c :: cs =>
      if s.toLower = c.toLower then behind? ss cs else none

/- Write the separators of a name as dots. -/
def dotted : List Char → List Char
  | '_' :: '_' :: rest => '.' :: dotted rest
  | c :: rest => c :: dotted rest
  | [] => []

/- The path of names that a variable stands for, unless one
   of them is empty. -/
def path? (start name : String) : Option (List String) := do
  let rest ←
    behind? start.toList (Blank.trim name.toList)
  let key := String.ofList
    ((Blank.trim (dotted rest)).map Char.toLower)
  let names := key.splitOn "."
  if names.all (fun s => !s.isEmpty) then some names else none

------------------------------------------------------------
-- Numbers
------------------------------------------------------------

/- The digits behind an optional sign, and whether the sign
   is a minus. -/
def unsigned : List Char → Bool × List Char
  | '+' :: cs => (false, cs)
  | '-' :: cs => (true, cs)
  | cs => (false, cs)

/- Digits only, and at least one. -/
def isNumeral (cs : List Char) : Bool :=
  !cs.isEmpty && cs.all Digits.isDigit

/- Whether an exponent follows, or nothing. -/
def isExponent : List Char → Bool
  | [] => true
  | c :: cs =>
      (c = 'e' || c = 'E') && isNumeral (unsigned cs).2

/- Whether a text with a point is a number. -/
def isFraction (cs : List Char) : Bool :=
  let cs := (unsigned cs).2
  let whole := cs.takeWhile Digits.isDigit
  match cs.dropWhile Digits.isDigit with
  | '.' :: rest =>
      let digits := rest.takeWhile Digits.isDigit
      !(whole ++ digits).isEmpty &&
        isExponent (rest.dropWhile Digits.isDigit)
  | _ => false

/- An integer of 64 bits. -/
def integer? (cs : List Char) : Option Setting :=
  let (negative, ds) := unsigned cs
  if isNumeral ds then
    let n := Digits.toNat ds
    if negative then
      if n ≤ Nat.pow 2 63 then some (.whole (-(n : Int)))
      else none
    else if n < Nat.pow 2 64 then some (.count n)
    else none
  else none

/- What an unquoted value means. -/
def ofBare (cs : List Char) : Setting :=
  if cs.contains '.' && isFraction cs then .fraction
  else (integer? cs).getD (.text (String.ofList cs))

------------------------------------------------------------
-- Values
------------------------------------------------------------

/- The characters that separate without a meaning. -/
def isSpace (c : Char) : Bool :=
  c = ' ' || c = '\t' || c = '\n' || c = '\x0c' || c = '\r'

/- The characters after such a separation. -/
def skip (cs : List Char) : List Char :=
  cs.dropWhile isSpace

/- The characters that end a bare text. -/
def isSeparator (c : Char) : Bool :=
  c = ',' || c = '\x7b' || c = '\x7d' || c = '[' || c = ']'

/- The characters of a field name that is not quoted. -/
def isIdentifier (c : Char) : Bool :=
  c.isAlphanum || c = '_' || c = '-'

/- The part of a quoted text up to its closing quote, and what
   follows; a backslash protects the next character. -/
def quoted? : List Char → Option (List Char × List Char)
  | [] => none
  | '"' :: rest => some ([], rest)
  | '\\' :: c :: rest =>
      (quoted? rest).map fun (cs, rest) =>
        ('\\' :: c :: cs, rest)
  | c :: rest =>
      (quoted? rest).map fun (cs, rest) => (c :: cs, rest)

/- A quoted text behind its opening quote. -/
def string? (cs : List Char) :
    Option (String × List Char) := do
  let (body, rest) ← quoted? cs
  let text ← Escaped.decode? false false body
  return (String.ofList text, rest)

/- The name of a field. -/
def key? : List Char → Option (String × List Char)
  | '"' :: rest => string? rest
  | cs =>
      let name := cs.takeWhile isIdentifier
      if name.isEmpty then none
      else
        some (String.ofList name, cs.dropWhile isIdentifier)

mutual

/-
  A value, and what follows it.  Every list and every group
  takes up a character, and so does every part of one, so
  twice the length of the text is enough fuel.
-/
def read? : Nat → List Char → Option (Setting × List Char)
  | 0, _ => none
  | fuel + 1, cs => do
      let (s, rest) ←
        match skip cs with
        | 't' :: 'r' :: 'u' :: 'e' :: rest =>
            some (.flag true, rest)
        | 'f' :: 'a' :: 'l' :: 's' :: 'e' :: rest =>
            some (.flag false, rest)
        | '\x7b' :: rest =>
            (readFields? fuel rest).map fun (fs, rest) =>
              (.group fs, rest)
        | '[' :: rest =>
            (readItems? fuel rest).map fun (items, rest) =>
              (.list items, rest)
        | '"' :: rest =>
            (string? rest).map fun (s, rest) =>
              (.text s, rest)
        | '\'' :: rest =>
            match rest with
            | c :: '\'' :: rest =>
                some (.text (String.singleton c), rest)
            | _ => none
        | cs =>
            let bare := cs.takeWhile (fun c => !isSeparator c)
            some (ofBare (Blank.trim bare),
              cs.dropWhile (fun c => !isSeparator c))
      return (s, skip rest)

/- The items of a list, up to its end. -/
def readItems? :
    Nat → List Char → Option (List Setting × List Char)
  | 0, _ => none
  | _, ']' :: rest => some ([], rest)
  | fuel + 1, cs => do
      let (item, rest) ← read? fuel cs
      match rest with
      | ']' :: rest => some ([item], rest)
      | ',' :: rest =>
          let (items, rest) ← readItems? fuel rest
          return (item :: items, rest)
      | _ => none

/- The fields of a group, up to its end; of two fields with
   one name the later one counts. -/
def readFields? :
    Nat → List Char →
      Option (List (String × Setting) × List Char)
  | 0, _ => none
  | _, '\x7d' :: rest => some ([], rest)
  | fuel + 1, cs => do
      let (name, rest) ← key? (skip cs)
      match skip rest with
      | '=' :: rest =>
          let (s, rest) ← read? fuel rest
          match rest with
          | '\x7d' :: rest => some ([(name, s)], rest)
          | ',' :: rest =>
              let (fs, rest) ← readFields? fuel rest
              let fs :=
                if (fs.lookup name).isSome then fs
                else Entries.insert name s fs
              return (fs, rest)
          | _ => none
      | _ => none

end

/- The setting that a value means; a value that is not written
   as a whole is a text as it stands. -/
def value (text : String) : Setting :=
  let cs := text.toList
  match read? (2 * cs.length + 2) cs with
  | some (s, []) => s
  | _ => .text text

------------------------------------------------------------
-- Variables
------------------------------------------------------------

/- The settings of some variables; later ones are laid over
   earlier ones. -/
def settings
    (start : String)
    (env : List (String × String)) : Setting :=
  env.foldl
    (fun s v =>
      match path? start v.1 with
      | some path => ((value v.2).under path).atop s
      | none => s)
    .none

end Variable

end Preview
