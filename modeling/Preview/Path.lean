/-
  Slash-separated paths of the record store.

  `Path.join` builds a path from segments, `Path.scope` turns
  a path into the text that every path below it starts with,
  `Path.relative` removes that text again, and
  `Path.validate` admits the paths that can name one entry.

  Key definitions include:
    * `Path.trim`
    * `Path.join`
    * `Path.scope`
    * `Path.relative`
    * `Path.isSegment`
    * `Path.validate`
-/

namespace Preview

------------------------------------------------------------
-- Faults
------------------------------------------------------------

/- Why a path cannot name an entry. -/
inductive PathError where
  | empty
  | emptySegment (path : String)
deriving DecidableEq, Repr

namespace PathError

/- The text of an error, with the path it is about. -/
def message : PathError → String
  | empty => "empty path"
  | emptySegment path => "empty segment in " ++ path

end PathError

------------------------------------------------------------
-- Paths
------------------------------------------------------------

namespace Path

/- The character between the segments of a path. -/
def isSlash (c : Char) : Bool :=
  c == '/'

/- Drop the slashes at both ends. -/
def trim (cs : List Char) : List Char :=
  ((cs.dropWhile isSlash).reverse.dropWhile isSlash).reverse

/- The trimmed segments that are not empty. -/
def pieces (segments : List String) : List (List Char) :=
  (segments.map (fun s => trim s.toList)).filter
    (fun cs => !cs.isEmpty)

/-
  Join segments with single slashes, ignoring slashes at
  their ends and segments that hold nothing else.
-/
def join (segments : List String) : String :=
  String.ofList (List.intercalate ['/'] (pieces segments))

/-
  The text that the paths below `path` start with.  It ends
  in a slash, so `a/b` covers `a/b/c` and not `a/bc`; the
  empty path covers everything.
-/
def scopeChars (path : String) : List Char :=
  match trim path.toList with
  | [] => []
  | cs => cs ++ ['/']

/- What the keys below a path start with. -/
def scope (path : String) : String :=
  String.ofList (scopeChars path)

/- What follows `start` in a path, if anything does. -/
def relative (start path : String) : Option String :=
  let s := start.toList
  let p := path.toList
  if s.isPrefixOf p && s.length < p.length then
    some (String.ofList (p.drop s.length))
  else
    none

/- Whether a text is exactly one path segment. -/
def isSegment (s : String) : Bool :=
  !s.toList.isEmpty && !s.toList.any isSlash

/-
  The key of the entry that a path names: the path without
  the slashes at its ends.
-/
def validate (path : String) : Except PathError String :=
  let key := trim path.toList
  if key.isEmpty then
    .error .empty
  else if (key.splitOn '/').any List.isEmpty then
    .error (.emptySegment path)
  else
    .ok (String.ofList key)

end Path

end Preview
