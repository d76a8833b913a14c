import Preview.Template.Piece

/-
  Templates as trees.

  A block holds the nodes between its opening and its closing
  tag; the nodes of its other branch come after an `else`.
  An `else` with a helper of its own is a block in that
  branch.  Inclusions and definitions of parts may hold nodes
  as well, but have no other branch.

  Key definitions include:
    * `Template.Node`
    * `Template.Node.ofPieces`
    * `Template.Node.ofText`
-/

namespace Preview

namespace Template

/- A part of a template. -/
inductive Node where
  | text (cs : List Char)
  | value (term : Term)
  | computed (term : Term)
  | block
    (opening : Opening)
    (body : List Node)
    (otherwise : Option (List Node))
  | inclusion
    (inclusion : Inclusion)
    (body : Option (List Node))
  | definition
    (opening : Opening)
    (body : Option (List Node))
deriving Inhabited

/-
  The branches of a block that has not been closed.
    * `ended` are the branches that ended, latest first, and
      `opening` opens the one that has not
    * `body` is set once the last branch has begun
-/
structure Branches where
  ended : List (Opening × List Node)
  opening : Opening
  body : Option (List Node)

namespace Branches

/- A block that opens. -/
def start (opening : Opening) : Branches :=
  ⟨[], opening, none⟩

/- The helper that the closing tag has to name. -/
def helper (b : Branches) : String :=
  match b.ended.getLast? with
  | some (opening, _) => opening.helper
  | none => b.opening.helper

/- Begin a branch with a helper of its own; `nodes` are those
   of the branch that ends. -/
def chain? (b : Branches) (opening : Opening)
    (nodes : List Node) : Option Branches :=
  match b.body with
  | none => some ⟨(b.opening, nodes) :: b.ended, opening, none⟩
  | some _ => none

/- Begin the last branch. -/
def last? (b : Branches) (nodes : List Node) :
    Option Branches :=
  match b.body with
  | none => some { b with body := some nodes }
  | some _ => none

/- The block whose last branch ends. -/
def close (b : Branches) (nodes : List Node) : Node :=
  let innermost :=
    match b.body with
    | some body => Node.block b.opening body (some nodes)
    | none => Node.block b.opening nodes none
  b.ended.foldl
    (fun inner (opening, body) =>
      Node.block opening body (some [inner]))
    innermost

end Branches

/- What has been opened and not been closed. -/
inductive Open where
  | block (branches : Branches)
  | inclusion (inclusion : Inclusion)
  | definition (opening : Opening)

namespace Open

/- The name that the closing tag has to repeat. -/
def name? : Open → Option String
  | block b => some b.helper
  | definition o => some o.helper
  | inclusion i =>
      match i.name with
      | .written name => some name
      | .computed _ => none

/- The node of what has been open, once its nodes are known. -/
def close (nodes : List Node) : Open → Node
  | block b => b.close nodes
  | inclusion i => .inclusion i (some nodes)
  | definition o => .definition o (some nodes)

end Open

/- Something open, and the nodes before it, latest first. -/
structure Frame where
  inside : Open
  outer : List Node

/- The blocks around a place and the nodes before it. -/
structure Nest where
  frames : List Frame
  nodes : List Node

namespace Nest

/- Put a node after the others. -/
def add (n : Nest) (node : Node) : Nest :=
  { n with nodes := node :: n.nodes }

/- Go inside something that has been opened. -/
def enter (n : Nest) (inside : Open) : Nest :=
  ⟨⟨inside, n.nodes⟩ :: n.frames, []⟩

/- Change the branches of the innermost block. -/
def branch (n : Nest)
    (change : Branches → List Node → Option Branches) :
    Except Error Nest :=
  match n.frames with
  | ⟨.block b, outer⟩ :: frames =>
      match change b n.nodes.reverse with
      | some b => .ok ⟨⟨.block b, outer⟩ :: frames, []⟩
      | none => .error .malformed
  | _ => .error .malformed

/- Leave what was opened last. -/
def leave (n : Nest) (name : String) : Except Error Nest :=
  match n.frames with
  | [] => .error .malformed
  | ⟨inside, outer⟩ :: frames =>
      if inside.name? = some name then
        .ok ⟨frames, inside.close n.nodes.reverse :: outer⟩
      else .error (.mismatched (inside.name?.getD "") name)

/- Take up one tag. -/
def step (n : Nest) : Tag → Except Error Nest
  | .comment => .ok n
  | .value term => .ok (n.add (.value term))
  | .computed term => .ok (n.add (.computed term))
  | .inclusion i => .ok (n.add (.inclusion i none))
  | .definition o => .ok (n.add (.definition o none))
  | .opening o => .ok (n.enter (.block (.start o)))
  | .including i => .ok (n.enter (.inclusion i))
  | .defining o => .ok (n.enter (.definition o))
  | .chained o => n.branch (·.chain? o)
  | .otherwise => n.branch (·.last?)
  | .closing name => n.leave name

/- Take up the pieces of a template. -/
def run (n : Nest) : List Piece → Except Error Nest
  | [] => .ok n
  | .tag tag _ _ :: rest => do run (← n.step tag) rest
  | .text cs :: rest => run (n.add (.text cs)) rest
  | .verbatim _ cs :: rest => run (n.add (.text cs)) rest

end Nest

namespace Node

/- The nodes of a list of pieces whose blocks all close. -/
def ofPieces (pieces : List Piece) :
    Except Error (List Node) := do
  let nest ← Nest.run ⟨[], []⟩ pieces
  if nest.frames.isEmpty then .ok nest.nodes.reverse
  else .error .malformed

/- The nodes of a template text. -/
def ofText (source : String) : Except Error (List Node) := do
  ofPieces (Piece.settle (← Piece.scan source))

end Node

end Template

end Preview
