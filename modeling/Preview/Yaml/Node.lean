import Preview.Yaml.Token

/-
  The nodes of a YAML document.

  The tokens of a text describe at most one document here; an
  alias names the anchored node that it stands for by number,
  in the order in which the anchors occur.

  Key definitions include:
    * `Yaml.Node`
    * `Yaml.Document`
    * `Yaml.Compose`
    * `Yaml.Document.ofTokens?`
-/

namespace Preview

namespace Yaml

------------------------------------------------------------
-- Nodes
------------------------------------------------------------

/- A node with its tag, if it has one; an alias stands for the
   anchored node of its number. -/
inductive Node where
  | scalar (tag : Option String) (text : String) (plain : Bool)
  | sequence (tag : Option String) (items : List Node)
  | mapping (tag : Option String) (entries : List (Node × Node))
  | aliased (target : Nat)
deriving Inhabited

namespace Node

/- The node that an absent value stands for. -/
def absent (tag : Option String) : Node :=
  scalar tag "" true

mutual

/- How many marks a node takes: one for a scalar or alias, two
   for a collection beside its parts. -/
def size : Node → Nat
  | scalar _ _ _ => 1
  | sequence _ items => 2 + sizeItems items
  | mapping _ entries => 2 + sizeEntries entries
  | aliased _ => 1

/- The nodes of the items of a sequence together. -/
def sizeItems : List Node → Nat
  | [] => 0
  | n :: ns => size n + sizeItems ns

/- The nodes of the entries of a mapping together. -/
def sizeEntries : List (Node × Node) → Nat
  | [] => 0
  | (k, v) :: es => size k + size v + sizeEntries es

end

end Node

/- A root node and the anchored nodes with their numbers. -/
structure Document where
  root : Option Node
  anchored : List (Nat × Node)
deriving Inhabited

------------------------------------------------------------
-- Composition
------------------------------------------------------------

/- The tokens left, and what is known of tags and anchors. -/
structure Compose where
  tokens : List Token
  handles : List (String × String)
  names : List (String × Nat)
  count : Nat
  anchored : List (Nat × Node)

namespace Compose

/- The next token, if one is left. -/
def peek (s : Compose) : Option Token :=
  s.tokens.head?

/- Pass the next token. -/
def skip (s : Compose) : Compose :=
  { s with tokens := s.tokens.drop 1 }

/- Whether the next token is one of some tokens. -/
def atOneOf (s : Compose) (ts : List Token) : Bool :=
  s.peek.any (ts.contains ·)

/- Spell out the handle of a tag. -/
def expand? (s : Compose) (handle suffix : String) :
    Option String :=
  if handle.isEmpty then some suffix
  else (s.handles.lookup handle).map (· ++ suffix)

/- Number an anchor. -/
def name (s : Compose) : Option String → Compose × Option Nat
  | none => (s, none)
  | some n =>
      ({ s with
          names := (n, s.count) :: s.names
          count := s.count + 1 },
        some s.count)

/- Remember the node of an anchor. -/
def keep (s : Compose) (n : Option Nat) (node : Node) :
    Compose :=
  match n with
  | none => s
  | some n => { s with anchored := (n, node) :: s.anchored }

/- The anchor and tag before a node, in either order. -/
def properties? (s : Compose) :
    Option (Option String × Option String × Compose) :=
  match s.tokens with
  | .anchor n :: .tag h x :: _ => do
      let t ← s.expand? h x
      some (some n, some t, s.skip.skip)
  | .tag h x :: .anchor n :: _ => do
      let t ← s.expand? h x
      some (some n, some t, s.skip.skip)
  | .anchor n :: _ => some (some n, none, s.skip)
  | .tag h x :: _ => do
      let t ← s.expand? h x
      some (none, some t, s.skip)
  | _ => some (none, none, s)

/- The tag of a scalar; a lone exclamation mark is none. -/
def scalarTag (tag : Option String) : Option String :=
  tag.filter (· ≠ "!")

mutual

/-
  A node.  `block` admits block collections, and `indentless`
  a block sequence that is not indented.
-/
def node?
    (fuel : Nat)
    (block indentless : Bool)
    (s : Compose) :
    Option (Node × Compose) :=
  match fuel with
  | 0 => none
  | fuel + 1 =>
      match s.peek with
      | some (.aliased n) => do
          let target ← s.names.lookup n
          some (.aliased target, s.skip)
      | _ => do
          let (anchor, tag, s) ← s.properties?
          let (s, number) := s.name anchor
          let (node, s) ←
            match s.peek with
            | some .blockEntry =>
                if indentless then do
                  let (items, s) ← indentless? fuel s
                  some (Node.sequence tag items, s)
                else if anchor.isSome || tag.isSome then
                  some (Node.absent tag, s)
                else none
            | some (.scalar text plain) =>
                some
                  (Node.scalar (scalarTag tag) text plain,
                    s.skip)
            | some .flowSequence => do
                let (items, s) ← flowItems? fuel true s.skip
                some (Node.sequence tag items, s)
            | some .flowMapping => do
                let (es, s) ← flowEntries? fuel true s.skip
                some (Node.mapping tag es, s)
            | some .blockSequence =>
                if block then do
                  let (items, s) ← blockItems? fuel s.skip
                  some (Node.sequence tag items, s)
                else if anchor.isSome || tag.isSome then
                  some (Node.absent tag, s)
                else none
            | some .blockMapping =>
                if block then do
                  let (es, s) ← blockEntries? fuel s.skip
                  some (Node.mapping tag es, s)
                else if anchor.isSome || tag.isSome then
                  some (Node.absent tag, s)
                else none
            | _ =>
                if anchor.isSome || tag.isSome then
                  some (Node.absent tag, s)
                else none
          some (node, s.keep number node)

/- A node unless one of some tokens comes first. -/
def nodeUnless?
    (fuel : Nat)
    (ends : List Token)
    (block indentless : Bool)
    (s : Compose) :
    Option (Node × Compose) :=
  match fuel with
  | 0 => none
  | fuel + 1 =>
      if s.atOneOf ends then some (Node.absent none, s)
      else node? fuel block indentless s

/- The items of an indented block sequence. -/
def blockItems? (fuel : Nat) (s : Compose) :
    Option (List Node × Compose) :=
  match fuel with
  | 0 => none
  | fuel + 1 =>
      match s.peek with
      | some .blockEntry => do
          let (n, s) ←
            nodeUnless? fuel [.blockEntry, .blockEnd]
              true false s.skip
          let (ns, s) ← blockItems? fuel s
          some (n :: ns, s)
      | some .blockEnd => some ([], s.skip)
      | _ => none

/- The items of a block sequence that is not indented. -/
def indentless? (fuel : Nat) (s : Compose) :
    Option (List Node × Compose) :=
  match fuel with
  | 0 => none
  | fuel + 1 =>
      match s.peek with
      | some .blockEntry => do
          let (n, s) ←
            nodeUnless? fuel
              [.blockEntry, .key, .value, .blockEnd]
              true false s.skip
          let (ns, s) ← indentless? fuel s
          some (n :: ns, s)
      | _ => some ([], s)

/- The entries of a block mapping. -/
def blockEntries? (fuel : Nat) (s : Compose) :
    Option (List (Node × Node) × Compose) :=
  match fuel with
  | 0 => none
  | fuel + 1 =>
      match s.peek with
      | some .blockEnd => some ([], s.skip)
      | some .key => do
          let (k, s) ←
            nodeUnless? fuel [.key, .value, .blockEnd]
              true true s.skip
          let (v, s) ← blockValue? fuel s
          let (es, s) ← blockEntries? fuel s
          some ((k, v) :: es, s)
      | _ => none

/- The value after the key of a block mapping. -/
def blockValue? (fuel : Nat) (s : Compose) :
    Option (Node × Compose) :=
  match fuel with
  | 0 => none
  | fuel + 1 =>
      match s.peek with
      | some .value =>
          nodeUnless? fuel [.key, .value, .blockEnd]
            true true s.skip
      | _ => some (Node.absent none, s)

/- The items of a flow sequence; a key with its value is an
   item that is a mapping of one entry. -/
def flowItems? (fuel : Nat) (first : Bool) (s : Compose) :
    Option (List Node × Compose) :=
  match fuel with
  | 0 => none
  | fuel + 1 =>
      if s.peek = some .flowSequenceEnd then some ([], s.skip)
      else do
        let s ←
          if first then some s
          else if s.peek = some .flowEntry then some s.skip
          else none
        match s.peek with
        | some .flowSequenceEnd => some ([], s.skip)
        | some .key => do
            let s := s.skip
            let ends :=
              [Token.value, .flowEntry, .flowSequenceEnd]
            let (k, s) ←
              if s.atOneOf ends then
                some (Node.absent none, s.skip)
              else node? fuel false false s
            let (v, s) ←
              if s.peek = some .value then
                nodeUnless? fuel
                  [.flowEntry, .flowSequenceEnd]
                  false false s.skip
              else some (Node.absent none, s)
            let (ns, s) ← flowItems? fuel false s
            some (Node.mapping none [(k, v)] :: ns, s)
        | _ => do
            let (n, s) ← node? fuel false false s
            let (ns, s) ← flowItems? fuel false s
            some (n :: ns, s)

/- The entries of a flow mapping; a node without a key mark
   is a key without a value. -/
def flowEntries? (fuel : Nat) (first : Bool) (s : Compose) :
    Option (List (Node × Node) × Compose) :=
  match fuel with
  | 0 => none
  | fuel + 1 =>
      if s.peek = some .flowMappingEnd then some ([], s.skip)
      else do
        let s ←
          if first then some s
          else if s.peek = some .flowEntry then some s.skip
          else none
        match s.peek with
        | some .flowMappingEnd => some ([], s.skip)
        | some .key => do
            let (k, s) ←
              nodeUnless? fuel
                [.value, .flowEntry, .flowMappingEnd]
                false false s.skip
            let (v, s) ←
              if s.peek = some .value then
                nodeUnless? fuel [.flowEntry, .flowMappingEnd]
                  false false s.skip
              else some (Node.absent none, s)
            let (es, s) ← flowEntries? fuel false s
            some ((k, v) :: es, s)
        | _ => do
            let (k, s) ← node? fuel false false s
            let (es, s) ← flowEntries? fuel false s
            some ((k, Node.absent none) :: es, s)

end

------------------------------------------------------------
-- Documents
------------------------------------------------------------

/- The handles that every document knows. -/
def defaultHandles : List (String × String) :=
  [("!", "!"), ("!!", "tag:yaml.org,2002:")]

/- The directives before a document: at most one version, of
   the first generation, and no handle twice. -/
def directives? (versioned : Bool) (declared : List String) :
    List Token → List (String × String) →
      Option (List Token × List (String × String) × Bool)
  | .version major minor :: ts, hs =>
      if versioned || major ≠ 1 ||
          (minor ≠ 1 && minor ≠ 2) then none
      else directives? true declared ts hs
  | .tagDirective h e :: ts, hs =>
      if declared.contains h then none
      else
        directives? versioned (h :: declared) ts ((h, e) :: hs)
  | ts, hs => some (ts, hs, versioned || !declared.isEmpty)

/- The node of a document, if it holds one. -/
def content? (s : Compose) : Option (Node × Compose) :=
  match s.peek with
  | some (.version _ _) => some (Node.absent none, s)
  | some (.tagDirective _ _) => some (Node.absent none, s)
  | some .documentStart => some (Node.absent none, s)
  | some .documentEnd => some (Node.absent none, s)
  | some .streamEnd => some (Node.absent none, s)
  | _ => node? (2 * s.tokens.length + 2) true false s

/- Nothing but document ends follows the document. -/
def endsStream : List Token → Bool
  | .documentEnd :: ts => endsStream ts
  | [.streamEnd] => true
  | _ => false

end Compose

/- The single document that tokens describe. -/
def Document.ofTokens? (ts : List Token) :
    Option Document := do
  if ts = [.streamEnd] then
    return ⟨none, []⟩
  let (rest, handles, directed) ←
    Compose.directives? false [] ts Compose.defaultHandles
  let s : Compose := ⟨rest, handles, [], 0, []⟩
  let s ←
    match rest with
    | .documentStart :: _ => some s.skip
    | _ => if directed then none else some s
  let explicit := rest.head? = some .documentStart
  let (n, s) ←
    if explicit then s.content?
    else
      Compose.node? (2 * s.tokens.length + 2) true false s
  if Compose.endsStream s.tokens then
    return ⟨some n, s.anchored⟩
  else none

/- The one document that a text consists of. -/
def Document.ofText? (text : String) : Option Document := do
  Document.ofTokens? (← Token.scan? text.toList)

------------------------------------------------------------
-- Aliases
------------------------------------------------------------

namespace Node

/- The node that an alias stands for; each use costs one. -/
def deref?
    (anchored : List (Nat × Node))
    (budget : Nat) :
    Node → Option (Node × Nat)
  | aliased n =>
      match budget with
      | 0 => none
      | b + 1 => (anchored.lookup n).map (·, b)
  | node => some (node, budget)

/- Expand the items of a sequence; what one has spent of the
   budget is not left for the next. -/
def expandItems?
    (f : Nat → Node → Option (Node × Nat)) :
    Nat → List Node → Option (List Node × Nat)
  | b, [] => some ([], b)
  | b, n :: ns => do
      let (n, b) ← f b n
      let (ns, b) ← expandItems? f b ns
      some (n :: ns, b)

/- Expand the entries of a mapping, keys and values in turn. -/
def expandEntries?
    (f : Nat → Node → Option (Node × Nat)) :
    Nat → List (Node × Node) →
      Option (List (Node × Node) × Nat)
  | b, [] => some ([], b)
  | b, (k, v) :: es => do
      let (k, b) ← f b k
      let (v, b) ← f b v
      let (es, b) ← expandEntries? f b es
      some ((k, v) :: es, b)

/-
  A node with the nodes that its aliases stand for.  Where
  collections are nested deeper than `depth`, an alias is left
  that no reader can read.
-/
def expand? (anchored : List (Nat × Node)) :
    Nat → Nat → Node → Option (Node × Nat)
  | 0, budget, node => do
      let (node, budget) ← deref? anchored budget node
      match node with
      | scalar tag text plain =>
          some (scalar tag text plain, budget)
      | _ => some (aliased 0, budget)
  | depth + 1, budget, node => do
      let (node, budget) ← deref? anchored budget node
      match node with
      | sequence tag items => do
          let (items, budget) ←
            expandItems? (expand? anchored depth) budget items
          some (sequence tag items, budget)
      | mapping tag entries => do
          let (entries, budget) ←
            expandEntries? (expand? anchored depth) budget
              entries
          some (mapping tag entries, budget)
      | node => some (node, budget)

end Node

/-
  The root of a document without aliases; absent in an empty
  stream.  Collections may be nested 128 deep, and aliases may
  be used a hundred times for every mark of the document.
-/
def Document.expand? (d : Document) : Option (Option Node) :=
  match d.root with
  | none => some none
  | some root =>
      (Node.expand? d.anchored 128 (100 * root.size) root).map
        (fun r => some r.1)

/- The root node of a text that holds one document. -/
def Node.ofText? (text : String) : Option Node := do
  (← Document.ofText? text).expand?.join

end Yaml

end Preview
