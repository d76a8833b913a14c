import Preview.Status
import Preview.Json.Reader
import Preview.Yaml.Value

/-
  Cluster resources.

  A resource has a kind, a name, labels, annotations and free
  fields; a cluster adds further metadata and a status.  Two
  resources ask for the same state when they agree on all that
  a manifest determines.

  Key definitions include:
    * `Metadata`
    * `Resource`
    * `Resource.sameSpec`
    * `Resource.phase?`
    * `Resource.setPhase`
    * `Resource.replicas?`
    * `Resource.read?`
    * `Resource.ofYaml`
    * `Resource.encode`
-/

namespace Preview

------------------------------------------------------------
-- Resources
------------------------------------------------------------

/- The metadata of a resource; `extra` holds what only a
   cluster assigns. -/
structure Metadata where
  name : String
  space : Option String := none
  labels : Table String := Table.empty
  annotations : Table String := Table.empty
  extra : Table Json := Table.empty
deriving Inhabited

/- A resource as a manifest gives it and as a cluster holds it:
   what is neither type, metadata nor status is its body. -/
structure Resource where
  apiVersion : String
  kind : String
  metadata : Metadata
  status : Option Json := none
  body : Table Json := Table.empty
deriving Inhabited

namespace Resource

/- A resource with nothing but its type and name. -/
def plain (apiVersion kind name : String) : Resource :=
  { apiVersion, kind, metadata := { name } }

/- Resources are named by their metadata. -/
def name (r : Resource) : String :=
  r.metadata.name

/- The kind and name of a resource as messages show them. -/
def label (r : Resource) : String :=
  r.kind ++ "/" ++ r.name

/- A resource with a field of its body set. -/
def withField
    (r : Resource)
    (key : String)
    (value : Json) : Resource :=
  { r with body := r.body.insert key value }

/-
  Whether two resources ask for the same state.  Status,
  namespace and what a cluster assigns do not count.
-/
def sameSpec (a b : Resource) : Bool :=
  a.kind == b.kind &&
    a.apiVersion == b.apiVersion &&
    a.metadata.name == b.metadata.name &&
    decide (a.metadata.labels = b.metadata.labels) &&
    decide (a.metadata.annotations = b.metadata.annotations) &&
    Json.sameFields a.body.entries b.body.entries

------------------------------------------------------------
-- Status
------------------------------------------------------------

/- The reported phase, if the status has one. -/
def phase? (r : Resource) : Option Phase := do
  let status ← r.status
  let phase ← status.field? "phase"
  return Phase.ofName (← phase.text?)

/- Report a phase, keeping the other fields of the status. -/
def setPhase (r : Resource) (p : Phase) : Resource :=
  let status := r.status.getD (.object [])
  { r with status := some (status.set "phase" (.string p.name)) }

/- The reported number of replicas, if it is one. -/
def replicas? (r : Resource) : Option Nat := do
  let status ← r.status
  match ← status.field? "replicas" with
  | .number (.int i) => if 0 ≤ i then some i.toNat else none
  | _ => none

------------------------------------------------------------
-- Reading
------------------------------------------------------------

/- The fields of the metadata with a meaning of their own. -/
def metadataFields : List String :=
  ["name", "namespace", "labels", "annotations"]

/- The fields of a resource with a meaning of their own. -/
def resourceFields : List String :=
  ["apiVersion", "kind", "metadata", "status"]

variable {ν : Type}

/- Split fields into known ones and the others. -/
def split?
    (names : List String)
    (fields : List (String × ν)) :
    Option (List (String × ν) × List (String × ν)) := do
  let known ← Reader.known? names fields
  some
    (known, fields.filter (fun f => !names.contains f.1))

/- Read metadata; only the name is required, and fields of other
   names are kept as they are. -/
def readMetadata? (r : Reader ν) (node : ν) :
    Option Metadata := do
  let (known, others) ←
    split? metadataFields (← r.fields? node)
  let name ← Reader.required? known "name" r.text?
  let space ←
    Reader.defaulted? known "namespace" none r.optionalText?
  let labels ←
    Reader.defaulted? known "labels" Table.empty r.texts?
  let annotations ←
    Reader.defaulted? known "annotations" Table.empty r.texts?
  let extra ← r.payloads? others
  return ⟨name, space, labels, annotations, extra⟩

/- Read a resource; fields without a meaning of their own are
   free fields. -/
def read? (r : Reader ν) (node : ν) : Option Resource := do
  let (known, others) ←
    split? resourceFields (← r.fields? node)
  let apiVersion ←
    Reader.required? known "apiVersion" r.text?
  let kind ← Reader.required? known "kind" r.text?
  let metadata ←
    Reader.required? known "metadata" (readMetadata? r)
  let status ←
    Reader.defaulted? known "status" none r.report?
  let body ← r.payloads? others
  return ⟨apiVersion, kind, metadata, status, body⟩

/- Why a text is not a resource. -/
inductive Malformed where
  | unreadable
  | noKind
  | noName (kind : String)
deriving DecidableEq, Repr

/- The text of the error names the kind once that is known. -/
def Malformed.message : Malformed → String
  | unreadable => "not a resource definition"
  | noKind => "resource has no kind"
  | noName kind => kind ++ " has no metadata.name"

/- Read a manifest: a resource with a kind and a name. -/
def ofYaml (text : String) : Except Malformed Resource :=
  match (Yaml.Node.ofText? text).bind (read? Yaml.Node.reader) with
  | none => .error .unreadable
  | some r =>
      if r.kind.isEmpty then .error .noKind
      else if r.name.isEmpty then .error (.noName r.kind)
      else .ok r

------------------------------------------------------------
-- Writing
------------------------------------------------------------

/- A table of texts as a field, unless it is empty. -/
def textsField (key : String) (t : Table String) :
    List (String × Json) :=
  if t.isEmpty then [] else [(key, .ofTexts t)]

/- Metadata as JSON, without the fields that are empty. -/
def encodeMetadata (m : Metadata) : Json :=
  .ofFields
    ([("name", Json.string m.name)] ++
      (m.space.map (fun s => ("namespace", Json.string s))).toList ++
      textsField "labels" m.labels ++
      textsField "annotations" m.annotations ++
      m.extra.entries)

/- A resource as a JSON object; absent parts are left out. -/
def encode (r : Resource) : Json :=
  .ofFields
    ([("apiVersion", Json.string r.apiVersion),
        ("kind", Json.string r.kind),
        ("metadata", encodeMetadata r.metadata)] ++
      (r.status.map (fun s => ("status", s))).toList ++
      r.body.entries)

end Resource

end Preview
