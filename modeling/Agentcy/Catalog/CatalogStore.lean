import Agentcy.Library.PyJson
import Agentcy.Library.PyText
import Agentcy.Library.VersionedCell

/-!
# The user catalog and its upsert

One document holds the artifacts of an environment and a user, a tree of
entries by kind, name and version.  `upsert` reads the document, decides what
to do with the entry at the path, and replaces the document if nobody else
did; it tries six times.
-/

namespace Agentcy.Catalog

open Agentcy.Library

def lowerOrDigit (letter : Char) : Bool :=
  (97 ≤ letter.toNat && letter.toNat ≤ 122) ||
    (48 ≤ letter.toNat && letter.toNat ≤ 57)

/-- The class `[a-z0-9\-]` of environment names. -/
def nameClass (letter : Char) : Bool :=
  lowerOrDigit letter || letter == '-'

/-- The class `[a-z0-9_\-\.]` of user names. -/
def userClass (letter : Char) : Bool :=
  lowerOrDigit letter || letter == '_' || letter == '-' || letter == '.'

/-- A name as the document identifier spells it. -/
def normalized (keep : Char → Bool) (name : String) : String :=
  String.ofList
    (PyText.hyphenate keep
      (PyText.lowerChars (PyText.stripChars name.toList)))

/-- `_doc_id`. -/
def docIdOf (env username : String) : String :=
  let envName := normalized nameClass env
  let userName := normalized userClass username
  s!"catalog::{envName}::user::{userName}"

inductive Kind where
  | wheel
  | oci
  deriving Repr, DecidableEq

def Kind.text : Kind → String
  | .wheel => "wheel"
  | .oci => "oci"

/-- An entry: its path, and the other keys of the dict. -/
structure Entry where
  kind : Kind
  name : String
  version : String
  other : Fields := []

abbrev Path := Kind × String × String

/-- `_path`. -/
def Entry.path (entry : Entry) : Path :=
  (entry.kind, entry.name, entry.version)

def Entry.get? (entry : Entry) (key : String) : Option Json :=
  if key = "kind" then some (.str entry.kind.text)
  else if key = "name" then some (.str entry.name)
  else if key = "version" then some (.str entry.version)
  else OrderedMap.lookupEntries key entry.other

/-- `entry.get(key)`. -/
def Entry.get (entry : Entry) (key : String) : Json :=
  (entry.get? key).getD .null

/-- `entry[key]`. -/
def Entry.item (entry : Entry) (key : String) : Except PyError Json :=
  match entry.get? key with
  | some value => .ok value
  | none => .error .keyError

/-- `entry[key] = value`, for a key that is no part of the path. -/
def Entry.set (entry : Entry) (key : String) (value : Json) : Entry :=
  { entry with other := entry.other.set key value }

/-- `_digest`. -/
def Entry.digest (entry : Entry) : Except PyError Json :=
  match entry.kind with
  | .wheel => entry.item "sha256"
  | .oci => entry.item "digest"

/-- `_immutables`. -/
def Entry.immutables (entry : Entry) : Except PyError Fields := do
  let status ← entry.item "status"
  let base : Fields :=
    [("kind", .str entry.kind.text), ("name", .str entry.name),
      ("version", .str entry.version), ("status", status)]
  match entry.kind with
  | .wheel =>
      let indexUrl ← entry.item "index_url"
      return base ++
        [("index_url", indexUrl),
          ("requires_python", entry.get "requires_python"),
          ("agentcy_abi", entry.get "agentcy_abi")]
  | .oci =>
      let registryUrl ← entry.item "registry_url"
      return base ++ [("registry_url", registryUrl)]

/-- Whether two entries agree on the immutable fields. -/
def sameImmutables (existing entry : Entry) : Except PyError Bool := do
  let old ← existing.immutables
  let new ← entry.immutables
  return (Json.dict old).pyEq (.dict new)

def sameDigest (existing entry : Entry) : Except PyError Bool := do
  let old ← existing.digest
  let new ← entry.digest
  return old.pyEq new

abbrev Versions := OrderedMap String Entry

/-- A catalog document: the times of its metadata and one tree of entries for
each kind, by name and version. -/
structure CatalogDoc where
  createdAt : String
  updatedAt : String
  tree : Kind → OrderedMap String Versions

def skeleton (now : String) : CatalogDoc where
  createdAt := now
  updatedAt := now
  tree := fun _ => .empty

def CatalogDoc.leaf (doc : CatalogDoc) (path : Path) : Option Entry :=
  match (doc.tree path.1).get? path.2.1 with
  | none => none
  | some versions => versions.get? path.2.2

/-- `node[version] = entry`, with the time of the update. -/
def CatalogDoc.setLeaf (doc : CatalogDoc) (path : Path) (entry : Entry)
    (now : String) : CatalogDoc :=
  let names := doc.tree path.1
  let versions := (names.get? path.2.1).getD .empty
  { doc with
    updatedAt := now
    tree :=
      Function.update doc.tree path.1
        (names.set path.2.1 (versions.set path.2.2 entry)) }

structure Upsert where
  entry : Entry
  allowOverwrite : Bool := false

/-- What is to be done with the entry at the path. -/
inductive Decision where
  | create (entry : Entry)
  | merge (entry : Entry)
  | overwrite (entry : Entry)
  | unchanged
  | conflict (message : String)

/-- The signatures of a wheel are merged, if the call brings any. -/
def mergeSignatures (existing entry : Entry) : Except PyError Decision :=
  if existing.kind = .wheel ∧ (entry.get "signatures").truthy = true then do
    let current := existing.get "signatures"
    let merged ← Json.sortedUnion current (entry.get "signatures")
    if (Json.list merged).pyEq current.orEmptyList then
      return .unchanged
    else
      return .merge (existing.set "signatures" (.list merged))
  else
    .ok .unchanged

/-- The note about the entry that is overwritten. -/
def previousOf (existing : Entry) : Except PyError Json := do
  let digest ← existing.digest
  let metadata ←
    match existing.get? "_meta" with
    | none => pure []
    | some metadata => metadata.fields
  return .dict
    [("digest", digest), ("updated_at", Fields.get metadata "updated_at")]

/-- The body of one attempt of `upsert`, on the entry that it found. -/
def decideUpsert (docId : String) (call : Upsert) :
    Option Entry → Except PyError Decision
  | none => .ok (.create call.entry)
  | some existing => do
      let kind := call.entry.kind.text
      let place :=
        s!"{docId}:{kind}/{call.entry.name}/{call.entry.version}"
      if ← sameImmutables existing call.entry then
        if ← sameDigest existing call.entry then
          mergeSignatures existing call.entry
        else if call.allowOverwrite then
          let previous ← previousOf existing
          return .overwrite (call.entry.set "_previous" previous)
        else
          return .conflict s!"Digest mismatch for {place}"
      else
        return .conflict s!"Immutable fields changed for {place}"

/-- How a call ends. -/
inductive Answer where
  | created
  | updated
  | unchanged
  | conflict (message : String)
  | tooManyRetries (message : String)
  | raised (error : PyError)
  deriving DecidableEq

/-- One attempt on the document that was read. -/
def attemptUpsert (docId : String) (call : Upsert) (now : String)
    (doc : CatalogDoc) : VersionedCell.Attempt CatalogDoc Answer :=
  let path := call.entry.path
  match decideUpsert docId call (doc.leaf path) with
  | .error error => .finish (.raised error)
  | .ok (.conflict message) => .finish (.conflict message)
  | .ok .unchanged => .finish .unchanged
  | .ok (.create entry) => .replace (doc.setLeaf path entry now) .created
  | .ok (.merge entry) => .replace (doc.setLeaf path entry now) .updated
  | .ok (.overwrite entry) =>
      .replace (doc.setLeaf path entry now) .updated

/-- `upsert`, run by any number of clients on one document; each access comes
with the time that it reads. -/
def upsertProtocol (docId : String) (calls : Nat → Upsert) :
    VersionedCell.Protocol Nat String CatalogDoc Answer where
  attempt client now doc := attemptUpsert docId (calls client) now doc
  skeleton := skeleton
  exhausted := .tooManyRetries s!"CAS retries exhausted for {docId}"

end Agentcy.Catalog
