import Agentcy.Catalog.Upserts
import Agentcy.Library.SortedUnion
import Mathlib.Data.Set.List

/-!
# Ingesting an artifact again

`ingest_wheel` and `ingest_oci` build the entry of an artifact and upsert it.
The URL of a wheel is an object until the store writes its text, and the entry
of an image has neither of the keys `registry_url` and `digest`; both matter
only to an upsert that finds an entry at the path.
-/

namespace Agentcy.Catalog

open Agentcy.Library

/-- What `ingest_wheel` puts into its entry, with the digest of the file. -/
structure Wheel where
  name : String
  version : String
  sha256 : String
  indexUrl : String
  entry : String
  status : String
  requiresPython : String := "~=3.11"
  agentcyAbi : String := "1"
  signatures : Option (List String) := none

def Wheel.signatureTexts (wheel : Wheel) : List String :=
  wheel.signatures.getD []

/-- The entry of a wheel as the store writes it.  Signatures that are falsy
are left out.  The URL object is taken to be written as its text, which is up
to the serializer of the client. -/
def Wheel.toEntry (wheel : Wheel) : Entry where
  kind := .wheel
  name := wheel.name
  version := wheel.version
  other :=
    [("sha256", .str wheel.sha256), ("index_url", .str wheel.indexUrl),
      ("entry", .str wheel.entry),
      ("requires_python", .str wheel.requiresPython),
      ("agentcy_abi", .str wheel.agentcyAbi),
      ("status", .str wheel.status)] ++
    if wheel.signatureTexts = [] then []
    else [("signatures", .list (wheel.signatureTexts.map .str))]

/-- What `ingest_oci` puts into its entry. -/
structure OciImage where
  registry : String
  repo : String
  tag : String
  status : String
  entry : Option String
  env : String
  username : String

def OciImage.toEntry (oci : OciImage) : Entry where
  kind := .oci
  name := oci.repo
  version := oci.tag
  other :=
    [("repo", .str oci.repo), ("tag", .str oci.tag),
      ("image", .str s!"{oci.registry}/{oci.repo}:{oci.tag}"),
      ("status", .str oci.status),
      ("entry", (oci.entry.map Json.str).getD .null),
      ("env", .str oci.env), ("username", .str oci.username)]

inductive Artifact where
  | wheel (item : Wheel)
  | oci (item : OciImage)

def Artifact.toEntry : Artifact → Entry
  | .wheel item => item.toEntry
  | .oci item => item.toEntry

section Ingestion

-- whether the URL object of a wheel compares equal to its own text
variable (urlEqualsText : Bool)
variable (docId : String) (artifact : Artifact)

/-- `upsert` on the entry that was found, where the immutable fields of a
wheel differ if its URL is not equal to the stored text. -/
def decideIngested (existing : Option Entry) : Except PyError Decision :=
  match artifact, existing with
  | .wheel wheel, some old =>
      if urlEqualsText then
        decideUpsert docId { entry := wheel.toEntry } (some old)
      else do
        let _ ← old.immutables
        let _ ← wheel.toEntry.immutables
        let place := s!"{docId}:wheel/{wheel.name}/{wheel.version}"
        return .conflict s!"Immutable fields changed for {place}"
  | artifact, existing =>
      decideUpsert docId { entry := artifact.toEntry } existing

/-- What an attempt does after its decision. -/
def settle (path : Path) (now : String) (doc : CatalogDoc) :
    Except PyError Decision → VersionedCell.Attempt CatalogDoc Answer
  | .error error => .finish (.raised error)
  | .ok (.conflict message) => .finish (.conflict message)
  | .ok .unchanged => .finish .unchanged
  | .ok (.create entry) => .replace (doc.setLeaf path entry now) .created
  | .ok (.merge entry) => .replace (doc.setLeaf path entry now) .updated
  | .ok (.overwrite entry) =>
      .replace (doc.setLeaf path entry now) .updated

def attemptIngested (now : String) (doc : CatalogDoc) :
    VersionedCell.Attempt CatalogDoc Answer :=
  settle artifact.toEntry.path now doc
    (decideIngested urlEqualsText docId artifact
      (doc.leaf artifact.toEntry.path))

def ingestProtocol :
    VersionedCell.Protocol Nat String CatalogDoc Answer where
  attempt _ now doc := attemptIngested urlEqualsText docId artifact now doc
  skeleton := skeleton
  exhausted := .tooManyRetries s!"CAS retries exhausted for {docId}"

/-- The document and the answer of an upsert of the artifact that nobody
disturbs. -/
def upsertArtifact (stored : Option CatalogDoc) (now : String) :
    CatalogDoc × Answer :=
  (ingestProtocol urlEqualsText docId artifact).alone 0 now stored

/-- The results of the same upsert at these times, one after another. -/
def repeatedUpserts (doc : CatalogDoc) :
    List String → List (CatalogDoc × Answer)
  | [] => []
  | now :: later =>
      let result := upsertArtifact urlEqualsText docId artifact (some doc) now
      result :: repeatedUpserts result.1 later

/-- However often the upsert is repeated, it answers `unchanged` and leaves
the document as it is. -/
def RepeatsUnchanged (doc : CatalogDoc) : Prop :=
  ∀ times,
    ∀ result ∈ repeatedUpserts urlEqualsText docId artifact doc times,
      result = (doc, .unchanged)

def Answer.Succeeded (answer : Answer) : Prop :=
  answer.Wrote ∨ answer = .unchanged

variable {urlEqualsText docId artifact}

/-- A plain upsert is settled in the same way. -/
theorem attemptUpsert_eq_settle
    (call : Upsert) (now : String) (doc : CatalogDoc) :
    attemptUpsert docId call now doc =
      settle call.entry.path now doc
        (decideUpsert docId call (doc.leaf call.entry.path)) := by
  rw [attemptUpsert]
  cases decideUpsert docId call (doc.leaf call.entry.path) with
  | error error => rfl
  | ok decision => cases decision <;> rfl

/-- The document and the answer after a decision about the document. -/
def concluded (path : Path) (now : String) (doc : CatalogDoc)
    (decided : Except PyError Decision) : CatalogDoc × Answer :=
  match settle path now doc decided with
  | .finish answer => (doc, answer)
  | .replace value answer => (value, answer)

theorem concluded_unchanged_iff
    {path : Path} {now : String} {doc : CatalogDoc}
    {decided : Except PyError Decision} :
    concluded path now doc decided = (doc, .unchanged) ↔
      decided = .ok .unchanged := by
  cases decided with
  | error error => simp [concluded, settle]
  | ok decision => cases decision <;> simp [concluded, settle]

/-- A decision after which the call succeeds, and what it leaves at the
path. -/
theorem concluded_succeeded
    {path : Path} {now : String} {doc : CatalogDoc}
    {decided : Except PyError Decision}
    (succeeded : (concluded path now doc decided).2.Succeeded) :
    ∃ decision, decided = .ok decision ∧
      (∀ message, decision ≠ .conflict message) ∧
      (concluded path now doc decided).1.leaf path =
        decision.written?.or (doc.leaf path) := by
  cases decided with
  | error error =>
      simp [concluded, settle, Answer.Succeeded, Answer.Wrote] at succeeded
  | ok decision =>
      cases decision with
      | conflict message =>
          simp [concluded, settle, Answer.Succeeded, Answer.Wrote]
            at succeeded
      | unchanged =>
          exact ⟨.unchanged, rfl, by simp, rfl⟩
      | create entry =>
          exact ⟨.create entry, rfl, by simp,
            CatalogDoc.leaf_setLeaf_self doc path entry now⟩
      | merge entry =>
          exact ⟨.merge entry, rfl, by simp,
            CatalogDoc.leaf_setLeaf_self doc path entry now⟩
      | overwrite entry =>
          exact ⟨.overwrite entry, rfl, by simp,
            CatalogDoc.leaf_setLeaf_self doc path entry now⟩

theorem upsertArtifact_eq (stored : Option CatalogDoc) (now : String) :
    upsertArtifact urlEqualsText docId artifact stored now =
      concluded artifact.toEntry.path now (stored.getD (skeleton now))
        (decideIngested urlEqualsText docId artifact
          (leaves stored artifact.toEntry.path)) := by
  have present : leaves stored artifact.toEntry.path =
      (stored.getD (skeleton now)).leaf artifact.toEntry.path := by
    cases stored <;> rfl
  rw [present, upsertArtifact, VersionedCell.Protocol.alone, concluded]
  dsimp only [ingestProtocol, attemptIngested]
  cases settle artifact.toEntry.path now (stored.getD (skeleton now))
      (decideIngested urlEqualsText docId artifact
        ((stored.getD (skeleton now)).leaf artifact.toEntry.path)) with
  | finish answer => rfl
  | replace value answer => rfl

theorem upsertArtifact_unchanged_iff (doc : CatalogDoc) (now : String) :
    upsertArtifact urlEqualsText docId artifact (some doc) now =
        (doc, .unchanged) ↔
      decideIngested urlEqualsText docId artifact
        (doc.leaf artifact.toEntry.path) = .ok .unchanged := by
  rw [upsertArtifact_eq]
  exact concluded_unchanged_iff

theorem repeatsUnchanged_iff (doc : CatalogDoc) :
    RepeatsUnchanged urlEqualsText docId artifact doc ↔
      decideIngested urlEqualsText docId artifact
        (doc.leaf artifact.toEntry.path) = .ok .unchanged := by
  constructor
  · intro unchanged
    rw [← upsertArtifact_unchanged_iff doc ""]
    exact unchanged [""] _ List.mem_cons_self
  · intro decided times
    induction times with
    | nil =>
        intro result member
        cases member
    | cons now later inductionHypothesis =>
        have here := (upsertArtifact_unchanged_iff doc now).mpr decided
        rw [repeatedUpserts, here]
        intro result member
        rcases List.mem_cons.mp member with same | among
        · exact same
        · exact inductionHypothesis result among

/-- After an upsert that succeeds, repeating it depends on what it left at the
path. -/
theorem repeatsUnchanged_after_iff
    {stored : Option CatalogDoc} {now : String}
    (succeeded :
      (upsertArtifact urlEqualsText docId artifact stored now).2.Succeeded) :
    ∃ decision,
      decideIngested urlEqualsText docId artifact
          (leaves stored artifact.toEntry.path) = .ok decision ∧
        (∀ message, decision ≠ .conflict message) ∧
        (RepeatsUnchanged urlEqualsText docId artifact
            (upsertArtifact urlEqualsText docId artifact stored now).1 ↔
          decideIngested urlEqualsText docId artifact
              (decision.written?.or
                (leaves stored artifact.toEntry.path)) =
            .ok .unchanged) := by
  rw [upsertArtifact_eq] at succeeded ⊢
  obtain ⟨decision, decided, goesOn, left⟩ :=
    concluded_succeeded succeeded
  refine ⟨decision, decided, goesOn, ?_⟩
  rw [repeatsUnchanged_iff, left]
  cases stored <;> rfl

end Ingestion

/-! ## Images -/

/-- No upsert of an image gets past an entry at its path. -/
theorem decideIngested_oci
    (urlEqualsText : Bool) (docId : String) (oci : OciImage) (old : Entry)
    (decision : Decision) :
    decideIngested urlEqualsText docId (.oci oci) (some old) ≠
      .ok decision := by
  intro decided
  change decideUpsert docId { entry := oci.toEntry } (some old) =
    .ok decision at decided
  rw [decideUpsert, bind_eq_ok] at decided
  obtain ⟨same, compared, _⟩ := decided
  rw [sameImmutables, bind_eq_ok] at compared
  obtain ⟨_, _, compared⟩ := compared
  rw [bind_eq_ok] at compared
  obtain ⟨_, immutables, _⟩ := compared
  cases immutables

section Wheels

variable (docId : String) (wheel : Wheel)

/-- Without equal URLs no upsert of a wheel gets past an entry either. -/
theorem decideIngested_wheel_of_urls_differ
    (old : Entry) {decision : Decision}
    (decided :
      decideIngested false docId (.wheel wheel) (some old) =
        .ok decision) :
    ∃ message, decision = .conflict message := by
  rw [decideIngested, if_neg Bool.false_ne_true, bind_eq_ok] at decided
  obtain ⟨_, _, decided⟩ := decided
  rw [bind_eq_ok] at decided
  obtain ⟨_, _, decided⟩ := decided
  cases decided
  exact ⟨_, rfl⟩

theorem wheel_immutables :
    wheel.toEntry.immutables = .ok
      [("kind", .str "wheel"), ("name", .str wheel.name),
        ("version", .str wheel.version), ("status", .str wheel.status),
        ("index_url", .str wheel.indexUrl),
        ("requires_python", .str wheel.requiresPython),
        ("agentcy_abi", .str wheel.agentcyAbi)] :=
  rfl

theorem wheel_sameImmutables :
    sameImmutables wheel.toEntry wheel.toEntry = .ok true := by
  rw [sameImmutables, wheel_immutables]
  simp [bind, Except.bind, pure, Except.pure, Json.pyEq, Json.pyEqFields,
    OrderedMap.lookupEntries, Json.key?]

theorem wheel_sameDigest :
    sameDigest wheel.toEntry wheel.toEntry = .ok true := by
  have digest : wheel.toEntry.digest = .ok (.str wheel.sha256) := rfl
  rw [sameDigest, digest]
  simp [bind, Except.bind, pure, Except.pure, Json.pyEq, Json.key?]

theorem wheel_signatures :
    wheel.toEntry.get "signatures" =
      if wheel.signatureTexts = [] then .null
      else .list (wheel.signatureTexts.map .str) := by
  by_cases none : wheel.signatureTexts = []
  · rw [if_pos none, Entry.get, Entry.get?, Wheel.toEntry]
    simp [none, OrderedMap.lookupEntries]
  · rw [if_neg none, Entry.get, Entry.get?, Wheel.toEntry]
    simp [none, OrderedMap.lookupEntries]

/-- Signatures that are all stored already add nothing, if those stored rise
strictly. -/
theorem mergeSignatures_stored_iff
    {existing : Entry} {stored : List String}
    (isWheel : existing.kind = .wheel)
    (current : existing.get "signatures" = .list (stored.map .str))
    (given : wheel.signatureTexts ≠ [])
    (inside : ∀ text ∈ wheel.signatureTexts, text ∈ stored) :
    mergeSignatures existing wheel.toEntry = .ok .unchanged ↔
      stored.Pairwise (· < ·) := by
  have signatures := wheel_signatures wheel
  rw [if_neg given] at signatures
  have truthy :
      (Json.list (wheel.signatureTexts.map .str)).truthy = true := by
    simp [Json.truthy, given]
  have texts := itemsOrEmpty_texts stored
  have others := itemsOrEmpty_texts wheel.signatureTexts
  obtain ⟨merged, union, _, _⟩ := sortedUnion_texts texts others
  have rises := sortedUnion_of_subset texts others inside
  rw [union, Except.ok.injEq, map_str_injective.eq_iff] at rises
  have orEmpty := orEmptyList_texts stored
  rw [mergeSignatures, signatures, if_pos ⟨isWheel, truthy⟩]
  dsimp only
  rw [current, orEmpty, union, ← rises, ← pyEq_texts_iff]
  dsimp only [bind, Except.bind, pure, Except.pure]
  split
  · rename_i equal
    exact iff_of_true rfl equal
  · rename_i different
    exact iff_of_false (by simp) different

/-- A new wheel meets its own signatures again, and they are stored in the
order in which they were given. -/
theorem mergeSignatures_self_iff :
    mergeSignatures wheel.toEntry wheel.toEntry = .ok .unchanged ↔
      wheel.signatureTexts.Pairwise (· < ·) := by
  have signatures := wheel_signatures wheel
  by_cases none : wheel.signatureTexts = []
  · rw [if_pos none] at signatures
    rw [mergeSignatures, signatures, if_neg (by simp [Json.truthy]), none]
    exact iff_of_true rfl List.Pairwise.nil
  · rw [if_neg none] at signatures
    exact mergeSignatures_stored_iff wheel rfl signatures none
      fun _ member => member

/-- Only a collection of texts can be joined with texts and sorted. -/
theorem texts_of_sortedUnion
    {first : Json} {merged : List Json} {texts : List String}
    (union :
      first.sortedUnion (.list (texts.map .str)) = .ok merged)
    (nonempty : texts ≠ []) :
    ∃ others : List String,
      first.itemsOrEmpty = .ok (others.map .str) := by
  rw [Json.sortedUnion, itemsOrEmpty_texts, bind_eq_ok] at union
  obtain ⟨items, firstItems, union⟩ := union
  rw [bind_eq_ok] at union
  obtain ⟨_, same, union⟩ := union
  cases same
  rw [bind_eq_ok] at union
  obtain ⟨distinct, distinctAll, sorted⟩ := union
  obtain ⟨_, covered⟩ := distinctItems_keys distinctAll
  obtain ⟨text, isText⟩ := List.exists_mem_of_ne_nil texts nonempty
  obtain ⟨pair, inDistinct, textKey⟩ :=
    covered (.str text)
      (List.mem_append_right _ (List.mem_map_of_mem isText))
  have pairKey : pair.1 = .str text := (Option.some.inj textKey).symm
  have strings : ∀ other ∈ distinct, other.1.isString = true := by
    unfold Json.sortItems at sorted
    split at sorted
    · rename_i comparable
      rcases comparable with short | strings | numbers
      · intro other member
        obtain ⟨single, isSingle⟩ :=
          List.length_eq_one_iff.mp
            (le_antisymm short (List.length_pos_of_mem inDistinct))
        rw [isSingle, List.mem_singleton] at member inDistinct
        rw [member, ← inDistinct, pairKey]
        rfl
      · exact List.all_eq_true.mp strings
      · have number := List.all_eq_true.mp numbers pair inDistinct
        rw [pairKey] at number
        cases number
    · cases sorted
  have allTexts : ∀ item ∈ items, item ∈ Set.range Json.str := by
    intro item member
    obtain ⟨other, among, itemKey⟩ :=
      covered item (List.mem_append_left _ member)
    have isString := strings other among
    cases key : other.1 with
    | null => rw [key] at isString; cases isString
    | number value => rw [key] at isString; cases isString
    | str found =>
        rw [key] at itemKey
        exact
          ⟨found, (key_eq_str_iff.mp (hash_eq_ok_iff.mpr itemKey)).symm⟩
  have isMap : items ∈ Set.range (List.map Json.str) := by
    rw [Set.range_list_map]
    exact allTexts
  obtain ⟨others, sameItems⟩ := isMap
  exact ⟨others, by rw [firstItems, sameItems]⟩

/-- What a merge has written is not changed by a second one. -/
theorem mergeSignatures_again
    {existing written : Entry}
    (merged : mergeSignatures existing wheel.toEntry = .ok (.merge written)) :
    mergeSignatures written wheel.toEntry = .ok .unchanged := by
  have signatures := wheel_signatures wheel
  unfold mergeSignatures at merged
  split at merged
  · rename_i both
    obtain ⟨isWheel, truthy⟩ := both
    have given : wheel.signatureTexts ≠ [] := by
      intro none
      rw [signatures, if_pos none] at truthy
      cases truthy
    rw [signatures, if_neg given, bind_eq_ok] at merged
    obtain ⟨items, union, merged⟩ := merged
    obtain ⟨stored, storedItems⟩ := texts_of_sortedUnion union given
    obtain ⟨all, sameUnion, rises, members⟩ :=
      sortedUnion_texts storedItems
        (itemsOrEmpty_texts wheel.signatureTexts)
    rw [union] at sameUnion
    cases sameUnion
    split at merged
    · cases merged
    · cases merged
      have current :
          (existing.set "signatures" (.list (all.map .str))).get
              "signatures" =
            .list (all.map .str) := by
        rw [Entry.get, Entry.get?_set_self existing _ (by decide)]
        rfl
      have still :
          (existing.set "signatures" (.list (all.map .str))).kind =
            .wheel :=
        isWheel
      refine (mergeSignatures_stored_iff wheel still current given ?_).mpr
        rises
      intro text member
      exact (members text).mpr (Or.inr member)
  · cases merged

/-- An entry with the fields of the wheel only has its signatures merged. -/
theorem decideUpsert_of_same
    {existing : Entry}
    (immutables : sameImmutables existing wheel.toEntry = .ok true)
    (digest : sameDigest existing wheel.toEntry = .ok true) :
    decideUpsert docId { entry := wheel.toEntry } (some existing) =
      mergeSignatures existing wheel.toEntry := by
  simp [decideUpsert, immutables, digest, bind, Except.bind]

/-- An upsert that gets past an entry has found the fields of the wheel. -/
theorem same_of_decideUpsert
    {existing : Entry} {decision : Decision}
    (decided :
      decideUpsert docId { entry := wheel.toEntry } (some existing) =
        .ok decision)
    (goesOn : ∀ message, decision ≠ .conflict message) :
    sameImmutables existing wheel.toEntry = .ok true ∧
      sameDigest existing wheel.toEntry = .ok true := by
  rw [decideUpsert, bind_eq_ok] at decided
  obtain ⟨immutables, sameFields, decided⟩ := decided
  split at decided
  · rename_i agree
    subst agree
    rw [bind_eq_ok] at decided
    obtain ⟨digest, sameHash, decided⟩ := decided
    split at decided
    · rename_i equal
      subst equal
      exact ⟨sameFields, sameHash⟩
    · cases decided
      exact absurd rfl (goesOn _)
  · cases decided
    exact absurd rfl (goesOn _)

end Wheels

/-! ## The same upsert again -/

section Again

variable (urlEqualsText : Bool) (docId : String)

/-- With equal URLs the second upsert of a wheel changes nothing, unless the
first has created an entry with signatures out of order. -/
theorem wheel_again_iff
    (wheel : Wheel) {existing : Option Entry} {decision : Decision}
    (decided :
      decideIngested true docId (.wheel wheel) existing = .ok decision)
    (goesOn : ∀ message, decision ≠ .conflict message) :
    decideIngested true docId (.wheel wheel)
        (decision.written?.or existing) = .ok .unchanged ↔
      (existing = none → wheel.signatureTexts.Pairwise (· < ·)) := by
  cases existing with
  | none =>
      cases decided
      change decideUpsert docId { entry := wheel.toEntry }
        (some wheel.toEntry) = _ ↔ _
      rw [decideUpsert_of_same docId wheel (wheel_sameImmutables wheel)
        (wheel_sameDigest wheel), mergeSignatures_self_iff]
      simp
  | some old =>
      have past :
          decideUpsert docId { entry := wheel.toEntry } (some old) =
            .ok decision :=
        decided
      obtain ⟨immutables, digest⟩ :=
        same_of_decideUpsert docId wheel past goesOn
      have merges := past
      rw [decideUpsert_of_same docId wheel immutables digest] at merges
      refine iff_of_true ?_ (fun missing => nomatch missing)
      cases writes : decision.written? with
      | none =>
          have unchanged : decision = .unchanged := by
            cases decision with
            | unchanged => rfl
            | conflict message => exact absurd rfl (goesOn message)
            | create entry => cases writes
            | merge entry => cases writes
            | overwrite entry => cases writes
          rw [Option.none_or, decided, unchanged]
      | some written =>
          obtain ⟨merge, grown, _⟩ := mergeSignatures_grown merges writes
          rw [merge] at merges
          change decideUpsert docId { entry := wheel.toEntry }
            (some written) = _
          rw [decideUpsert_of_same docId wheel
            ((grown.sameImmutables _).trans immutables)
            ((grown.sameDigest _).trans digest)]
          exact mergeSignatures_again wheel merges

/-- After an upsert that succeeds, repeating it answers `unchanged` and leaves
the document as it is for a wheel whose URL is equal to the stored text,
except for one that was new and had its signatures repeated or out of
order. -/
theorem reingested_unchanged_iff
    (artifact : Artifact) (stored : Option CatalogDoc) (now : String)
    (succeeded :
      (upsertArtifact urlEqualsText docId artifact stored now).2.Succeeded) :
    RepeatsUnchanged urlEqualsText docId artifact
        (upsertArtifact urlEqualsText docId artifact stored now).1 ↔
      urlEqualsText = true ∧ ∃ wheel, artifact = .wheel wheel ∧
        (leaves stored wheel.toEntry.path = none →
          wheel.signatureTexts.Pairwise (· < ·)) := by
  obtain ⟨decision, decided, goesOn, again⟩ :=
    repeatsUnchanged_after_iff succeeded
  rw [again]
  cases artifact with
  | oci oci =>
      refine iff_of_false ?_ (by simp)
      cases found : leaves stored (Artifact.oci oci).toEntry.path with
      | some old =>
          rw [found] at decided
          exact absurd decided
            (decideIngested_oci urlEqualsText docId oci old decision)
      | none =>
          rw [found] at decided
          cases decided
          exact decideIngested_oci urlEqualsText docId oci oci.toEntry _
  | wheel wheel =>
      cases urlEqualsText with
      | true =>
          rw [wheel_again_iff docId wheel decided goesOn]
          simp [Artifact.toEntry]
      | false =>
          refine iff_of_false ?_ (by simp)
          cases found : leaves stored (Artifact.wheel wheel).toEntry.path with
          | some old =>
              rw [found] at decided
              obtain ⟨message, conflict⟩ :=
                decideIngested_wheel_of_urls_differ docId wheel old decided
              exact absurd conflict (goesOn message)
          | none =>
              rw [found] at decided
              cases decided
              intro unchanged
              obtain ⟨message, conflict⟩ :=
                decideIngested_wheel_of_urls_differ docId wheel
                  wheel.toEntry unchanged
              cases conflict

/-- A wheel that signs itself with these. -/
def toolsWheel (signatures : List String) : Wheel where
  name := "tools"
  version := "1.0"
  sha256 := "aa"
  indexUrl := "http://nexus/"
  entry := "tools:main"
  status := "dev"
  signatures := some signatures

def toolsImage : OciImage where
  registry := "nexus:5001"
  repo := "tools"
  tag := "1.0"
  status := "dev"
  entry := none
  env := "dev"
  username := "alice"

theorem signed_wheel_repeats_unchanged :
    RepeatsUnchanged true "catalog::dev::user::alice"
      (.wheel (toolsWheel ["a", "b"]))
      (upsertArtifact true "catalog::dev::user::alice"
        (.wheel (toolsWheel ["a", "b"])) none "t0").1 :=
  (reingested_unchanged_iff true "catalog::dev::user::alice"
    (.wheel (toolsWheel ["a", "b"])) none "t0"
    (Or.inl (Or.inl rfl))).mpr
    ⟨rfl, _, rfl, fun _ => List.pairwise_pair.mpr (by decide)⟩

/-- The answers of two upserts, one after another. -/
def firstTwoAnswers (artifact : Artifact) : Answer × Answer :=
  let first := upsertArtifact urlEqualsText docId artifact none "t0"
  let second :=
    upsertArtifact urlEqualsText docId artifact (some first.1) "t1"
  (first.2, second.2)

/-- The second upsert of an image raises, that of a wheel is a conflict, or
updates an entry whose signatures were out of order. -/
theorem reingestion_not_unchanged :
    (¬ ∀ artifact stored now,
      (upsertArtifact false "catalog::dev::user::alice" artifact stored
          now).2.Succeeded →
        RepeatsUnchanged false "catalog::dev::user::alice" artifact
          (upsertArtifact false "catalog::dev::user::alice" artifact stored
            now).1) ∧
      firstTwoAnswers false "catalog::dev::user::alice" (.oci toolsImage) =
        (.created, .raised .keyError) ∧
      firstTwoAnswers false "catalog::dev::user::alice"
          (.wheel (toolsWheel [])) =
        (.created, .conflict
          "Immutable fields changed for catalog::dev::user::alice:wheel/tools/1.0") ∧
      firstTwoAnswers true "catalog::dev::user::alice"
          (.wheel (toolsWheel ["b", "a"])) =
        (.created, .updated) := by
  refine ⟨?_, by decide +kernel, by decide +kernel, by decide +kernel⟩
  intro idempotent
  have repeats :=
    idempotent (.oci toolsImage) none "t0" (Or.inl (Or.inl rfl))
  have second := repeats ["t1"] _ List.mem_cons_self
  have answer := congrArg Prod.snd second
  have raises :
      (upsertArtifact false "catalog::dev::user::alice" (.oci toolsImage)
        (some (upsertArtifact false "catalog::dev::user::alice"
          (.oci toolsImage) none "t0").1) "t1").2 = .raised .keyError := by
    decide +kernel
  rw [raises] at answer
  cases answer

end Again

end Agentcy.Catalog
