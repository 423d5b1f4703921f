import Agentcy.Catalog.CatalogStore

/-!
# Concurrent upserts

The successful upserts of a document form a chain, in which each works on the
entries that the one before it left.  A merge of signatures lets the entry at
the path grow, so that only an overwrite can end what an earlier call stored.
-/

namespace Agentcy.Catalog

open Agentcy.Library

@[simp]
theorem CatalogDoc.leaf_setLeaf_self
    (doc : CatalogDoc) (path : Path) (entry : Entry) (now : String) :
    (doc.setLeaf path entry now).leaf path = some entry := by
  simp [CatalogDoc.leaf, CatalogDoc.setLeaf]

theorem CatalogDoc.leaf_setLeaf_other
    (doc : CatalogDoc) {path other : Path} (entry : Entry) (now : String)
    (different : other ≠ path) :
    (doc.setLeaf path entry now).leaf other = doc.leaf other := by
  obtain ⟨kind, name, version⟩ := path
  obtain ⟨otherKind, otherName, otherVersion⟩ := other
  unfold CatalogDoc.leaf CatalogDoc.setLeaf
  dsimp only
  by_cases sameKind : otherKind = kind
  · subst sameKind
    rw [Function.update_self]
    by_cases sameName : otherName = name
    · subst sameName
      have sameVersion : otherVersion ≠ version := by
        rintro rfl
        exact different rfl
      rw [OrderedMap.get?_set_self]
      dsimp only
      rw [OrderedMap.get?_set_other _ _ sameVersion]
      cases (doc.tree otherKind).get? otherName with
      | none => rfl
      | some versions => rfl
    · rw [OrderedMap.get?_set_other _ _ sameName]
  · rw [Function.update_of_ne sameKind]

/-- The entries of a document that may be missing. -/
def leaves : Option CatalogDoc → Path → Option Entry
  | none => fun _ => none
  | some doc => doc.leaf

theorem leaves_skeleton (now : String) :
    leaves (some (skeleton now)) = leaves none :=
  rfl

theorem Entry.get?_set_self
    (entry : Entry) {key : String} (value : Json)
    (outside : key ∉ ["kind", "name", "version"]) :
    (entry.set key value).get? key = some value := by
  simp only [List.mem_cons, List.not_mem_nil, or_false, not_or]
    at outside
  simp [Entry.get?, Entry.set, Fields.set, outside,
    OrderedMap.lookupEntries_setEntries]

theorem Entry.get?_set_other
    (entry : Entry) {tested key : String} (value : Json)
    (different : tested ≠ key) :
    (entry.set key value).get? tested = entry.get? tested := by
  simp [Entry.get?, Entry.set, Fields.set, different,
    OrderedMap.lookupEntries_setEntries]

/-- The signatures of an entry, as the elements of a set. -/
def signatureKeys (entry : Entry) : List Json.Key :=
  match (entry.get "signatures").itemsOrEmpty with
  | .ok items => items.filterMap Json.key?
  | .error _ => []

theorem distinctItems_keys
    {items : List Json} {distinct : List (Json.Key × Json)}
    (succeeded : Json.distinctItems items = .ok distinct) :
    (∀ pair ∈ distinct, pair.2.key? = some pair.1) ∧
      ∀ item ∈ items, ∃ pair ∈ distinct, item.key? = some pair.1 := by
  induction items generalizing distinct with
  | nil =>
      cases succeeded
      simp
  | cons item rest inductionHypothesis =>
      rw [Json.distinctItems, bind_eq_ok] at succeeded
      obtain ⟨key, hashed, succeeded⟩ := succeeded
      rw [bind_eq_ok] at succeeded
      obtain ⟨later, distinctLater, succeeded⟩ := succeeded
      cases succeeded
      obtain ⟨named, covered⟩ := inductionHypothesis distinctLater
      have itemKey : item.key? = some key := by
        unfold Json.hash at hashed
        split at hashed
        · rename_i found
          cases hashed
          exact found
        · cases hashed
      constructor
      · intro pair member
        rcases List.mem_cons.mp member with rfl | among
        · exact itemKey
        · exact named pair (List.mem_filter.mp among).1
      · intro other member
        rcases List.mem_cons.mp member with rfl | among
        · exact ⟨_, List.mem_cons_self, itemKey⟩
        · obtain ⟨pair, kept, same⟩ := covered other among
          by_cases again : pair.1 = key
          · exact ⟨_, List.mem_cons_self, again ▸ same⟩
          · refine ⟨pair, List.mem_cons_of_mem _ ?_, same⟩
            exact List.mem_filter.mpr ⟨kept, decide_eq_true again⟩

/-- A sorted union has the keys of both sides. -/
theorem sortedUnion_keys
    {first second : Json} {merged items others : List Json}
    (succeeded : Json.sortedUnion first second = .ok merged)
    (firstItems : first.itemsOrEmpty = .ok items)
    (secondItems : second.itemsOrEmpty = .ok others) :
    ∀ key ∈ (items ++ others).filterMap Json.key?,
      key ∈ merged.filterMap Json.key? := by
  rw [Json.sortedUnion, firstItems, secondItems, bind_eq_ok] at succeeded
  obtain ⟨_, same, succeeded⟩ := succeeded
  cases same
  rw [bind_eq_ok] at succeeded
  obtain ⟨_, same, succeeded⟩ := succeeded
  cases same
  rw [bind_eq_ok] at succeeded
  obtain ⟨distinct, distinctAll, succeeded⟩ := succeeded
  obtain ⟨named, covered⟩ := distinctItems_keys distinctAll
  unfold Json.sortItems at succeeded
  split at succeeded
  · cases succeeded
    intro key member
    obtain ⟨item, among, itemKey⟩ := List.mem_filterMap.mp member
    obtain ⟨pair, kept, same⟩ := covered item among
    rw [itemKey] at same
    cases same
    refine List.mem_filterMap.mpr ⟨pair.2, ?_, named pair kept⟩
    apply List.mem_map_of_mem
    exact (List.perm_insertionSort _ distinct).mem_iff.mpr kept
  · cases succeeded

theorem signatureKeys_set_list (entry : Entry) (merged : List Json) :
    signatureKeys (entry.set "signatures" (.list merged)) =
      merged.filterMap Json.key? := by
  have stored :
      (entry.set "signatures" (.list merged)).get "signatures" =
        .list merged := by
    rw [Entry.get, Entry.get?_set_self entry _ (by decide)]
    rfl
  rw [signatureKeys, stored]
  cases merged with
  | nil => rfl
  | cons _ _ => rfl

/-- The entry has the fields of the written one, and its signatures, to which
others may have been added. -/
structure Grown (written entry : Entry) : Prop where
  path : entry.path = written.path
  fields : ∀ key, key ≠ "signatures" →
    entry.get? key = written.get? key
  signatures : ∀ key ∈ signatureKeys written, key ∈ signatureKeys entry

theorem Grown.refl (entry : Entry) : Grown entry entry where
  path := rfl
  fields := fun _ _ => rfl
  signatures := fun _ member => member

theorem Grown.trans
    {first second third : Entry}
    (left : Grown first second) (right : Grown second third) :
    Grown first third where
  path := right.path.trans left.path
  fields := fun key other =>
    (right.fields key other).trans (left.fields key other)
  signatures := fun key member =>
    right.signatures key (left.signatures key member)

/-- The entry is the one of the call, up to added signatures and the note
about what it replaced, or at least one with the same immutable fields, the
same digest and all signatures of the call. -/
def Contains (call : Upsert) (entry : Entry) : Prop :=
  (∀ key ∈ signatureKeys call.entry, key ∈ signatureKeys entry) ∧
    ((∀ key, key ≠ "signatures" → key ≠ "_previous" →
        entry.get? key = call.entry.get? key) ∨
      sameImmutables entry call.entry = .ok true ∧
        sameDigest entry call.entry = .ok true)

theorem Grown.sameImmutables
    {written entry : Entry} (grown : Grown written entry)
    (other : Entry) :
    sameImmutables entry other = sameImmutables written other := by
  have paths := grown.path
  simp only [Entry.path, Prod.mk.injEq] at paths
  obtain ⟨kind, name, version⟩ := paths
  have same : entry.immutables = written.immutables := by
    simp only [Entry.immutables, Entry.item, Entry.get, kind, name,
      version, grown.fields "status" (by decide),
      grown.fields "index_url" (by decide),
      grown.fields "requires_python" (by decide),
      grown.fields "agentcy_abi" (by decide),
      grown.fields "registry_url" (by decide)]
  rw [Catalog.sameImmutables, Catalog.sameImmutables, same]

theorem Grown.sameDigest
    {written entry : Entry} (grown : Grown written entry)
    (other : Entry) :
    sameDigest entry other = sameDigest written other := by
  have paths := grown.path
  simp only [Entry.path, Prod.mk.injEq] at paths
  have same : entry.digest = written.digest := by
    simp only [Entry.digest, Entry.item, paths.1,
      grown.fields "sha256" (by decide),
      grown.fields "digest" (by decide)]
  rw [Catalog.sameDigest, Catalog.sameDigest, same]

theorem Contains.grown
    {call : Upsert} {written entry : Entry}
    (contains : Contains call written) (grown : Grown written entry) :
    Contains call entry := by
  obtain ⟨signatures, content⟩ := contains
  refine
    ⟨fun key member => grown.signatures key (signatures key member), ?_⟩
  rcases content with fields | ⟨immutables, digest⟩
  · left
    intro key unsigned unnoted
    rw [grown.fields key unsigned]
    exact fields key unsigned unnoted
  · right
    rw [grown.sameImmutables, grown.sameDigest]
    exact ⟨immutables, digest⟩

/-! ## What a decision writes -/

def Decision.written? : Decision → Option Entry
  | .create entry => some entry
  | .merge entry => some entry
  | .overwrite entry => some entry
  | _ => none

def Decision.IsOverwrite (decision : Decision) : Prop :=
  ∃ entry, decision = .overwrite entry

theorem mergeSignatures_grown
    {existing entry written : Entry} {decision : Decision}
    (decided : mergeSignatures existing entry = .ok decision)
    (writes : decision.written? = some written) :
    decision = .merge written ∧ Grown existing written ∧
      ∀ key ∈ signatureKeys entry, key ∈ signatureKeys written := by
  unfold mergeSignatures at decided
  split at decided
  · rw [bind_eq_ok] at decided
    obtain ⟨merged, union, decided⟩ := decided
    split at decided
    · cases decided
      cases writes
    · cases decided
      cases writes
      have both :
          ∃ items others,
            (existing.get "signatures").itemsOrEmpty = .ok items ∧
              (entry.get "signatures").itemsOrEmpty = .ok others := by
        have parts := union
        rw [Json.sortedUnion, bind_eq_ok] at parts
        obtain ⟨items, first, parts⟩ := parts
        rw [bind_eq_ok] at parts
        obtain ⟨others, second, _⟩ := parts
        exact ⟨items, others, first, second⟩
      obtain ⟨items, others, first, second⟩ := both
      have keys := sortedUnion_keys union first second
      rw [List.filterMap_append] at keys
      refine ⟨rfl, ?_, ?_⟩
      · refine
          { path := rfl
            fields := fun key other =>
              Entry.get?_set_other existing _ other
            signatures := ?_ }
        intro key member
        rw [signatureKeys_set_list]
        rw [signatureKeys, first] at member
        exact keys key (List.mem_append_left _ member)
      · intro key member
        rw [signatureKeys_set_list]
        rw [signatureKeys, second] at member
        exact keys key (List.mem_append_right _ member)
  · cases decided
    cases writes

theorem contains_self (call : Upsert) : Contains call call.entry :=
  ⟨fun _ member => member, Or.inl fun _ _ _ => rfl⟩

theorem contains_set_previous (call : Upsert) (previous : Json) :
    Contains call (call.entry.set "_previous" previous) := by
  have unmoved :
      signatureKeys (call.entry.set "_previous" previous) =
        signatureKeys call.entry := by
    rw [signatureKeys, signatureKeys, Entry.get, Entry.get,
      Entry.get?_set_other _ _ (by decide)]
  constructor
  · rw [unmoved]
    exact fun _ member => member
  · left
    intro key _ unnoted
    exact Entry.get?_set_other call.entry previous unnoted

/-- Whatever a call writes contains its entry.  It is a new entry under the
call's path, an overwriting one, or one into which the old one has grown. -/
theorem decideUpsert_written
    {docId : String} {call : Upsert} {existing : Option Entry}
    {decision : Decision} {written : Entry}
    (decided : decideUpsert docId call existing = .ok decision)
    (writes : decision.written? = some written) :
    Contains call written ∧
      ((existing = none ∨ decision.IsOverwrite) ∧
          written.path = call.entry.path ∨
        ∃ old, existing = some old ∧ Grown old written) := by
  cases existing with
  | none =>
      cases decided
      cases writes
      exact ⟨contains_self call, Or.inl ⟨Or.inl rfl, rfl⟩⟩
  | some old =>
      rw [decideUpsert, bind_eq_ok] at decided
      obtain ⟨immutables, sameFields, decided⟩ := decided
      split at decided
      · rename_i agree
        subst agree
        rw [bind_eq_ok] at decided
        obtain ⟨digest, sameHash, decided⟩ := decided
        split at decided
        · rename_i equal
          subst equal
          obtain ⟨_, grown, signatures⟩ :=
            mergeSignatures_grown decided writes
          refine ⟨⟨signatures, Or.inr ?_⟩, Or.inr ⟨old, rfl, grown⟩⟩
          rw [grown.sameImmutables, grown.sameDigest]
          exact ⟨sameFields, sameHash⟩
        · split at decided
          · rw [bind_eq_ok] at decided
            obtain ⟨previous, _, decided⟩ := decided
            cases decided
            cases writes
            exact
              ⟨contains_set_previous call previous,
                Or.inl ⟨Or.inr ⟨_, rfl⟩, rfl⟩⟩
          · cases decided
            cases writes
      · cases decided
        cases writes

/-- A call writes an entry with its own path, if what it finds at that path has
that path too. -/
theorem decideUpsert_path
    {docId : String} {call : Upsert} {existing : Option Entry}
    {decision : Decision} {written : Entry}
    (decided : decideUpsert docId call existing = .ok decision)
    (writes : decision.written? = some written)
    (placed : ∀ old, existing = some old → old.path = call.entry.path) :
    written.path = call.entry.path := by
  rcases (decideUpsert_written decided writes).2 with
    ⟨_, samePath⟩ | ⟨old, found, grown⟩
  · exact samePath
  · rw [grown.path]
    exact placed old found

/-- The answers of a call that has written its entry. -/
def Answer.Wrote (answer : Answer) : Prop :=
  answer = .created ∨ answer = .updated

theorem attemptUpsert_replace
    {docId : String} {call : Upsert} {now : String}
    {before after : CatalogDoc} {answer : Answer}
    (replaced :
      attemptUpsert docId call now before = .replace after answer) :
    answer.Wrote ∧ ∃ decision written,
      decideUpsert docId call (before.leaf call.entry.path) =
          .ok decision ∧
        decision.written? = some written ∧
        after = before.setLeaf call.entry.path written now := by
  unfold attemptUpsert at replaced
  dsimp only at replaced
  split at replaced
  · cases replaced
  · cases replaced
  · cases replaced
  · rename_i entry decided
    cases replaced
    exact ⟨Or.inl rfl, _, entry, decided, rfl, rfl⟩
  · rename_i entry decided
    cases replaced
    exact ⟨Or.inr rfl, _, entry, decided, rfl, rfl⟩
  · rename_i entry decided
    cases replaced
    exact ⟨Or.inr rfl, _, entry, decided, rfl, rfl⟩

theorem attemptUpsert_finish
    {docId : String} {call : Upsert} {now : String}
    {doc : CatalogDoc} {answer : Answer}
    (finished :
      attemptUpsert docId call now doc = .finish answer) :
    ¬ answer.Wrote := by
  unfold attemptUpsert at finished
  dsimp only at finished
  split at finished
  · cases finished
    simp [Answer.Wrote]
  · cases finished
    simp [Answer.Wrote]
  · cases finished
    simp [Answer.Wrote]
  · cases finished
  · cases finished
  · cases finished

theorem upsertProtocol_separates
    (docId : String) (calls : Nat → Upsert) :
    (upsertProtocol docId calls).Separates Answer.Wrote where
  finish := attemptUpsert_finish
  replace := fun replaced => (attemptUpsert_replace replaced).1
  exhausted := by
    simp [upsertProtocol, Answer.Wrote]

section Runs

open VersionedCell

variable (docId : String) (calls : Nat → Upsert)

/-- The replacement overwrites the entry at `path`. -/
def OverwritesAt
    (path : Path) (commit : Commit Nat CatalogDoc Answer) : Prop :=
  (calls commit.client).entry.path = path ∧
    ∃ decision, decideUpsert docId (calls commit.client)
        (commit.before.leaf path) = .ok decision ∧
      decision.IsOverwrite

variable {docId calls}

/-- Along a chain of replacements an entry that contains what a call brought
stays or is overwritten. -/
theorem contains_along_chain
    (call : Upsert) {path : Path}
    {chain : List (Commit Nat CatalogDoc Answer)}
    (decided : ∀ commit ∈ chain, ∃ now,
      attemptUpsert docId (calls commit.client) now commit.before =
        .replace commit.after commit.answer)
    {start final : Path → Option Entry}
    (chained : Chained leaves start chain final)
    {entry : Entry} (found : start path = some entry)
    (contains : Contains call entry) :
    (∃ commit ∈ chain, OverwritesAt docId calls path commit) ∨
      ∃ last, final path = some last ∧ Contains call last := by
  induction chain generalizing start entry with
  | nil =>
      rw [Chained] at chained
      exact Or.inr ⟨entry, chained ▸ found, contains⟩
  | cons commit rest inductionHypothesis =>
      obtain ⟨here, later⟩ := chained
      obtain ⟨now, replaced⟩ := decided commit List.mem_cons_self
      obtain ⟨_, decision, written, choice, writes, after⟩ :=
        attemptUpsert_replace replaced
      have continues : ∀ next, leaves (some commit.after) path = some next →
          Contains call next →
          (∃ other ∈ commit :: rest,
              OverwritesAt docId calls path other) ∨
            ∃ last, final path = some last ∧ Contains call last := by
        intro next foundNext containsNext
        rcases inductionHypothesis
            (fun other member =>
              decided other (List.mem_cons_of_mem _ member))
            later foundNext containsNext with
          ⟨other, member, overwrites⟩ | kept
        · exact
            Or.inl ⟨other, List.mem_cons_of_mem _ member, overwrites⟩
        · exact Or.inr kept
      have foundBefore : commit.before.leaf path = some entry := by
        rw [← found, ← here]
        rfl
      by_cases samePath : (calls commit.client).entry.path = path
      · rw [samePath] at choice after
        rcases (decideUpsert_written choice writes).2 with
          ⟨missing | overwrite, _⟩ | ⟨old, foundOld, grown⟩
        · rw [foundBefore] at missing
          cases missing
        · exact
            Or.inl
              ⟨commit, List.mem_cons_self, samePath, decision, choice,
                overwrite⟩
        · rw [foundBefore] at foundOld
          cases foundOld
          apply continues written
          · rw [after]
            exact CatalogDoc.leaf_setLeaf_self _ _ _ _
          · exact contains.grown grown
      · apply continues entry
        · rw [after]
          exact
            (CatalogDoc.leaf_setLeaf_other _ _ _
              (Ne.symm samePath)).trans foundBefore
        · exact contains

variable (docId calls)

/-- The document of the environment and user after some accesses. -/
def documentAfter (initial : Option CatalogDoc)
    (events : List (Nat × String)) : Option CatalogDoc :=
  (run (upsertProtocol docId calls).step (State.start 6 initial)
    events).cell

/-- The answer of a call that has returned. -/
def answerOf? (initial : Option CatalogDoc)
    (events : List (Nat × String)) (client : Nat) : Option Answer :=
  match (run (upsertProtocol docId calls).step (State.start 6 initial)
      events).clients client with
  | .done answer => some answer
  | _ => none

/-- The replacements of the document in their order. -/
def replacements (initial : Option CatalogDoc)
    (events : List (Nat × String)) :
    List (Commit Nat CatalogDoc Answer) :=
  (upsertProtocol docId calls).commits (State.start 6 initial) events

/-- The document has at the call's path an entry that contains the call's, or
a later replacement has overwritten it. -/
def StoredOrOverwritten (initial : Option CatalogDoc)
    (events : List (Nat × String)) (client : Nat) : Prop :=
  ∃ earlier commit later,
    replacements docId calls initial events =
        earlier ++ commit :: later ∧
      commit.client = client ∧
      ((∃ other ∈ later,
          OverwritesAt docId calls (calls client).entry.path other) ∨
        ∃ entry,
          leaves (documentAfter docId calls initial events)
              (calls client).entry.path = some entry ∧
            Contains (calls client) entry)

/-- No access of the client changes the document. -/
def ChangesNothing (initial : Option CatalogDoc)
    (events : List (Nat × String)) (client : Nat) : Prop :=
  ∀ before now after, events = before ++ (client, now) :: after →
    documentAfter docId calls initial (before ++ [(client, now)]) =
      documentAfter docId calls initial before

/-- Each access of the client leaves the document alone or puts the skeleton,
which has no entries, where there was none. -/
def AddsAtMostSkeleton (initial : Option CatalogDoc)
    (events : List (Nat × String)) (client : Nat) : Prop :=
  ∀ before now after, events = before ++ (client, now) :: after →
    documentAfter docId calls initial (before ++ [(client, now)]) =
        documentAfter docId calls initial before ∨
      documentAfter docId calls initial before = none ∧ ∃ created,
        documentAfter docId calls initial (before ++ [(client, now)]) =
          some (skeleton created)

/-- For every document or none, all calls and every interleaving of their
accesses: what a call has created or updated is in the document or was
overwritten later, and a call that ended otherwise has changed no entry. -/
theorem upserts_not_lost
    (initial : Option CatalogDoc) (events : List (Nat × String))
    (client : Nat) (answer : Answer)
    (returned :
      answerOf? docId calls initial events client = some answer) :
    (answer.Wrote →
      StoredOrOverwritten docId calls initial events client) ∧
    (¬ answer.Wrote →
      AddsAtMostSkeleton docId calls initial events client) := by
  let protocol := upsertProtocol docId calls
  have accounted :=
    Protocol.accounted_run (upsertProtocol_separates docId calls) 6
      initial events
  have finished :
      (run protocol.step (State.start 6 initial) events).clients client =
        .done answer := by
    unfold answerOf? at returned
    split at returned
    · cases returned
      assumption
    · cases returned
  constructor
  · intro wrote
    obtain ⟨commit, member, named⟩ :=
      accounted.complete client answer finished wrote
    obtain ⟨earlier, later, split⟩ := List.append_of_mem member
    refine ⟨earlier, commit, later, split, named, ?_⟩
    have chained :=
      (protocol.valid_start 6 initial).chained_commits
        leaves_skeleton events
    rw [split, chained_append] at chained
    obtain ⟨middle, _, _, chained⟩ := chained
    obtain ⟨now, replaced⟩ := accounted.decided commit member
    obtain ⟨_, decision, written, choice, writes, after⟩ :=
      attemptUpsert_replace replaced
    rw [named] at choice after
    apply contains_along_chain (calls client) ?_ chained
    · change commit.after.leaf _ = some written
      rw [after]
      exact CatalogDoc.leaf_setLeaf_self _ _ _ _
    · exact (decideUpsert_written choice writes).1
    · intro other among
      apply accounted.decided other
      rw [split]
      exact
        List.mem_append_right _ (List.mem_cons_of_mem _ among)
  · intro unwritten before now after split
    have valid :=
      run_invariant_always protocol.Valid
        (fun _ event valid => valid.step event) before
        (protocol.valid_start 6 initial)
    have unmade :
        (run protocol.step (State.start 6 initial) before).commit?
          client = none := by
      cases made :
          (run protocol.step (State.start 6 initial) before).commit?
            client with
      | none =>
          rfl
      | some commit =>
          have member :
              commit ∈ protocol.commits (State.start 6 initial) events := by
            rw [split]
            exact protocol.mem_commits before (client, now) after made
          have given := accounted.answered commit member
          rw [State.commit?_client made] at given
          obtain ⟨_, replaced⟩ := accounted.decided commit member
          have wrote := (attemptUpsert_replace replaced).1
          rw [finished] at given
          cases given
          exact absurd wrote unwritten
    have moved := valid.cell_step (client, now) unmade
    unfold documentAfter
    rw [run_append]
    exact moved

end Runs

/-! ## Two users of one document -/

def wheelEntry (digest : String) : Entry where
  kind := .wheel
  name := "tools"
  version := "1.0"
  other :=
    [("sha256", .str digest), ("status", .str "dev"),
      ("index_url", .str "http://nexus")]

/-- Client 0 and client 1 bring different builds of one version. -/
def twoBuilds : Nat → Upsert
  | 0 => { entry := wheelEntry "aa" }
  | _ => { entry := wheelEntry "bb" }

/-- Both find no document; client 0 inserts the skeleton, client 1 creates its
entry, and client 0 then finds another build in its place. -/
def insertThenConflict : List (Nat × String) :=
  [(0, "t0"), (1, "t1"), (0, "t2"), (1, "t3"), (1, "t4"), (1, "t5"),
    (0, "t6")]

/-- The entry that client 1 has created is there in the end, and the conflict
of client 0 has changed none. -/
theorem concurrent_entry_stored :
    StoredOrOverwritten "catalog::dev::user::alice" twoBuilds none
        insertThenConflict 1 ∧
      AddsAtMostSkeleton "catalog::dev::user::alice" twoBuilds none
        insertThenConflict 0 := by
  constructor
  · exact (upserts_not_lost "catalog::dev::user::alice" twoBuilds none
      insertThenConflict 1 .created (by decide +kernel)).1 (Or.inl rfl)
  · refine (upserts_not_lost "catalog::dev::user::alice" twoBuilds none
      insertThenConflict 0
      (.conflict
        "Digest mismatch for catalog::dev::user::alice:wheel/tools/1.0")
      (by decide +kernel)).2 ?_
    rintro (created | updated)
    · cases created
    · cases updated

/-- Client 1 brings a signature for the wheel of client 0, and another entry
point. -/
def signedLater : Nat → Upsert
  | 0 => { entry := (wheelEntry "aa").set "entry" (.str "tools:run") }
  | _ =>
      { entry :=
          ((wheelEntry "aa").set "entry" (.str "tools:main")).set
            "signatures" (.list [.str "sig"]) }

def createThenSign : List (Nat × String) :=
  [(0, "t0"), (0, "t1"), (0, "t2"), (0, "t3"), (1, "t4"), (1, "t5")]

theorem conflict_inserts_and_merge_drops :
    (¬ ∀ client message,
      answerOf? "catalog::dev::user::alice" twoBuilds none
          insertThenConflict client = some (.conflict message) →
        ChangesNothing "catalog::dev::user::alice" twoBuilds none
          insertThenConflict client) ∧
    answerOf? "catalog::dev::user::alice" signedLater none
        createThenSign 1 = some .updated ∧
    (leaves
        (documentAfter "catalog::dev::user::alice" signedLater none
          createThenSign) (signedLater 1).entry.path).map
      (fun entry =>
        (entry.get "entry").pyEq ((signedLater 1).entry.get "entry")) =
      some false := by
  refine ⟨?_, by decide +kernel, by decide +kernel⟩
  intro unchanged
  have silent :=
    unchanged 0
      "Digest mismatch for catalog::dev::user::alice:wheel/tools/1.0"
      (by decide +kernel)
  have same :=
    congrArg Option.isSome
      (silent [(0, "t0"), (1, "t1")] "t2"
        [(1, "t3"), (1, "t4"), (1, "t5"), (0, "t6")] rfl)
  have inserted :
      (documentAfter "catalog::dev::user::alice" twoBuilds none
        ([(0, "t0"), (1, "t1")] ++ [(0, "t2")])).isSome = true := by
    decide +kernel
  have missing :
      (documentAfter "catalog::dev::user::alice" twoBuilds none
        [(0, "t0"), (1, "t1")]).isSome = false := by
    decide +kernel
  rw [inserted, missing] at same
  cases same

end Agentcy.Catalog
