import Agentcy.Catalog.Upserts
import Mathlib.Data.Prod.Lex
import Mathlib.Data.String.Basic

/-!
# Reading the catalog back

`query` flattens the document of an environment and a user and sorts what it
finds.  Over any sequence of upserts it returns exactly what the calls with
the same document identifier have left at each path.  Identifiers spell names
without case, outer blanks and special characters, so that several users can
have one document.
-/

namespace Agentcy.Catalog

open Agentcy.Library

structure CatalogCall where
  env : String
  username : String
  upsert : Upsert
  now : String

def CatalogCall.docId (call : CatalogCall) : String :=
  docIdOf call.env call.username

abbrev CatalogStore := String → Option CatalogDoc

def emptyStore : CatalogStore := fun _ => none

/-- The document and the answer of a call that nobody disturbs. -/
def CatalogCall.result (call : CatalogCall) (store : CatalogStore) :
    CatalogDoc × Answer :=
  (upsertProtocol call.docId fun _ => call.upsert).alone 0 call.now
    (store call.docId)

def performUpsert (store : CatalogStore) (call : CatalogCall) :
    CatalogStore :=
  Function.update store call.docId (some (call.result store).1)

/-- The undisturbed call is the loop of `upsert` run by a single client. -/
theorem result_eq_run (call : CatalogCall) (store : CatalogStore) :
    let final :=
      run (upsertProtocol call.docId fun _ => call.upsert).step
        (VersionedCell.State.start 6 (store call.docId))
        (List.replicate 4 (0, call.now))
    final.cell = some (call.result store).1 ∧
      final.clients 0 = .done (call.result store).2 :=
  (upsertProtocol call.docId fun _ => call.upsert).run_alone 0 call.now 4
    (store call.docId)

/-- The optional filters of a query; an empty text filters nothing. -/
structure CatalogFilter where
  kind : Option Kind := none
  status : Option String := none
  name : Option String := none
  version : Option String := none

def wanted (asked : Option String) (value : Json) : Bool :=
  match asked with
  | none => true
  | some text => text == "" || value.pyEq (.str text)

/-- `_matches`. -/
def CatalogFilter.accepts (filter : CatalogFilter) (entry : Entry) :
    Bool :=
  wanted (filter.kind.map Kind.text) (entry.get "kind") &&
    wanted filter.status (entry.get "status") &&
    wanted filter.name (entry.get "name") &&
    wanted filter.version (entry.get "version")

/-- The entries of both trees, wheels first. -/
def CatalogDoc.flatten (doc : CatalogDoc) : List Entry :=
  [Kind.wheel, Kind.oci].flatMap fun kind =>
    (doc.tree kind).values.flatMap fun versions => versions.values

/-- The key by which the results are sorted. -/
def sortKey (entry : Entry) : Lex (String × Lex (String × String)) :=
  toLex (entry.kind.text, toLex (entry.name, entry.version))

/-- `query`. -/
def query (store : CatalogStore) (env username : String)
    (filter : CatalogFilter) : List Entry :=
  match store (docIdOf env username) with
  | none => []
  | some doc =>
      (doc.flatten.filter filter.accepts).insertionSort
        fun first second => sortKey first ≤ sortKey second

/-- `resolve`, which calls `query` without its required argument `env`. -/
def resolve (_store : CatalogStore) (_username : String) (_kind : Kind)
    (_name _version _status : String) :
    Except PyError (Option Entry) :=
  .error .typeError

/-- What an upsert leaves at its own path. -/
def storeEntry (docId : String) (call : Upsert)
    (existing : Option Entry) : Option Entry :=
  match decideUpsert docId call existing with
  | .error _ => existing
  | .ok decision => decision.written?.or existing

/-- What the calls for one document and one path have left there, one after
another; no other call has a part in it. -/
def lastStored (docId : String) (path : Path)
    (calls : List CatalogCall) : Option Entry :=
  (calls.filter fun call =>
      decide (call.docId = docId ∧ call.upsert.entry.path = path)).foldl
    (fun existing call => storeEntry docId call.upsert existing) none

/-- The document after one attempt, whether or not it is replaced. -/
theorem leaf_after_attempt
    (docId : String) (call : Upsert) (now : String) (doc : CatalogDoc)
    (path : Path) :
    (match attemptUpsert docId call now doc with
      | .finish _ => doc
      | .replace after _ => after).leaf path =
      if call.entry.path = path then
        storeEntry docId call (doc.leaf path)
      else
        doc.leaf path := by
  by_cases mine : call.entry.path = path
  · subst mine
    rw [if_pos rfl]
    unfold attemptUpsert storeEntry
    dsimp only
    cases decideUpsert docId call (doc.leaf call.entry.path) with
    | error error =>
        rfl
    | ok decision =>
        cases decision with
        | create entry =>
            exact CatalogDoc.leaf_setLeaf_self _ _ _ _
        | merge entry =>
            exact CatalogDoc.leaf_setLeaf_self _ _ _ _
        | overwrite entry =>
            exact CatalogDoc.leaf_setLeaf_self _ _ _ _
        | unchanged =>
            rfl
        | conflict message =>
            rfl
  · rw [if_neg mine]
    split
    · rfl
    · rename_i after answer replaced
      obtain ⟨_, _, written, _, _, rfl⟩ := attemptUpsert_replace replaced
      exact CatalogDoc.leaf_setLeaf_other _ _ _ (Ne.symm mine)

theorem leaves_performUpsert
    (store : CatalogStore) (call : CatalogCall)
    (docId : String) (path : Path) :
    leaves (performUpsert store call docId) path =
      if call.docId = docId ∧ call.upsert.entry.path = path then
        storeEntry docId call.upsert (leaves (store docId) path)
      else
        leaves (store docId) path := by
  unfold performUpsert
  by_cases same : call.docId = docId
  · subst same
    rw [Function.update_self]
    have present :
        leaves (store call.docId) =
          ((store call.docId).getD (skeleton call.now)).leaf := by
      cases store call.docId with
      | none => exact (leaves_skeleton call.now).symm
      | some doc => rfl
    have after :=
      leaf_after_attempt call.docId call.upsert call.now
        ((store call.docId).getD (skeleton call.now)) path
    rw [present]
    simp only [true_and]
    rw [← after]
    change (call.result store).1.leaf path = _
    unfold CatalogCall.result VersionedCell.Protocol.alone upsertProtocol
    dsimp only
    split
    · rename_i decided
      rw [decided]
    · rename_i decided
      rw [decided]
  · rw [Function.update_of_ne (Ne.symm same), if_neg]
    exact fun both => same both.1

theorem leaves_run
    (calls : List CatalogCall) (docId : String) (path : Path) :
    leaves (run performUpsert emptyStore calls docId) path =
      lastStored docId path calls := by
  have general : ∀ store : CatalogStore,
      leaves (run performUpsert store calls docId) path =
        (calls.filter fun call =>
            decide
              (call.docId = docId ∧
                call.upsert.entry.path = path)).foldl
          (fun existing call => storeEntry docId call.upsert existing)
          (leaves (store docId) path) := by
    induction calls with
    | nil =>
        intro store
        rfl
    | cons call rest inductionHypothesis =>
        intro store
        rw [run_cons, inductionHypothesis, leaves_performUpsert]
        by_cases mine :
            call.docId = docId ∧ call.upsert.entry.path = path
        · rw [if_pos mine, List.filter_cons_of_pos (by simpa using mine)]
          rfl
        · rw [if_neg mine, List.filter_cons_of_neg (by simpa using mine)]
  exact general emptyStore

theorem storeEntry_path
    {docId : String} {call : Upsert} {existing : Option Entry}
    {entry : Entry}
    (placed : ∀ old, existing = some old → old.path = call.entry.path)
    (stored : storeEntry docId call existing = some entry) :
    entry.path = call.entry.path := by
  unfold storeEntry at stored
  split at stored
  · exact placed entry stored
  · rename_i decision decided
    cases writes : decision.written? with
    | none =>
        rw [writes, Option.none_or] at stored
        exact placed entry stored
    | some written =>
        rw [writes, Option.some_or] at stored
        cases stored
        exact decideUpsert_path decided writes placed

/-- What is stored under a path has that path. -/
theorem lastStored_path
    {docId : String} {path : Path} {calls : List CatalogCall}
    {entry : Entry} (stored : lastStored docId path calls = some entry) :
    entry.path = path := by
  unfold lastStored at stored
  have general : ∀ mine : List CatalogCall,
      (∀ call ∈ mine, call.upsert.entry.path = path) →
        ∀ existing : Option Entry,
          (∀ old, existing = some old → old.path = path) →
            ∀ entry,
              mine.foldl
                  (fun existing call =>
                    storeEntry docId call.upsert existing)
                  existing = some entry →
                entry.path = path := by
    intro mine
    induction mine with
    | nil =>
        intro _ existing placed entry found
        exact placed entry found
    | cons call rest inductionHypothesis =>
        intro here existing placed entry found
        have callPath := here call List.mem_cons_self
        apply
          inductionHypothesis
            (fun other among => here other (List.mem_cons_of_mem _ among))
            (storeEntry docId call.upsert existing) ?_ entry found
        intro old kept
        rw [← callPath]
        apply storeEntry_path ?_ kept
        rw [callPath]
        exact placed
  apply general _ ?_ none ?_ entry stored
  · intro call among
    exact (of_decide_eq_true (List.mem_filter.mp among).2).2
  · intro old nothing
    cases nothing

/-! ## What a query returns -/

theorem CatalogDoc.mem_flatten_iff
    (doc : CatalogDoc)
    (placed : ∀ path entry, doc.leaf path = some entry →
      entry.path = path)
    (entry : Entry) :
    entry ∈ doc.flatten ↔ doc.leaf entry.path = some entry := by
  have visits :
      entry ∈ doc.flatten ↔
        ∃ path, doc.leaf path = some entry := by
    unfold CatalogDoc.flatten CatalogDoc.leaf OrderedMap.values
    simp only [List.mem_flatMap, List.mem_map]
    constructor
    · rintro ⟨kind, _, versions, ⟨named, among, rfl⟩, leaf, last, rfl⟩
      refine ⟨(kind, named.1, leaf.1), ?_⟩
      rw [OrderedMap.get?_of_mem among]
      exact OrderedMap.get?_of_mem last
    · rintro ⟨⟨kind, name, version⟩, found⟩
      dsimp only at found
      split at found
      · cases found
      · rename_i versions foundName
        refine
          ⟨kind, ?_, versions,
            ⟨(name, versions), OrderedMap.mem_of_get? foundName, rfl⟩,
            (version, entry), OrderedMap.mem_of_get? found, rfl⟩
        cases kind with
        | wheel => simp
        | oci => simp
  rw [visits]
  constructor
  · rintro ⟨path, found⟩
    rw [placed path entry found]
    exact found
  · intro found
    exact ⟨entry.path, found⟩

/-- The places of the tree, in the order of `flatten`. -/
def CatalogDoc.places (doc : CatalogDoc) : List Path :=
  [Kind.wheel, Kind.oci].flatMap fun kind =>
    (doc.tree kind).entries.flatMap fun named =>
      named.2.entries.map fun leaf => (kind, named.1, leaf.1)

theorem CatalogDoc.nodup_places (doc : CatalogDoc) :
    doc.places.Nodup := by
  have sameKind : ∀ (kind : Kind),
      ∀ path ∈ ((doc.tree kind).entries.flatMap fun named =>
          named.2.entries.map fun leaf => (kind, named.1, leaf.1)),
        path.1 = kind := by
    intro kind path member
    obtain ⟨named, _, member⟩ := List.mem_flatMap.mp member
    obtain ⟨leaf, _, rfl⟩ := List.mem_map.mp member
    rfl
  refine List.nodup_flatMap.mpr ⟨?_, ?_⟩
  · intro kind _
    refine List.nodup_flatMap.mpr ⟨?_, ?_⟩
    · intro named _
      have versions := named.2.keysNodup
      have split :
          (named.2.entries.map fun leaf => (kind, named.1, leaf.1)) =
            (named.2.entries.map Prod.fst).map
              fun version => (kind, named.1, version) := by
        rw [List.map_map]
        rfl
      rw [split]
      apply versions.map
      intro first second same
      simpa using same
    · have names := List.pairwise_map.mp (doc.tree kind).keysNodup
      apply names.imp
      intro first second different path inFirst inSecond
      obtain ⟨_, _, rfl⟩ := List.mem_map.mp inFirst
      obtain ⟨_, _, same⟩ := List.mem_map.mp inSecond
      simp only [Prod.mk.injEq] at same
      exact different same.2.1.symm
  · apply List.Pairwise.cons
    · intro other among path inWheel inOther
      rw [List.mem_singleton.mp among] at inOther
      have wheel := sameKind _ path inWheel
      rw [sameKind _ path inOther] at wheel
      cases wheel
    · exact List.pairwise_singleton _ _

/-- Different places of the tree hold entries with different paths. -/
theorem CatalogDoc.nodup_flatten
    (doc : CatalogDoc)
    (placed : ∀ path entry, doc.leaf path = some entry →
      entry.path = path) :
    (doc.flatten.map Entry.path).Nodup := by
  have same : doc.flatten.map Entry.path = doc.places := by
    unfold CatalogDoc.flatten CatalogDoc.places OrderedMap.values
    rw [List.map_flatMap]
    apply List.flatMap_congr
    intro kind _
    rw [List.map_flatMap, List.flatMap_map]
    apply List.flatMap_congr
    intro named among
    rw [List.map_map]
    apply List.map_congr_left
    intro leaf last
    apply placed
    unfold CatalogDoc.leaf
    rw [OrderedMap.get?_of_mem among]
    exact OrderedMap.get?_of_mem last
  rw [same]
  exact doc.nodup_places

theorem documents_placed
    (calls : List CatalogCall) {docId : String} {doc : CatalogDoc}
    (stored : run performUpsert emptyStore calls docId = some doc)
    (path : Path) (entry : Entry)
    (found : doc.leaf path = some entry) : entry.path = path := by
  apply lastStored_path
  rw [← leaves_run calls docId path, stored]
  exact found

/-- Over any sequence of upserts by any users in any environments, a query
returns exactly what the calls with its document identifier left under the
paths that its filters accept, each path once, and sorted. -/
theorem query_exact
    (calls : List CatalogCall) (env username : String)
    (filter : CatalogFilter) :
    let result :=
      query (run performUpsert emptyStore calls) env username filter
    (∀ entry, entry ∈ result ↔
      filter.accepts entry = true ∧
        lastStored (docIdOf env username) entry.path calls =
          some entry) ∧
    (result.map Entry.path).Nodup ∧
    result.Pairwise (fun first second =>
      sortKey first ≤ sortKey second) := by
  unfold query
  cases stored :
      run performUpsert emptyStore calls (docIdOf env username) with
  | none =>
      refine ⟨?_, List.nodup_nil, List.Pairwise.nil⟩
      intro entry
      rw [← leaves_run calls, stored]
      simp [leaves]
  | some doc =>
      have placed := documents_placed calls stored
      have permuted :=
        List.perm_insertionSort
          (fun first second => sortKey first ≤ sortKey second)
          (doc.flatten.filter filter.accepts)
      refine ⟨?_, ?_, ?_⟩
      · intro entry
        rw [permuted.mem_iff, List.mem_filter,
          doc.mem_flatten_iff placed, ← leaves_run calls, stored]
        exact and_comm
      · rw [(permuted.map Entry.path).nodup_iff]
        exact
          (List.filter_sublist.map Entry.path).nodup
            (doc.nodup_flatten placed)
      · exact List.pairwise_insertionSort _ _

/-- `Alice` stores a wheel; nobody stores anything for `alice`. -/
def aliceUpserts : CatalogCall where
  env := "dev"
  username := "Alice"
  upsert := { entry := wheelEntry "aa" }
  now := "t0"

theorem entry_of_another_user :
    (¬ ∀ calls env username,
      ∀ entry ∈
          query (run performUpsert emptyStore calls) env username {},
        ∃ call ∈ calls, call.env = env ∧ call.username = username) ∧
    ∀ store username kind name version status,
      resolve store username kind name version status =
        .error .typeError := by
  refine ⟨?_, fun _ _ _ _ _ _ => rfl⟩
  intro isolated
  have found :
      (query (run performUpsert emptyStore [aliceUpserts]) "dev" "alice"
        {}).length = 1 := by
    decide +kernel
  obtain ⟨entry, single⟩ := List.length_eq_one_iff.mp found
  obtain ⟨call, among, _, username⟩ :=
    isolated [aliceUpserts] "dev" "alice" entry (by
      rw [single]
      exact List.mem_singleton_self entry)
  rw [List.mem_singleton.mp among] at username
  exact absurd username (by decide)

end Agentcy.Catalog
