import Agentcy.GraphStore.Listings
import Mathlib.Data.Set.Basic

/-!
# Isolation of the users in listings

A listing for one user can return a document of another exactly if the name of
the former, read as a pattern, agrees with the name of the latter, each with
its separator, as far as both go.  No two kinds of documents are confused, so
the names alone decide.
-/

namespace Agentcy.GraphStore

open Agentcy.Library

/-- The kinds whose keys a listing asks for. -/
def askedKinds : List String :=
  ["task_spec", "marker::affordance", "marker::reservation", "bid",
    "plan_draft", "plan_revision", "plan_suggestion", "cfp", "award",
    "human_approval", "human_approval_latest", "ethics_check",
    "ethics_check_latest", "ethics_policy", "cnp_cycle", "strategy",
    "execution", "escalation", "audit", "decision", "bandit_model",
    "topology_outcome", "coalition_outcome", "coalition_signal",
    "agent_registry"]

/-- The kinds that are never listed. -/
def unlistedKinds : List String :=
  ["eval_seq", "ethics_policy_active", "topology_perf",
    "coalition_contract", "revision_candidate", "policy_log", "dataflow",
    "domain_knowledge", "service"]

theorem ListCall.kind_mem (call : ListCall) : call.kind ∈ askedKinds := by
  cases call <;> simp [ListCall.kind, askedKinds]

theorem ListCall.latest_kind_mem
    {call : ListCall} {key : MarkerKey} (latest : call.latest = some key) :
    key.kind ∈ askedKinds := by
  cases call with
  | humanApprovals planId | ethicsChecks planId =>
      obtain ⟨text, -, rfl⟩ := Option.map_eq_some_iff.mp latest
      simp [MarkerKey.kind, askedKinds]
  | _ =>
      cases latest

theorem MarkerKey.kind_mem (key : MarkerKey) :
    key.kind ∈ askedKinds ++ unlistedKinds := by
  cases key <;> simp [MarkerKey.kind, askedKinds, unlistedKinds]

/-- A key of a listed kind has something after the user. -/
theorem MarkerKey.components_of_asked
    {key : MarkerKey} (asked : key.kind ∈ askedKinds) :
    ∃ component rest, key.components = component :: rest := by
  cases key with
  | ethicsPolicyActive =>
      simp [MarkerKey.kind, askedKinds] at asked
  | _ =>
      exact ⟨_, _, rfl⟩

/-- A kind with its separator. -/
def kindChars (kind : String) : List Char :=
  (kind ++ "::").toList

/-- A user with the separator. -/
def nameChars (username : String) : List Char :=
  (username ++ "::").toList

theorem kinds_apart :
    (askedKinds.all fun asked =>
      (askedKinds ++ unlistedKinds).all fun kind =>
        !LikePattern.overlaps (kindChars asked) (kindChars kind) ||
          kind == asked) = true := by
  decide

theorem kinds_literal :
    (askedKinds.all fun kind => !(kindChars kind).contains '%') = true := by
  decide

theorem kind_of_overlap
    {asked kind : String} (inAsked : asked ∈ askedKinds)
    (inKinds : kind ∈ askedKinds ++ unlistedKinds)
    (overlap :
      LikePattern.overlaps (kindChars asked) (kindChars kind) = true) :
    kind = asked := by
  have row := List.all_eq_true.mp kinds_apart asked inAsked
  have entry := List.all_eq_true.mp row kind inKinds
  rw [overlap] at entry
  exact eq_of_beq entry

theorem MarkerKey.text_toList (username : String) (key : MarkerKey) :
    (key.text username).toList =
      kindChars key.kind ++
        (username.toList ++ (MarkerKey.joined key.components).toList) := by
  simp [MarkerKey.text, kindChars]

theorem MarkerKey.text_toList_of_asked
    (username : String) {key : MarkerKey} (asked : key.kind ∈ askedKinds) :
    ∃ rest,
      (key.text username).toList =
        kindChars key.kind ++ (nameChars username ++ rest) := by
  obtain ⟨component, rest, split⟩ := MarkerKey.components_of_asked asked
  refine ⟨component.toList ++ (MarkerKey.joined rest).toList, ?_⟩
  rw [MarkerKey.text_toList, split]
  simp [MarkerKey.joined, nameChars]

theorem listingPrefix_toList
    (kind username : String) (components : List (Option String)) :
    (listingPrefix kind username components).toList =
      kindChars kind ++
        (nameChars username ++ (narrowed components).toList) := by
  simp [listingPrefix, kindChars, nameChars]

/-- What overlaps a key with the kind and the user of a listing has that kind,
and a user whose name overlaps. -/
theorem names_overlap
    {asked username owner : String} {key : MarkerKey} {more : List Char}
    (inAsked : asked ∈ askedKinds)
    (overlap :
      LikePattern.overlaps (kindChars asked ++ (nameChars username ++ more))
        (key.text owner).toList = true) :
    LikePattern.overlaps (nameChars username) (nameChars owner) = true := by
  have kinds : key.kind = asked := by
    rw [MarkerKey.text_toList] at overlap
    exact kind_of_overlap inAsked key.kind_mem
      (LikePattern.overlaps_of_append _ _ overlap)
  obtain ⟨rest, text⟩ :=
    MarkerKey.text_toList_of_asked owner (kinds ▸ inAsked : key.kind ∈ _)
  have literal : '%' ∉ kindChars asked := by
    have row := List.all_eq_true.mp kinds_literal asked inAsked
    simpa using row
  rw [text, kinds, LikePattern.overlaps_append_left literal] at overlap
  exact LikePattern.overlaps_of_append _ _ overlap

/-- Every document lies at a key of the user that it was written for, who is
one of the tenants. -/
def Owned
    (tenants : Set String) (docs : OrderedMap String Stored) : Prop :=
  ∀ row ∈ docs.entries,
    row.2.owner ∈ tenants ∧ ∃ key : MarkerKey, row.1 = key.text row.2.owner

theorem Owned.set
    {tenants : Set String} {docs : OrderedMap String Stored}
    (owned : Owned tenants docs)
    {username : String} (tenant : username ∈ tenants)
    (key : MarkerKey) (document : Fields) :
    Owned tenants (docs.set (key.text username) ⟨username, document⟩) := by
  intro row member
  rcases OrderedMap.mem_entries_set member with rfl | old
  · exact ⟨tenant, key, rfl⟩
  · exact owned row old

theorem Owned.erase
    {tenants : Set String} {docs : OrderedMap String Stored}
    (owned : Owned tenants docs) (key : String) :
    Owned tenants (docs.erase key) := fun row member =>
  owned row (List.mem_filter.mp member).1

/-- The write is for one of the tenants, if it writes. -/
def Write.By (tenants : Set String) : Write → Prop
  | .upsert username _ _ => username ∈ tenants
  | .remove _ _ => True

theorem GraphMarkerStore.docs_setDocs
    (store : GraphMarkerStore) (docs : OrderedMap String Stored)
    (written tested : Collection) :
    (store.setDocs docs written).docs tested =
      if tested = written then docs else store.docs tested := by
  cases written <;> cases tested <;> rfl

theorem GraphMarkerStore.empty_owned
    (tenants : Set String) (collection : Collection) :
    Owned tenants (GraphMarkerStore.empty.docs collection) := by
  cases collection <;> exact fun row member => nomatch member

theorem GraphMarkerStore.step_owned
    {tenants : Set String} {store : GraphMarkerStore}
    (owned : ∀ collection, Owned tenants (store.docs collection))
    {write : Write} (byTenant : write.By tenants) (collection : Collection) :
    Owned tenants ((store.step write).docs collection) := by
  cases write with
  | upsert username key document =>
      rw [GraphMarkerStore.step, docs_setDocs]
      split
      · exact (owned key.collection).set byTenant key document
      · exact owned collection
  | remove written key =>
      rw [GraphMarkerStore.step, docs_setDocs]
      split
      · exact (owned written).erase key
      · exact owned collection

theorem GraphMarkerStore.run_owned
    {tenants : Set String} {store : GraphMarkerStore}
    (owned : ∀ collection, Owned tenants (store.docs collection))
    {writes : List Write}
    (byTenants : ∀ write ∈ writes, write.By tenants)
    (collection : Collection) :
    Owned tenants
      ((run GraphMarkerStore.step store writes).docs collection) := by
  induction writes generalizing store with
  | nil =>
      exact owned collection
  | cons write rest inductionHypothesis =>
      have first := byTenants write List.mem_cons_self
      exact inductionHypothesis
        (GraphMarkerStore.step_owned owned first)
        fun later member => byTenants later (List.mem_cons_of_mem _ member)

/-! ## What is listed -/

theorem Page.mem_of_mem_cut
    {page : Page} {rows : List Row} {row : Row}
    (member : row ∈ page.cut rows) :
    row ∈ rows := by
  unfold Page.cut at member
  split at member
  · exact member
  · exact List.mem_of_mem_drop (List.mem_of_mem_take member)

/-- A selected row comes from a row of the same user. -/
theorem ListCall.owner_of_mem_select
    {call : ListCall} {rows : List Row} {row : Row}
    (member : row ∈ call.select rows) :
    ∃ source ∈ rows, source.2.owner = row.2.owner := by
  cases call with
  | agents enrich keep =>
      obtain ⟨source, inRows, rfl⟩ :=
        List.mem_map.mp (List.mem_filter.mp member).1
      exact ⟨source, inRows, rfl⟩
  | _ =>
      exact ⟨row, (List.mem_filter.mp member).1, rfl⟩

/-- A listed document is one that the query matches, or the latest one at its
own key. -/
theorem mem_listDocs
    {store : GraphMarkerStore} {username : String} {call : ListCall}
    {page : Page} {row : Row}
    (member : row ∈ (listDocs store username call page).1) :
    (∃ source ∈ matching store call.collection
        (listingPrefix call.kind username call.components),
      source.2.owner = row.2.owner) ∨
    (∃ key, call.latest = some key ∧
      row.1 = key.text username ∧ row ∈ store.markers.entries) := by
  have selected :
      row ∈ page.resorted.arrange
        (call.select (listByPrefix store call.collection
          (listingPrefix call.kind username call.components) page).1) →
      ∃ source ∈ matching store call.collection
          (listingPrefix call.kind username call.components),
        source.2.owner = row.2.owner := by
    intro listed
    obtain ⟨source, inPage, owner⟩ :=
      ListCall.owner_of_mem_select
        ((page.resorted.perm _).mem_iff.mp listed)
    have arranged := Page.mem_of_mem_cut inPage
    exact ⟨source, (page.order.perm _).mem_iff.mp arranged, owner⟩
  unfold listDocs at member
  dsimp only at member
  split at member
  · rename_i key _ latest
    split at member
    · cases member
    · rename_i stored found
      rw [List.mem_singleton.mp member]
      exact Or.inr ⟨key, latest, rfl, OrderedMap.mem_of_get? found⟩
  · exact Or.inl (selected member)

/-- Every listing for a tenant returns only documents that were written for
the tenant, after any writes for the tenants. -/
def Isolated (tenants : Set String) : Prop :=
  ∀ writes : List Write, (∀ write ∈ writes, write.By tenants) →
    ∀ username ∈ tenants, ∀ (call : ListCall) (page : Page),
      ∀ row ∈ (listDocs (run GraphMarkerStore.step .empty writes)
          username call page).1,
        row.2.owner = username

/-- No tenant's name is a pattern for what another tenant's keys begin
with. -/
def Separated (tenants : Set String) : Prop :=
  ∀ username ∈ tenants, ∀ owner ∈ tenants, owner ≠ username →
    LikePattern.overlaps (nameChars username) (nameChars owner) = false

theorem isolated_of_separated
    {tenants : Set String} (separated : Separated tenants) :
    Isolated tenants := by
  intro writes byTenants username tenant call page row member
  have owned :=
    GraphMarkerStore.run_owned (GraphMarkerStore.empty_owned tenants)
      byTenants
  by_contra foreign
  -- Either way the row lies at a key that overlaps what was asked for.
  have overlap :
      row.2.owner ∈ tenants ∧
        LikePattern.overlaps (nameChars username)
          (nameChars row.2.owner) = true := by
    rcases mem_listDocs member with
      ⟨source, matched, owner⟩ | ⟨key, latest, atKey, stored⟩
    · obtain ⟨inStore, like⟩ := List.mem_filter.mp matched
      obtain ⟨inTenants, key, text⟩ := owned _ source inStore
      rw [owner] at inTenants text
      rw [listingPrefix_toList, text] at like
      have overlap := (LikePattern.overlaps_iff _ _).mpr
        ⟨[], by rwa [List.append_nil]⟩
      exact ⟨inTenants, names_overlap call.kind_mem overlap⟩
    · obtain ⟨inTenants, written, text⟩ := owned .graphMarkers row stored
      have asked := ListCall.latest_kind_mem latest
      obtain ⟨rest, split⟩ :=
        MarkerKey.text_toList_of_asked username asked
      have overlap :
          LikePattern.overlaps
            (kindChars key.kind ++ (nameChars username ++ rest))
            (written.text row.2.owner).toList = true := by
        rw [← text, atKey, ← split]
        exact LikePattern.overlaps_self _
      exact ⟨inTenants, names_overlap asked overlap⟩
  have apart := separated username tenant _ overlap.1 foreign
  rw [overlap.2] at apart
  cases apart

theorem listDocs_taskSpecs (store : GraphMarkerStore) (username : String) :
    (listDocs store username .taskSpecs {}).1 =
      matching store .graphMarkers
        (listingPrefix "task_spec" username []) := by
  simp [listDocs, listByPrefix, ListCall.collection, ListCall.kind,
    ListCall.components, Page.cut, Arrangement.asStored,
    ListCall.select, ListCall.filters, ListCall.latest]

/-- A task specification whose key continues the owner's name so that the
other user's pattern matches is listed for that user. -/
theorem mem_listDocs_taskSpecs
    (username owner taskId : String)
    (like :
      LikePattern.like (nameChars username ++ ['%'])
        (nameChars owner ++ taskId.toList) = true) :
    (((MarkerKey.taskSpec taskId).text owner, ⟨owner, []⟩) : Row) ∈
      (listDocs
        (run GraphMarkerStore.step .empty
          [.upsert owner (.taskSpec taskId) []])
        username .taskSpecs {}).1 := by
  have literal : '%' ∉ kindChars "task_spec" := by decide
  have keyLike :
      LikePattern.like
        ((listingPrefix "task_spec" username []).toList ++ ['%'])
        ((MarkerKey.taskSpec taskId).text owner).toList = true := by
    have key :
        ((MarkerKey.taskSpec taskId).text owner).toList =
          kindChars "task_spec" ++ (nameChars owner ++ taskId.toList) := by
      simp [MarkerKey.text, MarkerKey.kind, MarkerKey.components,
        MarkerKey.joined, kindChars, nameChars]
    rw [listingPrefix_toList, key, List.append_assoc,
      LikePattern.like_append_left literal]
    simpa [narrowed] using like
  have found :
      matching
        (run GraphMarkerStore.step .empty
          [.upsert owner (.taskSpec taskId) []])
        .graphMarkers (listingPrefix "task_spec" username []) =
      [((MarkerKey.taskSpec taskId).text owner, ⟨owner, []⟩)] :=
    List.filter_cons_of_pos keyLike
  rw [listDocs_taskSpecs, found]
  exact List.mem_cons_self

theorem separated_of_isolated
    {tenants : Set String} (isolated : Isolated tenants) :
    Separated tenants := by
  intro username tenant owner otherTenant different
  by_contra overlap
  obtain ⟨rest, like⟩ :=
    (LikePattern.overlaps_iff _ _).mp (Bool.eq_true_of_not_eq_false overlap)
  have byTenants :
      ∀ write ∈ [Write.upsert owner (.taskSpec (String.ofList rest)) []],
        write.By tenants := by
    intro write member
    rw [List.mem_singleton.mp member]
    exact otherTenant
  have listed :=
    mem_listDocs_taskSpecs username owner (String.ofList rest)
      (by simpa using like)
  exact different
    (isolated _ byTenants username tenant .taskSpecs {} _ listed)

/-- Listings keep a set of tenants apart exactly if no tenant's name, with the
separator, is a pattern for the beginning of another's. -/
theorem isolated_iff (tenants : Set String) :
    Isolated tenants ↔ Separated tenants :=
  ⟨separated_of_isolated, isolated_of_separated⟩

/-- An underscore in a name stands for any letter: `j_doe` is shown the task
specification of `jadoe`. -/
theorem underscore_lists_other_tenant :
    ¬ Isolated {"j_doe", "jadoe"} := by
  intro isolated
  have apart := separated_of_isolated isolated "j_doe" (Or.inl rfl)
    "jadoe" (Or.inr rfl) (by decide)
  exact absurd apart (by decide)

end Agentcy.GraphStore
