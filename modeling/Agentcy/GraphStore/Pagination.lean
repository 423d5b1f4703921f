import Agentcy.GraphStore.TenantIsolation
import Agentcy.Library.Slice

/-!
# Pages of filtered listings

A listing of the graph marker store is asked for a page of the documents that
satisfy its filters.  Only the filters that go into the key prefix are
evaluated before the page is cut; the others are applied to the page, and the
total is then that of the page.  When a plan has nothing on the page, its
latest document stands in for it.
-/

namespace Agentcy.GraphStore

open Agentcy.Library

namespace ListCall

/-- The fields of the documents that the components of the prefix stand
for. -/
def componentFields : ListCall → List String
  | .bids _ _ _ _ => ["task_id", "bidder_id"]
  | .affordanceMarkers _ _ _ _ | .reservationMarkers _ _ | .cfps _ _
  | .contractAwards _ _ _ | .decisionRecords _ _ => ["task_id"]
  | .planRevisions _ | .humanApprovals _ | .ethicsChecks _
  | .strategyPlans _ | .executionReports _ => ["plan_id"]
  | .escalationNotices _ | .auditLogs _ => ["pipeline_run_id"]
  | .coalitionSignals _ => ["signal_type"]
  | _ => []

/-- The test that the page is filtered by. -/
def passes (call : ListCall) (row : Row) : Bool :=
  call.filters.all (hasField row.2.document) &&
    match call with
    | .failureMarkers _ taskType => isFailure taskType row.2.document
    | _ => true

/-- The document satisfies all filters of the call. -/
def accepts (call : ListCall) (row : Row) : Bool :=
  (call.componentFields.zip call.components).all
    (hasField row.2.document) && call.passes row

/-- The calls that can be asked for a page. -/
def paged : ListCall → Bool
  | .failureMarkers _ _ | .banditModels | .coalitionSignals _ => false
  | _ => true

/-- The calls that return a total. -/
def counts : ListCall → Bool
  | .failureMarkers _ _ => false
  | _ => true

end ListCall

section Listing

variable
  (store : GraphMarkerStore) (username : String) (call : ListCall)
  (page : Page)

/-- The documents of the user of the kind that is listed, in the order of the
listing. -/
def documents : List Row :=
  page.order.arrange
    (matching store .graphMarkers (listingPrefix call.kind username []))

/-- The documents that satisfy all filters. -/
def wanted : List Row :=
  (documents store username call page).filter call.accepts

/-- The documents that the query finds, before the page is cut. -/
def found : List Row :=
  page.order.arrange
    (matching store .graphMarkers
      (listingPrefix call.kind username call.components))

/-- The listing returns the slice of the documents that satisfy all filters,
and the number of them. -/
def PagesRight : Prop :=
  (listDocs store username call page).1 =
      slice page.offset page.limit (wanted store username call page) ∧
    (call.counts = true →
      (listDocs store username call page).2 =
        (wanted store username call page).length)

/-- The same listing without a page. -/
def Page.whole : Page :=
  { page with limit := none, offset := 0 }

/-- A document is found under the prefix of the call and passes the test of
the page exactly if it satisfies all filters. -/
def Aligned : Prop :=
  ∀ row ∈ documents store username call page,
    (LikePattern.like
          ((listingPrefix call.kind username call.components).toList ++
            ['%'])
          row.1.toList &&
        call.passes row) =
      call.accepts row

/-- No filter is lost by cutting the page first: nothing satisfies the
filters, or none is applied to the page, or the page starts with the first
document and what comes after it satisfies none of them.  Without a limit
nothing is cut, nor skipped. -/
def CutLate : Prop :=
  wanted store username call page = [] ∨
    match page.limit with
    | none => page.offset = 0
    | some limit =>
        call.recounts = true →
          page.offset = 0 ∧
            ∀ row ∈ (found store username call page).drop limit,
              call.accepts row = false

/-- The latest document does not stand in for an empty page. -/
def NoStandIn : Prop :=
  ∀ key, call.latest = some key →
    page.cut (found store username call page) ≠ [] ∨
      wanted store username call page = [] ∧
        store.markers.get? (key.text username) = none

/-- The order that the caller sorts the page into is that of the query. -/
def SortsAlike : Prop :=
  page.resorted.arrange (wanted store username call page) =
      wanted store username call page ∧
    page.resorted.arrange
        (slice page.offset page.limit (wanted store username call page)) =
      slice page.offset page.limit (wanted store username call page)

end Listing

/-- The order of two rows does not depend on the other rows. -/
def Arrangement.Stable (order : Arrangement) : Prop :=
  ∀ (keep : Row → Bool) (rows : List Row),
    order.arrange (rows.filter keep) = (order.arrange rows).filter keep

namespace ListCall

theorem select_eq
    {call : ListCall} (markers : call.collection = .graphMarkers)
    (rows : List Row) :
    call.select rows = rows.filter call.passes := by
  cases call with
  | agents enrich keep =>
      cases markers
  | failureMarkers agentId taskType =>
      rfl
  | _ =>
      refine List.filter_congr fun row _ => ?_
      simp [passes]

theorem hasField_of_not_given
    (document : Fields) {wanted : String × Option String}
    (missing : (given wanted.2).isSome = false) :
    hasField document wanted = true := by
  have absent : given wanted.2 = none := by simpa using missing
  rw [hasField, absent]

theorem given_of_missing
    {component : Option String}
    (missing : (given component).isSome = false) (kept : Bool) :
    (given (if kept then component else none)).isSome = false := by
  cases kept with
  | false => rfl
  | true => exact missing

/-- A call that does not count its page, but returns a total, does not filter
the page either. -/
theorem passes_of_not_recounts
    {call : ListCall} (counted : call.counts = true)
    (uncounted : call.recounts = false) (row : Row) :
    call.passes row = true := by
  cases call with
  | failureMarkers agentId taskType =>
      cases counted
  | bids taskId bidderId pipelineId pipelineRunId =>
      simp only [recounts, List.any_cons, List.any_nil,
        Bool.or_eq_false_iff] at uncounted
      obtain ⟨noTask, noBidder, noPipeline, noRun, -⟩ := uncounted
      have one :
          ∀ wanted ∈
            (ListCall.bids taskId bidderId pipelineId
              pipelineRunId).filters,
            (given wanted.2).isSome = false := by
        simp only [filters, List.forall_mem_cons]
        exact
          ⟨given_of_missing noTask _, given_of_missing noBidder _,
            noPipeline, noRun,
            fun _ member => absurd member List.not_mem_nil⟩
      simp only [passes, Bool.and_true, List.all_eq_true]
      exact fun wanted member => hasField_of_not_given _ (one wanted member)
  | _ =>
      simp only [passes, Bool.and_true, List.all_eq_true]
      intro wanted member
      exact hasField_of_not_given _
        (by simpa using List.any_eq_false.mp uncounted wanted member)

theorem counts_of_paged
    {call : ListCall} (paged : call.paged = true) :
    call.counts = true := by
  cases call <;> first | rfl | cases paged

/-- A call with a latest document returns a total, and neither filters its
page nor counts it. -/
theorem of_latest
    {call : ListCall} {key : MarkerKey} (latest : call.latest = some key) :
    call.counts = true ∧ call.recounts = false ∧
      LikePattern.overlaps (kindChars call.kind) (kindChars key.kind) =
        false := by
  cases call with
  | humanApprovals planId | ethicsChecks planId =>
      obtain ⟨text, -, rfl⟩ := Option.map_eq_some_iff.mp latest
      refine ⟨rfl, rfl, ?_⟩
      rw [kind, MarkerKey.kind]
      decide
  | _ =>
      cases latest

end ListCall

/-! ## What the listing returns -/

section Returned

variable
  {store : GraphMarkerStore} {username : String} {call : ListCall}
  {page : Page}

/-- What the call makes of its page, if no latest document stands in. -/
def shown
    (store : GraphMarkerStore) (username : String) (call : ListCall)
    (page : Page) : List Row :=
  page.resorted.arrange
    ((page.cut (found store username call page)).filter call.passes)

theorem listDocs_eq (markers : call.collection = .graphMarkers) :
    listDocs store username call page =
      match shown store username call page, call.latest with
      | [], some key =>
          match store.markers.get? (key.text username) with
          | none => ([], 0)
          | some stored => ([(key.text username, stored)], 1)
      | _, _ =>
          (shown store username call page,
            if call.recounts then (shown store username call page).length
            else (found store username call page).length) := by
  have total :
      (found store username call page).length =
        (matching store .graphMarkers
          (listingPrefix call.kind username call.components)).length :=
    (page.order.perm _).length_eq
  rw [total]
  simp only [listDocs, ListCall.select_eq markers, markers]
  rfl

/-- The query of a call finds, in the order of the listing, the documents
whose keys are like its prefix. -/
theorem found_eq (stable : page.order.Stable) :
    found store username call page =
      (documents store username call page).filter fun row =>
        LikePattern.like
          ((listingPrefix call.kind username call.components).toList ++
            ['%'])
          row.1.toList := by
  rw [documents, ← stable, found, matching, matching, List.filter_filter]
  refine congrArg _ (List.filter_congr fun row _ => ?_)
  cases like :
      LikePattern.like
        ((listingPrefix call.kind username call.components).toList ++ ['%'])
        row.1.toList with
  | false =>
      rfl
  | true =>
      have shorter :
          LikePattern.like
            ((kindChars call.kind ++ nameChars username) ++ ['%'])
            row.1.toList = true := by
        refine
          LikePattern.like_of_like_more _
            (narrowed call.components).toList ?_
        rwa [listingPrefix_toList, ← List.append_assoc (kindChars _),
          List.append_assoc _ _ ['%']] at like
      rw [listingPrefix_toList]
      simpa [narrowed] using shorter

theorem filter_found (stable : page.order.Stable) :
    (found store username call page).filter call.passes =
      (documents store username call page).filter fun row =>
        LikePattern.like
            ((listingPrefix call.kind username call.components).toList ++
              ['%'])
            row.1.toList &&
          call.passes row := by
  rw [found_eq stable, List.filter_filter]
  exact List.filter_congr fun row _ => Bool.and_comm _ _

theorem Aligned.filter_found
    (stable : page.order.Stable)
    (aligned : Aligned store username call page) :
    (found store username call page).filter call.passes =
      wanted store username call page := by
  rw [GraphStore.filter_found stable]
  exact List.filter_congr aligned

theorem Aligned.of_perm
    (stable : page.order.Stable)
    (perm : ((found store username call page).filter call.passes).Perm
      (wanted store username call page)) :
    Aligned store username call page := by
  intro row inDocuments
  have members := perm.mem_iff (a := row)
  rw [GraphStore.filter_found stable, wanted, List.mem_filter,
    List.mem_filter, and_iff_right inDocuments,
    and_iff_right inDocuments] at members
  exact Bool.eq_iff_iff.mpr members

/-- The latest document is not among those that are listed. -/
theorem latest_not_document
    {key : MarkerKey} (latest : call.latest = some key) (stored : Stored) :
    (key.text username, stored) ∉ documents store username call page := by
  intro member
  have matched := (page.order.perm _).mem_iff.mp member
  have like := (List.mem_filter.mp matched).2
  rw [listingPrefix_toList, MarkerKey.text_toList] at like
  have overlap :=
    (LikePattern.overlaps_iff _ _).mpr ⟨[], by rwa [List.append_nil]⟩
  have kinds := LikePattern.overlaps_of_append _ _ overlap
  rw [(ListCall.of_latest latest).2.2] at kinds
  cases kinds

theorem standsIn_or
    (store : GraphMarkerStore) (username : String) (call : ListCall)
    (page : Page) :
    (∃ key, call.latest = some key ∧
        shown store username call page = []) ∨
      (∀ key, call.latest = some key →
        shown store username call page ≠ []) := by
  by_cases empty : shown store username call page = []
  · cases latest : call.latest with
    | none =>
        exact Or.inr nofun
    | some key =>
        exact Or.inl ⟨key, rfl, empty⟩
  · exact Or.inr fun _ _ => empty

/-- The latest document stands in for an empty page. -/
theorem pagesRight_of_shown_nil
    (markers : call.collection = .graphMarkers)
    {key : MarkerKey} (latest : call.latest = some key)
    (empty : shown store username call page = []) :
    PagesRight store username call page ↔
      wanted store username call page = [] ∧
        store.markers.get? (key.text username) = none := by
  rw [PagesRight, listDocs_eq markers, empty, latest]
  have counted := (ListCall.of_latest latest).1
  dsimp only
  cases atKey : store.markers.get? (key.text username) with
  | none =>
      rw [and_iff_left rfl]
      constructor
      · rintro ⟨-, total⟩
        exact List.length_eq_zero_iff.mp (total counted).symm
      · intro nothing
        rw [nothing]
        exact ⟨(slice_nil _ _).symm, fun _ => rfl⟩
  | some stored =>
      refine iff_of_false ?_ (by rintro ⟨-, ⟨⟩⟩)
      rintro ⟨rows, -⟩
      have listed :
          (key.text username, stored) ∈
            slice page.offset page.limit
              (wanted store username call page) := by
        rw [← rows]
        exact List.mem_singleton_self _
      have inWanted := (slice_sublist _ _ _).subset listed
      exact latest_not_document latest stored
        (List.mem_filter.mp inWanted).1

/-- No latest document stands in. -/
theorem pagesRight_of_shown
    (markers : call.collection = .graphMarkers)
    (present :
      ∀ key, call.latest = some key →
        shown store username call page ≠ []) :
    PagesRight store username call page ↔
      shown store username call page =
          slice page.offset page.limit (wanted store username call page) ∧
        (call.counts = true →
          (if call.recounts then (shown store username call page).length
            else (found store username call page).length) =
            (wanted store username call page).length) := by
  rw [PagesRight, listDocs_eq markers]
  split
  · rename_i nothing latest
    exact absurd nothing (present _ latest)
  · rfl

/-- The whole listing is right exactly if the prefix and the filters agree, the
caller's sort is the query's, and no latest document is shown in place of no
document. -/
theorem pagesRight_whole_iff
    (markers : call.collection = .graphMarkers)
    (stable : page.order.Stable) :
    PagesRight store username call page.whole ↔
      Aligned store username call page ∧
        page.resorted.arrange (wanted store username call page) =
          wanted store username call page ∧
        ∀ key, call.latest = some key →
          wanted store username call page = [] →
            store.markers.get? (key.text username) = none := by
  have everything :
      shown store username call page.whole =
        page.resorted.arrange
          ((found store username call page).filter call.passes) := rfl
  have same :
      wanted store username call page.whole =
        wanted store username call page := rfl
  rcases standsIn_or store username call page.whole with
    ⟨key, latest, empty⟩ | present
  · rw [pagesRight_of_shown_nil markers latest empty, same]
    have kept :
        (found store username call page).filter call.passes = [] := by
      rw [everything] at empty
      exact List.nil_perm.mp (empty ▸ page.resorted.perm _)
    constructor
    · rintro ⟨nothing, absent⟩
      refine ⟨.of_perm stable (by rw [kept, nothing]), ?_, ?_⟩
      · rw [nothing]
        exact List.perm_nil.mp (page.resorted.perm [])
      · rintro other otherLatest -
        rw [latest] at otherLatest
        rwa [← Option.some.inj otherLatest]
    · rintro ⟨aligned, -, absent⟩
      have nothing := (aligned.filter_found stable).symm.trans kept
      exact ⟨nothing, absent key latest nothing⟩
  · rw [pagesRight_of_shown markers present, same, everything]
    constructor
    · rintro ⟨rows, -⟩
      rw [Page.whole, slice_whole] at rows
      have perm := page.resorted.perm
        ((found store username call page).filter call.passes)
      have aligned : Aligned store username call page :=
        .of_perm stable (rows ▸ perm).symm
      rw [aligned.filter_found stable] at rows everything
      refine ⟨aligned, rows, fun key latest nothing => ?_⟩
      rw [rows, nothing] at everything
      exact absurd everything (present key latest)
    · rintro ⟨aligned, sorted, -⟩
      rw [aligned.filter_found stable, sorted]
      refine ⟨(slice_whole _).symm, fun counted => ?_⟩
      split
      · rfl
      · rename_i uncounted
        change (found store username call page).length = _
        rw [← aligned.filter_found stable, List.filter_eq_self.mpr]
        exact fun row _ =>
          ListCall.passes_of_not_recounts counted
            (Bool.eq_false_of_not_eq_true uncounted) row

/-! ## A page of it -/

/-- What the query finds after it cut the page. -/
theorem cut_eq_slice
    {limit : Nat} (limited : page.limit = some limit) (rows : List Row) :
    page.cut rows = slice page.offset (some limit) rows := by
  rw [Page.cut, limited]
  rfl

theorem Page.cut_sublist (page : Page) (rows : List Row) :
    (page.cut rows).Sublist rows := by
  unfold Page.cut
  split
  · exact List.Sublist.refl rows
  · exact (List.take_sublist _ _).trans (List.drop_sublist _ rows)

theorem cut_eq_self (unlimited : page.limit = none) (rows : List Row) :
    page.cut rows = rows := by
  rw [Page.cut, unlimited]

/-- Every document that is found is tested as the filters demand. -/
theorem Aligned.passes_eq
    (stable : page.order.Stable)
    (aligned : Aligned store username call page)
    {row : Row} (member : row ∈ found store username call page) :
    call.passes row = call.accepts row := by
  rw [found_eq stable, List.mem_filter] at member
  have agree := aligned row member.1
  rwa [member.2, Bool.true_and] at agree

/-- A page whose filters are applied after the cut holds everything that
satisfies them exactly if the cut is made late. -/
theorem filter_cut_eq_iff
    (stable : page.order.Stable)
    (aligned : Aligned store username call page)
    {limit : Nat} (limited : page.limit = some limit)
    (first : page.offset = 0) :
    (page.cut (found store username call page)).filter call.passes =
        wanted store username call page ↔
      ∀ row ∈ (found store username call page).drop limit,
        call.accepts row = false := by
  rw [cut_eq_slice limited, first, slice, List.drop_zero,
    ← aligned.filter_found stable, filter_take_eq_iff]
  refine forall₂_congr fun row member => ?_
  rw [aligned.passes_eq stable (List.mem_of_mem_drop member)]

/-- What is shown of a page that is counted. -/
theorem recounted_iff
    (stable : page.order.Stable)
    (aligned : Aligned store username call page)
    (sorted :
      page.resorted.arrange (wanted store username call page) =
        wanted store username call page)
    {limit : Nat} (limited : page.limit = some limit) :
    (shown store username call page =
          slice page.offset page.limit (wanted store username call page) ∧
        (shown store username call page).length =
          (wanted store username call page).length) ↔
      (wanted store username call page = [] ∨
        page.offset = 0 ∧
          ∀ row ∈ (found store username call page).drop limit,
            call.accepts row = false) := by
  have onPage :
      ((page.cut (found store username call page)).filter
        call.passes).Sublist (wanted store username call page) := by
    rw [cut_eq_slice limited, ← aligned.filter_found stable]
    exact filter_slice_sublist _ _ _ _
  have counted := (page.resorted.perm
    ((page.cut (found store username call page)).filter
      call.passes)).length_eq
  constructor
  · rintro ⟨rows, total⟩
    have all := onPage.eq_of_length (counted.symm.trans total)
    rw [rows] at total
    rcases skips_nothing total with nothing | first
    · exact Or.inl nothing
    · exact Or.inr
        ⟨first, (filter_cut_eq_iff stable aligned limited first).mp all⟩
  · rintro (nothing | ⟨first, late⟩)
    · have empty :
          shown store username call page = [] := by
        rw [nothing] at onPage
        rw [shown, List.sublist_nil.mp onPage]
        exact List.perm_nil.mp (page.resorted.perm [])
      rw [empty, nothing, slice_nil]
      exact ⟨rfl, rfl⟩
    · have all :=
        (filter_cut_eq_iff stable aligned limited first).mpr late
      have short :
          (wanted store username call page).length ≤ limit := by
        rw [← all, cut_eq_slice limited]
        refine (List.length_filter_le _ _).trans ?_
        exact List.length_take_le _ _
      rw [shown, all, sorted, limited, first, slice, List.drop_zero,
        List.take_of_length_le short]
      exact ⟨rfl, rfl⟩

/-- A call that does not filter its page finds what it is asked for. -/
theorem Aligned.found_eq_wanted
    (stable : page.order.Stable)
    (aligned : Aligned store username call page)
    (counted : call.counts = true) (uncounted : call.recounts = false) :
    found store username call page =
      wanted store username call page := by
  rw [← aligned.filter_found stable, List.filter_eq_self.mpr]
  exact fun row _ =>
    ListCall.passes_of_not_recounts counted uncounted row

/-- What is shown of a page that is not counted. -/
theorem shown_of_not_recounts
    (stable : page.order.Stable)
    (aligned : Aligned store username call page)
    (counted : call.counts = true) (uncounted : call.recounts = false) :
    shown store username call page =
      page.resorted.arrange
        (page.cut (wanted store username call page)) := by
  rw [shown, aligned.found_eq_wanted stable counted uncounted,
    List.filter_eq_self.mpr]
  exact fun row _ =>
    ListCall.passes_of_not_recounts counted uncounted row

/-- A call that may show a latest document shows nothing exactly if its page is
empty. -/
theorem shown_eq_nil_iff
    (stable : page.order.Stable)
    (aligned : Aligned store username call page)
    {key : MarkerKey} (latest : call.latest = some key) :
    shown store username call page = [] ↔
      page.cut (found store username call page) = [] := by
  obtain ⟨counted, uncounted, -⟩ := ListCall.of_latest latest
  rw [shown_of_not_recounts stable aligned counted uncounted,
    aligned.found_eq_wanted stable counted uncounted]
  have perm := page.resorted.perm
    (page.cut (wanted store username call page))
  constructor
  · intro empty
    exact List.nil_perm.mp (empty ▸ perm)
  · intro empty
    exact List.perm_nil.mp (empty ▸ perm)

/-- A page of a listing that is right as a whole. -/
theorem pagesRight_iff
    (markers : call.collection = .graphMarkers)
    (stable : page.order.Stable)
    (offered :
      call.paged = false → page.limit = none ∧ page.offset = 0)
    (aligned : Aligned store username call page)
    (sorted :
      page.resorted.arrange (wanted store username call page) =
        wanted store username call page) :
    PagesRight store username call page ↔
      page.resorted.arrange
          (slice page.offset page.limit
            (wanted store username call page)) =
        slice page.offset page.limit (wanted store username call page) ∧
      CutLate store username call page ∧
      NoStandIn store username call page := by
  rcases standsIn_or store username call page with
    ⟨key, latest, empty⟩ | present
  · rw [pagesRight_of_shown_nil markers latest empty]
    have cutEmpty := (shown_eq_nil_iff stable aligned latest).mp empty
    constructor
    · rintro ⟨nothing, absent⟩
      refine ⟨?_, Or.inl nothing, fun other otherLatest => Or.inr ?_⟩
      · rw [nothing, slice_nil]
        exact List.perm_nil.mp (page.resorted.perm [])
      · rw [latest] at otherLatest
        rw [← Option.some.inj otherLatest]
        exact ⟨nothing, absent⟩
    · rintro ⟨-, -, noStandIn⟩
      exact (noStandIn key latest).resolve_left fun some => some cutEmpty
  · have noStandIn : NoStandIn store username call page :=
      fun key latest => Or.inl fun cutEmpty =>
        present key latest
          ((shown_eq_nil_iff stable aligned latest).mpr cutEmpty)
    rw [pagesRight_of_shown markers present, CutLate,
      and_iff_left noStandIn]
    cases limited : page.limit with
    | none =>
        have all :
            shown store username call page =
              wanted store username call page := by
          rw [shown, cut_eq_self limited, aligned.filter_found stable,
            sorted]
        rw [all]
        constructor
        · rintro ⟨rows, -⟩
          rw [← rows]
          exact ⟨sorted, skips_nothing (congrArg _ rows.symm)⟩
        · rintro ⟨-, nothing | first⟩
          · rw [nothing, slice_nil]
            refine ⟨rfl, fun counted => ?_⟩
            split
            · rfl
            · rename_i uncounted
              rw [aligned.found_eq_wanted stable counted
                (Bool.eq_false_of_not_eq_true uncounted), nothing]
          · rw [first, slice_whole]
            refine ⟨rfl, fun counted => ?_⟩
            split
            · rfl
            · rename_i uncounted
              rw [aligned.found_eq_wanted stable counted
                (Bool.eq_false_of_not_eq_true uncounted)]
    | some limit =>
        have counted : call.counts = true := by
          refine ListCall.counts_of_paged ?_
          by_contra unpaged
          have none := (offered (Bool.eq_false_of_not_eq_true unpaged)).1
          rw [limited] at none
          cases none
        cases counting : call.recounts with
        | true =>
            have exactly := recounted_iff stable aligned sorted limited
            rw [limited] at exactly
            simp only [counted, if_true, forall_const]
            rw [exactly]
            refine (and_iff_right_of_imp fun late => ?_).symm
            obtain ⟨same, total⟩ := exactly.mpr late
            rw [same] at total
            have all := (slice_sublist page.offset (some limit)
              (wanted store username call page)).eq_of_length total
            rw [all, sorted]
        | false =>
            have rows :
                shown store username call page =
                  page.resorted.arrange
                    (slice page.offset (some limit)
                      (wanted store username call page)) := by
              rw [shown_of_not_recounts stable aligned counted counting,
                cut_eq_slice limited]
            rw [rows, aligned.found_eq_wanted stable counted counting]
            simp

/-- A page of a listing, and the whole listing with it, are the slice of the
documents that satisfy all filters, each with the number of these, exactly if
the prefix and the filters pick these documents, the caller's sort leaves them
as they are, no filter is lost by cutting the page first, and no latest
document stands in for the page. -/
theorem listing_right_iff
    (markers : call.collection = .graphMarkers)
    (stable : page.order.Stable)
    (offered :
      call.paged = false → page.limit = none ∧ page.offset = 0) :
    PagesRight store username call page ∧
        PagesRight store username call page.whole ↔
      Aligned store username call page ∧
        SortsAlike store username call page ∧
        CutLate store username call page ∧
        NoStandIn store username call page := by
  rw [pagesRight_whole_iff markers stable]
  constructor
  · rintro ⟨right, aligned, sorted, -⟩
    obtain ⟨sortedPage, late, noStandIn⟩ :=
      (pagesRight_iff markers stable offered aligned sorted).mp right
    exact ⟨aligned, ⟨sorted, sortedPage⟩, late, noStandIn⟩
  · rintro ⟨aligned, ⟨sorted, sortedPage⟩, late, noStandIn⟩
    refine ⟨(pagesRight_iff markers stable offered aligned sorted).mpr
      ⟨sortedPage, late, noStandIn⟩, aligned, sorted, ?_⟩
    intro key latest nothing
    obtain ⟨counted, uncounted, -⟩ := ListCall.of_latest latest
    refine ((noStandIn key latest).resolve_left fun some => some ?_).2
    rw [aligned.found_eq_wanted stable counted uncounted, nothing]
    exact List.sublist_nil.mp
      (nothing ▸ Page.cut_sublist page (wanted store username call page))

end Returned

/-! ## The markers of the first agent -/

/-- Two agents have left a marker each at one task. -/
def twoMarkers : GraphMarkerStore :=
  run GraphMarkerStore.step .empty
    [.upsert "u" (.affordance "t" "1")
        [("task_id", .str "t"), ("agent_id", .str "a"),
          ("created_at", .str "2025-01-01T10:00:00Z")],
      .upsert "u" (.affordance "t" "2")
        [("task_id", .str "t"), ("agent_id", .str "b"),
          ("created_at", .str "2025-01-01T10:05:00Z")]]

def firstAgent : ListCall :=
  .affordanceMarkers none (some "a") none none

/-- The newest markers first, as the listing asks for them. -/
def newestPage (limit : Nat) : Page where
  order := .descending "created_at"
  limit := some limit

theorem descending_stable (field : String) :
    (Arrangement.descending field).Stable :=
  ranked_filter (fieldText field)

/-- On a page of two markers the first agent's is found. -/
theorem page_of_two_is_right :
    PagesRight twoMarkers "u" firstAgent (newestPage 2) ∧
      PagesRight twoMarkers "u" firstAgent (newestPage 2).whole := by
  refine (listing_right_iff rfl (descending_stable _) (by decide)).mpr
    ⟨?_, ⟨rfl, rfl⟩, Or.inr fun _ => ⟨rfl, ?_⟩,
      fun _ latest => nomatch latest⟩
  · unfold Aligned
    decide
  · decide

/-- On a page of one marker it is not, although one marker satisfies the
filter. -/
theorem page_of_one_misses_marker :
    ¬ PagesRight twoMarkers "u" firstAgent (newestPage 1) := by
  rintro ⟨rows, -⟩
  exact absurd (congrArg List.length rows) (by decide)

section Walk

variable
  {store : GraphMarkerStore} {username : String} {call : ListCall}
  {page : Page}

/-- The pages of one size, from the first one on. -/
def pages
    (store : GraphMarkerStore) (username : String) (call : ListCall)
    (page : Page) (size count : Nat) : List Row :=
  (List.range count).flatMap fun index =>
    (listDocs store username call
      { page with limit := some size, offset := index * size }).1

/-- Walking the pages of a listing that does not filter them visits every
document that is asked for once. -/
theorem pages_eq
    (markers : call.collection = .graphMarkers)
    (stable : page.order.Stable)
    (offered : call.paged = true) (unfiltered : call.recounts = false)
    (noLatest : call.latest = none)
    (aligned : Aligned store username call page)
    (sorted :
      ∀ rows, rows.Sublist (wanted store username call page) →
        page.resorted.arrange rows = rows)
    {size count : Nat}
    (enough :
      (wanted store username call page).length ≤ count * size) :
    pages store username call page size count =
      wanted store username call page := by
  rw [← walk_eq enough, pages, walk]
  refine List.flatMap_congr fun index _ => ?_
  have right :
      PagesRight store username call
        { page with limit := some size, offset := index * size } := by
    refine
      Iff.mpr
        (pagesRight_iff markers stable (by simp [offered]) aligned
          (sorted _ (List.Sublist.refl _)))
        ⟨sorted _ (slice_sublist _ _ _), Or.inr ?_, ?_⟩
    · intro counting
      rw [unfiltered] at counting
      cases counting
    · intro key latest
      rw [noLatest] at latest
      cases latest
  exact right.1

end Walk

end Agentcy.GraphStore
