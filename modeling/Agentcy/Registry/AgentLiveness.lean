import Agentcy.Library.LastAssignment
import Agentcy.Registry.AgentRegistryStore

/-!
# Which agents are listed

The registry detects failures by leases: an agent is listed for as long as the
entry that was written last has neither run out nor become stale, and that the
bucket drops entries cannot be noticed.
-/

namespace Agentcy.Registry

open Agentcy.Cnp (RegistrySettings)
open Agentcy.Library

universe u

section Evaluated

variable {config : RegistryPolicyConfig} {halfPower : ℚ → ℚ} {now : Int}
  {entry : RegistryEntry}

theorem pos_of_mem_patience {span : Int}
    (isSpan : span ∈ patience config) : 0 < span := by
  have warns := config.warn_nonneg
  have above := config.warn_le_stale
  have ordered := config.stale_le_offline
  revert isSpan
  unfold patience
  split_ifs <;> simp <;> omega

theorem evaluateEntry_stale_iff :
    (evaluateEntry config halfPower now entry).isStale = true ↔
      ¬ entry.lease.AliveAt (patience config) now := by
  have aged : (freshnessState config
      (max 0 (now - entry.lastHeartbeat))).2.1 = true ↔
        ¬ ∀ span ∈ patience config, now - entry.lastHeartbeat < span := by
    rw [freshnessState_stale_iff]
    push Not
    refine exists_congr fun span => and_congr_right fun isSpan => ?_
    have positive := pos_of_mem_patience isSpan
    omega
  have expired : (entry.expiresAt.any fun limit => decide (limit ≤ now)) =
      true ↔ ¬ ∀ limit ∈ entry.expiresAt, now < limit := by
    cases entry.expiresAt with
    | none => simp
    | some limit => simp
  unfold EvaluatedEntry.isStale evaluateEntry Lease.AliveAt
  dsimp only [RegistryEntry.lease]
  rw [Bool.or_eq_true, aged, expired, or_comm, ← not_and_or]

theorem status_of_alive (python : PyBuiltins)
    (alive : entry.lease.AliveAt (patience config) now) :
    (evaluateEntry config halfPower now entry).status python =
      statusText entry.status := by
  have fresh : (evaluateEntry config halfPower now entry).isStale = false :=
    Bool.eq_false_iff.mpr fun stale =>
      evaluateEntry_stale_iff.mp stale alive
  unfold EvaluatedEntry.isStale evaluateEntry at fresh
  dsimp only at fresh
  rw [Bool.or_eq_false_iff] at fresh
  have online : (freshnessState config
      (max 0 (now - entry.lastHeartbeat))).2.2 = false := by
    refine Bool.eq_false_iff.mpr fun offline => ?_
    rw [stale_of_offline config offline] at fresh
    cases fresh.1
  unfold EvaluatedEntry.status evaluateEntry
  dsimp only
  rw [online, fresh.2]
  rfl

end Evaluated

namespace AgentRegistryStore

variable {ι : Type u} (settings : RegistrySettings)

/-- The entry under a key, dropped or not. -/
def held? (store : AgentRegistryStore ι) (key : String) :
    Option RegistryEntry :=
  (store.bucket.get? key).map StoredEntry.entry

/-- What an event puts under a key, if anything. -/
def assigned (key : String) (store : AgentRegistryStore ι)
    (event : RegistryEvent ι) : Option (Option RegistryEntry) :=
  match event.access with
  | .upsert username entry ttlSeconds stamp =>
      if docKey username entry.agentId = key then
        some (some (entry.registered settings username stamp ttlSeconds))
      else none
  | .read _ _ _ => none
  | .write client status ttlSeconds metadata stamp =>
      match store.held client with
      | none => none
      | some (heldKey, entry) =>
          if heldKey = key then
            some (some
              (entry.beaten settings stamp status ttlSeconds metadata))
          else none
  | .delete username agentId =>
      if docKey username agentId = key ∧
          (store.getRaw event.moment key).isSome = true then
        some none
      else none

variable {settings}

theorem held?_put
    (store : AgentRegistryStore ι) (moment : Int) (ttlSeconds : Option Int)
    (written tested : String) (entry : RegistryEntry) :
    (store.put settings moment ttlSeconds written entry).held? tested =
      if written = tested then some entry else store.held? tested := by
  unfold held? put
  by_cases same : written = tested
  · subst same
    simp
  · rw [if_neg same, OrderedMap.get?_set_other _ _ (Ne.symm same)]

theorem held?_perform [DecidableEq ι]
    (key : String) (store : AgentRegistryStore ι)
    (event : RegistryEvent ι) :
    (store.perform settings event).held? key =
      (store.assigned settings key event).getD (store.held? key) := by
  obtain ⟨moment, access⟩ := event
  cases access with
  | upsert username entry ttlSeconds stamp =>
      unfold perform assigned
      dsimp only
      rw [held?_put]
      split
      · rfl
      · rfl
  | read client username agentId =>
      rfl
  | write client status ttlSeconds metadata stamp =>
      unfold perform assigned
      dsimp only
      cases store.held client with
      | none =>
          rfl
      | some found =>
          obtain ⟨heldKey, entry⟩ := found
          refine (held?_put store moment ttlSeconds heldKey key _).trans ?_
          dsimp only
          split
          · rfl
          · rfl
  | delete username agentId =>
      unfold perform assigned
      dsimp only
      by_cases same : docKey username agentId = key
      · subst same
        cases (store.getRaw moment (docKey username agentId)).isSome with
        | true => simp [held?]
        | false => simp
      · simp only [same, false_and, if_false]
        split
        · rw [held?, OrderedMap.get?_erase, if_neg (Ne.symm same)]
          rfl
        · rfl

/-- A caller holds what it held, whatever the others do. -/
theorem held_perform_of_apart [DecidableEq ι]
    {store : AgentRegistryStore ι} {client : ι} {event : RegistryEvent ι}
    (apart : event.Apart client) :
    (store.perform settings event).held client = store.held client := by
  obtain ⟨moment, access⟩ := event
  cases access with
  | upsert username entry ttlSeconds stamp =>
      rfl
  | read other username agentId =>
      exact Function.update_of_ne (Ne.symm apart) _ _
  | write other status ttlSeconds metadata stamp =>
      unfold AgentRegistryStore.perform
      dsimp only
      cases store.held other with
      | none =>
          rfl
      | some found =>
          exact Function.update_of_ne (Ne.symm apart) _ _
  | delete username agentId =>
      unfold AgentRegistryStore.perform
      dsimp only
      split
      · rfl
      · rfl

theorem held?_run_iff [DecidableEq ι]
    {key : String} {schedule : List (RegistryEvent ι)}
    {entry : RegistryEntry} :
    (run (perform settings) ({} : AgentRegistryStore ι) schedule).held?
        key = some entry ↔
      ∃ before event after, schedule = before ++ event :: after ∧
        LastAssignment (perform settings) (assigned settings key) {}
          (some entry) before event after :=
  @cell_eq_some_iff _ _ _ (perform settings) (assigned settings key)
    (fun store => store.held? key) (held?_perform key) {} rfl schedule
    entry

/-- No entry is dropped before it has run out. -/
def DropsLate (store : AgentRegistryStore ι) : Prop :=
  ∀ key stored, store.bucket.get? key = some stored →
    ∀ drop ∈ stored.dropAt, ∃ limit ∈ stored.entry.expiresAt, limit ≤ drop

theorem DropsLate.put
    {store : AgentRegistryStore ι} (late : store.DropsLate)
    {moment : Int} {ttlSeconds : Option Int} {entry : RegistryEntry}
    (limited : ∀ ttl ∈ expiry settings ttlSeconds,
      ∃ limit ∈ entry.expiresAt, limit ≤ moment + ttl) (written : String) :
    (store.put settings moment ttlSeconds written entry).DropsLate := by
  intro key stored found drop drops
  unfold AgentRegistryStore.put at found
  dsimp only at found
  by_cases same : key = written
  · subst same
    rw [OrderedMap.get?_set_self] at found
    obtain rfl := Option.some.inj found
    obtain ⟨ttl, isTtl, rfl⟩ := Option.map_eq_some_iff.mp drops
    exact limited ttl isTtl
  · rw [OrderedMap.get?_set_other _ _ same] at found
    exact late key stored found drop drops

theorem DropsLate.perform [DecidableEq ι]
    {store : AgentRegistryStore ι} (late : store.DropsLate)
    {event : RegistryEvent ι} (timely : event.Timely) :
    (store.perform settings event).DropsLate := by
  obtain ⟨moment, access⟩ := event
  cases access with
  | upsert username entry ttlSeconds stamp =>
      have stamped : stamp ≤ moment := timely
      refine late.put ?_ _
      intro ttl isTtl
      have isTtl : expiry settings ttlSeconds = some ttl := isTtl
      unfold RegistryEntry.registered
      rw [isTtl]
      exact ⟨stamp + ttl, rfl, add_le_add_left stamped ttl⟩
  | read client username agentId =>
      exact late
  | write client status ttlSeconds metadata stamp =>
      have stamped : stamp ≤ moment := timely
      unfold AgentRegistryStore.perform
      dsimp only
      cases store.held client with
      | none =>
          exact late
      | some found =>
          refine late.put ?_ found.1
          intro ttl isTtl
          unfold expiry at isTtl
          dsimp only at isTtl
          split at isTtl
          · rename_i positive
            obtain rfl := Option.some.inj isTtl
            refine ⟨stamp + ttlSeconds.getD settings.defaultTtl, ?_,
              add_le_add_left stamped _⟩
            unfold RegistryEntry.beaten Cnp.RegistryDoc.heartbeat
            dsimp only
            rw [if_pos positive]
            rfl
          · cases isTtl
  | delete username agentId =>
      unfold AgentRegistryStore.perform
      dsimp only
      split
      · intro key stored found
        dsimp only at found
        rw [OrderedMap.get?_erase] at found
        split at found
        · cases found
        · exact late key stored found
      · exact late

theorem dropsLate_run [DecidableEq ι]
    {schedule : List (RegistryEvent ι)}
    (timely : ∀ event ∈ schedule, event.Timely) :
    (run (perform settings) ({} : AgentRegistryStore ι)
      schedule).DropsLate := by
  refine run_invariant DropsLate
    (fun _ _ late timely => late.perform timely) ?_
    (everyStep_of_forall_mem _ timely)
  intro key stored found
  cases found

/-! ## Listings -/

theorem mem_fetchAll_iff
    {store : AgentRegistryStore ι} {queriedAt : Int} {username : String}
    {entry : RegistryEntry} :
    entry ∈ store.fetchAll queriedAt username ↔
      ∃ key stored, store.bucket.get? key = some stored ∧
        BelongsTo username key ∧
        (∀ drop ∈ stored.dropAt, queriedAt < drop) ∧
        stored.entry = entry := by
  have lasts : ∀ stored : StoredEntry,
      stored.dropAt.all (queriedAt < ·) = true ↔
        ∀ drop ∈ stored.dropAt, queriedAt < drop := by
    intro stored
    cases stored.dropAt with
    | none => simp
    | some drop => simp
  unfold fetchAll
  rw [List.mem_filterMap]
  constructor
  · rintro ⟨⟨key, stored⟩, member, isRow⟩
    dsimp only at isRow
    split at isRow
    · rename_i row
      exact ⟨key, stored, OrderedMap.get?_of_mem member, row.1,
        (lasts stored).mp row.2, Option.some.inj isRow⟩
    · cases isRow
  · rintro ⟨key, stored, found, belongs, visible, rfl⟩
    exact ⟨(key, stored), OrderedMap.mem_of_get? found,
      if_pos ⟨belongs, (lasts stored).mpr visible⟩⟩

theorem mem_fetchAll_of_getRaw
    {store : AgentRegistryStore ι} {queriedAt : Int} {username key : String}
    {entry : RegistryEntry} (found : store.getRaw queriedAt key = some entry)
    (belongs : BelongsTo username key) :
    entry ∈ store.fetchAll queriedAt username := by
  obtain ⟨stored, isStored, visible⟩ := Option.bind_eq_some_iff.mp found
  split at visible
  · rename_i lasts
    refine mem_fetchAll_iff.mpr ⟨key, stored, isStored, belongs, ?_,
      Option.some.inj visible⟩
    intro drop drops
    rw [Option.mem_def.mp drops] at lasts
    exact of_decide_eq_true lasts
  · cases visible

theorem belongsTo_docKey (username agentId : String) :
    BelongsTo username (docKey username agentId) := by
  unfold BelongsTo docKey
  simp only [String.toList_append, String.toList_empty, List.append_nil]
  exact LikePattern.like_of_append _ _

/-- A query without filters. -/
theorem admits_all (python : PyBuiltins) (entry : RegistryEntry)
    (status : String) : AgentQuery.Admits python {} entry status := by
  refine ⟨?_, ?_, ?_, ?_⟩
  · intro text given
    cases given
  · intro text given
    cases given
  · intro text given
    cases given
  · intro tag given
    cases given

section Listed

variable {config : RegistryPolicyConfig} {halfPower : ℚ → ℚ}
  {python : PyBuiltins} {queriedAt now : Int} {username : String}
  {query : AgentQuery} {entry : RegistryEntry}

/-- Whether or not stale agents are left out, an agent that is alive is
listed if the query finds it and the filters admit its reported status. -/
theorem exists_listed_of_alive
    (enabled : config.enable = true) {store : AgentRegistryStore ι}
    (found : entry ∈ store.fetchAll queriedAt username)
    (alive : entry.lease.AliveAt (patience config) now)
    (admits : query.Admits python entry (statusText entry.status)) :
    ∃ doc ∈ store.list config halfPower python queriedAt now username query,
      doc.entry = entry := by
  unfold AgentRegistryStore.list applyRegistryPolicies evaluateEntries
  rw [enabled]
  simp only [if_true, List.mem_filter, List.mem_map, Bool.and_eq_true,
    decide_eq_true_eq, Bool.true_and]
  refine ⟨_, ⟨⟨_, ⟨entry, found, rfl⟩, rfl⟩, ?_, ?_⟩, rfl⟩
  · intro leftOut
    exact evaluateEntry_stale_iff.mp leftOut.2 alive
  · rw [← @status_of_alive config halfPower now entry python alive] at admits
    exact admits

/-- Where stale agents are left out, the listing has the agents that the query
finds, that are alive, and whose reported status the filters admit. -/
theorem exists_listed_iff
    (enabled : config.enable = true) (filters : config.filterStale = true)
    {store : AgentRegistryStore ι} :
    (∃ doc ∈ store.list config halfPower python queriedAt now username
        query, doc.entry = entry) ↔
      entry ∈ store.fetchAll queriedAt username ∧
        entry.lease.AliveAt (patience config) now ∧
        query.Admits python entry (statusText entry.status) := by
  constructor
  · rintro ⟨doc, listed, rfl⟩
    unfold AgentRegistryStore.list applyRegistryPolicies evaluateEntries
      at listed
    rw [enabled, filters] at listed
    simp only [if_true, List.mem_filter, List.mem_map, Bool.and_eq_true,
      decide_eq_true_eq, Bool.true_and] at listed
    obtain ⟨⟨_, ⟨listed, found, rfl⟩, rfl⟩, fresh, admits⟩ := listed
    have alive : listed.lease.AliveAt (patience config) now := by
      by_contra dead
      exact fresh (evaluateEntry_stale_iff.mpr dead)
    have admits : query.Admits python listed
        ((evaluateEntry config halfPower now listed).status python) :=
      admits
    rw [status_of_alive python alive] at admits
    exact ⟨found, alive, admits⟩
  · rintro ⟨found, alive, admits⟩
    exact exists_listed_of_alive enabled found alive admits

variable [DecidableEq ι]

/-- Once the patience is over, an agent whose entry nobody has stamped since is
not listed. -/
theorem silent_agent_not_listed
    (enabled : config.enable = true) (filters : config.filterStale = true)
    {schedule : List (RegistryEvent ι)} {agentId : String}
    {span silence : Int} (isSpan : patience config = some span)
    (silent : ∀ before event after, schedule = before ++ event :: after →
      ∀ key written,
        assigned settings key (run (perform settings) {} before) event =
            some (some written) →
          written.agentId = agentId → written.lastHeartbeat ≤ silence)
    (passed : silence + span ≤ now) :
    ∀ doc ∈ (run (perform settings) {} schedule).list config halfPower
        python queriedAt now username query, doc.entry.agentId ≠ agentId := by
  intro doc listed isAgent
  obtain ⟨found, alive, _⟩ :=
    (exists_listed_iff enabled filters).mp ⟨doc, listed, rfl⟩
  obtain ⟨key, stored, isStored, _, _, isEntry⟩ := mem_fetchAll_iff.mp found
  have holds : (run (perform settings) ({} : AgentRegistryStore ι)
      schedule).held? key = some doc.entry := by
    rw [held?, isStored, ← isEntry]
    rfl
  obtain ⟨before, event, after, whole, last⟩ := held?_run_iff.mp holds
  have old := silent before event after whole key doc.entry last.assigns
    isAgent
  exact Lease.not_aliveAt_of_patience isSpan old passed alive

/-- Whatever the callers do, in whatever order: an agent is listed exactly if
the entry that was last written under its key, and not deleted since, is a
lease that is alive.  The time at which the bucket drops the entry does not
matter, nor does that of the query. -/
theorem listed_iff_last_lease_alive
    (enabled : config.enable = true) (filters : config.filterStale = true)
    {schedule : List (RegistryEvent ι)}
    (timely : ∀ event ∈ schedule, event.Timely)
    (queried : queriedAt ≤ now) :
    (∃ doc ∈ (run (perform settings) {} schedule).list config halfPower
        python queriedAt now username query, doc.entry = entry) ↔
      (∃ key before event after, schedule = before ++ event :: after ∧
        LastAssignment (perform settings) (assigned settings key) {}
          (some entry) before event after ∧ BelongsTo username key) ∧
        entry.lease.AliveAt (patience config) now ∧
        query.Admits python entry (statusText entry.status) := by
  rw [exists_listed_iff enabled filters, mem_fetchAll_iff]
  refine ⟨?_, ?_⟩
  · rintro ⟨⟨key, stored, found, belongs, _, isEntry⟩, alive, admits⟩
    have holds : (run (perform settings) ({} : AgentRegistryStore ι)
        schedule).held? key = some entry := by
      rw [held?, found, ← isEntry]
      rfl
    obtain ⟨before, event, after, whole, last⟩ := held?_run_iff.mp holds
    exact ⟨⟨key, before, event, after, whole, last, belongs⟩, alive,
      admits⟩
  · rintro ⟨⟨key, before, event, after, whole, last, belongs⟩, alive,
      admits⟩
    have holds : (run (perform settings) ({} : AgentRegistryStore ι)
        schedule).held? key = some entry :=
      held?_run_iff.mpr ⟨before, event, after, whole, last⟩
    obtain ⟨stored, found, isEntry⟩ := Option.map_eq_some_iff.mp holds
    refine ⟨⟨key, stored, found, belongs, ?_, isEntry⟩, alive, admits⟩
    intro drop drops
    obtain ⟨limit, isLimit, le⟩ :=
      dropsLate_run timely key stored found drop drops
    rw [isEntry] at isLimit
    have lasts : now < limit := alive.1 limit isLimit
    omega

end Listed

end AgentRegistryStore

def registrySettings : RegistrySettings where
  lmaxDefault := 10
  defaultTtl := 1000

def defaultPolicy : RegistryPolicyConfig :=
  loadRegistryPolicyConfig {}

def plannerEntry : RegistryEntry where
  status := .idle
  lastHeartbeat := 0
  expiresAt := some 1000
  metadata := .empty
  agentId := "planner"
  serviceName := "planner"
  owner := some "alice"
  description := none
  capabilities := ["plan", "plan "]
  tags := []
  policy := []
  registeredAt := 0

/-- The registration of the planner, with the default time to live. -/
def plannerRegistration : RegistryEvent Bool :=
  ⟨0, .upsert "alice" plannerEntry none 0⟩

theorem plannerRegistration_timely :
    ∀ event ∈ [plannerRegistration], event.Timely := by
  intro event member
  obtain rfl := List.mem_singleton.mp member
  exact le_rfl

namespace AgentRegistryStore

theorem assigned_plannerRegistration
    (key : String) (store : AgentRegistryStore Bool) :
    store.assigned registrySettings key plannerRegistration =
      if docKey "alice" "planner" = key then some (some plannerEntry)
      else none :=
  rfl

theorem planner_listed_until_stale :
    (∃ doc ∈ (run (perform registrySettings) {} [plannerRegistration]).list
        defaultPolicy id Cnp.plainPython 299 299 "alice" {},
      doc.entry = plannerEntry) ∧
    ¬ ∃ doc ∈ (run (perform registrySettings) {} [plannerRegistration]).list
        defaultPolicy id Cnp.plainPython 300 300 "alice" {},
      doc.entry = plannerEntry := by
  refine ⟨(listed_iff_last_lease_alive rfl rfl plannerRegistration_timely
    le_rfl).mpr ⟨⟨docKey "alice" "planner", [], _, [], rfl, ⟨?_, trivial⟩,
      belongsTo_docKey _ _⟩, by decide, admits_all _ _ _⟩, ?_⟩
  · rw [assigned_plannerRegistration, if_pos rfl]
  · rw [listed_iff_last_lease_alive rfl rfl plannerRegistration_timely
      le_rfl]
    exact fun listed => absurd listed.2.1 (by decide)

theorem silent_planner_not_listed :
    (run (perform registrySettings) {} [plannerRegistration]).bucket.keys =
        [docKey "alice" "planner"] ∧
      ∀ doc ∈ (run (perform registrySettings) {}
          [plannerRegistration]).list defaultPolicy id Cnp.plainPython 300
            300 "alice" {},
        doc.entry.agentId ≠ "planner" := by
  have isSpan : patience defaultPolicy = some 300 := rfl
  have passed : (0 : Int) + 300 ≤ 300 := le_rfl
  refine ⟨rfl, silent_agent_not_listed rfl rfl isSpan ?_ passed⟩
  intro before event after whole key written assigns isPlanner
  have among : event ∈ [plannerRegistration] := by
    rw [whole]
    exact List.mem_append_right before List.mem_cons_self
  rw [List.mem_singleton.mp among, assigned_plannerRegistration] at assigns
  split at assigns
  · obtain rfl := Option.some.inj (Option.some.inj assigns)
    exact le_rfl
  · cases assigns

end AgentRegistryStore

end Agentcy.Registry
