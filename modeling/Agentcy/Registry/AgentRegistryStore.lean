import Agentcy.Library.LikePattern
import Agentcy.Registry.RegistryPolicy

/-!
# The store of the agent registry

An entry is written with a time to live, after which the bucket drops it.  A
registration writes an entry without looking at the old one.  A heartbeat
reads the entry, and writes it back some time later, whatever has become of it
in between.  Several processes do so for the same agent: its own heartbeats,
and the awards and outcomes that others note in its entry.
-/

namespace Agentcy.Registry

open Agentcy.Cnp (AgentStatus Metadata RegistrySettings)
open Agentcy.Library

universe u

/-- An entry of the bucket, and when it is dropped. -/
structure StoredEntry where
  entry : RegistryEntry
  dropAt : Option Int

/-- The bucket, and what each caller holds between the read and the write of a
heartbeat. -/
structure AgentRegistryStore (ι : Type u) where
  bucket : OrderedMap String StoredEntry := .empty
  held : ι → Option (String × RegistryEntry) := fun _ => none

def docKey (username agentId : String) : String :=
  "agent_registry::" ++ username ++ "::" ++ agentId

/-- `_expiry`. -/
def expiry (settings : RegistrySettings) (ttlSeconds : Option Int) :
    Option Int :=
  let ttl := ttlSeconds.getD settings.defaultTtl
  if 0 < ttl then some ttl else none

namespace RegistryEntry

/-- The payload of `upsert`.  The entry comes with a time of registration. -/
def registered
    (settings : RegistrySettings) (username : String) (now : Int)
    (ttlSeconds : Option Int) (entry : RegistryEntry) : RegistryEntry :=
  { entry with
    owner := if entry.owner.all (· = "") then some username else entry.owner
    lastHeartbeat := now
    expiresAt :=
      match expiry settings ttlSeconds with
      | some ttl => some (now + ttl)
      | none => entry.expiresAt }

/-- The document that `heartbeat` writes, from the one that it has read. -/
def beaten
    (settings : RegistrySettings) (now : Int) (status : Option AgentStatus)
    (ttlSeconds : Option Int) (metadata : Metadata)
    (entry : RegistryEntry) : RegistryEntry :=
  { entry with
    toRegistryDoc :=
      entry.toRegistryDoc.heartbeat settings now status ttlSeconds
        metadata }

end RegistryEntry

/-- What the callers do.  A stamp is the time that goes into the document. -/
inductive RegistryAccess (ι : Type u) where
  | upsert
      (username : String) (entry : RegistryEntry)
      (ttlSeconds : Option Int) (stamp : Int)
  | read (client : ι) (username agentId : String)
  | write
      (client : ι) (status : Option AgentStatus)
      (ttlSeconds : Option Int) (metadata : Metadata) (stamp : Int)
  | delete (username agentId : String)

/-- An access, and when the bucket carries it out. -/
structure RegistryEvent (ι : Type u) where
  moment : Int
  access : RegistryAccess ι

/-- A document is not stamped later than it is written. -/
def RegistryEvent.Timely {ι : Type u} (event : RegistryEvent ι) : Prop :=
  match event.access with
  | .upsert _ _ _ stamp => stamp ≤ event.moment
  | .write _ _ _ _ stamp => stamp ≤ event.moment
  | _ => True

/-- The access belongs to somebody else. -/
def RegistryEvent.Apart {ι : Type u} (client : ι)
    (event : RegistryEvent ι) : Prop :=
  match event.access with
  | .read other _ _ => other ≠ client
  | .write other _ _ _ _ => other ≠ client
  | _ => True

namespace AgentRegistryStore

variable {ι : Type u}

/-- `_get_raw`. -/
def getRaw (store : AgentRegistryStore ι) (now : Int) (key : String) :
    Option RegistryEntry :=
  (store.bucket.get? key).bind fun stored =>
    if stored.dropAt.all (now < ·) then some stored.entry else none

/-- `agents.upsert`, with the time to live or without. -/
def put
    (settings : RegistrySettings) (moment : Int) (ttlSeconds : Option Int)
    (key : String) (entry : RegistryEntry)
    (store : AgentRegistryStore ι) : AgentRegistryStore ι :=
  { store with
    bucket := store.bucket.set key
      { entry := entry
        dropAt := (expiry settings ttlSeconds).map (moment + ·) } }

variable [DecidableEq ι]

/-- A heartbeat that finds no entry raises and writes nothing, and to delete
an entry that is not there raises as well. -/
def perform
    (settings : RegistrySettings) (store : AgentRegistryStore ι)
    (event : RegistryEvent ι) : AgentRegistryStore ι :=
  match event.access with
  | .upsert username entry ttlSeconds stamp =>
      store.put settings event.moment ttlSeconds
        (docKey username entry.agentId)
        (entry.registered settings username stamp ttlSeconds)
  | .read client username agentId =>
      let key := docKey username agentId
      { store with
        held := Function.update store.held client
          ((store.getRaw event.moment key).map fun entry =>
            (key, entry)) }
  | .write client status ttlSeconds metadata stamp =>
      match store.held client with
      | none => store
      | some (key, entry) =>
          { store.put settings event.moment ttlSeconds key
              (entry.beaten settings stamp status ttlSeconds metadata) with
            held := Function.update store.held client none }
  | .delete username agentId =>
      let key := docKey username agentId
      if (store.getRaw event.moment key).isSome then
        { store with bucket := store.bucket.erase key }
      else store

end AgentRegistryStore

/-- The filters of a listing; an empty text is none. -/
structure AgentQuery where
  serviceName : Option String := none
  capability : Option String := none
  status : Option String := none
  tags : List String := []

/-- A filter that is not given or empty lets everything pass. -/
def Passes (filter : Option String) (holds : String → Prop) : Prop :=
  ∀ text ∈ filter, text ≠ "" → holds text

instance (filter : Option String) (holds : String → Prop)
    [DecidablePred holds] : Decidable (Passes filter holds) :=
  inferInstanceAs (Decidable (∀ text ∈ filter, text ≠ "" → holds text))

/-- `str(status).strip().lower()`, if there is a status. -/
def AgentQuery.statusValue (python : PyBuiltins) (query : AgentQuery) :
    Option String :=
  (query.status.filter (· ≠ "")).map fun status =>
    python.lower (PyText.strip status)

/-- The entry passes the filters, if its status is taken to be this one. -/
def AgentQuery.Admits
    (python : PyBuiltins) (query : AgentQuery) (entry : RegistryEntry)
    (status : String) : Prop :=
  Passes query.serviceName (entry.serviceName = ·) ∧
    Passes query.capability (· ∈ entry.capabilities) ∧
    Passes (query.statusValue python) (status = ·) ∧
    ∀ tag ∈ query.tags, tag ∈ entry.tags

instance (python : PyBuiltins) (query : AgentQuery) (entry : RegistryEntry)
    (status : String) : Decidable (query.Admits python entry status) :=
  inferInstanceAs (Decidable (_ ∧ _ ∧ _ ∧ _))

/-- `META(a).id LIKE '{prefix}%'`. -/
def BelongsTo (username key : String) : Prop :=
  LikePattern.like ((docKey username "").toList ++ ['%']) key.toList = true

instance (username key : String) : Decidable (BelongsTo username key) :=
  inferInstanceAs (Decidable (_ = true))

namespace AgentRegistryStore

variable {ι : Type u}

/-- `_fetch_all`. -/
def fetchAll (store : AgentRegistryStore ι) (queriedAt : Int)
    (username : String) : List RegistryEntry :=
  store.bucket.entries.filterMap fun stored =>
    if BelongsTo username stored.1 ∧
        stored.2.dropAt.all (queriedAt < ·) = true then
      some stored.2.entry
    else none

/-- `list`, of which the policy is applied some time after the query. -/
def list
    (config : RegistryPolicyConfig) (halfPower : ℚ → ℚ)
    (python : PyBuiltins) (store : AgentRegistryStore ι)
    (queriedAt now : Int) (username : String) (query : AgentQuery) :
    List EvaluatedEntry :=
  let docs := store.fetchAll queriedAt username
  (applyRegistryPolicies config halfPower now true docs docs).filter
    fun doc =>
      decide (¬ (config.enable && config.filterStale && doc.isStale) = true)
        && decide (query.Admits python doc.entry (doc.status python))

end AgentRegistryStore

end Agentcy.Registry
