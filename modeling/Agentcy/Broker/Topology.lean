import Mathlib.Logic.Function.Basic
import Agentcy.Broker.RabbitConfig

/-!
# Registration-time topology

`ensure_topology` deletes and declares the exchange of every configured edge.
A declared exchange keeps its type; deleting it removes its bindings, among
them those of the per-run queues of running pipelines.
-/

namespace Agentcy.Broker

inductive ExchangeType where
  | fanout
  | direct
  | topic
  | headers
  | xDelayedMessage
  | xConsistentHash
  | xModulusHash
  deriving DecidableEq, Repr

def exchangeTypeOf (raw : Option String) : ExchangeType :=
  match ((raw.filter (· ≠ "")).getD "direct").toLower.toUpper with
  | "FANOUT" => .fanout
  | "TOPIC" => .topic
  | "HEADERS" => .headers
  | "X_DELAYED_MESSAGE" => .xDelayedMessage
  | "X_CONSISTENT_HASH" => .xConsistentHash
  | "X_MODULUS_HASH" => .xModulusHash
  | _ => .direct

structure Binding where
  exchange : String
  queue : String
  routingKey : String
  deriving DecidableEq, Repr

structure BrokerState where
  exchanges : String → Option ExchangeType := fun _ => none
  bindings : List Binding := []

/-- Deleting an exchange removes its bindings with it. -/
def BrokerState.exchangeDelete (broker : BrokerState) (name : String) :
    BrokerState where
  exchanges := Function.update broker.exchanges name none
  bindings := broker.bindings.filter fun binding =>
    binding.exchange ≠ name

/-- Declaring an exchange again changes nothing; with another type it is a
precondition failure. -/
def BrokerState.declareExchange
    (broker : BrokerState) (name : String) (type : ExchangeType) :
    Option BrokerState :=
  match broker.exchanges name with
  | none =>
      some
        { broker with
          exchanges := Function.update broker.exchanges name (some type) }
  | some existing => if existing = type then some broker else none

/-- Exchange of a configured edge, with its configured type. -/
def configuredExchange? (item : RabbitConfig) :
    Option (String × ExchangeType) :=
  item.rabbitmq.bind fun rabbit =>
    if rabbit.exchange = "" then none
    else some (rabbit.exchange, exchangeTypeOf rabbit.exchangeType)

def configuredExchanges (configs : List RabbitConfig) :
    List (String × ExchangeType) :=
  configs.filterMap configuredExchange?

section EnsureTopology

-- an exchange that cannot be deleted raises, and the loop passes over it
variable (deletable : String → Bool)

/-- Delete and declare one exchange. -/
def ensureExchange
    (broker : BrokerState) (name : String) (type : ExchangeType) :
    Option BrokerState :=
  let cleaned :=
    if deletable name then broker.exchangeDelete name else broker
  cleaned.declareExchange name type

/-- The loop over the configured edges; the flag says that no declaration
raised. -/
def ensureTopology :
    List RabbitConfig → BrokerState → BrokerState × Bool
  | [], broker => (broker, true)
  | item :: rest, broker =>
      match configuredExchange? item with
      | none => ensureTopology rest broker
      | some (name, type) =>
          match ensureExchange deletable broker name type with
          | none => (broker, false)
          | some declared => ensureTopology rest declared

/-- Re-registration does not disturb running runs: a second call changes
nothing, every configured exchange has its type, and the bindings of running
runs on exchanges that had it already are still there. -/
structure Undisturbing
    (configs : List RabbitConfig) (running : Binding → Prop)
    (broker : BrokerState) : Prop where
  idempotent :
    ensureTopology deletable configs
        (ensureTopology deletable configs broker).1 =
      ((ensureTopology deletable configs broker).1, true)
  declared : ∀ name type, (name, type) ∈ configuredExchanges configs →
    (ensureTopology deletable configs broker).1.exchanges name = some type
  kept : ∀ binding ∈ broker.bindings, running binding →
    ∀ type, (binding.exchange, type) ∈ configuredExchanges configs →
      broker.exchanges binding.exchange = some type →
        binding ∈ (ensureTopology deletable configs broker).1.bindings

/-- Condition on the configuration and the broker before the call. -/
structure SafeToEnsure
    (configs : List RabbitConfig) (running : Binding → Prop)
    (broker : BrokerState) : Prop where
  oneType : ∀ name type other,
    (name, type) ∈ configuredExchanges configs →
      (name, other) ∈ configuredExchanges configs → type = other
  declarable : ∀ name type, (name, type) ∈ configuredExchanges configs →
    deletable name = true ∨ broker.exchanges name = none ∨
      broker.exchanges name = some type
  unbound : ∀ binding ∈ broker.bindings, running binding →
    ∀ type, (binding.exchange, type) ∈ configuredExchanges configs →
      broker.exchanges binding.exchange = some type →
        deletable binding.exchange = false

section OneExchange

variable {deletable}

theorem ensureExchange_some_iff
    (broker : BrokerState) (name : String) (type : ExchangeType) :
    (ensureExchange deletable broker name type).isSome ↔
      deletable name = true ∨ broker.exchanges name = none ∨
        broker.exchanges name = some type := by
  rw [ensureExchange]
  cases deletable name with
  | true =>
      simp [BrokerState.declareExchange, BrokerState.exchangeDelete]
  | false =>
      cases existing : broker.exchanges name with
      | none =>
          simp [BrokerState.declareExchange, existing]
      | some found =>
          by_cases same : found = type
          · simp [BrokerState.declareExchange, existing, same]
          · simp [BrokerState.declareExchange, existing, same]

theorem ensureExchange_effect
    {broker declared : BrokerState} {name : String} {type : ExchangeType}
    (ensured : ensureExchange deletable broker name type = some declared) :
    declared.exchanges =
        Function.update broker.exchanges name (some type) ∧
      declared.bindings =
        broker.bindings.filter fun binding =>
          !(deletable name && binding.exchange = name) := by
  rw [ensureExchange] at ensured
  cases removable : deletable name with
  | true =>
      simp only [removable, if_true, BrokerState.declareExchange,
        BrokerState.exchangeDelete, Function.update_self,
        Option.some.injEq] at ensured
      subst ensured
      simp
  | false =>
      simp only [removable, Bool.false_eq_true, if_false,
        BrokerState.declareExchange] at ensured
      cases existing : broker.exchanges name with
      | none =>
          simp only [existing, Option.some.injEq] at ensured
          subst ensured
          simp
      | some found =>
          simp only [existing, Option.ite_none_right_eq_some,
            Option.some.injEq] at ensured
          obtain ⟨same, rfl⟩ := ensured
          subst same
          refine ⟨?_, by simp⟩
          rw [← existing, Function.update_eq_self]

end OneExchange

section Loop

variable {deletable}

/-- The loop over the exchanges alone. -/
def ensureExchanges (deletable : String → Bool) :
    List (String × ExchangeType) → BrokerState → BrokerState × Bool
  | [], broker => (broker, true)
  | (name, type) :: rest, broker =>
      match ensureExchange deletable broker name type with
      | none => (broker, false)
      | some declared => ensureExchanges deletable rest declared

theorem ensureTopology_eq_ensureExchanges
    (deletable : String → Bool) (configs : List RabbitConfig) (broker : BrokerState) :
    ensureTopology deletable configs broker =
      ensureExchanges deletable (configuredExchanges configs) broker := by
  induction configs generalizing broker with
  | nil =>
      rfl
  | cons item rest inductionHypothesis =>
      rw [ensureTopology]
      cases configured : configuredExchange? item with
      | none =>
          rw [configuredExchanges,
            List.filterMap_cons_none configured]
          exact inductionHypothesis broker
      | some exchange =>
          rw [configuredExchanges,
            List.filterMap_cons_some configured, ensureExchanges]
          dsimp only
          cases ensureExchange deletable broker exchange.1
              exchange.2 with
          | none =>
              rfl
          | some declared =>
              exact inductionHypothesis declared

/-- The binding is not on an exchange of the list that gets deleted. -/
def survives
    (deletable : String → Bool)
    (exchanges : List (String × ExchangeType)) (binding : Binding) :
    Bool :=
  !(deletable binding.exchange &&
    exchanges.any fun exchange => exchange.1 = binding.exchange)

/-- What a call leaves that meets no type it cannot declare. -/
structure Ensured
    (deletable : String → Bool)
    (exchanges : List (String × ExchangeType))
    (broker after : BrokerState) : Prop where
  declared : ∀ name type, (name, type) ∈ exchanges →
    after.exchanges name = some type
  others : ∀ name, name ∉ exchanges.map Prod.fst →
    after.exchanges name = broker.exchanges name
  bindings : after.bindings =
    broker.bindings.filter (survives deletable exchanges)

/-- Each exchange has one type, and nothing prevents its declaration. -/
structure Declarable
    (deletable : String → Bool)
    (exchanges : List (String × ExchangeType))
    (broker : BrokerState) : Prop where
  oneType : ∀ name type other, (name, type) ∈ exchanges →
    (name, other) ∈ exchanges → type = other
  possible : ∀ name type, (name, type) ∈ exchanges →
    deletable name = true ∨ broker.exchanges name = none ∨
      broker.exchanges name = some type

theorem Declarable.tail
    {name : String} {type : ExchangeType}
    {rest : List (String × ExchangeType)}
    {broker declared : BrokerState}
    (declarable : Declarable deletable ((name, type) :: rest) broker)
    (sameExchanges :
      declared.exchanges =
        Function.update broker.exchanges name (some type)) :
    Declarable deletable rest declared where
  oneType := fun tested first second inFirst inSecond =>
    declarable.oneType tested first second
      (List.mem_cons_of_mem _ inFirst) (List.mem_cons_of_mem _ inSecond)
  possible := by
    intro tested other member
    rw [sameExchanges]
    by_cases same : tested = name
    · subst same
      have sameType :=
        declarable.oneType tested type other List.mem_cons_self
          (List.mem_cons_of_mem _ member)
      rw [Function.update_self, sameType]
      exact Or.inr (Or.inr rfl)
    · rw [Function.update_of_ne same]
      exact
        declarable.possible tested other
          (List.mem_cons_of_mem _ member)

theorem ensureExchanges_of_declarable
    {exchanges : List (String × ExchangeType)} {broker : BrokerState}
    (declarable : Declarable deletable exchanges broker) :
    (ensureExchanges deletable exchanges broker).2 = true ∧
      Ensured deletable exchanges broker
        (ensureExchanges deletable exchanges broker).1 := by
  induction exchanges generalizing broker with
  | nil =>
      refine ⟨rfl, ⟨?_, fun _ _ => rfl, ?_⟩⟩
      · intro name type member
        cases member
      · refine (List.filter_eq_self.mpr ?_).symm
        intro binding _
        simp [survives]
  | cons exchange rest inductionHypothesis =>
      obtain ⟨name, type⟩ := exchange
      obtain ⟨declared, ensuredHere⟩ :=
        Option.isSome_iff_exists.mp
          ((ensureExchange_some_iff broker name type).mpr
            (declarable.possible name type List.mem_cons_self))
      obtain ⟨sameExchanges, sameBindings⟩ :=
        ensureExchange_effect ensuredHere
      obtain ⟨success, ensured⟩ :=
        inductionHypothesis (declarable.tail sameExchanges)
      rw [ensureExchanges, ensuredHere]
      refine ⟨success, ⟨?_, ?_, ?_⟩⟩
      · intro tested other member
        by_cases later : tested ∈ rest.map Prod.fst
        · obtain ⟨⟨found, foundType⟩, inRest, sameName⟩ :=
            List.mem_map.mp later
          have sameFound : found = tested := sameName
          subst sameFound
          have sameType :=
            declarable.oneType found foundType other
              (List.mem_cons_of_mem _ inRest) member
          rw [← sameType]
          exact ensured.declared found foundType inRest
        · have atHead : (tested, other) = (name, type) := by
            rcases List.mem_cons.mp member with here | inRest
            · exact here
            · exact
                absurd (List.mem_map.mpr ⟨_, inRest, rfl⟩) later
          obtain ⟨rfl, rfl⟩ := Prod.ext_iff.mp atHead
          refine (ensured.others _ later).trans ?_
          rw [sameExchanges, Function.update_self]
      · intro tested absent
        rw [List.map_cons, List.mem_cons, not_or] at absent
        refine (ensured.others tested absent.2).trans ?_
        rw [sameExchanges, Function.update_of_ne absent.1]
      · refine ensured.bindings.trans ?_
        rw [sameBindings, List.filter_filter]
        refine List.filter_congr fun binding _ => ?_
        by_cases here : binding.exchange = name
        · simp only [survives, here, List.any_cons, decide_true,
            Bool.true_or, Bool.and_true]
          cases deletable name with
          | true =>
              exact Bool.and_false _
          | false =>
              rfl
        · simp [survives, here, Ne.symm here]

/-- An exchange that cannot be deleted keeps its type. -/
theorem ensureExchanges_keeps_type
    {name : String} {type : ExchangeType}
    (exchanges : List (String × ExchangeType)) {broker : BrokerState}
    (fixed : deletable name = false)
    (existing : broker.exchanges name = some type) :
    (ensureExchanges deletable exchanges broker).1.exchanges name =
      some type := by
  induction exchanges generalizing broker with
  | nil =>
      exact existing
  | cons exchange rest inductionHypothesis =>
      rw [ensureExchanges]
      cases ensured :
          ensureExchange deletable broker exchange.1 exchange.2 with
      | none =>
          exact existing
      | some declared =>
          refine inductionHypothesis ?_
          rw [(ensureExchange_effect ensured).1]
          by_cases same : name = exchange.1
          · have possible :=
              (ensureExchange_some_iff broker exchange.1
                exchange.2).mp (by rw [ensured]; rfl)
            rw [← same, fixed, existing] at possible
            simp only [Bool.false_eq_true, reduceCtorEq,
              Option.some.injEq, false_or] at possible
            rw [same, Function.update_self, possible]
          · rw [Function.update_of_ne same]
            exact existing

theorem Ensured.declarable_again
    {exchanges : List (String × ExchangeType)}
    {broker after : BrokerState}
    (declarable : Declarable deletable exchanges broker)
    (ensured : Ensured deletable exchanges broker after) :
    Declarable deletable exchanges after where
  oneType := declarable.oneType
  possible := fun name type member =>
    Or.inr (Or.inr (ensured.declared name type member))

/-- A second call finds everything as it would leave it. -/
theorem Ensured.idempotent
    {exchanges : List (String × ExchangeType)}
    {broker after : BrokerState}
    (declarable : Declarable deletable exchanges broker)
    (ensured : Ensured deletable exchanges broker after) :
    ensureExchanges deletable exchanges after = (after, true) := by
  obtain ⟨success, again⟩ :=
    ensureExchanges_of_declarable (ensured.declarable_again declarable)
  refine Prod.ext ?_ success
  have sameExchanges :
      (ensureExchanges deletable exchanges after).1.exchanges =
        after.exchanges := by
    funext name
    by_cases configured : name ∈ exchanges.map Prod.fst
    · obtain ⟨⟨found, type⟩, member, sameName⟩ :=
        List.mem_map.mp configured
      have sameFound : found = name := sameName
      subst sameFound
      rw [again.declared found type member,
        ensured.declared found type member]
    · exact again.others name configured
  have sameBindings :
      (ensureExchanges deletable exchanges after).1.bindings =
        after.bindings := by
    rw [again.bindings, ensured.bindings, List.filter_filter]
    simp
  cases result : (ensureExchanges deletable exchanges after).1 with
  | mk exchangesAfter bindingsAfter =>
      rw [result] at sameExchanges sameBindings
      dsimp only at sameExchanges sameBindings
      rw [sameExchanges, sameBindings]

end Loop

variable {deletable}

theorem Undisturbing.safe
    {configs : List RabbitConfig} {running : Binding → Prop}
    {broker : BrokerState}
    (undisturbing : Undisturbing deletable configs running broker) :
    SafeToEnsure deletable configs running broker := by
  have toExchanges := ensureTopology_eq_ensureExchanges deletable configs
  have oneType : ∀ name type other,
      (name, type) ∈ configuredExchanges configs →
        (name, other) ∈ configuredExchanges configs →
          type = other := by
    intro name type other first second
    have atFirst := undisturbing.declared name type first
    rw [undisturbing.declared name other second] at atFirst
    exact (Option.some.inj atFirst).symm
  have possible : ∀ name type,
      (name, type) ∈ configuredExchanges configs →
        deletable name = true ∨ broker.exchanges name = none ∨
          broker.exchanges name = some type := by
    intro name type member
    cases fixed : deletable name with
    | true =>
        exact Or.inl rfl
    | false =>
        cases existing : broker.exchanges name with
        | none =>
            exact Or.inr (Or.inl rfl)
        | some found =>
            have after := undisturbing.declared name type member
            rw [toExchanges,
              ensureExchanges_keeps_type _ fixed existing] at after
            exact Or.inr (Or.inr after)
  refine ⟨oneType, possible, ?_⟩
  intro binding bound isRunning type member hadType
  have ensured :=
    (ensureExchanges_of_declarable ⟨oneType, possible⟩).2
  have stillBound :=
    undisturbing.kept binding bound isRunning type member hadType
  rw [toExchanges, ensured.bindings] at stillBound
  have alive := (List.mem_filter.mp stillBound).2
  have configured :
      ((configuredExchanges configs).any fun exchange =>
        exchange.1 = binding.exchange) = true :=
    List.any_eq_true.mpr ⟨_, member, by simp⟩
  rw [survives, configured, Bool.and_true] at alive
  simpa using alive

theorem SafeToEnsure.undisturbing
    {configs : List RabbitConfig} {running : Binding → Prop}
    {broker : BrokerState}
    (safe : SafeToEnsure deletable configs running broker) :
    Undisturbing deletable configs running broker := by
  have toExchanges := ensureTopology_eq_ensureExchanges deletable configs
  have declarable :
      Declarable deletable (configuredExchanges configs) broker :=
    ⟨safe.oneType, safe.declarable⟩
  have ensured := (ensureExchanges_of_declarable declarable).2
  refine ⟨?_, ?_, ?_⟩
  · rw [toExchanges, toExchanges]
    exact ensured.idempotent declarable
  · rw [toExchanges]
    exact ensured.declared
  · intro binding bound isRunning type member hadType
    rw [toExchanges, ensured.bindings]
    apply List.mem_filter.mpr
    refine ⟨bound, ?_⟩
    rw [survives, safe.unbound binding bound isRunning type member
      hadType]
    rfl

variable (deletable)

/-- For every configuration, broker state and set of running bindings: the
call is idempotent, declares every exchange with its type and keeps the
bindings of the running runs exactly when the configuration gives each
exchange one type, no exchange is stuck with another type, and no binding of a
running run is on an exchange that the call deletes. -/
theorem ensureTopology_undisturbing_iff
    (configs : List RabbitConfig) (running : Binding → Prop)
    (broker : BrokerState) :
    Undisturbing deletable configs running broker ↔
      SafeToEnsure deletable configs running broker :=
  ⟨Undisturbing.safe, SafeToEnsure.undisturbing⟩

end EnsureTopology

/-! ## A registration while a run is going on -/

def edgeConfigs : List RabbitConfig :=
  [⟨"t", some { exchange := "t-to-u", exchangeType := some "direct" }⟩]

def runBinding : Binding where
  exchange := "t-to-u"
  queue := "u.run-1"
  routingKey := "u.run-1"

def runningBroker : BrokerState where
  exchanges := fun name =>
    if name = "t-to-u" then some .direct else none
  bindings := [runBinding]

/-- An exchange of a type that the configuration no longer gives it. -/
def staleBroker : BrokerState where
  exchanges := fun name =>
    if name = "t-to-u" then some .topic else none

/-- A deletion that succeeds drops the binding of the run; where deletions
fail, the stale exchange stays. -/
theorem registration_disturbs :
    (¬ Undisturbing (fun _ => true) edgeConfigs (· = runBinding)
        runningBroker) ∧
      ¬ Undisturbing (fun _ => false) edgeConfigs (fun _ => False)
        staleBroker := by
  constructor
  · intro undisturbing
    have kept :=
      undisturbing.kept runBinding (by decide +kernel) rfl .direct
        (by decide +kernel) (by decide +kernel)
    revert kept
    decide +kernel
  · intro undisturbing
    have declared :=
      undisturbing.declared "t-to-u" .direct (by decide +kernel)
    revert declared
    decide +kernel

end Agentcy.Broker
