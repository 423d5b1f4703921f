import Agentcy.Broker.RabbitConfig

/-!
# Publishing a task state to the outgoing edges

`call_publish_with_retry` looks up the configuration, publishes one envelope
per outgoing edge in order, and starts over from the first edge when the
broker raised, three times at most.  Any other error ends it at once.  The bus
publishes a message once more when its channel was closed under it.
-/

namespace Agentcy.Forwarder

open Agentcy.Broker

/-- Classes of exceptions, as the handlers around a publish tell them
apart. -/
inductive PublishError where
  -- `AMQPError` or `ChannelInvalidStateError`
  | amqp
  | typeError
  | retryError
  | other
  deriving DecidableEq

/-- What one publish of the client comes to.  The message of a publish that
raises is out when only its confirm was lost. -/
inductive ClientPublish where
  | confirmed
  -- `ChannelInvalidStateError`
  | channelClosed (out : Bool)
  | raised (error : PublishError) (out : Bool)

/-- Copies of the message that are out, and what the client raised. -/
def ClientPublish.outcome : ClientPublish → Nat × Option PublishError
  | .confirmed => (1, none)
  | .channelClosed out => (out.toNat, some .amqp)
  | .raised error out => (out.toNat, some error)

/-- What one `AioPikaBus.publish` meets: an error before there is an exchange
to publish on, the publish, an error of the reopening and the second publish
after a closed channel, and an error on leaving the channel. -/
structure BusPublish where
  opening : Option PublishError := none
  first : ClientPublish := .confirmed
  reopening : Option PublishError := none
  second : ClientPublish := .confirmed
  closing : Option PublishError := none

namespace BusPublish

variable (bus : BusPublish)

/-- Publishing on the opened exchange. -/
def body : Nat × Option PublishError :=
  match bus.first with
  | .channelClosed out =>
      match bus.reopening with
      | some error => (out.toNat, some error)
      | none =>
          (out.toNat + bus.second.outcome.1, bus.second.outcome.2)
  | first => first.outcome

/-- Copies of the message that `publish` has put on the bus, and what it
raised. -/
def publish : Nat × Option PublishError :=
  match bus.opening with
  | some error => (0, some error)
  | none => (bus.body.1, bus.closing.or bus.body.2)

end BusPublish

/-- What one attempt to publish meets: an error of the configuration lookup,
or what happens to the publish on each edge. -/
structure PublishAttempt where
  lookup : Option PublishError := none
  edge : Nat → BusPublish := fun _ => {}

/-- An envelope on the bus, for the edge at this position. -/
structure Sent where
  position : Nat
  edge : Rabbit

def publishEdges (attempt : PublishAttempt) :
    Nat → List Rabbit → List Sent × Option PublishError
  | _, [] => ([], none)
  | position, edge :: rest =>
      let published := (attempt.edge position).publish
      let copies := List.replicate published.1 ⟨position, edge⟩
      match published.2 with
      | some error => (copies, some error)
      | none =>
          let later := publishEdges attempt (position + 1) rest
          (copies ++ later.1, later.2)

/-- One attempt.  A task without outgoing edges raises a `KeyError`. -/
def publishOnce (edges : List Rabbit) (attempt : PublishAttempt) :
    List Sent × Option PublishError :=
  match attempt.lookup with
  | some error => ([], some error)
  | none =>
      if edges.isEmpty then ([], some .other)
      else publishEdges attempt 0 edges

/-- Attempts from the given one on, with so many retries left. -/
def publishRetrying
    (edges : List Rabbit) (attempts : Nat → PublishAttempt) :
    Nat → Nat → List Sent × Option PublishError
  | 0, count =>
      let once := publishOnce edges (attempts count)
      match once.2 with
      | some .amqp => (once.1, some .retryError)
      | outcome => (once.1, outcome)
  | retries + 1, count =>
      let once := publishOnce edges (attempts count)
      match once.2 with
      | some .amqp =>
          let later := publishRetrying edges attempts retries (count + 1)
          (once.1 ++ later.1, later.2)
      | outcome => (once.1, outcome)

def callPublishWithRetry
    (edges : List Rabbit) (attempts : Nat → PublishAttempt) :
    List Sent × Option PublishError :=
  publishRetrying edges attempts 2 0

/-- A publish that does not raise has put its message on the bus. -/
theorem BusPublish.copies_pos
    {bus : BusPublish} (noError : bus.publish.2 = none) :
    0 < bus.publish.1 := by
  unfold publish body ClientPublish.outcome at *
  cases opening : bus.opening with
  | some error =>
      simp [opening] at noError
  | none =>
      cases first : bus.first with
      | confirmed =>
          simp
      | raised error out =>
          simp [opening, first] at noError
      | channelClosed out =>
          cases reopening : bus.reopening with
          | some error =>
              simp [opening, first, reopening] at noError
          | none =>
              cases second : bus.second with
              | confirmed =>
                  simp
              | raised error out =>
                  simp [opening, first, reopening, second] at noError
              | channelClosed out =>
                  simp [opening, first, reopening, second] at noError

/-- The attempt gets the envelope of every edge out; what it meets after the
last of them does not matter. -/
def GoesThrough (edges : List Rabbit) (attempt : PublishAttempt) : Prop :=
  attempt.lookup = none ∧
    ∀ position < edges.length,
      0 < (attempt.edge position).publish.1 ∧
        (position + 1 < edges.length →
          (attempt.edge position).publish.2 = none)

/-- The first error that the attempt meets is one of the broker, after which
it is repeated. -/
def Repeated (edges : List Rabbit) (attempt : PublishAttempt) : Prop :=
  (publishOnce edges attempt).2 = some .amqp

/-- Some attempt goes through, and all the ones before it are repeated. -/
def Completes (edges : List Rabbit) (attempts : Nat → PublishAttempt) :
    Nat → Nat → Prop
  | 0, count => GoesThrough edges (attempts count)
  | retries + 1, count =>
      GoesThrough edges (attempts count) ∨
        (Repeated edges (attempts count) ∧
          Completes edges attempts retries (count + 1))

/-- One of the three attempts is reached and goes through. -/
def PublishCompletes
    (edges : List Rabbit) (attempts : Nat → PublishAttempt) : Prop :=
  Completes edges attempts 2 0

/-- Every outgoing edge has an envelope among those sent. -/
def AllEdgesReceived (edges : List Rabbit) (sent : List Sent) : Prop :=
  ∀ position < edges.length,
    position ∈ sent.map Sent.position

section Once

variable (attempt : PublishAttempt)

theorem mem_positions_replicate_iff
    {copies position own : Nat} (edge : Rabbit) :
    own ∈ (List.replicate copies (⟨position, edge⟩ : Sent)).map
        Sent.position ↔ 0 < copies ∧ own = position := by
  rw [List.map_replicate, List.mem_replicate, Nat.pos_iff_ne_zero]

theorem publishEdges_complete
    (position : Nat) (edges : List Rabbit)
    (clear : ∀ offset < edges.length,
      0 < (attempt.edge (position + offset)).publish.1 ∧
        (offset + 1 < edges.length →
          (attempt.edge (position + offset)).publish.2 = none)) :
    ∀ offset < edges.length, position + offset ∈
      (publishEdges attempt position edges).1.map Sent.position := by
  induction edges generalizing position with
  | nil =>
      intro offset bound
      cases bound
  | cons edge rest inductionHypothesis =>
      have here : position ∈ (List.replicate
          (attempt.edge position).publish.1
          (⟨position, edge⟩ : Sent)).map Sent.position :=
        (mem_positions_replicate_iff edge).mpr
          ⟨(clear 0 (Nat.succ_pos rest.length)).1, rfl⟩
      have clearRest : ∀ offset < rest.length,
          0 < (attempt.edge (position + 1 + offset)).publish.1 ∧
            (offset + 1 < rest.length →
              (attempt.edge (position + 1 + offset)).publish.2 =
                none) := by
        intro offset bound
        have moved := clear (offset + 1) (Nat.succ_lt_succ bound)
        rw [show position + (offset + 1) = position + 1 + offset by
          omega] at moved
        exact ⟨moved.1, fun more => moved.2 (Nat.succ_lt_succ more)⟩
      intro offset bound
      rw [publishEdges]
      dsimp only
      cases offset with
      | zero =>
          cases (attempt.edge position).publish.2 with
          | some error =>
              exact here
          | none =>
              rw [List.map_append]
              exact List.mem_append_left _ here
      | succ offset =>
          have noError : (attempt.edge position).publish.2 = none :=
            (clear 0 (Nat.succ_pos rest.length)).2 (by
              rw [List.length_cons] at bound ⊢
              omega)
          have later := inductionHypothesis (position + 1) clearRest
            offset (Nat.lt_of_succ_lt_succ bound)
          rw [noError, List.map_append,
            show position + (offset + 1) = position + 1 + offset by omega]
          exact List.mem_append_right _ later

/-- An attempt that does not go through stops before the last edge is
served. -/
theorem publishEdges_incomplete
    (position : Nat) (edges : List Rabbit)
    (blocked : ∃ offset < edges.length,
      0 < (attempt.edge (position + offset)).publish.1 →
        offset + 1 < edges.length ∧
          (attempt.edge (position + offset)).publish.2 ≠ none) :
    ∀ sent ∈ (publishEdges attempt position edges).1,
      sent.position + 1 < position + edges.length := by
  induction edges generalizing position with
  | nil =>
      obtain ⟨_, bound, _⟩ := blocked
      cases bound
  | cons edge rest inductionHypothesis =>
      obtain ⟨offset, bound, stops⟩ := blocked
      rw [List.length_cons] at bound
      rw [List.length_cons] at stops
      rw [publishEdges]
      dsimp only
      intro sent member
      have atHead (copy : sent ∈ List.replicate
          (attempt.edge position).publish.1 (⟨position, edge⟩ : Sent)) :
          0 < (attempt.edge position).publish.1 ∧
            sent.position = position := by
        rw [List.mem_replicate] at copy
        exact ⟨Nat.pos_of_ne_zero copy.1, by rw [copy.2]⟩
      rw [List.length_cons]
      cases outcome : (attempt.edge position).publish.2 with
      | some error =>
          rw [outcome] at member
          obtain ⟨out, samePosition⟩ := atHead member
          cases offset with
          | zero =>
              have more := (stops out).1
              omega
          | succ offset =>
              omega
      | none =>
          have out := BusPublish.copies_pos outcome
          rw [outcome] at member
          cases offset with
          | zero =>
              exact absurd outcome (stops out).2
          | succ offset =>
              rcases List.mem_append.mp member with copy | later
              · have samePosition := (atHead copy).2
                omega
              · have blockedRest : ∃ offset < rest.length,
                    0 < (attempt.edge (position + 1 + offset)).publish.1 →
                      offset + 1 < rest.length ∧
                        (attempt.edge
                          (position + 1 + offset)).publish.2 ≠ none := by
                  refine ⟨offset, Nat.lt_of_succ_lt_succ bound, ?_⟩
                  rw [show position + 1 + offset =
                    position + (offset + 1) by omega]
                  intro isOut
                  exact ⟨Nat.lt_of_succ_lt_succ (stops isOut).1,
                    (stops isOut).2⟩
                have before := inductionHypothesis (position + 1)
                  blockedRest sent later
                omega

variable {edges : List Rabbit}

theorem publishOnce_of_goesThrough
    (outgoing : edges ≠ []) (through : GoesThrough edges attempt) :
    AllEdgesReceived edges (publishOnce edges attempt).1 := by
  obtain ⟨noLookup, clear⟩ := through
  rw [publishOnce, noLookup, List.isEmpty_eq_false_iff.mpr outgoing]
  intro position bound
  simpa using publishEdges_complete attempt 0 edges (by simpa using clear)
    position bound

theorem publishOnce_of_not_goesThrough
    (blocked : ¬ GoesThrough edges attempt) :
    ∀ sent ∈ (publishOnce edges attempt).1,
      sent.position + 1 < edges.length := by
  rw [publishOnce]
  cases lookup : attempt.lookup with
  | some error =>
      simp
  | none =>
      by_cases empty : edges.isEmpty = true
      · simp [empty]
      · have stops : ∃ offset < edges.length,
            0 < (attempt.edge (0 + offset)).publish.1 →
              offset + 1 < edges.length ∧
                (attempt.edge (0 + offset)).publish.2 ≠ none := by
          by_contra clear
          refine blocked ⟨lookup, ?_⟩
          intro position bound
          by_contra raised
          refine clear ⟨position, bound, ?_⟩
          rw [Nat.zero_add]
          intro out
          rw [not_and, Classical.not_imp] at raised
          exact raised out
        dsimp only
        rw [if_neg empty]
        simpa using publishEdges_incomplete attempt 0 edges stops

end Once

theorem not_allEdgesReceived
    {edges : List Rabbit} {sent : List Sent} (outgoing : edges ≠ [])
    (before : ∀ each ∈ sent, each.position + 1 < edges.length) :
    ¬ AllEdgesReceived edges sent := by
  intro received
  have positive : 0 < edges.length := List.length_pos_of_ne_nil outgoing
  obtain ⟨last, member, samePosition⟩ :=
    List.mem_map.mp (received (edges.length - 1) (by omega))
  have bound := before last member
  omega

theorem AllEdgesReceived.append_left
    {edges : List Rabbit} {sent : List Sent}
    (received : AllEdgesReceived edges sent) (later : List Sent) :
    AllEdgesReceived edges (sent ++ later) := by
  intro position bound
  rw [List.map_append]
  exact List.mem_append_left _ (received position bound)

theorem AllEdgesReceived.append_right
    {edges : List Rabbit} {sent : List Sent}
    (received : AllEdgesReceived edges sent) (earlier : List Sent) :
    AllEdgesReceived edges (earlier ++ sent) := by
  intro position bound
  rw [List.map_append]
  exact List.mem_append_right _ (received position bound)

/-- Retrying reaches all edges when a reached attempt goes through. -/
theorem publishRetrying_of_completes
    {edges : List Rabbit} (outgoing : edges ≠ [])
    {attempts : Nat → PublishAttempt} {retries count : Nat}
    (completes : Completes edges attempts retries count) :
    AllEdgesReceived edges
      (publishRetrying edges attempts retries count).1 := by
  induction retries generalizing count with
  | zero =>
      have received := publishOnce_of_goesThrough _ outgoing completes
      rw [publishRetrying]
      split <;> exact received
  | succ retries inductionHypothesis =>
      rw [publishRetrying]
      rcases completes with through | ⟨repeated, later⟩
      · have received := publishOnce_of_goesThrough _ outgoing through
        dsimp only
        split
        · exact received.append_left _
        · exact received
      · rw [Repeated] at repeated
        rw [repeated]
        exact (inductionHypothesis later).append_right _

/-- Otherwise it never reaches the last edge. -/
theorem publishRetrying_of_not_completes
    {edges : List Rabbit}
    {attempts : Nat → PublishAttempt} {retries count : Nat}
    (fails : ¬ Completes edges attempts retries count) :
    ∀ sent ∈ (publishRetrying edges attempts retries count).1,
      sent.position + 1 < edges.length := by
  induction retries generalizing count with
  | zero =>
      have before := publishOnce_of_not_goesThrough _ fails
      rw [publishRetrying]
      split <;> exact before
  | succ retries inductionHypothesis =>
      rw [Completes, not_or, not_and] at fails
      obtain ⟨blocked, notLater⟩ := fails
      have before := publishOnce_of_not_goesThrough _ blocked
      rw [publishRetrying]
      dsimp only
      split
      · rename_i repeated
        intro sent member
        rcases List.mem_append.mp member with here | afterwards
        · exact before sent here
        · exact inductionHypothesis (notLater repeated) sent afterwards
      · exact before

/-! ## What a call sends -/

theorem publishEdges_sublist
    (attempt : PublishAttempt) (position : Nat) (edges : List Rabbit)
    (succeeds : (publishEdges attempt position edges).2 = none) :
    edges.Sublist
      ((publishEdges attempt position edges).1.map Sent.edge) := by
  induction edges generalizing position with
  | nil =>
      exact .refl []
  | cons edge rest inductionHypothesis =>
      rw [publishEdges] at succeeds ⊢
      dsimp only at succeeds ⊢
      cases outcome : (attempt.edge position).publish.2 with
      | some error =>
          rw [outcome] at succeeds
          cases succeeds
      | none =>
          rw [outcome] at succeeds
          have out := BusPublish.copies_pos outcome
          have here : [edge].Sublist (List.replicate
              (attempt.edge position).publish.1 edge) :=
            List.singleton_sublist.mpr
              (List.mem_replicate.mpr ⟨Nat.ne_of_gt out, rfl⟩)
          rw [List.map_append, List.map_replicate]
          exact here.append (inductionHypothesis (position + 1) succeeds)

theorem edge_of_publishEdges
    {attempt : PublishAttempt} {position : Nat} {edges : List Rabbit}
    {each : Sent} (sent : each ∈ (publishEdges attempt position edges).1) :
    each.edge ∈ edges := by
  induction edges generalizing position with
  | nil =>
      cases sent
  | cons edge rest inductionHypothesis =>
      rw [publishEdges] at sent
      dsimp only at sent
      have copied (copy : each ∈ List.replicate
          (attempt.edge position).publish.1 (⟨position, edge⟩ : Sent)) :
          each.edge ∈ edge :: rest := by
        rw [(List.mem_replicate.mp copy).2]
        exact List.mem_cons_self
      split at sent
      · exact copied sent
      · rcases List.mem_append.mp sent with copy | later
        · exact copied copy
        · exact List.mem_cons_of_mem _ (inductionHypothesis later)

/-- Whatever the call comes to, it sends on edges only. -/
theorem edge_of_sent
    {edges : List Rabbit} {attempts : Nat → PublishAttempt}
    {retries count : Nat} {each : Sent}
    (sent : each ∈ (publishRetrying edges attempts retries count).1) :
    each.edge ∈ edges := by
  have once : ∀ attempt, each ∈ (publishOnce edges attempt).1 →
      each.edge ∈ edges := by
    intro attempt member
    rw [publishOnce] at member
    split at member
    · cases member
    · split at member
      · cases member
      · exact edge_of_publishEdges member
  induction retries generalizing count with
  | zero =>
      rw [publishRetrying] at sent
      split at sent
      · exact once _ sent
      · exact once _ sent
  | succ retries inductionHypothesis =>
      rw [publishRetrying] at sent
      dsimp only at sent
      split at sent
      · rcases List.mem_append.mp sent with here | later
        · exact once _ here
        · exact inductionHypothesis later
      · exact once _ sent

theorem publishOnce_sublist
    {edges : List Rabbit} {attempt : PublishAttempt}
    (succeeds : (publishOnce edges attempt).2 = none) :
    edges.Sublist ((publishOnce edges attempt).1.map Sent.edge) := by
  rw [publishOnce] at succeeds ⊢
  split at succeeds
  · cases succeeds
  · split at succeeds
    · cases succeeds
    · rename_i nonempty
      rw [if_neg nonempty]
      exact publishEdges_sublist attempt 0 edges succeeds

/-- A call that does not raise sends on all edges. -/
theorem publishRetrying_sublist
    {edges : List Rabbit} {attempts : Nat → PublishAttempt}
    {retries count : Nat}
    (succeeds : (publishRetrying edges attempts retries count).2 = none) :
    edges.Sublist
      ((publishRetrying edges attempts retries count).1.map
        Sent.edge) := by
  induction retries generalizing count with
  | zero =>
      rw [publishRetrying] at succeeds ⊢
      split at succeeds
      · cases succeeds
      · exact publishOnce_sublist succeeds
  | succ retries inductionHypothesis =>
      rw [publishRetrying] at succeeds ⊢
      dsimp only at succeeds ⊢
      split at succeeds
      · rw [List.map_append]
        exact (inductionHypothesis succeeds).trans
          (List.sublist_append_right _ _)
      · exact publishOnce_sublist succeeds

theorem publishRetrying_nil
    (attempts : Nat → PublishAttempt) (retries count : Nat) :
    (publishRetrying [] attempts retries count).2 ≠ none := by
  intro succeeds
  have raised : ∀ attempt, (publishOnce [] attempt).2 ≠ none := by
    intro attempt
    rw [publishOnce]
    cases attempt.lookup with
    | some error => exact Option.some_ne_none _
    | none => exact Option.some_ne_none _
  induction retries generalizing count with
  | zero =>
      rw [publishRetrying] at succeeds
      split at succeeds
      · cases succeeds
      · exact raised _ succeeds
  | succ retries inductionHypothesis =>
      rw [publishRetrying] at succeeds
      dsimp only at succeeds
      split at succeeds
      · exact inductionHypothesis (count + 1) succeeds
      · exact raised _ succeeds

/-- The message is out although the client has raised. -/
def ClientPublish.Unconfirmed : ClientPublish → Prop
  | .confirmed => False
  | .channelClosed out => out = true
  | .raised _ out => out = true

/-- The channel was closed under the first publish, and there is another
one. -/
def BusPublish.Reopens (bus : BusPublish) : Prop :=
  (∃ out, bus.first = .channelClosed out) ∧ bus.reopening = none

/-- A copy of the message is out, and an error comes after it: of the client
that put it out, or of the channel that is left. -/
def BusPublish.LeavesCopy (bus : BusPublish) : Prop :=
  bus.opening = none ∧
    (bus.first.Unconfirmed ∨ (bus.Reopens ∧ bus.second.Unconfirmed) ∨
      (bus.closing ≠ none ∧
        (bus.first = .confirmed ∨
          (bus.Reopens ∧ bus.second = .confirmed))))

/-- The first envelope of an attempt leaves a copy. -/
def PublishAttempt.LeavesCopy (attempt : PublishAttempt) : Prop :=
  attempt.lookup = none ∧ (attempt.edge 0).LeavesCopy

/-- So does that of an attempt that is reached. -/
def LeavesCopy (edges : List Rabbit) (attempts : Nat → PublishAttempt) :
    Nat → Nat → Prop
  | 0, count => (attempts count).LeavesCopy
  | retries + 1, count =>
      (attempts count).LeavesCopy ∨
        (Repeated edges (attempts count) ∧
          LeavesCopy edges attempts retries (count + 1))

/-- One of the three attempts is reached and leaves a copy. -/
def CallLeavesCopy
    (edges : List Rabbit) (attempts : Nat → PublishAttempt) : Prop :=
  LeavesCopy edges attempts 2 0

/-- Without a copy left behind there is one message for a publish that does
not raise, and none for the others. -/
theorem BusPublish.copies_eq_iff (bus : BusPublish) :
    bus.publish.1 = (if bus.publish.2 = none then 1 else 0) ↔
      ¬ bus.LeavesCopy := by
  unfold publish body LeavesCopy Reopens
  cases bus.opening with
  | some error =>
      simp
  | none =>
      cases bus.first with
      | confirmed =>
          cases bus.closing <;> simp [ClientPublish.outcome,
            ClientPublish.Unconfirmed]
      | raised error out =>
          cases bus.closing <;> simp [ClientPublish.outcome,
            ClientPublish.Unconfirmed]
      | channelClosed out =>
          cases bus.reopening with
          | some error =>
              cases bus.closing <;> simp [ClientPublish.Unconfirmed]
          | none =>
              cases bus.second <;> cases bus.closing <;>
                simp [ClientPublish.outcome, ClientPublish.Unconfirmed]

section Single

variable {edge : Rabbit} {attempts : Nat → PublishAttempt}

theorem publishOnce_single (attempt : PublishAttempt) :
    (publishOnce [edge] attempt).1.length =
        (if (publishOnce [edge] attempt).2 = none then 1 else 0) ↔
      ¬ attempt.LeavesCopy := by
  unfold publishOnce PublishAttempt.LeavesCopy
  cases attempt.lookup with
  | some error =>
      simp
  | none =>
      have copies := (attempt.edge 0).copies_eq_iff
      simp only [List.isEmpty_cons, Bool.false_eq_true, if_false,
        publishEdges, List.append_nil, true_and]
      rw [← copies]
      cases (attempt.edge 0).publish.2 <;>
        simp

/-- On the only edge of its task, a call that does not raise sends one
message exactly when no attempt leaves a copy. -/
theorem publishRetrying_single
    {retries count : Nat}
    (succeeds : (publishRetrying [edge] attempts retries count).2 =
      none) :
    (publishRetrying [edge] attempts retries count).1.length = 1 ↔
      ¬ LeavesCopy [edge] attempts retries count := by
  induction retries generalizing count with
  | zero =>
      have once := @publishOnce_single edge (attempts count)
      rw [publishRetrying] at succeeds ⊢
      split at succeeds
      · cases succeeds
      · dsimp only at succeeds ⊢
        rwa [if_pos succeeds] at once
  | succ retries inductionHypothesis =>
      have once := @publishOnce_single edge (attempts count)
      rw [publishRetrying] at succeeds ⊢
      rw [LeavesCopy, Repeated]
      dsimp only at succeeds ⊢
      split at succeeds
      · rename_i repeated
        have later := inductionHypothesis succeeds
        have sent := (publishRetrying_sublist succeeds).length_le
        rw [List.length_map, List.length_singleton] at sent
        rw [repeated, if_neg (Option.some_ne_none _)] at once
        rw [List.length_append, not_or, ← once, not_and]
        constructor
        · intro one
          have both : (publishOnce [edge] (attempts count)).1.length = 0 ∧
              (publishRetrying [edge] attempts retries
                (count + 1)).1.length = 1 := by omega
          exact ⟨both.1, fun _ => later.mp both.2⟩
        · rintro ⟨nothing, clear⟩
          rw [nothing, later.mpr (clear repeated)]
      · rename_i single
        dsimp only at succeeds ⊢
        rw [if_pos succeeds] at once
        rw [once, not_or]
        refine (and_iff_left ?_).symm
        rw [succeeds]
        exact fun both => nomatch both.1

end Single

end Agentcy.Forwarder
