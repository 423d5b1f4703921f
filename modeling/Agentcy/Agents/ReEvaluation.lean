import Agentcy.Agents.EthicsChecker
import Agentcy.Library.Chain

/-!
# Re-evaluations

A check that asks for another one publishes a command with a raised count.
The consumer of these commands runs the check again with the count of the
command, and the limit on the counts ends the chain.
-/

namespace Agentcy.Agents

open Agentcy.Library

/-- The message that a check is run with. -/
structure CheckMessage where
  username : String
  pipelineId : Option String := none
  planId : Option String := none
  pipelineRunId : Option String := none
  reEvaluationCount : Int := 0
  originalIssues : List String := []

/-- A command whose count is at least 1, as its model demands. -/
structure ReEvaluatePlanCommand where
  username : String
  pipelineId : String
  planId : String
  pipelineRunId : Option String
  reEvaluationCount : Int
  originalIssues : List String
  positive : 1 ≤ reEvaluationCount

/-- `handle_re_evaluate` runs the check with this message. -/
def handleReEvaluate (cmd : ReEvaluatePlanCommand) : CheckMessage :=
  { username := cmd.username
    pipelineId := some cmd.pipelineId
    planId := some cmd.planId
    pipelineRunId := cmd.pipelineRunId
    reEvaluationCount := cmd.reEvaluationCount
    originalIssues := cmd.originalIssues }

section Checks

-- `planId` is the id of the draft that the messages lead to
variable (setup : EthicsSetup) (planId : String)

/-- The action that `run` stores when its verdict is this one. -/
def actionOn (verdict : Verdict) (message : CheckMessage) : EthicsAction :=
  determineAction setup.python verdict.approved verdict.violations
    setup.policy setup.config message.reEvaluationCount

/-- The command that is published after the check.  Without a connection
nothing is published; where the publish fails or the count is too small for a
command, the error is only logged. -/
def publishedCommand
    (sent : Bool) (verdict : Verdict) (message : CheckMessage) :
    Option ReEvaluatePlanCommand :=
  if actionOn setup verdict message = .reEvaluate ∧ sent = true then
    if positive : 1 ≤ message.reEvaluationCount + 1 then
      some
        { username := message.username
          pipelineId := message.pipelineId.getD ""
          planId
          pipelineRunId := message.pipelineRunId
          reEvaluationCount := message.reEvaluationCount + 1
          originalIssues := verdict.issues
          positive }
    else none
  else none

/-- The message of check number `n` in the chain that a message starts, if
the chain gets that far; `sent n` tells whether the publish after it goes
through. -/
def messageAt
    (sent : Nat → Bool) (verdicts : Nat → Verdict) (first : CheckMessage)
    (n : Nat) : Option CheckMessage :=
  chain
    (fun index message =>
      (publishedCommand setup planId (sent index) (verdicts index)
        message).map handleReEvaluate)
    0 first n

/-- The action of check number `n`. -/
def actionAt
    (sent : Nat → Bool) (verdicts : Nat → Verdict) (first : CheckMessage)
    (n : Nat) : Option EthicsAction :=
  (messageAt setup planId sent verdicts first n).map
    (actionOn setup (verdicts n))

end Checks

section Chain

variable {setup : EthicsSetup} {planId : String} {sent : Bool}

/-- `run` stores the action of its verdict. -/
theorem action_of_run
    {tasks : List Json} {specs : List Cnp.TaskSpec}
    {message : CheckMessage} {check : EthicsCheckResult}
    (stored : setup.run planId tasks specs message.reEvaluationCount =
      some check) :
    ∃ verdict, setup.verdict tasks specs = some verdict ∧
      check.action = actionOn setup verdict message := by
  unfold EthicsSetup.run at stored
  rw [Option.bind_eq_bind, Option.bind_eq_some_iff] at stored
  obtain ⟨verdict, decided, made⟩ := stored
  cases made
  exact ⟨verdict, decided, rfl⟩

theorem determineAction_eq_reEvaluate
    {python : PyBuiltins} {approved : Bool}
    {violations : List PolicyViolation} {policy : Option EthicsPolicy}
    {config : EthicsPolicyConfig} {count : Int}
    (again : determineAction python approved violations policy config count =
      .reEvaluate) :
    count < (maxReEvaluations policy config).val := by
  unfold determineAction at again
  split_ifs at again with _ _ below
  exact below

/-- A follow-up message counts one more, and the count before was below the
limit. -/
theorem count_of_published
    {verdict : Verdict} {message next : CheckMessage}
    (made : (publishedCommand setup planId sent verdict message).map
      handleReEvaluate = some next) :
    next.reEvaluationCount = message.reEvaluationCount + 1 ∧
      message.reEvaluationCount <
        (maxReEvaluations setup.policy setup.config).val ∧
      actionOn setup verdict message = .reEvaluate := by
  obtain ⟨cmd, published, rfl⟩ := Option.map_eq_some_iff.mp made
  unfold publishedCommand at published
  split_ifs at published with again positive
  cases published
  exact ⟨rfl, determineAction_eq_reEvaluate again.1, again.1⟩

/-- From a count of at least 0, a check whose command would get out has a
follow-up if it asks for one. -/
theorem action_of_not_published
    {verdict : Verdict} {message : CheckMessage}
    (counted : 0 ≤ message.reEvaluationCount)
    (isSent : sent = true)
    (none : (publishedCommand setup planId sent verdict message).map
      handleReEvaluate = none) :
    actionOn setup verdict message ≠ .reEvaluate := by
  intro again
  have positive : 1 ≤ message.reEvaluationCount + 1 := by
    omega
  rw [publishedCommand, if_pos ⟨again, isSent⟩, dif_pos positive] at none
  cases none

/-- Whatever the verdicts are, the chain that a plan's first check starts has
at most as many links as the limit says, every check before the last one asks
for the next, and the last one passes or vetoes, unless it is the last because
its command does not get out. -/
theorem reEvaluations_end
    (setup : EthicsSetup) (planId : String) (sent : Nat → Bool)
    (verdicts : Nat → Verdict) (username : String)
    (pipelineId plan pipelineRunId : Option String) :
    let first : CheckMessage :=
      { username, pipelineId, planId := plan, pipelineRunId }
    ∃ links ≤ (maxReEvaluations setup.policy setup.config).val,
      (∀ n, (messageAt setup planId sent verdicts first n).isSome = true ↔
        n ≤ links) ∧
      (∀ n < links,
        actionAt setup planId sent verdicts first n = some .reEvaluate) ∧
      (sent links = true →
        actionAt setup planId sent verdicts first links = some .pass ∨
          actionAt setup planId sent verdicts first links =
            some .veto) := by
  intro first
  let limit : Int := (maxReEvaluations setup.policy setup.config).val
  let next := fun (index : Nat) (message : CheckMessage) =>
    (publishedCommand setup planId (sent index) (verdicts index)
      message).map handleReEvaluate
  have decreases (index : Nat) (message successor : CheckMessage)
      (made : next index message = some successor) :
      (limit - successor.reEvaluationCount).toNat <
        (limit - message.reEvaluationCount).toNat := by
    obtain ⟨raised, below, _⟩ := count_of_published made
    omega
  have counted {n : Nat} {message : CheckMessage}
      (reached : messageAt setup planId sent verdicts first n =
        some message) :
      0 ≤ message.reEvaluationCount := by
    have kept (index : Nat) (message successor : CheckMessage)
        (before : 0 ≤ message.reEvaluationCount)
        (made : next index message = some successor) :
        0 ≤ successor.reEvaluationCount := by
      obtain ⟨raised, _, _⟩ := count_of_published made
      omega
    have start : 0 ≤ first.reEvaluationCount := Int.le_refl 0
    exact chain_invariant kept start reached
  obtain ⟨links, short, last, reached, ends, reachable⟩ :=
    exists_last_of_chain
      (fun message => (limit - message.reEvaluationCount).toNat)
      decreases 0 first
  rw [Nat.zero_add] at ends
  refine ⟨links, ?_, reachable, ?_, ?_⟩
  · have bound : (limit - 0).toNat =
        (maxReEvaluations setup.policy setup.config).val := by
      rw [Int.sub_zero]
      exact Int.toNat_natCast _
    exact short.trans_eq bound
  · intro n before
    -- the next message is there, so the command for it was published
    have follows := (reachable (n + 1)).mpr before
    rw [chain_succ, Nat.zero_add] at follows
    obtain ⟨successor, made⟩ := Option.isSome_iff_exists.mp follows
    obtain ⟨message, here, made⟩ := Option.bind_eq_some_iff.mp made
    obtain ⟨_, _, again⟩ := count_of_published made
    exact Option.map_eq_some_iff.mpr ⟨message, here, again⟩
  · intro isSent
    have settled :=
      action_of_not_published (counted reached) isSent ends
    have here : actionAt setup planId sent verdicts first links =
        some (actionOn setup (verdicts links) last) :=
      Option.map_eq_some_iff.mpr ⟨last, reached, rfl⟩
    rw [here]
    cases action : actionOn setup (verdicts links) last with
    | pass => exact .inl rfl
    | veto => exact .inr rfl
    | reEvaluate => exact absurd action settled

end Chain

end Agentcy.Agents
