import Agentcy.Coalition.Assembler
import Mathlib.Tactic.Ring

/-!
# What the order of the candidates changes

A candidate without a signal is scored with the one that an earlier candidate
left in the map.  The pass scores every candidate by itself exactly where what
is left over adds nothing to the score, and then the best partner does not
depend on the order.
-/

namespace Agentcy.Coalition

open Agentcy.Library

namespace Context

variable (context : Context)

/-- The score of a candidate by its own signals. -/
def ownScore (agent : Agent) : Rat :=
  compatibilityScore context.lower context.primaryAgent agent
    (context.ownSignals agent)

def scoresGiven (signals : Signals) : List Agent → List (Agent × Rat)
  | [] => []
  | agent :: rest =>
      if context.Eligible agent then
        let loaded := context.loadSignals signals agent
        (agent, compatibilityScore context.lower context.primaryAgent agent
          loaded) :: scoresGiven loaded rest
      else scoresGiven signals rest

/-- Every candidate gets the score of its own signals. -/
def Independent (agents : List Agent) : Prop :=
  context.scoresGiven (fun _ => none) agents =
    (agents.filter fun agent => decide (context.Eligible agent)).map
      fun agent => (agent, context.ownScore agent)

/-- The map after one more agent. -/
def leave (signals : Signals) (agent : Agent) : Signals :=
  if context.Eligible agent then context.loadSignals signals agent
  else signals

/-- The entry of the map that stands in for a signal that the candidate does
not have. -/
def inherited (signals : Signals) (agent : Agent) : Signals :=
  fun signalType =>
    match context.ownSignals agent signalType with
    | some _ => none
    | none => signals signalType

def inheritedEffect (signals : Signals) (agent : Agent) : Rat :=
  let trust :=
    match context.inherited signals agent .jointTrust with
    | some score => (score - 1 / 2) * (25 / 100)
    | none => 0
  let friction :=
    match context.inherited signals agent .handoffFriction with
    | some score => score * (10 / 100)
    | none => 0
  trust - friction

/-- What is left in the map adds nothing to the raw score of the candidate,
or the raw score is out of range on the same side with it and without. -/
def HarmlessAt (signals : Signals) (agent : Agent) : Prop :=
  let raw := rawScore context.lower context.primaryAgent agent
    (context.ownSignals agent)
  let effect := context.inheritedEffect signals agent
  effect = 0 ∨ (raw ≤ 0 ∧ raw + effect ≤ 0) ∨
    (1 ≤ raw ∧ 1 ≤ raw + effect)

/-- What earlier candidates leave over is harmless to every candidate. -/
def Harmless (agents : List Agent) : Prop :=
  EveryStep context.leave
    (fun signals agent =>
      context.Eligible agent → context.HarmlessAt signals agent)
    (fun _ => none) agents

theorem rawScore_loadSignals (signals : Signals) (agent : Agent) :
    rawScore context.lower context.primaryAgent agent
        (context.loadSignals signals agent) =
      rawScore context.lower context.primaryAgent agent
          (context.ownSignals agent) +
        context.inheritedEffect signals agent := by
  have trust : ((context.loadSignals signals agent) .jointTrust).getD
        (1 / 2) * (25 / 100 : Rat) =
      (context.ownSignals agent .jointTrust).getD (1 / 2) * (25 / 100) +
        match context.inherited signals agent .jointTrust with
        | some score => (score - 1 / 2) * (25 / 100)
        | none => 0 := by
    unfold loadSignals inherited
    cases context.ownSignals agent .jointTrust with
    | some own =>
        simp
    | none =>
        cases signals .jointTrust with
        | none =>
            simp
        | some score =>
            simp only [Option.getD_some, Option.getD_none]
            ring
  have friction :
      ((context.loadSignals signals agent) .handoffFriction).getD 0 *
          (10 / 100 : Rat) =
        (context.ownSignals agent .handoffFriction).getD 0 * (10 / 100) +
          match context.inherited signals agent .handoffFriction with
          | some score => score * (10 / 100)
          | none => 0 := by
    unfold loadSignals inherited
    cases context.ownSignals agent .handoffFriction with
    | some own =>
        simp
    | none =>
        cases signals .handoffFriction <;> simp
  unfold rawScore inheritedEffect
  dsimp only
  rw [trust, friction]
  ring

theorem score_loadSignals_iff (signals : Signals) (agent : Agent) :
    compatibilityScore context.lower context.primaryAgent agent
        (context.loadSignals signals agent) = context.ownScore agent ↔
      context.HarmlessAt signals agent := by
  unfold ownScore compatibilityScore HarmlessAt
  rw [rawScore_loadSignals, clamp_eq_iff (by decide)]
  dsimp only
  rw [add_eq_left]
  exact or_congr_right (or_congr and_comm and_comm)

theorem scoresGiven_eq_iff (signals : Signals) (agents : List Agent) :
    context.scoresGiven signals agents =
        ((agents.filter fun agent => decide (context.Eligible agent)).map
          fun agent => (agent, context.ownScore agent)) ↔
      EveryStep context.leave
        (fun signals agent =>
          context.Eligible agent → context.HarmlessAt signals agent)
        signals agents := by
  induction agents generalizing signals with
  | nil =>
      simp [scoresGiven, EveryStep]
  | cons agent rest inductionHypothesis =>
      unfold scoresGiven EveryStep
      rw [List.filter_cons]
      by_cases eligible : context.Eligible agent
      · have left : context.leave signals agent =
            context.loadSignals signals agent := if_pos eligible
        rw [if_pos eligible, if_pos (decide_eq_true eligible), left,
          List.map_cons]
        dsimp only
        rw [List.cons.injEq, Prod.mk.injEq, forall_prop_of_true eligible,
          ← score_loadSignals_iff]
        exact and_congr (and_iff_right rfl) (inductionHypothesis _)
      · have left : context.leave signals agent = signals :=
          if_neg eligible
        rw [if_neg eligible, if_neg (by simpa using eligible), left,
          inductionHypothesis]
        exact ⟨fun later => ⟨fun isEligible =>
          absurd isEligible eligible, later⟩, And.right⟩

theorem indifferent_iff (agents : List Agent) :
    context.Independent agents ↔ context.Harmless agents :=
  context.scoresGiven_eq_iff _ agents

/-- One round of the choice, once the score is there. -/
def keepBetter
    (best : Rat × Option Agent) (scored : Agent × Rat) :
    Rat × Option Agent :=
  if best.1 < scored.2 then (scored.2, some scored.1) else best

theorem findPartner_eq (search : Search) (agents : List Agent) :
    let final := run context.considerPartner search agents
    (final.bestCompat, final.bestPartner) =
      (context.scoresGiven search.signals agents).foldl keepBetter
        (search.bestCompat, search.bestPartner) := by
  induction agents generalizing search with
  | nil =>
      rfl
  | cons agent rest inductionHypothesis =>
      dsimp only at inductionHypothesis ⊢
      rw [run_cons, inductionHypothesis, scoresGiven, considerPartner]
      by_cases eligible : context.Eligible agent
      · rw [if_pos eligible, if_pos eligible]
        dsimp only
        rw [List.foldl_cons, keepBetter]
        split <;> rfl
      · rw [if_neg eligible, if_neg eligible]

/-- The description of a choice: no score beats it, and the partner is one of
those with its score, if any score is positive. -/
structure Chosen
    (scored : List (Agent × Rat)) (best : Rat × Option Agent) :
    Prop where
  atLeast : ∀ item ∈ scored, item.2 ≤ best.1
  nonnegative : 0 ≤ best.1
  fromScored : ∀ partner, best.2 = some partner →
    (partner, best.1) ∈ scored ∧ 0 < best.1
  noneOnlyAtZero : best.2 = none → best.1 = 0

theorem chosen_foldl (scored : List (Agent × Rat)) :
    Chosen scored (scored.foldl keepBetter (0, none)) := by
  induction scored using List.reverseRecOn with
  | nil =>
      exact ⟨by simp, le_refl _, by simp, fun _ => rfl⟩
  | append_singleton front last inductionHypothesis =>
      rw [List.foldl_append, List.foldl_cons, List.foldl_nil, keepBetter]
      obtain ⟨atLeast, nonnegative, fromScored, noneOnlyAtZero⟩ :=
        inductionHypothesis
      split
      · rename_i beaten
        refine ⟨?_, nonnegative.trans beaten.le, ?_, by simp⟩
        · intro item member
          rcases List.mem_append.mp member with early | isLast
          · exact (atLeast item early).trans beaten.le
          · rw [List.mem_singleton.mp isLast]
        · intro partner same
          rw [← Option.some.inj same]
          exact
            ⟨List.mem_append_right front (List.mem_singleton.mpr rfl),
              nonnegative.trans_lt beaten⟩
      · rename_i kept
        refine ⟨?_, nonnegative, ?_, noneOnlyAtZero⟩
        · intro item member
          rcases List.mem_append.mp member with early | isLast
          · exact atLeast item early
          · rw [List.mem_singleton.mp isLast]
            exact not_lt.mp kept
        · intro partner same
          obtain ⟨inFront, positive⟩ := fromScored partner same
          exact ⟨List.mem_append_left _ inFront, positive⟩

/-- One of the candidates has a score of its own above all others. -/
def UniqueTop (agents : List Agent) : Prop :=
  ∃ top ∈ agents, context.Eligible top ∧
    ∀ other ∈ agents, context.Eligible other → other ≠ top →
      context.ownScore other < context.ownScore top

theorem bestPartner_of_top
    {agents : List Agent} (independent : context.Independent agents)
    {top : Agent} (member : top ∈ agents) (eligible : context.Eligible top)
    (above : ∀ other ∈ agents, context.Eligible other → other ≠ top →
      context.ownScore other < context.ownScore top) :
    (context.findPartner agents).bestPartner =
      if 0 < context.ownScore top then some top else none := by
  have described := chosen_foldl
    (context.scoresGiven (fun _ => none) agents)
  have final := context.findPartner_eq {} agents
  dsimp only at final
  rw [← final, independent] at described
  have among (agent : Agent) (score : Rat) :
      (agent, score) ∈ ((agents.filter fun agent =>
          decide (context.Eligible agent)).map
        fun agent => (agent, context.ownScore agent)) ↔
      (agent ∈ agents ∧ context.Eligible agent) ∧
        context.ownScore agent = score := by
    rw [List.mem_map]
    constructor
    · rintro ⟨found, isFound, same⟩
      obtain ⟨rfl, rfl⟩ := Prod.mk.inj same
      obtain ⟨inside, isEligible⟩ := List.mem_filter.mp isFound
      exact ⟨⟨inside, of_decide_eq_true isEligible⟩, rfl⟩
    · rintro ⟨⟨inside, isEligible⟩, rfl⟩
      exact ⟨agent,
        List.mem_filter.mpr ⟨inside, decide_eq_true isEligible⟩, rfl⟩
  have reaches := described.atLeast (top, context.ownScore top)
    ((among _ _).mpr ⟨⟨member, eligible⟩, rfl⟩)
  change (run context.considerPartner {} agents).bestPartner = _
  cases chosen : (run context.considerPartner {} agents).bestPartner with
  | none =>
      have atZero := described.noneOnlyAtZero chosen
      rw [if_neg (not_lt.mpr (reaches.trans atZero.le))]
  | some partner =>
      obtain ⟨inScored, positive⟩ := described.fromScored partner chosen
      obtain ⟨⟨inside, isEligible⟩, score⟩ := (among _ _).mp inScored
      have isTop : partner = top := by
        by_contra other
        have lower := above partner inside isEligible other
        rw [score] at lower
        exact absurd reaches (not_le.mpr lower)
      rw [← isTop, score, if_pos positive]

/-- In every order of the candidates each is scored by itself, and the
partner is the same if there is a unique top score. -/
structure OrderFree (agents : List Agent) : Prop where
  independent : ∀ others : List Agent, others.Perm agents →
    context.Independent others
  samePartner : context.UniqueTop agents →
    ∀ others : List Agent, others.Perm agents →
      (context.findPartner others).bestPartner =
        (context.findPartner agents).bestPartner

theorem orderFree_iff (agents : List Agent) :
    context.OrderFree agents ↔
      ∀ others : List Agent, others.Perm agents →
        context.Harmless others := by
  constructor
  · intro orderFree others same
    exact (context.indifferent_iff others).mp
      (orderFree.independent others same)
  · intro harmless
    have independent : ∀ others : List Agent, others.Perm agents →
        context.Independent others := fun others same =>
      (context.indifferent_iff others).mpr (harmless others same)
    refine ⟨independent, ?_⟩
    rintro ⟨top, member, eligible, above⟩ others same
    rw [context.bestPartner_of_top (independent agents (.refl _)) member
        eligible above,
      context.bestPartner_of_top (independent others same)
        (same.mem_iff.mpr member) eligible
        fun other isOther =>
          above other (same.mem_iff.mp isOther)]

end Context

/-! ## A signal taken over -/

/-- A busy candidate that is trusted, and a free one without any signal. -/
def busyVerifier : Agent where
  agentId := "busy"
  capabilities := ["validate"]
  load := 1

def freeVerifier : Agent where
  agentId := "free"
  capabilities := ["validate"]

def trustsBusy : Context where
  lower := fun text => text
  primaryAgent := { agentId := "planner" }
  store := some
    { getCoalitionSignal := fun _ signalType signature _ =>
        if signalType = .jointTrust ∧ signature = "planner+busy" then
          some (9 / 10)
        else none }

/-- Scored behind the trusted candidate, the free one takes over its trust
and is chosen, though the trusted one alone has the top score. -/
theorem trust_is_taken_over :
    trustsBusy.UniqueTop [busyVerifier, freeVerifier] ∧
      (trustsBusy.findPartner [busyVerifier, freeVerifier]).bestPartner =
        some freeVerifier ∧
      (trustsBusy.findPartner [freeVerifier, busyVerifier]).bestPartner =
        some busyVerifier ∧
      ¬ trustsBusy.OrderFree [busyVerifier, freeVerifier] := by
  have top : trustsBusy.UniqueTop [busyVerifier, freeVerifier] := by
    refine ⟨busyVerifier, List.mem_cons_self, by decide +kernel, ?_⟩
    intro other member _ different
    rcases List.mem_cons.mp member with rfl | later
    · exact absurd rfl different
    · rw [List.mem_singleton.mp later]
      decide +kernel
  have first :
      (trustsBusy.findPartner [busyVerifier, freeVerifier]).bestPartner =
        some freeVerifier := by
    decide +kernel
  have second :
      (trustsBusy.findPartner [freeVerifier, busyVerifier]).bestPartner =
        some busyVerifier := by
    decide +kernel
  refine ⟨top, first, second, ?_⟩
  intro orderFree
  have same := orderFree.samePartner top [freeVerifier, busyVerifier]
    (.swap busyVerifier freeVerifier [])
  rw [first, second] at same
  revert same
  decide

end Agentcy.Coalition
