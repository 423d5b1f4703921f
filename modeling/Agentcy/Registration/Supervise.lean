import Mathlib.Algebra.Order.Ring.Rat
import Mathlib.Data.List.Induction
import Mathlib.Tactic.Linarith
import Agentcy.Library.Run

/-!
# Supervised consumers

`supervise` runs a consumer again after it has ended.  A consumer that
returns is started at once; one that raises is started after a pause that
doubles from crash to crash.  An exception in the first run is passed on, so
that a process does not boot with a consumer that cannot start.
-/

namespace Agentcy.Registration

open Agentcy.Library

structure SuperviseSettings where
  initialBackoff : ℚ := 1
  maxBackoff : ℚ := 60
  restartOnExit : Bool := true

/-- How one run of the consumer ends; `jitter` is what `random.uniform`
draws then. -/
inductive RunEnd where
  | exited
  | cancelled
  | crashed (jitter : ℚ)
  deriving DecidableEq

def RunEnd.isCrash : RunEnd → Bool
  | .crashed _ => true
  | _ => false

/-- The variables of the loop, the pauses before the later starts, and
whether the consumer is running. -/
structure Supervisor where
  backoff : ℚ
  firstRun : Bool := true
  pauses : List ℚ := []
  running : Bool := true

def SuperviseSettings.boot (settings : SuperviseSettings) : Supervisor :=
  { backoff := settings.initialBackoff }

/-- One round of the loop, from the end of a run to the next start. -/
def Supervisor.afterRun
    (settings : SuperviseSettings) (supervisor : Supervisor) :
    RunEnd → Supervisor
  | .exited =>
      if settings.restartOnExit then
        { backoff := settings.initialBackoff
          firstRun := false
          pauses := supervisor.pauses ++ [0] }
      else { supervisor with firstRun := false, running := false }
  | .cancelled => { supervisor with firstRun := false, running := false }
  | .crashed jitter =>
      if supervisor.firstRun then
        { supervisor with firstRun := false, running := false }
      else
        { supervisor with
          backoff := min (supervisor.backoff * 2) settings.maxBackoff
          pauses := supervisor.pauses ++ [supervisor.backoff * jitter] }

/-- Nothing ends while nothing runs. -/
def Supervisor.step
    (settings : SuperviseSettings) (supervisor : Supervisor)
    (ended : RunEnd) : Supervisor :=
  if supervisor.running then supervisor.afterRun settings ended
  else supervisor

namespace SuperviseSettings

variable (settings : SuperviseSettings)

/-- The loop after the runs with the given ends. -/
def supervise (ends : List RunEnd) : Supervisor :=
  run (Supervisor.step settings) settings.boot ends

/-- The pause after a number of crashes in a row, before it is jittered. -/
def backoffAfter : Nat → ℚ
  | 0 => settings.initialBackoff
  | crashes + 1 =>
      min (settings.initialBackoff * 2 ^ (crashes + 1)) settings.maxBackoff

end SuperviseSettings

/-- Number of crashes since the last run that ended otherwise. -/
def crashStreak (ends : List RunEnd) : Nat :=
  (ends.reverse.takeWhile RunEnd.isCrash).length

theorem crashStreak_crashed (ends : List RunEnd) (jitter : ℚ) :
    crashStreak (ends ++ [.crashed jitter]) = crashStreak ends + 1 := by
  simp [crashStreak, List.takeWhile_cons, RunEnd.isCrash]

theorem crashStreak_exited (ends : List RunEnd) :
    crashStreak (ends ++ [.exited]) = 0 := by
  simp [crashStreak, RunEnd.isCrash]

namespace SuperviseSettings

variable (settings : SuperviseSettings)

@[simp]
theorem supervise_nil : settings.supervise [] = settings.boot :=
  rfl

theorem supervise_append (ends : List RunEnd) (last : RunEnd) :
    settings.supervise (ends ++ [last]) =
      (settings.supervise ends).step settings last := by
  simp [supervise, run_append]

variable {settings}

theorem backoffAfter_succ
    (initial : 0 ≤ settings.initialBackoff)
    (ceiling : 0 ≤ settings.maxBackoff) (crashes : Nat) :
    settings.backoffAfter (crashes + 1) =
      min (settings.backoffAfter crashes * 2) settings.maxBackoff := by
  cases crashes with
  | zero =>
      simp [backoffAfter]
  | succ crashes =>
      have doubled :
          settings.initialBackoff * 2 ^ (crashes + 2) =
            settings.initialBackoff * 2 ^ (crashes + 1) * 2 := by
        rw [pow_succ, mul_assoc]
      have grown : 0 ≤ settings.initialBackoff * 2 ^ (crashes + 1) := by
        positivity
      rw [backoffAfter, backoffAfter, doubled]
      rcases le_total
          (settings.initialBackoff * 2 ^ (crashes + 1))
          settings.maxBackoff with below | above
      · rw [min_eq_left below]
      · rw [min_eq_right above, min_eq_right (by linarith),
          min_eq_right (by linarith)]

/-- While the consumer runs, the loop remembers whether it is the first run,
and the pause that the next crash would lead to. -/
theorem supervise_running
    (initial : 0 ≤ settings.initialBackoff)
    (ceiling : 0 ≤ settings.maxBackoff) {ends : List RunEnd}
    (running : (settings.supervise ends).running = true) :
    ((settings.supervise ends).firstRun = true ↔ ends = []) ∧
      (settings.supervise ends).backoff =
        settings.backoffAfter (crashStreak ends) := by
  induction ends using List.reverseRecOn with
  | nil =>
      exact ⟨⟨fun _ => rfl, fun _ => rfl⟩, rfl⟩
  | append_singleton ends last inductionHypothesis =>
      rw [supervise_append, Supervisor.step] at running ⊢
      by_cases before : (settings.supervise ends).running = true
      · rw [if_pos before] at running ⊢
        obtain ⟨isFirst, backoff⟩ := inductionHypothesis before
        cases last with
        | exited =>
            rw [Supervisor.afterRun] at running ⊢
            split at running
            · rename_i restarts
              rw [if_pos restarts, crashStreak_exited]
              exact ⟨by simp, rfl⟩
            · exact absurd running (by simp)
        | cancelled =>
            exact absurd running (by simp [Supervisor.afterRun])
        | crashed jitter =>
            rw [Supervisor.afterRun] at running ⊢
            split at running
            · exact absurd running (by simp)
            · rename_i later
              rw [if_neg later, crashStreak_crashed,
                backoffAfter_succ initial ceiling, ← backoff]
              exact ⟨by simp [later], rfl⟩
      · rw [if_neg before] at running
        exact absurd running before

theorem running_of_append
    {ends : List RunEnd} {last : RunEnd}
    (running : (settings.supervise (ends ++ [last])).running = true) :
    (settings.supervise ends).running = true := by
  by_contra stopped
  rw [supervise_append, Supervisor.step, if_neg stopped] at running
  exact stopped running

/-- What keeps the loop going: a run that is not the first may crash, and a
consumer that returns is started again where this is wanted. -/
def GoesOn (settings : SuperviseSettings) (ends : List RunEnd) :
    RunEnd → Prop
  | .exited => settings.restartOnExit = true
  | .cancelled => False
  | .crashed _ => ends ≠ []

theorem running_append_iff
    (initial : 0 ≤ settings.initialBackoff)
    (ceiling : 0 ≤ settings.maxBackoff)
    {ends : List RunEnd} {last : RunEnd}
    (running : (settings.supervise ends).running = true) :
    (settings.supervise (ends ++ [last])).running = true ↔
      settings.GoesOn ends last := by
  obtain ⟨isFirst, _⟩ := supervise_running initial ceiling running
  rw [supervise_append, Supervisor.step, if_pos running]
  cases last with
  | exited =>
      rw [Supervisor.afterRun, GoesOn]
      split <;> simp_all
  | cancelled =>
      simp [Supervisor.afterRun, GoesOn]
  | crashed jitter =>
      rw [Supervisor.afterRun, GoesOn]
      split
      · rename_i first
        simp [isFirst.mp first]
      · rename_i later
        simp [running, mt isFirst.mpr later]

/-- No end before the last one has stopped the loop, and the last does not
either. -/
def AllGoOn (settings : SuperviseSettings) (ends : List RunEnd) : Prop :=
  RunEnd.cancelled ∉ ends ∧
    (settings.restartOnExit = true ∨ RunEnd.exited ∉ ends) ∧
      ∀ first ∈ ends.head?, first.isCrash = false

theorem allGoOn_append_iff (ends : List RunEnd) (last : RunEnd) :
    settings.AllGoOn (ends ++ [last]) ↔
      settings.AllGoOn ends ∧ settings.GoesOn ends last := by
  have headOf :
      (∀ first ∈ (ends ++ [last]).head?, first.isCrash = false) ↔
        (∀ first ∈ ends.head?, first.isCrash = false) ∧
          (ends = [] → last.isCrash = false) := by
    cases ends <;> simp
  rw [AllGoOn, headOf, AllGoOn]
  cases last with
  | exited =>
      simp only [GoesOn, List.mem_append, List.mem_singleton,
        RunEnd.isCrash, reduceCtorEq, or_false, implies_true, and_true,
        not_or, not_true_eq_false, and_false]
      tauto
  | cancelled =>
      simp [GoesOn]
  | crashed jitter =>
      simp [GoesOn, RunEnd.isCrash]
      tauto

/-- `supervise` starts a consumer again after every run unless it is
cancelled, returns where it must not be started again, or raises in its first
run.  A consumer that never returns is therefore never started again, however
its first run crashes; the pause before a restart has doubled with each crash
since the last return, up to a ceiling. -/
theorem supervised_consumer_restarts
    (settings : SuperviseSettings)
    (initial : 0 ≤ settings.initialBackoff)
    (ceiling : 0 ≤ settings.maxBackoff) (ends : List RunEnd) :
    ((settings.supervise ends).running = true ↔ settings.AllGoOn ends) ∧
      ∀ jitter,
        (settings.supervise (ends ++ [.crashed jitter])).running = true →
          (settings.supervise (ends ++ [.crashed jitter])).pauses =
            (settings.supervise ends).pauses ++
              [settings.backoffAfter (crashStreak ends) * jitter] := by
  constructor
  · induction ends using List.reverseRecOn with
    | nil =>
        simp [AllGoOn, boot]
    | append_singleton ends last inductionHypothesis =>
        rw [allGoOn_append_iff, ← inductionHypothesis]
        constructor
        · intro running
          have before := running_of_append running
          exact
            ⟨before,
              (running_append_iff initial ceiling before).mp running⟩
        · rintro ⟨before, goesOn⟩
          exact (running_append_iff initial ceiling before).mpr goesOn
  · intro jitter running
    have before := running_of_append running
    obtain ⟨isFirst, backoff⟩ :=
      supervise_running initial ceiling before
    have later : (settings.supervise ends).firstRun ≠ true :=
      mt isFirst.mp ((running_append_iff initial ceiling before).mp running)
    rw [supervise_append, Supervisor.step, if_pos before,
      Supervisor.afterRun, if_neg later, backoff]

/-- A consumer that has returned once is restarted after two crashes, with
pauses of one and of two seconds. -/
theorem returned_consumer_restarts :
    let settings : SuperviseSettings := {}
    let ends : List RunEnd := [.exited, .crashed 1]
    ((settings.supervise ends).running = true ↔ settings.AllGoOn ends) ∧
      ∀ jitter,
        (settings.supervise (ends ++ [.crashed jitter])).running = true →
          (settings.supervise (ends ++ [.crashed jitter])).pauses =
            (settings.supervise ends).pauses ++
              [settings.backoffAfter (crashStreak ends) * jitter] :=
  supervised_consumer_restarts {} (by norm_num) (by norm_num) _

end SuperviseSettings

end Agentcy.Registration
