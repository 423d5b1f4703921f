import Agentcy.Library.Run
import Mathlib.Data.List.Basic
import Mathlib.Algebra.Order.Ring.Rat

/-!
# The connection pool

`DynamicCouchbaseConnectionPool` counts the bundles that it has opened.  The
count decides whether `acquire` may open another one, and is meant to be the
number of the idle and the borrowed bundles together.  The borrowed ones are
in nobody's list; they are kept here to be counted.
-/

namespace Agentcy.Couch

open Agentcy.Library

abbrev Bundle := Nat

structure Pool where
  min : Nat
  max : Nat
  idleTimeout : Rat
  idle : List (Bundle × Rat)
  total : Nat
  running : Bool := true
  /-- The bundles that were handed out and not released. -/
  borrowed : List Bundle := []

/-- A call on the pool, or a pass of its reaper. -/
inductive PoolCall where
  /-- `opened` is the bundle that `_new_bundle` returns, unless it raises. -/
  | acquire (opened : Option Bundle)
  | release (bundle : Bundle) (now : Rat)
  | reap (now : Rat)
  | closeAll

/-- The constructor, which opens `min` bundles. -/
def Pool.create (min max : Nat) (idleTimeout now : Rat) : Pool where
  min := min
  max := max
  idleTimeout := idleTimeout
  idle := (List.range min).map fun bundle => (bundle, now)
  total := min

/-- `acquire`: the last idle bundle, or a new one while there are fewer than
the maximum.  A call that would have to wait ends with a timeout here; the
other outcome of waiting is the call made later. -/
def Pool.acquire (pool : Pool) (opened : Option Bundle) : Pool :=
  match pool.idle.getLast? with
  | some entry =>
      { pool with
        idle := pool.idle.dropLast
        borrowed := entry.1 :: pool.borrowed }
  | none =>
      if pool.total < pool.max then
        -- The count is raised before the bundle is opened.
        let counted := { pool with total := pool.total + 1 }
        match opened with
        | some bundle =>
            { counted with borrowed := bundle :: pool.borrowed }
        | none => counted
      else pool

def Pool.release (pool : Pool) (bundle : Bundle) (now : Rat) : Pool :=
  { pool with
    idle := pool.idle ++ [(bundle, now)]
    borrowed := pool.borrowed.erase bundle }

/-- The loop of the reaper over the idle bundles: those that it keeps, and the
count. -/
def reapIdle (min : Nat) (idleTimeout now : Rat) :
    Nat → List (Bundle × Rat) → List (Bundle × Rat) × Nat
  | total, [] => ([], total)
  | total, entry :: rest =>
      if now - entry.2 > idleTimeout ∧ total > min then
        reapIdle min idleTimeout now (total - 1) rest
      else
        let later := reapIdle min idleTimeout now total rest
        (entry :: later.1, later.2)

/-- A pass of `_reaper`; the loop ends once the pool is closed. -/
def Pool.reap (pool : Pool) (now : Rat) : Pool :=
  if pool.running then
    let reaped :=
      reapIdle pool.min pool.idleTimeout now pool.total pool.idle
    { pool with idle := reaped.1, total := reaped.2 }
  else pool

def Pool.closeAll (pool : Pool) : Pool :=
  { pool with running := false, idle := [], total := 0 }

def Pool.step (pool : Pool) : PoolCall → Pool
  | .acquire opened => pool.acquire opened
  | .release bundle now => pool.release bundle now
  | .reap now => pool.reap now
  | .closeAll => pool.closeAll

/-- The count is that of the idle and the borrowed bundles, and at most the
maximum. -/
structure Accounted (pool : Pool) : Prop where
  balance : pool.total = pool.idle.length + pool.borrowed.length
  bounded : pool.total ≤ pool.max

/-- Further calls of `acquire`, if they open bundles, hand out as many as the
maximum allows. -/
def FullCapacity (pool : Pool) : Prop :=
  ∀ opened : List Bundle,
    pool.borrowed.length + opened.length = pool.max →
      (run Pool.step pool
        (opened.map fun bundle => .acquire (some bundle))).borrowed.length =
        pool.max

/-- A call that leaves the account in order: a new bundle is opened, only
borrowed bundles are released, and none is borrowed when the pool is
closed. -/
def Orderly (pool : Pool) : PoolCall → Prop
  | .acquire opened =>
      opened = none → pool.idle ≠ [] ∨ pool.max ≤ pool.total
  | .release bundle _ => bundle ∈ pool.borrowed
  | .reap _ => True
  | .closeAll => pool.borrowed = []

theorem reapIdle_balance
    (min : Nat) (idleTimeout now : Rat) (total : Nat)
    (idle : List (Bundle × Rat)) (others : Nat)
    (balance : total = idle.length + others) :
    (reapIdle min idleTimeout now total idle).2 =
        (reapIdle min idleTimeout now total idle).1.length + others ∧
      (reapIdle min idleTimeout now total idle).2 ≤ total := by
  induction idle generalizing total others with
  | nil =>
      exact ⟨balance, le_refl total⟩
  | cons entry rest inductionHypothesis =>
      rw [List.length_cons] at balance
      rw [reapIdle]
      split
      · have later := inductionHypothesis (total - 1) others (by omega)
        exact ⟨later.1, by omega⟩
      · have later := inductionHypothesis total (others + 1) (by omega)
        dsimp only
        rw [List.length_cons]
        exact ⟨by omega, later.2⟩

@[simp]
theorem step_max (pool : Pool) (call : PoolCall) :
    (pool.step call).max = pool.max := by
  cases call with
  | acquire opened =>
      unfold Pool.step Pool.acquire
      dsimp only
      split
      · rfl
      · split
        · split <;> rfl
        · rfl
  | release bundle now =>
      rfl
  | reap now =>
      unfold Pool.step Pool.reap
      dsimp only
      split <;> rfl
  | closeAll =>
      rfl

/-- An idle bundle that is borrowed moves from one side to the other. -/
theorem accounted_acquire_idle
    {pool : Pool} (accounted : Accounted pool)
    {entry : Bundle × Rat} (last : pool.idle.getLast? = some entry)
    (opened : Option Bundle) :
    Accounted (pool.acquire opened) := by
  have nonempty : 0 < pool.idle.length := by
    apply List.length_pos_of_mem
    exact List.mem_of_getLast? last
  have balance := accounted.balance
  have bounded := accounted.bounded
  unfold Pool.acquire
  rw [last]
  constructor
  · dsimp only
    rw [List.length_dropLast, List.length_cons]
    omega
  · exact bounded

theorem accounted_acquire_iff
    {pool : Pool} (accounted : Accounted pool) (opened : Option Bundle) :
    Accounted (pool.acquire opened) ↔
      (opened = none → pool.idle ≠ [] ∨ pool.max ≤ pool.total) := by
  cases last : pool.idle.getLast? with
  | some entry =>
      have filled : pool.idle ≠ [] := by
        intro empty
        rw [empty] at last
        cases last
      exact
        ⟨fun _ _ => Or.inl filled,
          fun _ => accounted_acquire_idle accounted last opened⟩
  | none =>
      have empty : pool.idle = [] := List.getLast?_eq_none_iff.mp last
      have balance := accounted.balance
      rw [empty, List.length_nil] at balance
      unfold Pool.acquire
      rw [last, empty]
      dsimp only
      by_cases room : pool.total < pool.max
      · rw [if_pos room]
        cases opened with
        | some bundle =>
            constructor
            · intro _ absent
              cases absent
            · intro _
              constructor
              · dsimp only
                rw [List.length_cons, List.length_nil]
                omega
              · exact room
        | none =>
            constructor
            · intro after _
              -- The unit counted for the failed bundle is nowhere.
              have leaked := after.balance
              dsimp only at leaked
              rw [List.length_nil] at leaked
              omega
            · intro full
              rcases full rfl with filled | full
              · exact absurd rfl filled
              · omega
      · rw [if_neg room]
        exact ⟨fun _ _ => Or.inr (by omega), fun _ => accounted⟩

theorem accounted_release_iff
    {pool : Pool} (accounted : Accounted pool)
    (bundle : Bundle) (now : Rat) :
    Accounted (pool.release bundle now) ↔ bundle ∈ pool.borrowed := by
  have balance := accounted.balance
  constructor
  · intro after
    by_contra foreign
    have grown := after.balance
    unfold Pool.release at grown
    dsimp only at grown
    rw [List.erase_of_not_mem foreign, List.length_append,
      List.length_singleton] at grown
    omega
  · intro member
    have positive : 0 < pool.borrowed.length :=
      List.length_pos_of_mem member
    constructor
    · unfold Pool.release
      dsimp only
      rw [List.length_erase_of_mem member, List.length_append,
        List.length_singleton]
      omega
    · exact accounted.bounded

theorem accounted_reap
    {pool : Pool} (accounted : Accounted pool) (now : Rat) :
    Accounted (pool.reap now) := by
  unfold Pool.reap
  split
  · have reaped :=
      reapIdle_balance pool.min pool.idleTimeout now pool.total pool.idle
        pool.borrowed.length accounted.balance
    exact ⟨reaped.1, le_trans reaped.2 accounted.bounded⟩
  · exact accounted

theorem accounted_closeAll_iff (pool : Pool) :
    Accounted pool.closeAll ↔ pool.borrowed = [] := by
  constructor
  · intro after
    have none := after.balance
    unfold Pool.closeAll at none
    dsimp only at none
    rw [List.length_nil] at none
    exact List.length_eq_zero_iff.mp (by omega)
  · intro returned
    constructor
    · unfold Pool.closeAll
      dsimp only
      rw [returned]
      rfl
    · exact Nat.zero_le _

theorem accounted_step_iff
    {pool : Pool} (accounted : Accounted pool) (call : PoolCall) :
    Accounted (pool.step call) ↔ Orderly pool call := by
  cases call with
  | acquire opened =>
      exact accounted_acquire_iff accounted opened
  | release bundle now =>
      exact accounted_release_iff accounted bundle now
  | reap now =>
      exact ⟨fun _ => trivial, fun _ => accounted_reap accounted now⟩
  | closeAll =>
      exact accounted_closeAll_iff pool

/-! ## Full capacity -/

/-- While the account is in order and bundles can be opened, every call of
`acquire` below the maximum hands one out. -/
theorem acquire_borrowed
    {pool : Pool} (accounted : Accounted pool)
    (below : pool.borrowed.length < pool.max) (bundle : Bundle) :
    (pool.acquire (some bundle)).borrowed.length =
      pool.borrowed.length + 1 := by
  have balance := accounted.balance
  unfold Pool.acquire
  cases last : pool.idle.getLast? with
  | some entry =>
      rfl
  | none =>
      rw [List.getLast?_eq_none_iff.mp last, List.length_nil] at balance
      dsimp only
      rw [if_pos (by omega)]
      rfl

theorem fullCapacity_of_accounted
    {pool : Pool} (accounted : Accounted pool) : FullCapacity pool := by
  intro opened
  induction opened generalizing pool with
  | nil =>
      intro exhausted
      exact exhausted
  | cons bundle rest inductionHypothesis =>
      intro capacity
      rw [List.length_cons] at capacity
      have after : Accounted (pool.step (.acquire (some bundle))) := by
        rw [accounted_step_iff accounted]
        intro absent
        cases absent
      have grown := acquire_borrowed accounted (by omega) bundle
      have sameMax := step_max pool (.acquire (some bundle))
      have later := inductionHypothesis after
      rw [sameMax] at later
      rw [List.map_cons, run_cons]
      apply later
      change (pool.acquire (some bundle)).borrowed.length + _ = _
      omega

theorem accounted_create_iff (min max : Nat) (idleTimeout now : Rat) :
    Accounted (Pool.create min max idleTimeout now) ↔ min ≤ max := by
  constructor
  · intro accounted
    exact accounted.bounded
  · intro bounded
    constructor
    · simp [Pool.create]
    · exact bounded

/-- The count is right, and the capacity is whole, throughout a run exactly
when the pool starts within its maximum, every bundle that is counted can be
opened, only borrowed bundles are released, and none is borrowed when the
pool is closed. -/
theorem pool_accounted_iff
    (min max : Nat) (idleTimeout now : Rat) (calls : List PoolCall) :
    EveryState Pool.step
        (fun pool => Accounted pool ∧ FullCapacity pool)
        (Pool.create min max idleTimeout now) calls ↔
      min ≤ max ∧
        EveryStep Pool.step Orderly
          (Pool.create min max idleTimeout now) calls := by
  have throughout
      (initial : Accounted (Pool.create min max idleTimeout now)) :
      EveryState Pool.step
          (fun pool => Accounted pool ∧ FullCapacity pool)
          (Pool.create min max idleTimeout now) calls ↔
        EveryStep Pool.step Orderly
          (Pool.create min max idleTimeout now) calls := by
    apply everyState_iff_everyStep Accounted
    · intro pool accounted
      exact ⟨accounted, fullCapacity_of_accounted accounted⟩
    · intro pool call accounted
      rw [← accounted_step_iff accounted call]
      constructor
      · intro after
        exact after.1
      · intro after
        exact ⟨after, fullCapacity_of_accounted after⟩
    · intro pool call accounted after
      exact after.1
    · exact initial
  constructor
  · intro every
    have initial : Accounted (Pool.create min max idleTimeout now) := by
      cases calls with
      | nil => exact every.1
      | cons call calls => exact every.1.1
    exact
      ⟨(accounted_create_iff min max idleTimeout now).mp initial,
        (throughout initial).mp every⟩
  · rintro ⟨bounded, orderly⟩
    exact
      (throughout
        ((accounted_create_iff min max idleTimeout now).mpr bounded)).mpr
        orderly

/-- With room for two bundles, one creation that fails leaves a unit counted
for good: the second bundle is never handed out. -/
theorem failed_creation_leaks :
    ¬ EveryState Pool.step
      (fun pool => Accounted pool ∧ FullCapacity pool)
      (Pool.create 1 2 60 0) [.acquire (some 7), .acquire none] := by
  intro every
  have leaked := every.2.2.1.balance
  revert leaked
  decide

end Agentcy.Couch
