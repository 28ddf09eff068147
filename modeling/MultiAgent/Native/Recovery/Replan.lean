import MultiAgent.Native.Recovery.Failure

/-!
# Budgets, repair and replanning

`recovery/retry-policy.ts`, the failure-driven half of `recovery/repair.ts`, and
`recovery/replanner.ts`. A policy carries the bounds that its constructor checks.
Replanning removes what failed and, pass after pass over the tasks in
declaration order, what depends on something removed.
-/

namespace MultiAgent.Native.Recovery

structure RecoveryPolicyOptions where
  maxAttempts : Option JsNumber
  maxReplans : Option JsNumber
  delayMs : Option JsNumber

/-- A constructed policy. -/
structure RetryPolicy where
  maxAttempts : Nat
  maxReplans : Nat
  delayMs : ℚ
  positive : 1 ≤ maxAttempts
  nonneg : 0 ≤ delayMs

/-- The natural numbers that are at least `min`. -/
abbrev AtLeast (min : Nat) := { n : Nat // min ≤ n }

def normalizeInt (value : JsNumber) (min : Nat) (name : String) : Except TypeError (AtLeast min) :=
  match value with
  | .finite q =>
    if h : q.den = 1 ∧ (min : Int) ≤ q.num then .ok ⟨q.num.toNat, by omega⟩
    else .error ⟨s!"{name} must be an integer >= {min}"⟩
  | _ => .error ⟨s!"{name} must be an integer >= {min}"⟩

theorem no_delay : (0 : ℚ) ≤ 0 := Rat.le_refl

theorem three_attempts : 1 ≤ 3 := by decide

def normalizeDelay : Option JsNumber → Except TypeError { q : ℚ // 0 ≤ q }
  | none => .ok ⟨0, no_delay⟩
  | some (.finite q) =>
    if h : 0 ≤ q then .ok ⟨q, h⟩ else .error ⟨"delayMs must be a finite number >= 0"⟩
  | some _ => .error ⟨"delayMs must be a finite number >= 0"⟩

/-- The constructor, with the defaults of 3 attempts, 2 replans and no delay. -/
def RetryPolicy.new (options : RecoveryPolicyOptions) : Except TypeError RetryPolicy := do
  let maxAttempts : AtLeast 1 ←
    match options.maxAttempts with
    | none => pure ⟨3, three_attempts⟩
    | some value => normalizeInt value 1 "maxAttempts"
  let maxReplans : AtLeast 0 ←
    match options.maxReplans with
    | none => pure ⟨2, by decide⟩
    | some value => normalizeInt value 0 "maxReplans"
  let delayMs ← normalizeDelay options.delayMs
  return { maxAttempts := maxAttempts.1, maxReplans := maxReplans.1, delayMs := delayMs.1
           positive := maxAttempts.2, nonneg := delayMs.2 }

def RetryPolicy.canAttempt (policy : RetryPolicy) (attempt : Nat) : Bool :=
  decide (1 ≤ attempt) && decide (attempt ≤ policy.maxAttempts)

def RetryPolicy.canReplan (policy : RetryPolicy) (replansUsed : Nat) : Bool :=
  decide (replansUsed < policy.maxReplans)

/-- The task without its explicit agent, and the record of the change. -/
def clearAgent (targets : List String) (task : PlanTask) : PlanTask × List RepairRecord :=
  match task.agentId with
  | none => (task, [])
  | some agentId =>
    if task.id ∈ targets then
      ({ task with agentId := none },
        [⟨task.id, .dropAgent, s!"unavailable agent '{agentId}' cleared for re-routing"⟩])
    else (task, [])

/-- `none` is the answer `nothing-to-repair`. -/
def clearAgentAssignments (plan : PlannerPlan) (taskIds : List String) : Option PlanRepair :=
  let cleared := plan.tasks.map (clearAgent taskIds)
  let records := cleared.flatMap Prod.snd
  if records = [] then none else some { plan := ⟨cleared.map Prod.fst⟩, records }

inductive ReplanErrorCode where
  | emptyPlan
  | unsupportedFailureCode
  | noFailedTasks
  deriving DecidableEq, Repr

structure Replanned where
  plan : PlannerPlan
  removedTaskIds : List String
  deriving DecidableEq, Repr

/-- One turn of the inner loop on the set `remove`. -/
def removeTask (remove : List String) (task : PlanTask) : List String :=
  if task.id ∈ remove then remove
  else if ∃ dep ∈ task.dependsOn.getD [], dep ∈ remove then remove ++ [task.id]
  else remove

/-- The outer loop. A pass that grows the set adds a task to it, so the number
of tasks bounds the number of such passes. -/
def removePasses (tasks : List PlanTask) : Nat → List String → List String
  | 0, remove => remove
  | fuel + 1, remove =>
    let next := tasks.foldl removeTask remove
    if next.length = remove.length then remove else removePasses tasks fuel next

/-- The ids that the replanned plan is without. -/
def removedIds (plan : PlannerPlan) (failed : List String) : List String :=
  removePasses plan.tasks (plan.tasks.length + 1) failed.dedup

def deterministicReplan (plan : PlannerPlan) (failure : FailureRecord) :
    Except ReplanErrorCode Replanned :=
  let failed := (failure.taskFailures.getD []).map TaskFailureRef.taskId
  if failure.code ≠ .dependencyFailure then .error .unsupportedFailureCode
  else if failed = [] then .error .noFailedTasks
  else
    let remove := removedIds plan failed
    let kept := plan.tasks.filter fun task => decide (task.id ∉ remove)
    if kept = [] then .error .emptyPlan
    else
      .ok { plan := ⟨kept⟩
            removedTaskIds :=
              (plan.tasks.filter fun task => decide (task.id ∈ remove)).map PlanTask.id }

end MultiAgent.Native.Recovery
