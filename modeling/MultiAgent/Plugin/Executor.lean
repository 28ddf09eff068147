import MultiAgent.Foundations.Machine
import Mathlib.Algebra.GroupWithZero.Nat

/-!
# The slots of the worker pool

`_BoundedExecutor` of `runtime/executor.py`. A job is one call of `submit` that got a slot;
the threads of its caller, of its worker and of whoever cancels it take turns in any order.
A future is cancelled only before it starts, and a done-callback is called once, when it is
attached and the future is done. `ThreadPoolExecutor.submit` queues a call before it starts a
thread for it, so it may raise with the call in the queue.
-/

namespace MultiAgent.Plugin

namespace BoundedExecutor

/-- The future of a job, with its worker. -/
inductive Future where
  | queued
  | running
  /-- `fn` came to its end, by an exception or not, and `finally` is still to run. -/
  | ended (failed : Bool)
  | released (failed : Bool)
  | finished (failed : Bool)
  | cancelled
  deriving DecidableEq, Repr

/-- The done-callback of a future. -/
inductive Callback where
  /-- `submit` has the future and is about to attach it. -/
  | unattached
  | attached
  | called
  deriving DecidableEq, Repr

/-- How far a call of `submit` and its job are. -/
inductive Stage where
  /-- It holds a slot and is about to call the pool. -/
  | acquired
  /-- The pool raised, maybe with the call in its queue, and the slot is not yet given back. -/
  | refused (orphan : Option Future)
  /-- `submit` raised what the pool raised. -/
  | raised (orphan : Option Future)
  | accepted (future : Future) (callback : Callback)
  deriving DecidableEq, Repr

/-- What a thread does next for one job. -/
inductive Action where
  | refuse (queued : Bool)
  | giveBack
  | accept
  | attach
  | start
  | finish (failed : Bool)
  | release
  | resolve
  | cancel
  | notify
  deriving DecidableEq, Repr

/-- The part of a worker, and whether it calls `_slots.release`. -/
def Future.work : Future → Action → Option (Future × Bool)
  | .queued, .start => some (.running, false)
  | .running, .finish failed => some (.ended failed, false)
  | .ended failed, .release => some (.released failed, true)
  | .released failed, .resolve => some (.finished failed, false)
  | _, _ => none

namespace Stage

/-- The stage after an action, and whether the action calls `_slots.release`. -/
def act : Stage → Action → Option (Stage × Bool)
  | .acquired, .refuse queued => some (.refused (if queued then some .queued else none), false)
  | .refused orphan, .giveBack => some (.raised orphan, true)
  -- Nobody has the future of a call that raised but the pool.
  | .refused (some future), action => do
    let (future, freed) ← future.work action
    return (.refused (some future), freed)
  | .raised (some future), action => do
    let (future, freed) ← future.work action
    return (.raised (some future), freed)
  | .acquired, .accept => some (.accepted .queued .unattached, false)
  | .accepted future .unattached, .attach => some (.accepted future .attached, false)
  | .accepted .queued callback, .start => some (.accepted .running callback, false)
  | .accepted .running callback, .finish failed => some (.accepted (.ended failed) callback, false)
  | .accepted (.ended failed) callback, .release =>
    some (.accepted (.released failed) callback, true)
  | .accepted (.released failed) callback, .resolve =>
    some (.accepted (.finished failed) callback, false)
  -- `Future.cancel` answers without an effect once the future has left the queue.
  | .accepted .queued callback, .cancel => some (.accepted .cancelled callback, false)
  | .accepted future callback, .cancel => some (.accepted future callback, false)
  | .accepted (.finished failed) .attached, .notify =>
    some (.accepted (.finished failed) .called, false)
  | .accepted .cancelled .attached, .notify => some (.accepted .cancelled .called, true)
  | _, _ => none

/-- The job was accepted, and is waiting for a worker or running. -/
def live : Stage → Bool
  | .accepted .queued _ | .accepted .running _ => true
  | _ => false

/-- The job has its slot. -/
def holds : Stage → Bool
  | .acquired | .refused _ => true
  | .raised _ => false
  | .accepted .queued _ | .accepted .running _ | .accepted (.ended _) _ => true
  | .accepted .cancelled callback => decide (callback ≠ .called)
  | .accepted _ _ => false

/-- No thread is at work for the job but its worker. -/
def quiet : Stage → Bool
  | .raised (some (.ended _)) | .raised (some (.released _)) => false
  | .raised _ => true
  | .accepted .queued callback | .accepted .running callback => decide (callback ≠ .unattached)
  | .accepted (.finished _) callback | .accepted .cancelled callback => decide (callback = .called)
  | _ => false

/-- The callback is not called before the future is done, and no worker has taken a call that
raised. -/
def Sound : Stage → Prop
  | .acquired => True
  | .refused orphan | .raised orphan => ∀ future ∈ orphan, future = .queued ∨ future = .cancelled
  | .accepted (.finished _) _ | .accepted .cancelled _ => True
  | .accepted _ callback => callback ≠ .called

/-- `cancel` of a job that is in the queue. -/
def drain : Stage → Stage
  | .refused (some .queued) => .refused (some .cancelled)
  | .raised (some .queued) => .raised (some .cancelled)
  | .accepted .queued callback => .accepted .cancelled callback
  | stage => stage

/-- `submit` raised, or is about to. -/
def rejected : Stage → Bool
  | .refused _ | .raised _ => true
  | _ => false

end Stage

/-- What the threads have left to do for a future, and for its callback. -/
def Future.toDo : Future → Nat
  | .ended _ => 2
  | .released _ => 1
  | _ => 0

def Callback.toDo : Callback → Nat
  | .unattached => 2
  | .attached => 1
  | .called => 0

/-- The actions for which no worker has to be free, no `fn` to end and nobody to cancel. -/
def Action.Internal : Action → Prop
  | .refuse _ | .giveBack | .attach | .release | .resolve | .notify => True
  | .accept | .start | .finish _ | .cancel => False

/-- The actions that put a call into the queue of the pool. -/
def Action.queues : Action → Bool
  | .accept | .refuse true => true
  | _ => false

/-- A job, with the number of times its slot was released. -/
structure Job where
  stage : Stage
  releases : Nat
  deriving DecidableEq, Repr

end BoundedExecutor

structure BoundedExecutor where
  /-- The initial value of the semaphore, and its value. -/
  workers : Nat
  slots : Nat
  /-- `release` raised, with the semaphore at its initial value. -/
  overReleased : Bool
  closed : Bool
  jobs : List BoundedExecutor.Job
  deriving DecidableEq, Repr

namespace BoundedExecutor

/-- The constructor. -/
def new (workers : Nat) : BoundedExecutor := ⟨workers, workers, false, false, []⟩

/-- `BoundedSemaphore.release` -/
def release (s : BoundedExecutor) : BoundedExecutor :=
  if s.slots < s.workers then { s with slots := s.slots + 1 } else { s with overReleased := true }

inductive Event where
  | acquire
  /-- `acquire` ran out of time: `PoolSaturated`. -/
  | saturated
  | job (index : Nat) (action : Action)
  /-- With `cancel_futures` the queue is emptied. A worker that takes a job meanwhile, or a
  cancellation that comes later, are events of these jobs. -/
  | shutdown (cancelFutures : Bool)
  deriving DecidableEq, Repr

def step (s : BoundedExecutor) : Event → Option BoundedExecutor
  | .acquire =>
    if 0 < s.slots then
      some { s with slots := s.slots - 1, jobs := s.jobs ++ [⟨.acquired, 0⟩] }
    else none
  | .saturated => if s.slots = 0 then some s else none
  | .job index action =>
    if action.queues && s.closed then none
    else
      match s.jobs[index]? with
      | none => none
      | some job =>
        match job.stage.act action with
        | none => none
        | some (stage, freed) =>
          let s := { s with jobs := s.jobs.set index ⟨stage, job.releases + freed.toNat⟩ }
          some (if freed then s.release else s)
  | .shutdown cancelFutures =>
    some { s with
      closed := true
      jobs :=
        if cancelFutures then s.jobs.map fun job => { job with stage := job.stage.drain }
        else s.jobs }

def machine : Machine BoundedExecutor Event := ⟨step⟩

namespace Stage

variable {stage stage' : Stage} {action : Action} {freed : Bool}

/-- Only a worker that takes a call from the queue changes what the pool has of it. -/
theorem work_of_idle {future : Future} (idle : future = .queued ∨ future = .cancelled)
    (other : action ≠ .start) : future.work action = none := by
  obtain rfl | rfl := idle
  · cases action with
    | start => exact absurd rfl other
    | _ => rfl
  · cases action <;> rfl

/-- An action releases a slot exactly when it takes it from the job, unless a worker starts a
call that raised. -/
theorem act_spec (sound : stage.Sound) (regular : action = .start → stage.rejected = false)
    (taken : stage.act action = some (stage', freed)) :
    stage'.Sound ∧ stage.holds.toNat = stage'.holds.toNat + freed.toNat := by
  have unstarted (rejected : stage.rejected = true) : action ≠ .start := by
    intro same
    rw [regular same] at rejected
    cases rejected
  fun_cases act stage action <;>
    simp only [act, Option.some.injEq, Prod.mk.injEq, reduceCtorEq] at taken
  case case3 future _ =>
    rw [work_of_idle (sound future rfl) (unstarted rfl)] at taken
    cases taken
  case case4 future =>
    rw [work_of_idle (sound future rfl) (unstarted rfl)] at taken
    cases taken
  all_goals obtain ⟨rfl, rfl⟩ := taken
  case case1 queued => cases queued <;> simp [Sound, holds]
  case case5 => simp [Sound, holds]
  case case6 future =>
    -- Attaching the callback leaves the future where it is.
    cases future <;> simp [Sound, holds]
  case case11 callback =>
    -- A job that is still queued has not called its callback.
    have waiting : callback ≠ .called := sound
    simp [Sound, holds, waiting]
  case case12 => exact ⟨sound, rfl⟩
  all_goals first | exact ⟨trivial, rfl⟩ | exact ⟨sound, rfl⟩

/-- What the threads have left to do for a job, its worker's `fn` aside. -/
def toDo : Stage → Nat
  | .acquired => 3
  | .refused orphan => orphan.elim 0 Future.toDo + 1
  | .raised orphan => orphan.elim 0 Future.toDo
  | .accepted future callback => future.toDo + callback.toDo

/-- A job that is not at rest has an action that brings it nearer. -/
theorem exists_internal (busy : stage.quiet = false) :
    ∃ action stage' freed, action.Internal ∧ action.queues = false ∧
      stage.act action = some (stage', freed) ∧ stage'.toDo < stage.toDo := by
  cases stage with
  | acquired => exact ⟨.refuse false, .refused none, false, trivial, rfl, rfl, by decide⟩
  | refused orphan =>
      refine ⟨.giveBack, .raised orphan, true, trivial, rfl, ?_, Nat.lt_succ_self _⟩
      cases orphan <;> rfl
  | raised orphan =>
      cases orphan with
      | none => cases busy
      | some future =>
          cases future with
          | ended failed =>
              exact ⟨.release, .raised (some (.released failed)), true, trivial, rfl, rfl,
                Nat.lt_succ_self 1⟩
          | released failed =>
              exact ⟨.resolve, .raised (some (.finished failed)), false, trivial, rfl, rfl,
                Nat.zero_lt_one⟩
          | _ => cases busy
  | accepted future callback =>
      by_cases fresh : callback = .unattached
      · subst fresh
        refine ⟨.attach, .accepted future .attached, false, trivial, rfl, ?_, ?_⟩
        · cases future <;> rfl
        · exact Nat.add_lt_add_left (by decide) _
      cases future with
      | queued | running => simp [quiet, fresh] at busy
      | ended failed =>
          refine ⟨.release, .accepted (.released failed) callback, true, trivial, rfl, ?_, ?_⟩
          · cases callback <;> rfl
          · exact Nat.add_lt_add_right (Nat.lt_succ_self 1) _
      | released failed =>
          refine ⟨.resolve, .accepted (.finished failed) callback, false, trivial, rfl, ?_, ?_⟩
          · cases callback <;> rfl
          · exact Nat.add_lt_add_right Nat.zero_lt_one _
      | finished failed | cancelled =>
          cases callback with
          | unattached => exact absurd rfl fresh
          | attached => exact ⟨.notify, _, _, trivial, rfl, rfl, Nat.zero_lt_one⟩
          | called => cases busy

theorem drain_spec (sound : stage.Sound) : stage.drain.Sound ∧ stage.drain.holds = stage.holds := by
  fun_cases drain stage
  · simp [Sound, holds]
  · simp [Sound, holds]
  · rename_i callback
    have waiting : callback ≠ .called := sound
    simp [Sound, holds, waiting]
  · exact ⟨sound, rfl⟩

/-- When the threads are at rest, a job holds its slot exactly while it is live. -/
theorem holds_of_quiet (quiet : stage.quiet = true) : stage.holds = stage.live := by
  cases stage with
  | acquired => cases quiet
  | refused orphan => cases quiet
  | raised orphan => rfl
  | accepted future callback => cases future <;> simp_all [Stage.quiet, holds, live]

end Stage

/-- No worker starts a call whose `submit` raised. -/
def Regular (s : BoundedExecutor) : Event → Prop
  | .job index action =>
    ∀ job ∈ s.jobs[index]?, action = .start → job.stage.rejected = false
  | _ => True

instance (s : BoundedExecutor) (event : Event) : Decidable (Regular s event) :=
  match event with
  | .job index action => inferInstanceAs
    (Decidable (∀ job ∈ s.jobs[index]?, action = .start → job.stage.rejected = false))
  | .acquire | .saturated | .shutdown _ => inferInstanceAs (Decidable True)

/-- The semaphore accounts for the jobs, and each job for its own slot. -/
structure Balanced (size : Nat) (s : BoundedExecutor) : Prop where
  workers : s.workers = size
  overReleased : s.overReleased = false
  slots : s.slots + s.jobs.countP (fun job => job.stage.holds) = size
  sound : ∀ job ∈ s.jobs, job.stage.Sound
  releases : ∀ job ∈ s.jobs, job.releases + job.stage.holds.toNat = 1

section Runs

variable {size : Nat} {s t : BoundedExecutor} {event : Event} {events : List Event}

theorem balanced_new (size : Nat) : Balanced size (new size) where
  workers := rfl
  overReleased := rfl
  slots := rfl
  sound _ member := absurd member List.not_mem_nil
  releases _ member := absurd member List.not_mem_nil

/-- The slots that are held, after one job has changed. -/
theorem countP_holds_set {jobs : List Job} {index : Nat} {job : Job} (job' : Job)
    (here : jobs[index]? = some job) :
    (jobs.set index job').countP (fun job => job.stage.holds) + job.stage.holds.toNat =
      jobs.countP (fun job => job.stage.holds) + job'.stage.holds.toNat := by
  obtain ⟨bound, rfl⟩ := List.getElem?_eq_some_iff.mp here
  have counted : jobs[index].stage.holds.toNat ≤ jobs.countP fun job => job.stage.holds := by
    cases held : jobs[index].stage.holds with
    | false => exact Nat.zero_le _
    | true => exact List.countP_pos_iff.mpr ⟨_, List.getElem_mem bound, held⟩
  rw [List.countP_set bound]
  cases held : jobs[index].stage.holds <;> cases held' : job'.stage.holds <;>
    simp only [held, Bool.toNat_true, Bool.toNat_false, if_true, Bool.false_eq_true,
      if_false] at counted ⊢ <;> omega

theorem Balanced.acquire (balanced : Balanced size s) (free : 0 < s.slots) :
    Balanced size { s with slots := s.slots - 1, jobs := s.jobs ++ [⟨.acquired, 0⟩] } where
  workers := balanced.workers
  overReleased := balanced.overReleased
  slots := by
    have slots := balanced.slots
    have more : (s.jobs ++ [(⟨.acquired, 0⟩ : Job)]).countP (fun job => job.stage.holds) =
        s.jobs.countP (fun job => job.stage.holds) + 1 := List.countP_append
    dsimp only
    omega
  sound := List.forall_mem_append.mpr
    ⟨balanced.sound, List.forall_mem_singleton.mpr trivial⟩
  releases := List.forall_mem_append.mpr
    ⟨balanced.releases, List.forall_mem_singleton.mpr rfl⟩

theorem Balanced.job {index : Nat} {job : Job} {action : Action} {stage : Stage} {freed : Bool}
    (balanced : Balanced size s) (here : s.jobs[index]? = some job)
    (regular : action = .start → job.stage.rejected = false)
    (taken : job.stage.act action = some (stage, freed)) :
    Balanced size
      (let s := { s with jobs := s.jobs.set index ⟨stage, job.releases + freed.toNat⟩ }
      if freed then s.release else s) := by
  have member := List.mem_of_getElem? here
  obtain ⟨sound, moved⟩ := Stage.act_spec (balanced.sound job member) regular taken
  have counted := countP_holds_set ⟨stage, job.releases + freed.toNat⟩ here
  have own := balanced.releases job member
  have slots := balanced.slots
  have allSound : ∀ job' ∈ s.jobs.set index ⟨stage, job.releases + freed.toNat⟩,
      job'.stage.Sound := by
    intro job' member'
    obtain old | rfl := List.mem_or_eq_of_mem_set member'
    · exact balanced.sound job' old
    · exact sound
  have allReleases : ∀ job' ∈ s.jobs.set index ⟨stage, job.releases + freed.toNat⟩,
      job'.releases + job'.stage.holds.toNat = 1 := by
    intro job' member'
    obtain old | rfl := List.mem_or_eq_of_mem_set member'
    · exact balanced.releases job' old
    · dsimp only
      omega
  generalize s.jobs.set index ⟨stage, job.releases + freed.toNat⟩ = jobs at *
  cases freed with
  | false =>
      rw [Bool.toNat_false, Nat.add_zero] at moved
      refine ⟨balanced.workers, balanced.overReleased, ?_, allSound, allReleases⟩
      change s.slots + jobs.countP (fun job => job.stage.holds) = size
      dsimp only at counted
      omega
  | true =>
      rw [Bool.toNat_true] at moved
      -- The slot that the job held is missing from the semaphore.
      have room : s.slots < s.workers := by
        rw [balanced.workers]
        dsimp only at counted
        omega
      dsimp only
      rw [if_pos rfl, release, if_pos room]
      refine ⟨balanced.workers, balanced.overReleased, ?_, allSound, allReleases⟩
      dsimp only at counted ⊢
      omega

theorem Balanced.shutdown (balanced : Balanced size s) (cancelFutures : Bool) :
    Balanced size { s with
      closed := true
      jobs :=
        if cancelFutures then s.jobs.map fun job => { job with stage := job.stage.drain }
        else s.jobs } := by
  cases cancelFutures with
  | false => exact { balanced with }
  | true =>
      refine ⟨balanced.workers, balanced.overReleased, ?_, ?_, ?_⟩
      · rw [← balanced.slots]
        dsimp only
        rw [if_pos rfl, List.countP_map]
        congr 1
        apply List.countP_congr
        intro job member
        exact iff_of_eq (congrArg (· = true) (Stage.drain_spec (balanced.sound job member)).2)
      · rintro job' member'
        obtain ⟨job, member, rfl⟩ := List.mem_map.mp member'
        exact (Stage.drain_spec (balanced.sound job member)).1
      · rintro job' member'
        obtain ⟨job, member, rfl⟩ := List.mem_map.mp member'
        dsimp only
        rw [(Stage.drain_spec (balanced.sound job member)).2]
        exact balanced.releases job member

theorem Balanced.step (balanced : Balanced size s) (regular : Regular s event)
    (transition : step s event = some t) : Balanced size t := by
  cases event with
  | acquire =>
      rw [BoundedExecutor.step, Option.ite_none_right_eq_some] at transition
      obtain ⟨free, same⟩ := transition
      cases same
      exact balanced.acquire free
  | saturated =>
      rw [BoundedExecutor.step, Option.ite_none_right_eq_some] at transition
      obtain ⟨-, same⟩ := transition
      cases same
      exact balanced
  | job index action =>
      simp only [BoundedExecutor.step] at transition
      split at transition
      · cases transition
      · split at transition
        · cases transition
        · rename_i job here
          split at transition
          · cases transition
          · rename_i stage freed taken
            cases transition
            exact balanced.job here (regular job here) taken
  | shutdown cancelFutures =>
      cases transition
      exact balanced.shutdown cancelFutures

theorem Balanced.run (balanced : Balanced size s) (regular : machine.Meets Regular s events)
    (execution : machine.run s events = some t) : Balanced size t :=
  Machine.run_invariant_of_meets (fun _ _ _ inv regular transition => inv.step regular transition)
    balanced regular execution

/-- What is left to do for all jobs, after one job has changed. -/
theorem sum_toDo_set {jobs : List Job} {index : Nat} {job job' : Job}
    (here : jobs[index]? = some job) (nearer : job'.stage.toDo < job.stage.toDo) :
    ((jobs.set index job').map fun job => job.stage.toDo).sum <
      (jobs.map fun job => job.stage.toDo).sum := by
  induction jobs generalizing index with
  | nil => cases here
  | cons first jobs ih =>
      cases index with
      | zero =>
          cases here
          exact Nat.add_lt_add_right nearer _
      | succ index => exact Nat.add_lt_add_left (ih here) _

@[simp] theorem release_jobs (s : BoundedExecutor) : s.release.jobs = s.jobs := by
  rw [release]
  split
  · rfl
  · rfl

/-- A job that can act changes alone. -/
theorem step_job {index : Nat} {job : Job} {action : Action} {stage : Stage} {freed : Bool}
    (here : s.jobs[index]? = some job) (other : action.queues = false)
    (taken : job.stage.act action = some (stage, freed)) :
    ∃ t, step s (.job index action) = some t ∧
      t.jobs = s.jobs.set index ⟨stage, job.releases + freed.toNat⟩ := by
  simp only [step, other, Bool.false_and, Bool.false_eq_true, if_false, here, taken]
  refine ⟨_, rfl, ?_⟩
  cases freed <;> simp

/-- From every state, the threads that have something left to do come to rest. -/
theorem exists_rest (s : BoundedExecutor) :
    ∃ events t, (∀ event ∈ events, ∃ index action, event = .job index action ∧ action.Internal) ∧
      machine.run s events = some t ∧ ∀ job ∈ t.jobs, job.stage.quiet = true := by
  induction left : (s.jobs.map fun job => job.stage.toDo).sum using Nat.strongRecOn
    generalizing s with
  | ind left_ ih =>
      by_cases rest : ∀ job ∈ s.jobs, job.stage.quiet = true
      · exact ⟨[], s, by simp, rfl, rest⟩
      have busy : ∃ job ∈ s.jobs, job.stage.quiet = false := by simpa using rest
      obtain ⟨job, member, busy⟩ := busy
      obtain ⟨index, here⟩ := List.mem_iff_getElem?.mp member
      obtain ⟨action, stage, freed, internal, other, taken, nearer⟩ :=
        Stage.exists_internal busy
      obtain ⟨t, transition, jobs⟩ := step_job here other taken
      subst left
      obtain ⟨events, u, internals, execution, quiet⟩ :=
        ih _ (jobs ▸ sum_toDo_set here nearer) t rfl
      refine ⟨.job index action :: events, u, ?_, ?_, quiet⟩
      · exact List.forall_mem_cons.mpr ⟨⟨index, action, rfl, internal⟩, internals⟩
      · exact machine.run_cons_iff.mpr ⟨t, transition, execution⟩

/-- In every run in which no worker starts a call whose `submit` raised, the semaphore is never
released beyond its initial value, and its value together with the jobs whose slot was not
released is `max_workers`. A slot is released at most once, and once when `submit` raised. When
all threads are at rest, which they can reach, the free slots and the live jobs are
`max_workers`, and the slot of every other job was released. A `submit` that found no slot
changes nothing. -/
theorem slots_conserved (execution : machine.run (new size) events = some s)
    (regular : machine.Meets Regular (new size) events) :
    s.overReleased = false ∧
      s.slots + s.jobs.countP (fun job => decide (job.releases = 0)) = size ∧
      (∀ job ∈ s.jobs, job.releases ≤ 1 ∧
        ∀ orphan, job.stage = .raised orphan → job.releases = 1) ∧
      ((∀ job ∈ s.jobs, job.stage.quiet = true) →
        s.slots + s.jobs.countP (fun job => job.stage.live) = size ∧
          ∀ job ∈ s.jobs, job.releases = if job.stage.live then 0 else 1) ∧
      (∃ later t,
        (∀ event ∈ later, ∃ index action, event = .job index action ∧ action.Internal) ∧
        machine.run s later = some t ∧ ∀ job ∈ t.jobs, job.stage.quiet = true) ∧
      ∀ t, step s .saturated = some t → t = s := by
  have balanced := (balanced_new size).run regular execution
  refine ⟨balanced.overReleased, ?_, ?_, ?_, exists_rest s, ?_⟩
  · rw [← balanced.slots]
    congr 1
    apply List.countP_congr
    intro job member
    have own := balanced.releases job member
    cases held : job.stage.holds <;> simp only [held, Bool.toNat_true, Bool.toNat_false] at own <;>
      simp <;> omega
  · intro job member
    have own := balanced.releases job member
    refine ⟨by omega, ?_⟩
    intro orphan raised
    simpa [raised, Stage.holds] using own
  · intro rest
    constructor
    · rw [← balanced.slots]
      congr 1
      apply List.countP_congr
      intro job member
      rw [Stage.holds_of_quiet (rest job member)]
    · intro job member
      have own := balanced.releases job member
      rw [Stage.holds_of_quiet (rest job member)] at own
      cases live : job.stage.live <;> simp_all
  · intro t transition
    rw [BoundedExecutor.step, Option.ite_none_right_eq_some] at transition
    exact (Option.some.inj transition.2).symm

/-- A job that is cancelled before its callback is attached, behind one that fails, and one that
is in the queue without a thread when the pool is shut down. -/
def cancelledEarly : List Event :=
  [.acquire, .acquire, .job 0 .accept, .job 0 .attach, .job 0 .start, .job 1 .accept,
    .job 1 .cancel, .job 1 .attach, .job 0 (.finish true), .job 0 .release, .job 1 .notify,
    .acquire, .job 2 (.refuse true), .job 2 .giveBack, .job 0 .resolve, .shutdown true,
    .job 0 .notify]

theorem slots_conserved_cancelledEarly :
    ∃ s, machine.run (new 2) cancelledEarly = some s ∧ s.overReleased = false ∧
      s.slots + s.jobs.countP (fun job => job.stage.live) = 2 := by
  have execution : machine.run (new 2) cancelledEarly = some ⟨2, 2, false, true,
      [⟨.accepted (.finished true) .called, 1⟩, ⟨.accepted .cancelled .called, 1⟩,
        ⟨.raised (some .cancelled), 1⟩]⟩ := by decide
  have regular : machine.Meets Regular (new 2) cancelledEarly := by decide
  have holds := slots_conserved execution regular
  exact ⟨_, execution, holds.1, (holds.2.2.2.1 (by decide)).1⟩

/-- A call that is queued when no thread can be started for it, and runs when a worker is free. -/
def orphaned : List Event :=
  [.acquire, .job 0 .accept, .job 0 .attach, .job 0 .start, .acquire, .job 1 (.refuse true),
    .job 1 .giveBack, .job 0 (.finish false), .job 0 .release, .job 1 .start,
    .job 1 (.finish false), .job 1 .release]

theorem orphaned_overReleased :
    ∃ s, machine.run (new 2) orphaned = some s ∧ s.overReleased = true ∧
      s.jobs.map Job.releases = [1, 2] :=
  ⟨_, rfl, rfl, rfl⟩

end Runs

end BoundedExecutor

end MultiAgent.Plugin
