import Mathlib.Data.List.Sort
import Mathlib.Logic.Function.Basic

/-!
# Dependency order of a plan

`runtime/dependency.py`: Kahn's algorithm. A Python set is iterated in an
unspecified order, which `iter` stands for: it lists the distinct elements of a
list. Nothing else is assumed of it.
-/

namespace MultiAgent.Plugin

/-- The two errors of `topological_order`, with the names they list. -/
inductive TopologyError where
  | unknownTasks (taskId : String) (unknown : List String)
  | cycle (stuck : List String)
  deriving DecidableEq, Repr

def sorted (ids : List String) : List String := ids.insertionSort (· ≤ ·)

/-- The local variables of the main loop. -/
structure Kahn where
  pendingDeps : String → List String
  ready : List String
  order : List String

/-- One dependent of the task that was just ordered. -/
def Kahn.discard (taskId : String) (k : Kahn) (follower : String) : Kahn :=
  let deps := (k.pendingDeps follower).erase taskId
  { k with pendingDeps := Function.update k.pendingDeps follower deps
           ready := if deps = [] then k.ready ++ [follower] else k.ready }

/-- The main loop. An id enters `ready` at most once, so there are at most as
many rounds as ids. -/
def Kahn.drain (dependents : String → List String) : Nat → Kahn → Kahn
  | 0, k => k
  | rounds + 1, k =>
    match k.ready with
    | [] => k
    | taskId :: ready =>
      drain dependents rounds
        ((dependents taskId).foldl (discard taskId) { k with ready, order := k.order ++ [taskId] })

def topologicalOrder (iter : List String → List String) (ids : List String)
    (dependsOn : String → List String) : Except TopologyError (List String) :=
  let known := iter ids
  let pendingDeps := fun i => if i ∈ known then iter (dependsOn i) else []
  match known.find? fun i => (pendingDeps i).any fun dep => decide (dep ∉ known) with
  | some taskId =>
    .error (.unknownTasks taskId
      (sorted ((pendingDeps taskId).filter fun dep => decide (dep ∉ known))))
  | none =>
    let dependents := fun dep => known.filter fun i => decide (dep ∈ pendingDeps i)
    let ready := sorted (known.filter fun i => decide (pendingDeps i = []))
    let last := Kahn.drain dependents known.length { pendingDeps, ready, order := [] }
    if last.order.length = known.length then .ok last.order
    else .error (.cycle (sorted (known.filter fun i => decide (last.pendingDeps i ≠ []))))

end MultiAgent.Plugin
