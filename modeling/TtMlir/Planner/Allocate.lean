import TtMlir.Library.TieBreak
import TtMlir.Planner.Problem

/-!
`PlannerImpl::allocateImpl` for both algorithms. Requests are visited in the
pop order of a `std::priority_queue`, whose freedom among equivalent requests
is a `TieBreak`. An always-on assertion of the source is a `none` result.
-/

namespace TtMlir.Planner

structure AllocateStats where
  maxSize : Int
  memUsage : Int
  maxLoad : Int
  deriving DecidableEq, Repr

/-- Heap order of the bumper allocator: IR preorder comes out first. -/
def lexicographic (problem : Problem) (lhs rhs : Nat) : Prop :=
  (problem.request lhs).first > (problem.request rhs).first ∨
    ((problem.request lhs).first = (problem.request rhs).first ∧
      (problem.request lhs).last > (problem.request rhs).last)

def bySize (problem : Problem) (lhs rhs : Nat) : Prop :=
  (problem.request lhs).size < (problem.request rhs).size

instance (problem : Problem) : DecidableRel (lexicographic problem) :=
  fun _ _ => inferInstanceAs (Decidable (_ ∨ _))

instance (problem : Problem) : DecidableRel (bySize problem) :=
  fun _ _ => inferInstanceAs (Decidable (_ < _))

instance (problem : Problem) : IsStrictWeakOrder Nat (lexicographic problem) where
  irrefl _ := by simp [lexicographic]
  trans _ _ _ := by simp only [lexicographic]; omega
  incomp_trans _ _ _ := by simp only [lexicographic]; omega

instance (problem : Problem) : IsStrictWeakOrder Nat (bySize problem) where
  irrefl _ := by simp [bySize]
  trans _ _ _ := by simp only [bySize]; omega
  incomp_trans _ _ _ := by simp only [bySize]; omega

structure SimpleState where
  problem : Problem
  memUsage : Int := 0
  maxSize : Int := 0

def simpleStep (state : SimpleState) (reqIndex : Nat) : SimpleState :=
  let size := (state.problem.request reqIndex).size
  { problem := state.problem.setOffset reqIndex state.memUsage
    memUsage := state.memUsage + size
    maxSize := max state.maxSize size }

def allocateSimple (ties : TieBreak Nat) (problem : Problem) : Problem × AllocateStats :=
  let requestIndices := ties.drain (lexicographic problem) problem.enabled
  let last := requestIndices.foldl simpleStep { problem := problem }
  (last.problem, { maxSize := last.maxSize, memUsage := last.memUsage, maxLoad := 0 })

/-- Live ranges intersect, as the greedy loop tests it. -/
def conflicts (request allocated : VarRequest) : Prop :=
  max request.first allocated.first ≤ min request.last allocated.last

instance (request allocated : VarRequest) : Decidable (conflicts request allocated) :=
  inferInstanceAs (Decidable (_ ≤ _))

/-- `std::numeric_limits<AllocSizeT>::max()`. -/
def allocSizeMax : Int := 2 ^ 63 - 1

structure GapScan where
  gapBest : Int := allocSizeMax
  offsetPrev : Int := 0
  offsetBest : Int := -1
  deriving DecidableEq, Repr

/-- One placed request in offset order. The gap below it is compared with its size, not with that of
the request being placed. -/
def scanStep (problem : Problem) (request : VarRequest) (scan : GapScan) (entry : Int × Nat) :
    GapScan :=
  let allocated := problem.request entry.2
  if conflicts request allocated then
    let gap := allocated.offset - scan.offsetPrev
    let better := decide (gap ≥ allocated.size) && decide (gap < scan.gapBest)
    { gapBest := if better then gap else scan.gapBest
      offsetBest := if better then scan.offsetPrev else scan.offsetBest
      offsetPrev := max scan.offsetPrev (allocated.offset + allocated.size) }
  else scan

def findOffset (problem : Problem) (request : VarRequest) (allocated : List (Int × Nat)) : Int :=
  let scan := allocated.foldl (scanStep problem request) {}
  if scan.offsetBest < 0 then scan.offsetPrev else scan.offsetBest

/-- `std::multimap::emplace`: behind all entries with the same key. -/
def emplace (entry : Int × Nat) : List (Int × Nat) → List (Int × Nat)
  | [] => [entry]
  | head :: rest =>
      if head.1 ≤ entry.1 then head :: emplace entry rest else entry :: head :: rest

structure GreedyState where
  problem : Problem
  allocatedOrderedByOffset : List (Int × Nat) := []
  memUsage : Int := 0
  maxSize : Int := 0

def greedyStep (state : GreedyState) (reqIndex : Nat) : Option GreedyState :=
  let request := state.problem.request reqIndex
  if request.offset < 0 then
    let offsetBest := findOffset state.problem request state.allocatedOrderedByOffset
    some
      { problem := state.problem.setOffset reqIndex offsetBest
        allocatedOrderedByOffset := emplace (offsetBest, reqIndex) state.allocatedOrderedByOffset
        memUsage := max state.memUsage (offsetBest + request.size)
        maxSize := max state.maxSize request.size }
  else none

def allocateGreedy (ties : TieBreak Nat) (problem : Problem) : Option (Problem × AllocateStats) := do
  let requestIndices := ties.drain (bySize problem) problem.enabled
  let last ← requestIndices.foldlM greedyStep { problem := problem }
  some (last.problem, { maxSize := last.maxSize, memUsage := last.memUsage, maxLoad := 0 })

def allocate (ties : TieBreak Nat) (algorithm : Algorithm) (problem : Problem) :
    Option (Problem × AllocateStats) :=
  match algorithm with
  | .simple => some (allocateSimple ties problem)
  | .greedy => allocateGreedy ties problem

end TtMlir.Planner
