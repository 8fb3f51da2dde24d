import Mathlib.Data.List.Dedup
import TtMlir.Library.LeastLoaded
import TtMlir.Library.TieBreak

/-!
`D2MScheduleDMA`: the datamovement thread of a generic op is cloned once per DM core in use,
and a clone keeps the DMA ops of the circular buffers assigned to it by workload. Which of two
equal ones goes first depends on a hash order and an unstable sort, hence a `TieBreak`.
-/

namespace TtMlir.D2m.Schedule

/-- What a shard-level DMA op moves, as far as the choice of a NoC looks at it. -/
inductive Transfer
  | remoteLoad (fromDRAM isMcast : Bool) (shardSizeInBytes : Option Int)
  | remoteStore (toDRAM : Bool)
  | localCopy
  deriving DecidableEq, Repr

/-- A DMA op in explicit CB form; such an op has no result. `operands` stands for the rest of it. -/
structure DmaOp where
  cbPort : Nat
  transfer : Transfer
  operands : Nat
  deriving DecidableEq, Repr

/-- An op that is neither a DMA op nor has regions. -/
inductive PlainOp
  | semaphoreInc
  | semaphoreSet
  | semaphoreWait (reset : Bool)
  | other (tag : Nat)
  deriving DecidableEq, Repr

/-- The ops of a block. The blocks of an op that is no `scf.for` stand one after the other in its
body. -/
inductive Block
  | done
  | dma (op : DmaOp) (rest : Block)
  | forOp (loop : Nat) (body rest : Block)
  | regionOp (tag : Nat) (body rest : Block)
  | plain (op : PlainOp) (rest : Block)
  deriving DecidableEq, Repr

/-- An op around another one. -/
inductive Enclosing
  | loop (loop : Nat)
  | region (tag : Nat)
  deriving DecidableEq, Repr

def Enclosing.isLoop : Enclosing → Bool
  | .loop _ => true
  | .region _ => false

/-- A DMA op with the ops around it, the outermost first. -/
structure Occurrence where
  enclosing : List Enclosing
  op : DmaOp
  deriving DecidableEq, Repr

/-- Only `scf.for` loops stand around it. -/
def Occurrence.underLoops (occurrence : Occurrence) : Bool := occurrence.enclosing.all Enclosing.isLoop

def occurrences (around : List Enclosing) : Block → List Occurrence
  | .done => []
  | .dma op rest => ⟨around, op⟩ :: occurrences around rest
  | .forOp loop body rest => occurrences (around ++ [.loop loop]) body ++ occurrences around rest
  | .regionOp tag body rest => occurrences (around ++ [.region tag]) body ++ occurrences around rest
  | .plain _ rest => occurrences around rest

def collectDMAOps : Block → List DmaOp
  | .done => []
  | .dma op rest => op :: collectDMAOps rest
  | .forOp _ body rest => collectDMAOps body ++ collectDMAOps rest
  | .regionOp _ _ rest => collectDMAOps rest
  | .plain _ rest => collectDMAOps rest

def checkForIllegalSemaphoreOps : Block → Bool
  | .done => false
  | .dma _ rest => checkForIllegalSemaphoreOps rest
  | .forOp _ body rest => checkForIllegalSemaphoreOps body || checkForIllegalSemaphoreOps rest
  | .regionOp _ body rest => checkForIllegalSemaphoreOps body || checkForIllegalSemaphoreOps rest
  | .plain op rest =>
    match op with
    | .semaphoreInc | .semaphoreSet | .semaphoreWait true => true
    | .semaphoreWait false | .other _ => checkForIllegalSemaphoreOps rest

/-- One round over a block and its loops. No DMA op has users, so the round erases all there is to
erase. -/
def filterOpsForThread (assignedCBs : List Nat) : Block → Block
  | .done => .done
  | .dma op rest =>
    if op.cbPort ∈ assignedCBs then .dma op (filterOpsForThread assignedCBs rest)
    else filterOpsForThread assignedCBs rest
  | .forOp loop body rest => .forOp loop (filterOpsForThread assignedCBs body) (filterOpsForThread assignedCBs rest)
  | .regionOp tag body rest => .regionOp tag body (filterOpsForThread assignedCBs rest)
  | .plain op rest => .plain op (filterOpsForThread assignedCBs rest)

section Assignment

/-- Number of DMA ops of every circular buffer. -/
def cbWorkloads (dmaOps : List DmaOp) : List (Nat × Nat) :=
  (dmaOps.map DmaOp.cbPort).dedup.map fun cbIdx => (cbIdx, (dmaOps.map DmaOp.cbPort).count cbIdx)

/-- The sort puts the heavier circular buffer first. -/
def heavierFirst (a b : Nat × Nat) : Prop := a.2 > b.2

instance : DecidableRel heavierFirst := fun a b => inferInstanceAs (Decidable (a.2 > b.2))

def assignCBsToThreads (ties : TieBreak (Nat × Nat)) (workloads : List (Nat × Nat)) (numThreads : Nat) :
    List (Bin Nat) :=
  Bin.distribute numThreads (ties.sort heavierFirst workloads)

structure NocScore where
  mcastShardSize : Int
  unicastBias : Int
  deriving DecidableEq, Repr

/-- `operator>` of the scores. -/
def NocScore.above (left right : NocScore) : Bool :=
  if left.mcastShardSize ≠ right.mcastShardSize then decide (left.mcastShardSize > right.mcastShardSize)
  else decide (left.unicastBias > right.unicastBias)

def NocScore.add (score : NocScore) (op : DmaOp) : Option NocScore :=
  match op.transfer with
  | .remoteLoad false _ _ => some score
  | .remoteLoad true true shardSizeInBytes =>
    if score.mcastShardSize = 0 then some { score with mcastShardSize := shardSizeInBytes.getD 0 } else none
  | .remoteLoad true false _ => some { score with unicastBias := score.unicastBias + 2 }
  | .remoteStore true => some { score with unicastBias := score.unicastBias - 1 }
  | .remoteStore false | .localCopy => some score

def scoreThread (assignedCBs : List Nat) (dmaOps : List DmaOp) : Option NocScore :=
  (dmaOps.filter fun op => decide (op.cbPort ∈ assignedCBs)).foldlM NocScore.add ⟨0, 0⟩

def assignNoCsToThreads (assignments : List (Bin Nat)) (dmaOps : List DmaOp) : Option (List Int) := do
  let score0 ← scoreThread (assignments.getD 0 (Bin.empty Nat)).items dmaOps
  let score1 ← scoreThread (assignments.getD 1 (Bin.empty Nat)).items dmaOps
  if score1.above score0 then some [0, 1] else some [1, 0]

def assignDmCoreIndices (assignments : List (Bin Nat)) (dmaOps : List DmaOp) (numDatamovementThreads : Nat) :
    Option (List Int) :=
  if numDatamovementThreads = 2 then assignNoCsToThreads assignments dmaOps
  else some ((List.range assignments.length).map Int.ofNat)

end Assignment

/-- A datamovement thread of the generic op with its DM core, if one is set. -/
structure DmThread where
  dmBlock : Block
  dmCoreIndex : Option Int
  deriving DecidableEq, Repr

/-- How the pass leaves the datamovement threads of a generic op. -/
inductive Scheduled
  | threads (threads : List DmThread)
  | unsupportedCores
  | assertionFailed
  deriving DecidableEq, Repr

def writesDRAM (dmaOps : List DmaOp) : Bool := dmaOps.any fun op => decide (op.transfer = .remoteStore true)

def matchAndRewrite (ties : TieBreak (Nat × Nat)) (numDatamovementThreads : Nat) (dmBlock : Block) : Scheduled :=
  if checkForIllegalSemaphoreOps dmBlock then .threads [⟨dmBlock, none⟩]
  else
    let dmaOps := collectDMAOps dmBlock
    if dmaOps = [] then .threads [⟨dmBlock, none⟩]
    else
      let workloads := cbWorkloads dmaOps
      let numThreadsToUse := min workloads.length numDatamovementThreads
      if numThreadsToUse ≤ 1 ∨ workloads.length ≤ 1 then
        .threads [⟨dmBlock, some (if numDatamovementThreads = 2 then if writesDRAM dmaOps then 0 else 1 else 0)⟩]
      else
        let assignments := assignCBsToThreads ties workloads numThreadsToUse
        match assignDmCoreIndices assignments dmaOps numDatamovementThreads with
        | none => .assertionFailed
        | some cores =>
          .threads ((assignments.zip cores).map fun entry =>
            ⟨filterOpsForThread entry.1.items dmBlock, some entry.2⟩)

def numDatamovementThreads (numDmCores chipDatamovementThreads : Nat) : Nat :=
  if numDmCores ≠ 0 then numDmCores else chipDatamovementThreads

/-- The pass on such a generic op. -/
def runOnOperation (ties : TieBreak (Nat × Nat)) (numDmCores chipDatamovementThreads : Nat) (dmBlock : Block) :
    Scheduled :=
  let numDatamovementThreads := numDatamovementThreads numDmCores chipDatamovementThreads
  if numDatamovementThreads = 1 then .threads [⟨dmBlock, none⟩]
  else if numDatamovementThreads ≠ 2 ∧ numDatamovementThreads ≠ 6 then .unsupportedCores
  else matchAndRewrite ties numDatamovementThreads dmBlock

/-- The threads share out the DMA ops in `scope`: thread `i` has the circular buffers `assigned[i]`
and keeps their ops in order. Ops out of scope stay in every thread. -/
structure Splits (scope : Occurrence → Bool) (dmBlock : Block) (threads : List DmThread)
    (assigned : List (List Nat)) : Prop where
  once : ∀ occurrence ∈ occurrences [] dmBlock, scope occurrence = true →
    assigned.countP (fun cbs => decide (occurrence.op.cbPort ∈ cbs)) = 1
  kept : threads.map (fun thread => occurrences [] thread.dmBlock) = assigned.map fun cbs =>
    (occurrences [] dmBlock).filter fun occurrence => !scope occurrence || decide (occurrence.op.cbPort ∈ cbs)
  busy : (∃ occurrence ∈ occurrences [] dmBlock, scope occurrence = true) →
    ∀ thread ∈ threads, ∃ occurrence ∈ occurrences [] thread.dmBlock, scope occurrence = true

section Traversals

theorem starts_enclosing (around : List Enclosing) (block : Block) :
    ∀ occurrence ∈ occurrences around block, around <+: occurrence.enclosing := by
  induction block generalizing around with
  | done => simp [occurrences]
  | dma op rest ih =>
    intro occurrence member
    rcases List.mem_cons.mp member with rfl | later
    · exact List.prefix_rfl
    · exact ih around occurrence later
  | forOp loop body rest bodyIh restIh =>
    intro occurrence member
    rcases List.mem_append.mp member with inside | later
    · exact (List.prefix_append around _).trans (bodyIh _ occurrence inside)
    · exact restIh around occurrence later
  | regionOp tag body rest bodyIh restIh =>
    intro occurrence member
    rcases List.mem_append.mp member with inside | later
    · exact (List.prefix_append around _).trans (bodyIh _ occurrence inside)
    · exact restIh around occurrence later
  | plain op rest ih => exact ih around

theorem not_underLoops (around : List Enclosing) (tag : Nat) (body : Block) :
    ∀ occurrence ∈ occurrences (around ++ [.region tag]) body, occurrence.underLoops = false := by
  intro occurrence member
  have inside : Enclosing.region tag ∈ occurrence.enclosing :=
    (starts_enclosing _ body occurrence member).subset (by simp)
  exact List.all_eq_false.mpr ⟨_, inside, by simp [Enclosing.isLoop]⟩

theorem collectDMAOps_eq (around : List Enclosing) (loops : around.all Enclosing.isLoop = true) (block : Block) :
    collectDMAOps block = ((occurrences around block).filter Occurrence.underLoops).map Occurrence.op := by
  induction block generalizing around with
  | done => rfl
  | dma op rest ih =>
    have here : Occurrence.underLoops ⟨around, op⟩ = true := loops
    rw [collectDMAOps, occurrences, List.filter_cons_of_pos here, List.map_cons, ih around loops]
  | forOp loop body rest bodyIh restIh =>
    have inner : (around ++ [Enclosing.loop loop]).all Enclosing.isLoop = true := by simp [loops, Enclosing.isLoop]
    rw [collectDMAOps, occurrences, List.filter_append, List.map_append, bodyIh _ inner, restIh around loops]
  | regionOp tag body rest bodyIh restIh =>
    have unseen : (occurrences (around ++ [.region tag]) body).filter Occurrence.underLoops = [] :=
      List.filter_eq_nil_iff.mpr fun occurrence member => by simp [not_underLoops around tag body occurrence member]
    rw [collectDMAOps, occurrences, List.filter_append, unseen, List.nil_append, restIh around loops]
  | plain op rest ih => exact ih around loops

/-- The filter erases the ops under loops whose circular buffer belongs to another thread. -/
theorem occurrences_filterOps (assignedCBs : List Nat) (around : List Enclosing)
    (loops : around.all Enclosing.isLoop = true) (block : Block) :
    occurrences around (filterOpsForThread assignedCBs block) = (occurrences around block).filter fun occurrence =>
      !occurrence.underLoops || decide (occurrence.op.cbPort ∈ assignedCBs) := by
  induction block generalizing around with
  | done => rfl
  | dma op rest ih =>
    have here : Occurrence.underLoops ⟨around, op⟩ = true := loops
    simp only [filterOpsForThread, occurrences, List.filter_cons, here, Bool.not_true, Bool.false_or]
    split
    · rename_i mine
      simp only [occurrences, mine, decide_true, ↓reduceIte, ih around loops]
    · rename_i other
      simp only [other, decide_false, Bool.false_eq_true, ↓reduceIte, ih around loops]
  | forOp loop body rest bodyIh restIh =>
    have inner : (around ++ [Enclosing.loop loop]).all Enclosing.isLoop = true := by simp [loops, Enclosing.isLoop]
    rw [filterOpsForThread, occurrences, occurrences, List.filter_append, bodyIh _ inner, restIh around loops]
  | regionOp tag body rest bodyIh restIh =>
    have all : (occurrences (around ++ [.region tag]) body).filter (fun occurrence =>
        !occurrence.underLoops || decide (occurrence.op.cbPort ∈ assignedCBs)) =
        occurrences (around ++ [.region tag]) body :=
      List.filter_eq_self.mpr fun occurrence member => by simp [not_underLoops around tag body occurrence member]
    rw [filterOpsForThread, occurrences, occurrences, List.filter_append, all, restIh around loops]
  | plain op rest ih => exact ih around loops

end Traversals

section Assigned

instance : IsStrictWeakOrder (Nat × Nat) heavierFirst where
  irrefl _ := by simp [heavierFirst]
  trans a b c := by
    simp only [heavierFirst]
    omega
  incomp_trans a b c := by
    simp only [heavierFirst]
    omega

variable (ties : TieBreak (Nat × Nat)) (dmaOps : List DmaOp)

theorem workload_pos (entry : Nat × Nat) (listed : entry ∈ cbWorkloads dmaOps) : 0 < entry.2 := by
  obtain ⟨cbIdx, used, rfl⟩ := List.mem_map.mp listed
  exact List.count_pos_iff.mpr (List.mem_dedup.mp used)

theorem workload_keys : (cbWorkloads dmaOps).map Prod.fst = (dmaOps.map DmaOp.cbPort).dedup := by
  simp [cbWorkloads, Function.comp_def]

variable (numThreads : Nat) (enough : numThreads ≤ (cbWorkloads dmaOps).length)
  (assignments : List (Bin Nat)) (assigned : assignments = assignCBsToThreads ties (cbWorkloads dmaOps) numThreads)
include assigned

theorem assigned_once (some : 0 < numThreads) (op : DmaOp) (used : op ∈ dmaOps) :
    (assignments.map Bin.items).countP (fun cbs => decide (op.cbPort ∈ cbs)) = 1 := by
  have sorted := ties.sort_perm heavierFirst (cbWorkloads dmaOps)
  have keys := (sorted.map Prod.fst).trans (List.Perm.of_eq (workload_keys dmaOps))
  have listed := keys.mem_iff.mpr (List.mem_dedup.mpr (List.mem_map_of_mem (f := DmaOp.cbPort) used))
  rw [List.countP_map, assigned]
  exact Bin.holders_distribute numThreads _ some (keys.nodup_iff.mpr (List.nodup_dedup _)) op.cbPort listed

include enough

theorem assigned_busy (bin : Bin Nat) (member : bin ∈ assignments) : ∃ op ∈ dmaOps, op.cbPort ∈ bin.items := by
  have sorted := ties.sort_perm heavierFirst (cbWorkloads dmaOps)
  rw [assigned] at member
  have loaded := Bin.load_distribute numThreads (ties.sort heavierFirst (cbWorkloads dmaOps))
    (sorted.length_eq ▸ enough) (fun entry listed => workload_pos dmaOps entry (sorted.mem_iff.mp listed)) bin member
  obtain ⟨cbIdx, held⟩ := List.exists_mem_of_ne_nil _ (Bin.holds_of_load numThreads _ bin member loaded)
  have listed := Bin.mem_distribute numThreads _ bin member cbIdx held
  have used : cbIdx ∈ dmaOps.map DmaOp.cbPort := by
    rw [(sorted.map Prod.fst).mem_iff, workload_keys, List.mem_dedup] at listed
    exact listed
  obtain ⟨op, isOp, rfl⟩ := List.mem_map.mp used
  exact ⟨op, isOp, held⟩

end Assigned

section Cores

def DmaOp.isMcastLoad (op : DmaOp) : Bool :=
  match op.transfer with
  | .remoteLoad true true _ => true
  | _ => false

theorem add_fails (score : NocScore) (op : DmaOp) (failed : score.add op = none) :
    op.isMcastLoad = true ∧ score.mcastShardSize ≠ 0 := by
  rcases op with ⟨cbPort, transfer, operands⟩
  rcases transfer with ⟨_ | _, _ | _, size⟩ | ⟨_ | _⟩ | _ <;> simp_all [NocScore.add, DmaOp.isMcastLoad]

theorem add_other (score added : NocScore) (op : DmaOp) (next : score.add op = some added)
    (other : op.isMcastLoad = false) : added.mcastShardSize = score.mcastShardSize := by
  rcases op with ⟨cbPort, transfer, operands⟩
  rcases transfer with ⟨_ | _, _ | _, size⟩ | ⟨_ | _⟩ | _ <;> simp_all [NocScore.add, DmaOp.isMcastLoad] <;>
    rw [← next]

theorem score_fails (dmaOps : List DmaOp) (score : NocScore) (failed : dmaOps.foldlM NocScore.add score = none) :
    (if score.mcastShardSize = 0 then 1 else 0) < dmaOps.countP DmaOp.isMcastLoad := by
  induction dmaOps generalizing score with
  | nil => simp at failed
  | cons op rest ih =>
    rw [List.foldlM_cons] at failed
    rw [List.countP_cons]
    cases next : score.add op with
    | none =>
      obtain ⟨isLoad, second⟩ := add_fails score op next
      simp [isLoad, second]
    | some added =>
      rw [next] at failed
      have later := ih added failed
      cases isLoad : op.isMcastLoad with
      | true =>
        have positive := Nat.zero_lt_of_lt later
        rw [if_pos rfl]
        split <;> omega
      | false =>
        rw [add_other score added op next isLoad] at later
        simpa using later

theorem scoreThread_fails (assignedCBs : List Nat) (dmaOps : List DmaOp)
    (failed : scoreThread assignedCBs dmaOps = none) : 1 < dmaOps.countP DmaOp.isMcastLoad := by
  have two := score_fails _ ⟨0, 0⟩ failed
  rw [if_pos rfl] at two
  exact two.trans_le (List.filter_sublist.countP_le)

end Cores

section Results
variable (ties : TieBreak (Nat × Nat)) (dmBlock : Block)

theorem splits_unsplit (core : Option Int) :
    Splits Occurrence.underLoops dmBlock [⟨dmBlock, core⟩] [(collectDMAOps dmBlock).map DmaOp.cbPort] := by
  have seen (occurrence : Occurrence) (member : occurrence ∈ occurrences [] dmBlock)
      (loops : occurrence.underLoops = true) : occurrence.op.cbPort ∈ (collectDMAOps dmBlock).map DmaOp.cbPort := by
    rw [collectDMAOps_eq [] rfl dmBlock]
    exact List.mem_map_of_mem (List.mem_map_of_mem (List.mem_filter.mpr ⟨member, loops⟩))
  constructor
  · intro occurrence member loops
    simp [seen occurrence member loops]
  · have all : (occurrences [] dmBlock).filter (fun occurrence => !occurrence.underLoops ||
        decide (occurrence.op.cbPort ∈ (collectDMAOps dmBlock).map DmaOp.cbPort)) = occurrences [] dmBlock := by
      refine List.filter_eq_self.mpr fun occurrence member => ?_
      cases loops : occurrence.underLoops with
      | false => rfl
      | true => simp [seen occurrence member loops]
    rw [List.map_cons, List.map_cons, List.map_nil, List.map_nil, all]
  · rintro busy thread member
    rw [List.mem_singleton.mp member]
    exact busy

theorem splits_assigned (numThreads : Nat) (positive : 0 < numThreads)
    (enough : numThreads ≤ (cbWorkloads (collectDMAOps dmBlock)).length) (cores : List Int)
    (assignments : List (Bin Nat))
    (assigned : assignments = assignCBsToThreads ties (cbWorkloads (collectDMAOps dmBlock)) numThreads)
    (coreEach : assignments.length ≤ cores.length) :
    Splits Occurrence.underLoops dmBlock
      ((assignments.zip cores).map fun entry => ⟨filterOpsForThread entry.1.items dmBlock, some entry.2⟩)
      (assignments.map Bin.items) := by
  have collected (occurrence : Occurrence) : occurrence ∈ occurrences [] dmBlock ∧ occurrence.underLoops = true →
      occurrence.op ∈ collectDMAOps dmBlock := fun seen => by
    rw [collectDMAOps_eq [] rfl dmBlock]
    exact List.mem_map_of_mem (List.mem_filter.mpr seen)
  constructor
  · intro occurrence member loops
    exact assigned_once ties _ numThreads assignments assigned positive _ (collected occurrence ⟨member, loops⟩)
  · have filtered (bin : Bin Nat) := occurrences_filterOps bin.items [] rfl dmBlock
    have firsts : (assignments.zip cores).map Prod.fst = assignments := List.map_fst_zip coreEach
    calc ((assignments.zip cores).map fun entry =>
            (⟨filterOpsForThread entry.1.items dmBlock, some entry.2⟩ : DmThread)).map
            (fun thread => occurrences [] thread.dmBlock)
        = ((assignments.zip cores).map Prod.fst).map fun bin =>
            occurrences [] (filterOpsForThread bin.items dmBlock) := by simp [Function.comp_def]
      _ = assignments.map fun bin => occurrences [] (filterOpsForThread bin.items dmBlock) := by rw [firsts]
      _ = _ := by simp [filtered, Function.comp_def]
  · rintro - thread member
    obtain ⟨⟨bin, core⟩, paired, rfl⟩ := List.mem_map.mp member
    obtain ⟨op, used, held⟩ := assigned_busy ties _ numThreads enough assignments assigned bin
      (List.of_mem_zip paired).1
    rw [collectDMAOps_eq [] rfl dmBlock] at used
    obtain ⟨occurrence, kept, rfl⟩ := List.mem_map.mp used
    obtain ⟨member, loops⟩ := List.mem_filter.mp kept
    refine ⟨occurrence, ?_, loops⟩
    rw [occurrences_filterOps bin.items [] rfl dmBlock]
    exact List.mem_filter.mpr ⟨member, by simp [held]⟩

theorem length_cores (assignments : List (Bin Nat)) (dmaOps : List DmaOp) (numDatamovementThreads : Nat)
    (cores : List Int) (two : numDatamovementThreads = 2 → assignments.length ≤ 2)
    (found : assignDmCoreIndices assignments dmaOps numDatamovementThreads = some cores) :
    assignments.length ≤ cores.length := by
  unfold assignDmCoreIndices at found
  split at found
  · rename_i isTwo
    simp only [assignNoCsToThreads, Option.bind_eq_bind, Option.bind_eq_some_iff] at found
    obtain ⟨score0, -, score1, -, chosen⟩ := found
    have length : cores.length = 2 := by
      split at chosen <;> exact Option.some.inj chosen ▸ rfl
    exact length ▸ two isTwo
  · simp [← Option.some.inj found]

theorem cores_fail (assignments : List (Bin Nat)) (dmaOps : List DmaOp) (numDatamovementThreads : Nat)
    (failed : assignDmCoreIndices assignments dmaOps numDatamovementThreads = none) :
    numDatamovementThreads = 2 ∧ 1 < dmaOps.countP DmaOp.isMcastLoad := by
  unfold assignDmCoreIndices at failed
  split at failed
  · rename_i isTwo
    refine ⟨isTwo, ?_⟩
    unfold assignNoCsToThreads at failed
    cases score0 : scoreThread (assignments.getD 0 (Bin.empty Nat)).items dmaOps with
    | none => exact scoreThread_fails _ _ score0
    | some first =>
      cases score1 : scoreThread (assignments.getD 1 (Bin.empty Nat)).items dmaOps with
      | none => exact scoreThread_fails _ _ score1
      | some second =>
        simp only [score0, score1, Option.bind_eq_bind, Option.bind_some] at failed
        split at failed <;> cases failed
  · cases failed

theorem Splits.everywhere (threads : List DmThread) (assigned : List (List Nat))
    (splits : Splits Occurrence.underLoops dmBlock threads assigned)
    (loops : ∀ occurrence ∈ occurrences [] dmBlock, occurrence.underLoops = true) :
    Splits (fun _ => true) dmBlock threads assigned := by
  constructor
  · exact fun occurrence member _ => splits.once occurrence member (loops occurrence member)
  · rw [splits.kept]
    refine List.map_congr_left fun cbs _ => List.filter_congr fun occurrence member => ?_
    rw [loops occurrence member]
  · rintro ⟨occurrence, member, -⟩ thread inThreads
    obtain ⟨kept, isKept, -⟩ := splits.busy ⟨occurrence, member, loops occurrence member⟩ thread inThreads
    exact ⟨kept, isKept, rfl⟩

def Ended (numDatamovementThreads : Nat) (dmBlock : Block) : Scheduled → Prop
  | .threads threads => ∃ assigned, Splits Occurrence.underLoops dmBlock threads assigned ∧
      ((∀ occurrence ∈ occurrences [] dmBlock, occurrence.underLoops = true) →
        Splits (fun _ => true) dmBlock threads assigned)
  | .unsupportedCores => numDatamovementThreads ≠ 1 ∧ numDatamovementThreads ≠ 2 ∧ numDatamovementThreads ≠ 6
  | .assertionFailed =>
    numDatamovementThreads = 2 ∧ 1 < (collectDMAOps dmBlock).countP DmaOp.isMcastLoad

theorem ended_threads (numDatamovementThreads : Nat) (threads : List DmThread) (assigned : List (List Nat))
    (splits : Splits Occurrence.underLoops dmBlock threads assigned) :
    Ended numDatamovementThreads dmBlock (.threads threads) :=
  ⟨assigned, splits, splits.everywhere dmBlock threads assigned⟩

theorem matchAndRewrite_ended (numDatamovementThreads : Nat) :
    Ended numDatamovementThreads dmBlock (matchAndRewrite ties numDatamovementThreads dmBlock) := by
  have unsplit (core : Option Int) : Ended numDatamovementThreads dmBlock (.threads [⟨dmBlock, core⟩]) :=
    ended_threads dmBlock _ _ _ (splits_unsplit dmBlock core)
  unfold matchAndRewrite
  split
  · exact unsplit none
  dsimp only
  split
  · exact unsplit none
  split
  · exact unsplit _
  rename_i more
  rw [not_or] at more
  split
  · rename_i failed
    exact cores_fail _ _ _ failed
  · rename_i cores found
    refine ended_threads dmBlock _ _ _ (splits_assigned ties dmBlock _ (by omega) (min_le_left _ _) cores _ rfl ?_)
    refine length_cores _ _ _ cores (fun isTwo => ?_) found
    rw [assignCBsToThreads, Bin.length_distribute, isTwo]
    exact min_le_right _ _

/-- The pass shares out the DMA ops that only loops stand around; the others stay in every thread. -/
theorem runOnOperation_ended (numDmCores chipDatamovementThreads : Nat) :
    Ended (numDatamovementThreads numDmCores chipDatamovementThreads) dmBlock
      (runOnOperation ties numDmCores chipDatamovementThreads dmBlock) := by
  unfold runOnOperation
  dsimp only
  split
  · exact ended_threads dmBlock _ _ _ (splits_unsplit dmBlock none)
  rename_i several
  split
  · rename_i unsupported
    exact ⟨several, unsupported⟩
  · exact matchAndRewrite_ended ties dmBlock _

end Results

def underRegion : Block :=
  .dma ⟨0, .localCopy, 0⟩ (.dma ⟨1, .localCopy, 1⟩ (.regionOp 0 (.dma ⟨2, .localCopy, 2⟩ .done) .done))

/-- The op of the third circular buffer ends up in both threads. -/
theorem underRegion_twice :
    runOnOperation (TieBreak.insertion _) 2 2 underRegion =
        .threads [⟨filterOpsForThread [0] underRegion, some 1⟩, ⟨filterOpsForThread [1] underRegion, some 0⟩] ∧
      ¬ ∃ assigned, Splits (fun _ => true) underRegion
        [⟨filterOpsForThread [0] underRegion, some 1⟩, ⟨filterOpsForThread [1] underRegion, some 0⟩] assigned := by
  refine ⟨by decide, ?_⟩
  rintro ⟨assigned, splits⟩
  have shared : (⟨[.region 0], ⟨2, .localCopy, 2⟩⟩ : Occurrence) ∈ occurrences [] underRegion := by decide
  have once := splits.once _ shared rfl
  have kept := splits.kept
  have two : assigned.length = 2 := by simpa using (congrArg List.length kept).symm
  obtain ⟨first, second, rfl⟩ := List.length_eq_two.mp two
  rw [List.map_cons, List.map_cons, List.map_cons, List.map_cons, List.cons.injEq, List.cons.injEq] at kept
  have inFirst : (⟨[.region 0], ⟨2, .localCopy, 2⟩⟩ : Occurrence) ∈
      occurrences [] (filterOpsForThread [0] underRegion) := by decide
  have inSecond : (⟨[.region 0], ⟨2, .localCopy, 2⟩⟩ : Occurrence) ∈
      occurrences [] (filterOpsForThread [1] underRegion) := by decide
  rw [kept.1, List.mem_filter] at inFirst
  rw [kept.2.1, List.mem_filter] at inSecond
  have held : 2 ∈ first := by simpa using inFirst.2
  have heldToo : 2 ∈ second := by simpa using inSecond.2
  simp [held, heldToo] at once

end TtMlir.D2m.Schedule
