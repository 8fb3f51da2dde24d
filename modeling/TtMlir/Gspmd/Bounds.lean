import Mathlib.Data.List.GetD
import TtMlir.Library.Outcome
import TtMlir.Gspmd.Sharding

/-!
Which readings run past the end of a list: a single listed device where the
second one is asked for, and more sharded tensor dims than there are mesh dims
left for them.
-/

namespace TtMlir.Gspmd

def lanesFrom (reverseOrder : Bool) (meshShape : List Int) (shardingCnt : Nat) : List Int :=
  (if reverseOrder then meshShape.reverse else meshShape).drop shardingCnt

def Overrun (sharded lanes : List Int) : Prop :=
  lanes.length < sharded.length ∧ ∀ pair ∈ sharded.zip lanes, pair.1 ≤ 0 ∨ pair.1 = pair.2

instance (sharded lanes : List Int) : Decidable (Overrun sharded lanes) := by
  unfold Overrun
  infer_instance

def shardedDims (tiles : List Int) : List Int := tiles.filter (· ≠ 1)

theorem shardDimIdx_lane (reverseOrder : Bool) (meshShape : List Int) (shardingCnt : Nat)
    (inside : shardingCnt < meshShape.length) :
    lanesFrom reverseOrder meshShape shardingCnt =
      meshShape.getD (if reverseOrder then (meshShape.length - 1 - shardingCnt : Int) else shardingCnt).toNat 0 ::
        lanesFrom reverseOrder meshShape (shardingCnt + 1) := by
  unfold lanesFrom
  cases reverseOrder with
  | false =>
      rw [if_neg Bool.false_ne_true, if_neg Bool.false_ne_true, Int.toNat_natCast, List.drop_eq_getElem_cons inside,
        List.getD_eq_getElem _ _ inside]
  | true =>
      have insideReverse : shardingCnt < meshShape.reverse.length := by rwa [List.length_reverse]
      have position : (meshShape.length - 1 - shardingCnt : Int).toNat = meshShape.length - 1 - shardingCnt := by omega
      rw [if_pos rfl, if_pos rfl, position, List.drop_eq_getElem_cons insideReverse, List.getElem_reverse,
        List.getD_eq_getElem _ _ (by omega)]

theorem overrun_nil (lanes : List Int) : ¬ Overrun [] lanes := fun overrun => Nat.not_lt_zero _ overrun.1

theorem overrun_no_lane (size : Int) (sharded : List Int) : Overrun (size :: sharded) [] := by
  constructor
  · exact Nat.zero_lt_succ _
  · intro pair member
    cases member

theorem overrun_cons (size lane : Int) (sharded lanes : List Int) :
    Overrun (size :: sharded) (lane :: lanes) ↔ (size ≤ 0 ∨ size = lane) ∧ Overrun sharded lanes := by
  unfold Overrun
  rw [List.zip_cons_cons, List.forall_mem_cons, List.length_cons, List.length_cons, Nat.add_lt_add_iff_right]
  exact and_left_comm

theorem assignShardDims_outOfRange (reverseOrder : Bool) (meshShape tiles : List Int) (dim shardingCnt : Nat)
    (shardDims : List Int) (started : shardingCnt ≤ meshShape.length) :
    assignShardDims reverseOrder meshShape tiles dim shardingCnt shardDims = .error .outOfRange ↔
      Overrun (shardedDims tiles) (lanesFrom reverseOrder meshShape shardingCnt) := by
  induction tiles generalizing dim shardingCnt shardDims with
  | nil =>
      constructor
      · intro failed
        cases failed
      · exact fun overrun => absurd overrun (overrun_nil _)
  | cons size rest ih =>
      rw [assignShardDims]
      -- a dim of size one takes no lane
      by_cases unit : size = 1
      · have skipped : shardedDims (size :: rest) = shardedDims rest := by
          unfold shardedDims
          rw [List.filter_cons_of_neg]
          simp [unit]
        rw [if_pos unit, skipped]
        exact ih (dim + 1) shardingCnt shardDims started
      · have sharded : shardedDims (size :: rest) = size :: shardedDims rest := by
          unfold shardedDims
          rw [List.filter_cons_of_pos]
          simp [unit]
        rw [if_neg unit, sharded]
        dsimp only
        -- each other dim takes the next lane until none is left
        by_cases inside : shardingCnt < meshShape.length
        · have within : ¬ ((if reverseOrder then (meshShape.length - 1 - shardingCnt : Int) else shardingCnt) < 0 ∨
              (meshShape.length : Int) ≤
                if reverseOrder then (meshShape.length - 1 - shardingCnt : Int) else shardingCnt) := by
            cases reverseOrder with
            | false => simp only [Bool.false_eq_true, if_false]; omega
            | true => simp only [if_true]; omega
          rw [if_neg within, shardDimIdx_lane reverseOrder meshShape shardingCnt inside, overrun_cons]
          by_cases mismatch : 0 < size ∧ size ≠ meshShape.getD
              (if reverseOrder then (meshShape.length - 1 - shardingCnt : Int) else shardingCnt).toNat 0
          · rw [if_pos mismatch]
            constructor
            · intro failed
              cases failed
            · rintro ⟨nonpositive | same, _⟩
              · omega
              · exact absurd same mismatch.2
          · have goesOn : size ≤ 0 ∨ size = meshShape.getD
                (if reverseOrder then (meshShape.length - 1 - shardingCnt : Int) else shardingCnt).toNat 0 := by
              by_cases positive : 0 < size
              · exact Or.inr (not_not.mp fun differs => mismatch ⟨positive, differs⟩)
              · exact Or.inl (by omega)
            rw [if_neg mismatch, ih _ _ _ inside, and_iff_right goesOn]
        · have ended : shardingCnt = meshShape.length := by omega
          have beyond : (if reverseOrder then (meshShape.length - 1 - shardingCnt : Int) else shardingCnt) < 0 ∨
              (meshShape.length : Int) ≤
                if reverseOrder then (meshShape.length - 1 - shardingCnt : Int) else shardingCnt := by
            cases reverseOrder with
            | false => simp only [Bool.false_eq_true, if_false]; omega
            | true => simp only [if_true]; omega
          have noLane : lanesFrom reverseOrder meshShape shardingCnt = [] := by
            unfold lanesFrom
            apply List.drop_eq_nil_of_le
            cases reverseOrder with
            | false => exact Nat.le_of_eq ended.symm
            | true => exact Nat.le_of_eq (List.length_reverse.trans ended.symm)
          rw [if_pos beyond, noLane]
          exact iff_of_true rfl (overrun_no_lane size _)

def lanes (reading : Reading) : List Int :=
  if reading.meshShape.length = 1 then
    if isLineDeviceConfig reading.shardShape reading.meshShape then [reading.meshShape.headD 0]
    else shardedDims reading.shardShape
  else if isLineDeviceConfig reading.shardShape reading.meshShape then reading.meshShape.reverse.drop 1
  else reading.meshShape.reverse

def TwoDim (reading : Reading) : Prop :=
  if reading.meshShape.length = 1 then
    isLineDeviceConfig reading.shardShape reading.meshShape = true ∨ (shardedDims reading.shardShape).length = 2
  else reading.meshShape.length = 2

/-- The reading asks for the second of a single listed device. -/
def SingleDevice (reading : Reading) : Prop :=
  reading.meshShape.length = 1 ∧ isLineDeviceConfig reading.shardShape reading.meshShape = false ∧
    reading.deviceIds.length = 1

/-- The strings whose lists are long enough for every access. -/
def InRange (reading : Reading) : Prop :=
  ¬ SingleDevice reading ∧
    (TwoDim reading → ¬ Overrun (shardedDims (tensorDims reading.shardShape reading.lastTileDimReplicate))
      (lanes reading))

theorem hardwareMesh_lanes (reading : Reading) (hardware : List Int) (reverseOrder : Bool)
    (built : hardwareMesh reading.shardShape reading.meshShape reading.deviceIds = .ok (hardware, reverseOrder)) :
    (hardware.length = 2 ↔ TwoDim reading) ∧
      lanesFrom reverseOrder hardware
        (if isLineDeviceConfig reading.shardShape reading.meshShape then 1 else 0) = lanes reading := by
  unfold hardwareMesh at built
  unfold TwoDim lanes lanesFrom
  by_cases single : reading.meshShape.length = 1
  · rw [if_neg (not_not.mpr single)] at built
    rw [if_pos single, if_pos single]
    by_cases line : isLineDeviceConfig reading.shardShape reading.meshShape = true
    · rw [if_pos line] at built
      cases built
      rw [line]
      exact ⟨iff_of_true rfl (Or.inl rfl), rfl⟩
    · rw [if_neg line] at built
      rw [if_neg line, if_neg line, or_iff_right line]
      have listed : hardware = shardedDims reading.shardShape ∧ reverseOrder = false ∨
          hardware = (shardedDims reading.shardShape).reverse ∧ reverseOrder = true := by
        dsimp only at built
        split at built
        · cases built
          exact Or.inl ⟨rfl, rfl⟩
        · cases built
        · split at built
          · cases built
            exact Or.inr ⟨rfl, rfl⟩
          · cases built
            exact Or.inl ⟨rfl, rfl⟩
      rcases listed with ⟨rfl, rfl⟩ | ⟨rfl, rfl⟩
      · exact ⟨Iff.rfl, rfl⟩
      · rw [List.length_reverse, if_pos rfl, List.reverse_reverse]
        exact ⟨Iff.rfl, rfl⟩
  · rw [if_pos single] at built
    rw [if_neg single, if_neg single]
    cases built
    by_cases line : isLineDeviceConfig reading.shardShape reading.meshShape = true
    · rw [if_pos line, if_pos line, if_pos rfl]
      exact ⟨Iff.rfl, rfl⟩
    · rw [if_neg line, if_neg line, if_pos rfl]
      exact ⟨Iff.rfl, rfl⟩

theorem hardwareMesh_fails (reading : Reading) (failure : Failure)
    (failed : hardwareMesh reading.shardShape reading.meshShape reading.deviceIds = .error failure) :
    failure = .outOfRange ∧ SingleDevice reading := by
  unfold hardwareMesh at failed
  by_cases single : reading.meshShape.length = 1
  · rw [if_neg (not_not.mpr single)] at failed
    by_cases line : isLineDeviceConfig reading.shardShape reading.meshShape = true
    · rw [if_pos line] at failed
      cases failed
    · rw [if_neg line] at failed
      dsimp only at failed
      split at failed
      · cases failed
      · rename_i device listed
        cases failed
        exact ⟨rfl, single, Bool.eq_false_iff.mpr line, by rw [listed]; rfl⟩
      · split at failed <;> cases failed
  · rw [if_pos single] at failed
    cases failed

theorem hardwareMesh_single (reading : Reading) (single : SingleDevice reading) :
    hardwareMesh reading.shardShape reading.meshShape reading.deviceIds = .error .outOfRange := by
  obtain ⟨one, notLine, listed⟩ := single
  unfold hardwareMesh
  rw [if_neg (not_not.mpr one), if_neg (Bool.eq_false_iff.mp notLine)]
  obtain ⟨device, only⟩ := List.length_eq_one_iff.mp listed
  rw [only]

theorem determineGSPMDShardingDims_outOfRange (reading : Reading) :
    determineGSPMDShardingDims reading.shardShape reading.meshShape reading.deviceIds reading.lastTileDimReplicate =
      .error .outOfRange ↔ ¬ InRange reading := by
  unfold determineGSPMDShardingDims InRange
  cases built : hardwareMesh reading.shardShape reading.meshShape reading.deviceIds with
  | error failure =>
      obtain ⟨rfl, single⟩ := hardwareMesh_fails reading failure built
      exact iff_of_true rfl fun inRange => inRange.1 single
  | ok hardware =>
      obtain ⟨hardware, reverseOrder⟩ := hardware
      obtain ⟨twoDim, matched⟩ := hardwareMesh_lanes reading hardware reverseOrder built
      have several : ¬ SingleDevice reading := by
        intro single
        rw [hardwareMesh_single reading single] at built
        cases built
      rw [and_iff_right several]
      dsimp only [bind, Except.bind]
      by_cases two : hardware.length = 2
      · have started : (if isLineDeviceConfig reading.shardShape reading.meshShape = true then 1 else 0) ≤
            hardware.length := by split <;> omega
        have loop := assignShardDims_outOfRange reverseOrder hardware
          (tensorDims reading.shardShape reading.lastTileDimReplicate) 0 _ (List.replicate hardware.length (-1)) started
        rw [matched] at loop
        rw [if_neg (not_not.mpr two), imp_iff_right (twoDim.mp two), not_not, ← loop]
        cases assignShardDims reverseOrder hardware (tensorDims reading.shardShape reading.lastTileDimReplicate) 0
            (if isLineDeviceConfig reading.shardShape reading.meshShape then 1 else 0)
            (List.replicate hardware.length (-1)) with
        | error failure => simp
        | ok shardDims => simp
      · rw [if_pos two]
        constructor
        · intro failed
          cases failed
        · exact fun overrun => absurd (fun holds => absurd (twoDim.mpr holds) two) overrun

def Reported (failure : Failure) : Prop := failure ≠ .outOfRange

theorem parseGSPMDDevicesStr_reports (devicesStr : List Char) :
    Ends Reported (fun _ => True) (parseGSPMDDevicesStr devicesStr) := by
  have reported : ∀ message, Reported (.error message) := fun message same => by cases same
  unfold parseGSPMDDevicesStr
  dsimp only
  split
  · exact reported _
  · split
    · exact reported _
    · split
      · split
        · exact reported _
        · trivial
      · split
        · exact reported _
        · trivial

theorem readDevices_reports (tokens : List (List Char)) (lists : List Int × List Int × List Int) :
    Ends Reported (fun _ => True) (readDevices tokens lists) := by
  induction tokens generalizing lists with
  | nil => trivial
  | cons token rest ih =>
      rw [readDevices]
      split
      · exact ih lists
      · exact ends_then (parseGSPMDDevicesStr_reports _) ih

theorem readSharding_reports (opShardingStr operandShardingStr : List Char) :
    Ends Reported (fun _ => True) (readSharding opShardingStr operandShardingStr) := by
  have reported : ∀ message, Reported (.error message) := fun message same => by cases same
  unfold readSharding
  split
  · exact reported _
  · split
    · exact reported _
    · split
      · exact reported _
      · dsimp only
        split
        · exact ends_then (readDevices_reports _ _) fun _ => trivial
        · trivial

/-- Reading a pair of strings stays inside the lists exactly when the lists are long enough. -/
theorem generate_inRange (opShardingStr operandShardingStr : List Char) :
    generate opShardingStr operandShardingStr ≠ .error .outOfRange ↔
      ∀ reading, readSharding opShardingStr operandShardingStr = .ok reading →
        reading.shardType = some .devices → InRange reading := by
  unfold generate
  cases read : readSharding opShardingStr operandShardingStr with
  | error failure =>
      refine iff_of_true ?_ fun reading impossible => by cases impossible
      intro failed
      cases failed
      exact ends_error (readSharding_reports _ _) read rfl
  | ok reading =>
      dsimp only [bind, Except.bind]
      cases kind : reading.shardType with
      | none =>
          refine iff_of_true (fun failed => by cases failed) ?_
          rintro other ⟨⟩ isDevices
          rw [kind] at isDevices
          cases isDevices
      | some shardType =>
          cases shardType with
          | replicate =>
              refine iff_of_true (fun failed => by cases failed) ?_
              rintro other ⟨⟩ isDevices
              rw [kind] at isDevices
              cases isDevices
          | devices =>
              have determined := determineGSPMDShardingDims_outOfRange reading
              constructor
              · rintro inside other ⟨⟩ _
                by_contra outside
                rw [determined.mpr outside] at inside
                exact inside rfl
              · intro inRange failed
                have outside : ¬ InRange reading := by
                  rw [← determined]
                  cases result : determineGSPMDShardingDims reading.shardShape reading.meshShape reading.deviceIds
                      reading.lastTileDimReplicate with
                  | error failure =>
                      rw [result] at failed
                      cases failed
                      rfl
                  | ok lists =>
                      rw [result] at failed
                      cases failed
                exact outside (inRange reading rfl kind)

end TtMlir.Gspmd
