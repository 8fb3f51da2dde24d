import TtMlir.Planner.Allocate

/-!
What an allocator run leaves behind. `Placed` describes the problem after a
set of requests has received offsets; both allocators extend it one request at
a time and differ only in how they find an offset that conflicts with nothing.
-/

namespace TtMlir.Planner

def Request.stop (request : Request) : Int := request.offset + request.size

def Peak (values : List Int) (peak : Int) : Prop :=
  (∀ value ∈ values, value ≤ peak) ∧ (peak ∈ values ∨ values = [] ∧ peak = 0)

theorem peak_nil : Peak [] 0 := ⟨by simp, Or.inr ⟨rfl, rfl⟩⟩

theorem peak_cons (values : List Int) (peak value : Int) (nonneg : 0 ≤ value)
    (known : Peak values peak) : Peak (value :: values) (max peak value) := by
  obtain ⟨above, reached⟩ := known
  refine ⟨?_, Or.inl ?_⟩
  · intro other member
    rcases List.mem_cons.mp member with rfl | old
    · exact le_max_right _ _
    · exact (above other old).trans (le_max_left _ _)
  · rcases le_total peak value with below | below
    · simp [max_eq_right below]
    · rcases reached with member | ⟨rfl, rfl⟩
      · simp [max_eq_left below, member]
      · simp [le_antisymm below nonneg]

theorem peak_perm (values others : List Int) (peak : Int) (same : values.Perm others)
    (known : Peak values peak) : Peak others peak := by
  obtain ⟨above, reached⟩ := known
  refine ⟨fun value member => above value (same.mem_iff.mpr member), ?_⟩
  rcases reached with member | ⟨rfl, zero⟩
  · exact Or.inl (same.mem_iff.mp member)
  · exact Or.inr ⟨List.nil_perm.mp same, zero⟩

theorem peak_unique (values : List Int) (peak other : Int) (known : Peak values peak)
    (again : Peak values other) : peak = other := by
  rcases known.2 with member | ⟨rfl, rfl⟩
  · rcases again.2 with otherMember | ⟨rfl, _⟩
    · exact le_antisymm (again.1 _ member) (known.1 _ otherMember)
    · exact absurd member List.not_mem_nil
  · rcases again.2 with otherMember | ⟨_, rfl⟩
    · exact absurd otherMember List.not_mem_nil
    · rfl

/-- An index may be visited again when its new value tops all earlier ones. -/
theorem peak_visit (done : List Nat) (head : Nat) (before after : Nat → Int) (peak : Int)
    (nonneg : 0 ≤ after head) (known : Peak (done.map before) peak)
    (same : ∀ other ∈ done, head ≠ other → after other = before other)
    (raised : head ∉ done ∨ peak ≤ after head) :
    Peak ((head :: done).map after) (max peak (after head)) := by
  obtain ⟨above, reached⟩ := known
  refine ⟨?_, Or.inl ?_⟩
  · intro value member
    obtain ⟨other, otherIn, rfl⟩ := List.mem_map.mp member
    by_cases here : head = other
    · exact here ▸ le_max_right _ _
    · have old := (List.mem_cons.mp otherIn).resolve_left (Ne.symm here)
      rw [same other old here]
      exact le_max_of_le_left (above _ (List.mem_map.mpr ⟨other, old, rfl⟩))
  · rcases le_total peak (after head) with below | below
    · simp [max_eq_right below]
    · rw [max_eq_left below]
      rcases reached with member | ⟨empty, rfl⟩
      · obtain ⟨other, old, value⟩ := List.mem_map.mp member
        by_cases here : head = other
        · subst here
          have top := raised.resolve_left (not_not.mpr old)
          simp [le_antisymm top below]
        · rw [← value, ← same other old here]
          exact List.mem_map.mpr ⟨other, List.mem_cons_of_mem _ old, rfl⟩
      · simp [le_antisymm nonneg below]

/-- The two requests may not share memory: they are live at a common instant. -/
def LiveTogether (left right : Request) : Prop :=
  (left.instants ∩ right.instants).Nonempty

theorem live_together_iff (left right : VarRequest) :
    LiveTogether left.toRequest right.toRequest ↔ conflicts left right := by
  simp only [LiveTogether, LiveRange.instants, conflicts, Set.Icc_inter_Icc, Set.nonempty_Icc]

theorem addresses_disjoint (left right : Request)
    (apart : left.stop ≤ right.offset ∨ right.stop ≤ left.offset) :
    Disjoint left.addresses right.addresses := by
  rw [Set.disjoint_left]
  rintro address ⟨leftLow, leftHigh⟩ ⟨rightLow, rightHigh⟩
  simp only [Request.stop] at apart
  omega

structure Placed (before : Problem) (done : List Nat) (after : Problem)
    (memUsage maxSize : Int) : Prop where
  vars : after.vars = before.vars
  bound : after.bound = before.bound
  length : after.requests.length = before.requests.length
  demand : ∀ reqIndex, (after.request reqIndex).demand = (before.request reqIndex).demand
  untouched : ∀ reqIndex, reqIndex ∉ done → after.request reqIndex = before.request reqIndex
  nonneg : ∀ reqIndex ∈ done, 0 ≤ (after.request reqIndex).offset
  apart : ∀ left ∈ done, ∀ right ∈ done, left ≠ right →
    LiveTogether (after.request left).toRequest (after.request right).toRequest →
    Disjoint (after.request left).addresses (after.request right).addresses
  memUsage : Peak (done.map fun reqIndex => (after.request reqIndex).stop) memUsage
  maxSize : Peak (done.map fun reqIndex => (after.request reqIndex).size) maxSize
  aligned : ∀ alignment : Int, (∀ reqIndex ∈ done, alignment ∣ (after.request reqIndex).size) →
    ∀ reqIndex ∈ done, alignment ∣ (after.request reqIndex).offset

/-- The plan `allocate` promises: every enabled request is placed, no other is. -/
def MemoryPlan (before after : Problem) (stats : AllocateStats) : Prop :=
  Placed before before.enabled after stats.memUsage stats.maxSize

theorem demand_fields (left right : VarRequest) (same : left.demand = right.demand) :
    left.first = right.first ∧ left.last = right.last ∧ left.size = right.size ∧
      left.varIndex = right.varIndex := by
  cases left
  cases right
  simp_all [VarRequest.demand, VarRequest.place]

theorem request_setOffset (problem : Problem) (reqIndex : Nat) (offset : Int) (index : Nat)
    (inside : reqIndex < problem.requests.length) :
    (problem.setOffset reqIndex offset).request index =
      if reqIndex = index then (problem.request index).place offset
      else problem.request index := by
  simp only [Problem.request, List.getD_eq_getElem?_getD, Problem.setOffset_requests]
  by_cases same : reqIndex = index
  · subst same
    simp [inside]
  · cases problem.requests[index]? <;> simp [same]

theorem placed_start (problem : Problem) : Placed problem [] problem 0 0 where
  vars := rfl
  bound := rfl
  length := rfl
  demand _ := rfl
  untouched _ _ := rfl
  nonneg _ member := absurd member List.not_mem_nil
  apart _ member := absurd member List.not_mem_nil
  memUsage := peak_nil
  maxSize := peak_nil
  aligned _ _ _ member := absurd member List.not_mem_nil

/-- An offset at zero or at the end of a placed request, clear of every placed request that is live
at the same time, keeps the plan. -/
theorem placed_extend (before current : Problem) (done : List Nat) (memUsage maxSize : Int)
    (reqIndex : Nat) (offset : Int) (placed : Placed before done current memUsage maxSize)
    (inside : reqIndex < before.requests.length) (new : reqIndex ∉ done ∨ memUsage ≤ offset)
    (size : 0 ≤ (current.request reqIndex).size)
    (origin : offset = 0 ∨ ∃ other ∈ done, offset = (current.request other).stop)
    (clear : ∀ other ∈ done, conflicts (current.request reqIndex) (current.request other) →
      (current.request other).stop ≤ offset ∨
        offset + (current.request reqIndex).size ≤ (current.request other).offset)
    (sizes : ∀ other ∈ done, 0 ≤ (current.request other).size) :
    Placed before (reqIndex :: done) (current.setOffset reqIndex offset)
      (max memUsage (offset + (current.request reqIndex).size))
      (max maxSize (current.request reqIndex).size) := by
  have insideNow : reqIndex < current.requests.length := placed.length ▸ inside
  have here : (current.setOffset reqIndex offset).request reqIndex =
      (current.request reqIndex).place offset := by
    simp [request_setOffset _ _ _ _ insideNow]
  have elsewhere (other : Nat) (differs : reqIndex ≠ other) :
      (current.setOffset reqIndex offset).request other = current.request other := by
    simp [request_setOffset _ _ _ _ insideNow, differs]
  have sameSize (other : Nat) : ((current.setOffset reqIndex offset).request other).size =
      (current.request other).size := by
    by_cases same : reqIndex = other
    · subst same
      rw [here]
      rfl
    · rw [elsewhere other same]
  have offsetNonneg : 0 ≤ offset := by
    rcases origin with zero | ⟨other, member, stop⟩
    · exact zero.ge
    · have := placed.nonneg other member
      have := sizes other member
      simp only [stop, Request.stop]
      omega
  have stopHere : ((current.setOffset reqIndex offset).request reqIndex).stop =
      offset + (current.request reqIndex).size := by
    rw [here]
    rfl
  -- the request ends below its neighbour or starts above it
  have apartFrom (other : Nat) (member : other ∈ done)
      (together : conflicts (current.request reqIndex) (current.request other)) :
      Disjoint (((current.request reqIndex).place offset)).addresses
        (current.request other).addresses := by
    apply addresses_disjoint
    rcases clear other member together with below | above
    · exact Or.inr below
    · exact Or.inl above
  have earlier (other : Nat) (member : other ∈ reqIndex :: done) (differs : reqIndex ≠ other) :
      other ∈ done := (List.mem_cons.mp member).resolve_left (Ne.symm differs)
  refine ⟨placed.vars, placed.bound, by simpa [Problem.setOffset] using placed.length,
    ?_, ?_, ?_, ?_, ?_, ?_, ?_⟩
  · intro index
    by_cases same : reqIndex = index
    · subst same
      rw [here, ← placed.demand reqIndex]
      rfl
    · rw [elsewhere index same, placed.demand index]
  · intro index absent
    simp only [List.mem_cons, not_or] at absent
    rw [elsewhere index (Ne.symm absent.1), placed.untouched index absent.2]
  · intro index member
    by_cases same : reqIndex = index
    · subst same
      rw [here]
      exact offsetNonneg
    · rw [elsewhere index same]
      exact placed.nonneg index (earlier index member same)
  · intro left leftIn right rightIn differ together
    by_cases isLeft : reqIndex = left
    · subst isLeft
      rw [here, elsewhere right differ] at together ⊢
      exact apartFrom right (earlier right rightIn differ) ((live_together_iff _ _).mp together)
    by_cases isRight : reqIndex = right
    · subst isRight
      rw [here, elsewhere left isLeft] at together ⊢
      rw [LiveTogether, Set.inter_comm] at together
      exact (apartFrom left (earlier left leftIn isLeft) ((live_together_iff _ _).mp together)).symm
    · rw [elsewhere left isLeft, elsewhere right isRight] at together ⊢
      exact placed.apart left (earlier left leftIn isLeft) right (earlier right rightIn isRight) differ
        together
  · rw [← stopHere]
    -- the peak moves only when the new stop is above it
    refine peak_visit _ _ _ _ _ (by omega) placed.memUsage ?_ ?_
    · intro other _ differs
      rw [elsewhere other differs]
    · exact new.imp_right fun top => by omega
  · simp only [sameSize]
    exact peak_cons _ _ _ size placed.maxSize
  · intro alignment divides index member
    have doneDivides : ∀ other ∈ done, alignment ∣ (current.request other).size := by
      intro other inDone
      simpa [sameSize] using divides other (List.mem_cons_of_mem _ inDone)
    have doneAligned := placed.aligned alignment doneDivides
    by_cases same : reqIndex = index
    · subst same
      rw [here]
      -- an offset is zero or the end of a placed request, both multiples of the alignment
      rcases origin with rfl | ⟨other, inDone, rfl⟩
      · exact dvd_zero _
      · exact Int.dvd_add (doneAligned other inDone) (doneDivides other inDone)
    · rw [elsewhere index same]
      exact doneAligned index (earlier index member same)

/-! The greedy scan. `seen` are the entries already visited, `rest` those still
ahead; all keys ahead are at least as large as the offsets behind. -/

structure Scanned (problem : Problem) (request : VarRequest) (seen rest : List (Int × Nat))
    (scan : GapScan) : Prop where
  prev_origin : scan.offsetPrev = 0 ∨ ∃ entry ∈ seen, scan.offsetPrev = (problem.request entry.2).stop
  prev_nonneg : 0 ≤ scan.offsetPrev
  prev_above : ∀ entry ∈ seen, conflicts request (problem.request entry.2) →
    (problem.request entry.2).stop ≤ scan.offsetPrev
  best : scan.offsetBest < 0 ∨
    (scan.offsetBest = 0 ∨ ∃ entry ∈ seen, scan.offsetBest = (problem.request entry.2).stop) ∧
    (∀ entry ∈ seen, conflicts request (problem.request entry.2) →
      (problem.request entry.2).stop ≤ scan.offsetBest ∨
        scan.offsetBest + request.size ≤ (problem.request entry.2).offset) ∧
    ∀ entry ∈ rest, scan.offsetBest + request.size ≤ (problem.request entry.2).offset

/-- The placed requests are no smaller, which is why a gap that would hold one of them holds the new
one. -/
theorem scanned_step (problem : Problem) (request : VarRequest) (seen rest : List (Int × Nat))
    (scan : GapScan) (entry : Int × Nat)
    (scanned : Scanned problem request seen (entry :: rest) scan)
    (larger : request.size ≤ (problem.request entry.2).size)
    (sorted : ∀ later ∈ rest, (problem.request entry.2).offset ≤ (problem.request later.2).offset) :
    Scanned problem request (seen ++ [entry]) rest (scanStep problem request scan entry) := by
  obtain ⟨origin, nonneg, above, best⟩ := scanned
  have seenLater : ∀ other ∈ seen, other ∈ seen ++ [entry] :=
    fun other member => List.mem_append_left _ member
  have entryLast : entry ∈ seen ++ [entry] := List.mem_append_right _ List.mem_cons_self
  have cases_seen {motive : Int × Nat → Prop} (old : ∀ other ∈ seen, motive other)
      (now : motive entry) : ∀ other ∈ seen ++ [entry], motive other := by
    intro other member
    rcases List.mem_append.mp member with earlier | last
    · exact old other earlier
    · exact List.mem_singleton.mp last ▸ now
  have keepsOrigin (offset : Int)
      (known : offset = 0 ∨ ∃ other ∈ seen, offset = (problem.request other.2).stop) :
      offset = 0 ∨ ∃ other ∈ seen ++ [entry], offset = (problem.request other.2).stop :=
    known.imp_right fun ⟨other, member, stop⟩ => ⟨other, seenLater other member, stop⟩
  unfold scanStep
  by_cases conflict : conflicts request (problem.request entry.2)
  · -- only a conflicting entry moves the scan
    simp only [conflict, ↓reduceIte]
    have raised : max scan.offsetPrev (problem.request entry.2).stop = 0 ∨
        ∃ other ∈ seen ++ [entry],
          max scan.offsetPrev (problem.request entry.2).stop = (problem.request other.2).stop := by
      rcases max_choice scan.offsetPrev (problem.request entry.2).stop with same | same
      · rw [same]
        exact keepsOrigin _ origin
      · exact Or.inr ⟨entry, entryLast, same⟩
    refine ⟨raised, le_max_of_le_left nonneg, ?_, ?_⟩
    · apply cases_seen
      · exact fun other member live => le_max_of_le_left (above other member live)
      · exact fun _ => le_max_right _ _
    · by_cases better : (problem.request entry.2).offset - scan.offsetPrev ≥
          (problem.request entry.2).size ∧
          (problem.request entry.2).offset - scan.offsetPrev < scan.gapBest
      · -- the gap below this entry becomes the candidate
        simp only [better, decide_true, Bool.and_self, ↓reduceIte]
        refine Or.inr ⟨keepsOrigin _ origin, ?_, ?_⟩
        · apply cases_seen
          · exact fun other member live => Or.inl (above other member live)
          · exact fun _ => Or.inr (by omega)
        · intro later member
          have := sorted later member
          omega
      · have kept : (decide ((problem.request entry.2).offset - scan.offsetPrev ≥
            (problem.request entry.2).size) &&
            decide ((problem.request entry.2).offset - scan.offsetPrev < scan.gapBest)) = false := by
          simpa using better
        simp only [kept, Bool.false_eq_true, ↓reduceIte]
        rcases best with none | ⟨bestOrigin, bestSeen, bestRest⟩
        · exact Or.inl none
        · refine Or.inr ⟨keepsOrigin _ bestOrigin, ?_, fun later member =>
            bestRest later (List.mem_cons_of_mem _ member)⟩
          exact cases_seen bestSeen fun _ => Or.inr (bestRest entry List.mem_cons_self)
  · simp only [conflict, ↓reduceIte]
    refine ⟨keepsOrigin _ origin, nonneg, cases_seen above fun live => absurd live conflict, ?_⟩
    rcases best with none | ⟨bestOrigin, bestSeen, bestRest⟩
    · exact Or.inl none
    · exact Or.inr ⟨keepsOrigin _ bestOrigin,
        cases_seen bestSeen fun live => absurd live conflict,
        fun later member => bestRest later (List.mem_cons_of_mem _ member)⟩

theorem scanned_run (problem : Problem) (request : VarRequest) (seen rest : List (Int × Nat))
    (scan : GapScan) (scanned : Scanned problem request seen rest scan)
    (larger : ∀ entry ∈ rest, request.size ≤ (problem.request entry.2).size)
    (sorted : rest.Pairwise fun low high =>
      (problem.request low.2).offset ≤ (problem.request high.2).offset) :
    Scanned problem request (seen ++ rest) [] (rest.foldl (scanStep problem request) scan) := by
  induction rest generalizing seen scan with
  | nil => simpa using scanned
  | cons entry rest ih =>
      rw [List.pairwise_cons] at sorted
      have next := scanned_step problem request seen rest scan entry scanned
        (larger entry List.mem_cons_self) sorted.1
      have last := ih (seen ++ [entry]) _ next
        (fun other member => larger other (List.mem_cons_of_mem _ member)) sorted.2
      simpa using last

/-- The offset lies at zero or on top of a placed request, clear of all that is live at the same
time. -/
theorem findOffset_clear (problem : Problem) (request : VarRequest) (allocated : List (Int × Nat))
    (larger : ∀ entry ∈ allocated, request.size ≤ (problem.request entry.2).size)
    (sorted : allocated.Pairwise fun low high =>
      (problem.request low.2).offset ≤ (problem.request high.2).offset) :
    let offset := findOffset problem request allocated
    (offset = 0 ∨ ∃ entry ∈ allocated, offset = (problem.request entry.2).stop) ∧
    ∀ entry ∈ allocated, conflicts request (problem.request entry.2) →
      (problem.request entry.2).stop ≤ offset ∨
        offset + request.size ≤ (problem.request entry.2).offset := by
  have start : Scanned problem request [] allocated {} :=
    ⟨Or.inl rfl, le_rfl, by simp, Or.inl (by decide)⟩
  obtain ⟨origin, _, above, best⟩ := scanned_run problem request [] allocated {} start larger sorted
  simp only [List.nil_append] at origin above best
  unfold findOffset
  generalize allocated.foldl (scanStep problem request) {} = scan at *
  by_cases none : scan.offsetBest < 0
  · simp only [none, ↓reduceIte]
    exact ⟨origin, fun entry member live => Or.inl (above entry member live)⟩
  · simp only [none, ↓reduceIte]
    obtain ⟨bestOrigin, bestSeen, _⟩ := best.resolve_left none
    exact ⟨bestOrigin, bestSeen⟩

theorem emplace_perm (entry : Int × Nat) (entries : List (Int × Nat)) :
    (emplace entry entries).Perm (entry :: entries) := by
  induction entries with
  | nil => exact List.Perm.refl _
  | cons head rest ih =>
      by_cases first : head.1 ≤ entry.1
      · simpa [emplace, first] using (ih.cons head).trans (List.Perm.swap entry head rest)
      · simp [emplace, first]

theorem emplace_sorted (entry : Int × Nat) (entries : List (Int × Nat))
    (sorted : entries.Pairwise fun low high => low.1 ≤ high.1) :
    (emplace entry entries).Pairwise fun low high => low.1 ≤ high.1 := by
  induction entries with
  | nil => exact List.pairwise_singleton _ _
  | cons head rest ih =>
      rw [List.pairwise_cons] at sorted
      by_cases first : head.1 ≤ entry.1
      · simp only [emplace, first, ↓reduceIte, List.pairwise_cons]
        refine ⟨fun other member => ?_, ih sorted.2⟩
        rcases List.mem_cons.mp ((emplace_perm entry rest).mem_iff.mp member) with rfl | old
        · exact first
        · exact sorted.1 other old
      · simp only [emplace, first, ↓reduceIte, List.pairwise_cons]
        refine ⟨fun other member => ?_, sorted.1, sorted.2⟩
        rcases List.mem_cons.mp member with rfl | old
        · omega
        · have := sorted.1 other old
          omega

end TtMlir.Planner
