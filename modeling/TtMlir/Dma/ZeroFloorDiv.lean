import TtMlir.Dma.RangeAnalysis

/-!
`simplifyZeroFloorDiv`: a floor division becomes zero when the moduli in its
dividend add up to less than the divisor. The sum bounds the dividend from
above only while no multiplier is negative, and says nothing of its sign.
-/

namespace TtMlir

def AffineExpr.subexpressions : AffineExpr → List AffineExpr
  | .dim position => [.dim position]
  | .sym position => [.sym position]
  | .const value => [.const value]
  | .add lhs rhs => .add lhs rhs :: (lhs.subexpressions ++ rhs.subexpressions)
  | .mul lhs rhs => .mul lhs rhs :: (lhs.subexpressions ++ rhs.subexpressions)
  | .mod lhs rhs => .mod lhs rhs :: (lhs.subexpressions ++ rhs.subexpressions)
  | .floorDiv lhs rhs => .floorDiv lhs rhs :: (lhs.subexpressions ++ rhs.subexpressions)
  | .ceilDiv lhs rhs => .ceilDiv lhs rhs :: (lhs.subexpressions ++ rhs.subexpressions)

namespace Dma

def scaledModuli (factor : Option Int) : AffineExpr → Option Int
  | .const value => factor.map (· * value)
  | _ => none

def getSumOfModuli : AffineExpr → Option Int
  | .add lhs rhs => bothBounds (· + ·) (getSumOfModuli lhs) (getSumOfModuli rhs)
  | .mod _ (.const value) => some (value - 1)
  | .mul lhs rhs =>
      (scaledModuli (getSumOfModuli lhs) rhs).or (scaledModuli (getSumOfModuli rhs) lhs)
  | _ => none

def moduliBelow (lhs rhs : AffineExpr) : Bool :=
  match rhs, getSumOfModuli lhs with
  | .const divisor, some modSum => decide (modSum < divisor)
  | _, _ => false

section Simplify
variable (build : AffineBuilder)

def simplifyZeroFloorDivExpr : AffineExpr → AffineExpr
  | .dim position => .dim position
  | .sym position => .sym position
  | .const value => .const value
  | .floorDiv lhs rhs =>
      let lhs := simplifyZeroFloorDivExpr lhs
      let rhs := simplifyZeroFloorDivExpr rhs
      if moduliBelow lhs rhs then .const 0 else build.floorDiv lhs rhs
  | .add lhs rhs => build.add (simplifyZeroFloorDivExpr lhs) (simplifyZeroFloorDivExpr rhs)
  | .mul lhs rhs => build.mul (simplifyZeroFloorDivExpr lhs) (simplifyZeroFloorDivExpr rhs)
  | .mod lhs rhs => build.mod (simplifyZeroFloorDivExpr lhs) (simplifyZeroFloorDivExpr rhs)
  | .ceilDiv lhs rhs => build.ceilDiv (simplifyZeroFloorDivExpr lhs) (simplifyZeroFloorDivExpr rhs)

def simplifyZeroFloorDiv (map : AffineMap) : AffineMap :=
  { map with results := map.results.map (simplifyZeroFloorDivExpr build) }

theorem zeroFloorDiv_floorDiv (lhs : AffineExpr) (divisor : Int) :
    simplifyZeroFloorDivExpr build (.floorDiv lhs (.const divisor)) =
      if moduliBelow (simplifyZeroFloorDivExpr build lhs) (.const divisor) then .const 0
      else build.floorDiv (simplifyZeroFloorDivExpr build lhs) (.const divisor) := rfl

end Simplify

section Exact
variable (build : AffineBuilder) (dims syms : List Int)

/-- Every dividend whose floor division the rewrite drops lies between zero and its divisor. -/
def DroppedQuotientsZero : AffineExpr → Prop
  | .dim _ | .sym _ | .const _ => True
  | .floorDiv lhs rhs =>
      DroppedQuotientsZero lhs ∧ DroppedQuotientsZero rhs ∧
        (moduliBelow (simplifyZeroFloorDivExpr build lhs) (simplifyZeroFloorDivExpr build rhs) = true →
          0 ≤ lhs.eval dims syms ∧ lhs.eval dims syms < rhs.eval dims syms)
  | .add lhs rhs | .mul lhs rhs | .mod lhs rhs | .ceilDiv lhs rhs =>
      DroppedQuotientsZero lhs ∧ DroppedQuotientsZero rhs

def SameValue (expr : AffineExpr) : Prop :=
  (simplifyZeroFloorDivExpr build expr).eval dims syms = expr.eval dims syms

theorem quotient_zero_iff (dividend divisor : Int) (positive : 0 < divisor) :
    dividend / divisor = 0 ↔ 0 ≤ dividend ∧ dividend < divisor := by
  constructor
  · intro zero
    have split := Int.mul_ediv_add_emod dividend divisor
    have low := Int.emod_nonneg dividend positive.ne'
    have high := Int.emod_lt_of_pos dividend positive
    rw [zero] at split
    omega
  · rintro ⟨low, high⟩
    exact Int.ediv_eq_zero_of_lt low high

theorem floorDiv_same_iff (sound : build.Sound) (lhs : AffineExpr) (divisor : Int) (positive : 0 < divisor)
    (same : SameValue build dims syms lhs) :
    SameValue build dims syms (.floorDiv lhs (.const divisor)) ↔
      (moduliBelow (simplifyZeroFloorDivExpr build lhs) (.const divisor) = true →
        0 ≤ lhs.eval dims syms ∧ lhs.eval dims syms < divisor) := by
  have isPositive : 0 < (AffineExpr.const divisor).eval dims syms := positive
  rw [SameValue, zeroFloorDiv_floorDiv]
  split
  case isTrue below =>
    rw [← quotient_zero_iff _ _ positive]
    constructor
    · intro zero _
      exact zero.symm
    · intro zero
      exact (zero below).symm
  case isFalse kept =>
    rw [sound.floorDiv _ _ _ _ isPositive, same]
    simp [kept, AffineExpr.eval]

theorem droppedQuotientsZero_sameValue (sound : build.Sound) (expr : AffineExpr)
    (divisors : expr.divisorsPositive = true) (zero : DroppedQuotientsZero build dims syms expr) :
    SameValue build dims syms expr := by
  have constPositive (value : Int) (positive : 0 < value) :
      0 < (simplifyZeroFloorDivExpr build (.const value)).eval dims syms := positive
  induction expr with
  | dim _ | sym _ | const _ => rfl
  | add lhs rhs left right =>
      simp only [AffineExpr.divisorsPositive, Bool.and_eq_true] at divisors
      rw [SameValue, simplifyZeroFloorDivExpr, sound.add, left divisors.1 zero.1, right divisors.2 zero.2]
      rfl
  | mul lhs rhs left right =>
      simp only [AffineExpr.divisorsPositive, Bool.and_eq_true] at divisors
      rw [SameValue, simplifyZeroFloorDivExpr, sound.mul, left divisors.1 zero.1, right divisors.2 zero.2]
      rfl
  | mod lhs rhs left _ =>
      obtain ⟨lhsDivisors, value, rfl, positive⟩ :=
        AffineExpr.divisor_const rhs lhs .mod (Or.inl rfl) divisors
      rw [SameValue, simplifyZeroFloorDivExpr, sound.mod _ _ _ _ (constPositive value positive),
        left lhsDivisors zero.1]
      rfl
  | floorDiv lhs rhs left _ =>
      obtain ⟨lhsDivisors, value, rfl, positive⟩ :=
        AffineExpr.divisor_const rhs lhs .floorDiv (Or.inr (Or.inl rfl)) divisors
      exact (floorDiv_same_iff build dims syms sound lhs value positive (left lhsDivisors zero.1)).mpr zero.2.2
  | ceilDiv lhs rhs left _ =>
      obtain ⟨lhsDivisors, value, rfl, positive⟩ :=
        AffineExpr.divisor_const rhs lhs .ceilDiv (Or.inr (Or.inr rfl)) divisors
      rw [SameValue, simplifyZeroFloorDivExpr, sound.ceilDiv _ _ _ _ (constPositive value positive),
        left lhsDivisors zero.1]
      rfl

theorem self_mem_subexpressions (expr : AffineExpr) : expr ∈ expr.subexpressions := by
  cases expr <;> simp [AffineExpr.subexpressions]

theorem sameValues_droppedQuotientsZero (sound : build.Sound) (expr : AffineExpr)
    (divisors : expr.divisorsPositive = true)
    (same : ∀ inner ∈ expr.subexpressions, SameValue build dims syms inner) :
    DroppedQuotientsZero build dims syms expr := by
  induction expr with
  | dim _ | sym _ | const _ => trivial
  | add lhs rhs left right | mul lhs rhs left right =>
      simp only [AffineExpr.divisorsPositive, Bool.and_eq_true] at divisors
      simp only [AffineExpr.subexpressions, List.forall_mem_cons, List.forall_mem_append] at same
      exact ⟨left divisors.1 same.2.1, right divisors.2 same.2.2⟩
  | mod lhs rhs left _ =>
      obtain ⟨lhsDivisors, value, rfl, _⟩ := AffineExpr.divisor_const rhs lhs .mod (Or.inl rfl) divisors
      simp only [AffineExpr.subexpressions, List.forall_mem_cons, List.forall_mem_append] at same
      exact ⟨left lhsDivisors same.2.1, trivial⟩
  | ceilDiv lhs rhs left _ =>
      obtain ⟨lhsDivisors, value, rfl, _⟩ :=
        AffineExpr.divisor_const rhs lhs .ceilDiv (Or.inr (Or.inr rfl)) divisors
      simp only [AffineExpr.subexpressions, List.forall_mem_cons, List.forall_mem_append] at same
      exact ⟨left lhsDivisors same.2.1, trivial⟩
  | floorDiv lhs rhs left _ =>
      obtain ⟨lhsDivisors, value, rfl, positive⟩ :=
        AffineExpr.divisor_const rhs lhs .floorDiv (Or.inr (Or.inl rfl)) divisors
      simp only [AffineExpr.subexpressions, List.forall_mem_cons, List.forall_mem_append] at same
      obtain ⟨whole, inLhs, _⟩ := same
      have lhsSame := inLhs lhs (self_mem_subexpressions lhs)
      exact ⟨left lhsDivisors inLhs, trivial,
        (floorDiv_same_iff build dims syms sound lhs value positive lhsSame).mp whole⟩

end Exact

end Dma

end TtMlir
