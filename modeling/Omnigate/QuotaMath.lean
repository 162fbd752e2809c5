import Mathlib.Tactic

/-! Conversion of computed quota values to the stored 32-bit range. Floats and decimals are exact rationals, so the
NaN branch does not arise and only the final conversion rounds. -/
namespace Omnigate.QuotaMath

def maxQuota : Int := 2147483647
def minQuota : Int := -2147483648

inductive ClampKind where
  | overflow | underflow
  deriving DecidableEq, Repr

structure QuotaClamp where
  op : String
  kind : ClampKind
  original : ℚ
  clamped : Int
  deriving DecidableEq

/- Go's conversion of a float to an integer, and `IntPart` of a decimal. -/
def truncate (value : ℚ) : Int := if 0 ≤ value then ⌊value⌋ else ⌈value⌉

def round (value : ℚ) : Int := if 0 ≤ value then ⌊value + 1 / 2⌋ else ⌈value - 1 / 2⌉

def saturateQuota (value : ℚ) (op : String) : Int × Option QuotaClamp :=
  if (maxQuota : ℚ) ≤ value then (maxQuota,some ⟨op,.overflow,value,maxQuota⟩)
  else if value ≤ (minQuota : ℚ) then (minQuota,some ⟨op,.underflow,value,minQuota⟩)
  else (truncate value,none)

def quotaFromFloatChecked (value : ℚ) : Int × Option QuotaClamp := saturateQuota value "QuotaFromFloat"

def quotaFromFloat (value : ℚ) : Int := (quotaFromFloatChecked value).1

/- The error text of a clamp; how a float is printed is left open. -/
def clampText (formatFloat : ℚ → String) (clamp : QuotaClamp) : String :=
  let kind := match clamp.kind with
    | .overflow => "overflow"
    | .underflow => "underflow"
  "quota conversion (" ++ clamp.op ++ ") " ++ kind ++ ": original=" ++ formatFloat clamp.original ++
    ", clamped=" ++ toString clamp.clamped

def quotaFromFloatStrict (value : ℚ) : Except QuotaClamp Int :=
  match quotaFromFloatChecked value with
  | (_,some clamp) => .error clamp
  | (quota,none) => .ok quota

def quotaFromDecimalChecked (value : ℚ) : Int × Option QuotaClamp :=
  saturateQuota (round value) "QuotaFromDecimal"

def quotaFromDecimal (value : ℚ) : Int := (quotaFromDecimalChecked value).1

theorem quotaFromFloatZero : quotaFromFloatChecked 0 = (0,none) := by
  norm_num [quotaFromFloatChecked,saturateQuota,maxQuota,minQuota,truncate]

theorem saturateEq (value : ℚ) (op) :
    (saturateQuota value op).1 = max minQuota (min maxQuota (truncate value)) := by
  have signs : (0 : ℚ) < maxQuota ∧ (minQuota : ℚ) < 0 := by norm_num [minQuota,maxQuota]
  have order : minQuota ≤ maxQuota := by decide
  unfold saturateQuota
  split
  · rename_i high
    rw [truncate,if_pos (signs.1.le.trans high),min_eq_left (Int.le_floor.mpr high),max_eq_right order]
  rename_i high
  split
  · rename_i low
    rw [truncate,if_neg (not_le.mpr (low.trans_lt signs.2)),
      max_eq_left ((min_le_right _ _).trans (Int.ceil_le.mpr low))]
  rename_i low
  have within : truncate value ≤ maxQuota ∧ minQuota ≤ truncate value := by
    unfold truncate
    split
    · rename_i nonneg
      exact ⟨(Int.floor_lt.mpr (not_le.mp high)).le,le_trans (by decide) (Int.floor_nonneg.mpr nonneg)⟩
    · exact ⟨Int.ceil_le.mpr (not_le.mp high).le,(Int.lt_ceil.mpr (not_le.mp low)).le⟩
  rw [min_eq_right within.1,max_eq_right within.2]

theorem truncateInt (n : Int) : truncate n = n := by simp [truncate]

theorem quotaFromDecimalEq (value : ℚ) : quotaFromDecimal value = max minQuota (min maxQuota (round value)) :=
  (saturateEq (round value) "QuotaFromDecimal").trans (by rw [truncateInt])

def SameQuota (x y : ℚ) : Prop :=
  max minQuota (min maxQuota (truncate x)) = max minQuota (min maxQuota (truncate y))

theorem sameQuotaIff (x y : ℚ) : quotaFromFloat x = quotaFromFloat y ↔ SameQuota x y := by
  unfold quotaFromFloat quotaFromFloatChecked SameQuota
  rw [saturateEq,saturateEq]

theorem roundNonneg (nonneg : 0 ≤ value) : 0 ≤ round value := by
  unfold round
  rw [if_pos nonneg]
  exact Int.floor_nonneg.mpr (by linarith)

theorem roundMono (nonneg : 0 ≤ value) (le : value ≤ other) : round value ≤ round other := by
  unfold round
  rw [if_pos nonneg,if_pos (nonneg.trans le)]
  exact Int.floor_le_floor (by linarith)

theorem roundZero : round value = 0 ↔ |value| < 1 / 2 := by
  unfold round
  rw [abs_lt]
  split
  · rw [Int.floor_eq_zero_iff,Set.mem_Ico]
    constructor <;> rintro ⟨_,_⟩ <;> constructor <;> linarith
  rw [Int.ceil_eq_iff]
  push_cast
  constructor <;> rintro ⟨_,_⟩ <;> constructor <;> linarith

theorem quotaFromDecimalZero : quotaFromDecimal value = 0 ↔ |value| < 1 / 2 := by
  rw [quotaFromDecimalEq,← roundZero]
  unfold minQuota maxQuota
  omega

theorem quotaFromDecimalNonneg (nonneg : 0 ≤ value) : 0 ≤ (quotaFromDecimalChecked value).1 := by
  have rounded := roundNonneg nonneg
  show 0 ≤ quotaFromDecimal value
  rw [quotaFromDecimalEq]
  exact le_max_of_le_right (le_min (by decide) rounded)

end Omnigate.QuotaMath
