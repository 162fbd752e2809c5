import Omnigate.Text

/-! Subscription plans and their calendar arithmetic. The time zone is a parameter: of `time.Date` and `AddDate` the
code relies on the next day, the next Monday and the first of the next month starting after the moment they are taken
at. -/
namespace Omnigate.SubscriptionPlan

open Text

inductive DurationUnit where
  | year | month | day | hour | custom | other (text : String)
  deriving DecidableEq, Repr

inductive ResetPeriod where
  | never | daily | weekly | monthly | custom
  deriving DecidableEq, Repr

structure Calendar where
  addDate : Int → Int → Int → Int
  (nextDay nextMonday nextMonth : Int → Int)
  dayLater : ∀ t, t < nextDay t
  mondayLater : ∀ t, t < nextMonday t
  monthLater : ∀ t, t < nextMonth t

structure Plan where
  id : Int
  title : String
  durationUnit : DurationUnit
  (durationValue customSeconds : Int)
  allowWalletOverflow : Option Bool
  maxPurchasePerUser : Int
  (upgradeGroup downgradeGroup : String)
  totalAmount : Int
  quotaResetPeriod : String
  quotaResetCustomSeconds : Int
  deriving DecidableEq, Repr

def calcPlanEndTime (cal : Calendar) (start : Int) (plan : Plan) : Except String Int :=
  if plan.durationValue ≤ 0 ∧ plan.durationUnit ≠ .custom then .error "duration_value must be > 0"
  else match plan.durationUnit with
    | .year => .ok (cal.addDate start plan.durationValue 0)
    | .month => .ok (cal.addDate start 0 plan.durationValue)
    | .day => .ok (start + plan.durationValue*24*3600)
    | .hour => .ok (start + plan.durationValue*3600)
    | .custom =>
      if plan.customSeconds ≤ 0 then .error "custom_seconds must be > 0"
      else .ok (start + plan.customSeconds)
    | .other text => .error ("invalid duration_unit: " ++ text)

def normalizeResetPeriod (period : String) : ResetPeriod :=
  if trimSpace period = "daily" then .daily
  else if trimSpace period = "weekly" then .weekly
  else if trimSpace period = "monthly" then .monthly
  else if trimSpace period = "custom" then .custom
  else .never

def getSubscriptionPlanById (id : Int) (found : Except String Plan) : Except String Plan :=
  if id ≤ 0 then .error "invalid plan id"
  else found.map (fun plan => {plan with allowWalletOverflow := some (plan.allowWalletOverflow.getD true)})

def nextBoundary (cal : Calendar) (base : Int) (plan : Plan) : Option Int :=
  match normalizeResetPeriod plan.quotaResetPeriod with
  | .daily => some (cal.nextDay base)
  | .weekly => some (cal.nextMonday base)
  | .monthly => some (cal.nextMonth base)
  | .custom =>
    if plan.quotaResetCustomSeconds ≤ 0 then none
    else some (base + plan.quotaResetCustomSeconds)
  | .never => none

def calcNextResetTime (cal : Calendar) (base : Int) (plan : Plan) (endUnix : Int) : Int :=
  match nextBoundary cal base plan with
  | none => 0
  | some next => if 0 < endUnix ∧ endUnix < next then 0 else next

theorem nextBoundaryLater (h : nextBoundary cal base plan = some next) :
    base < next := by
  unfold nextBoundary at h
  split at h
  case h_1 => cases h; exact cal.dayLater base
  case h_2 => cases h; exact cal.mondayLater base
  case h_3 => cases h; exact cal.monthLater base
  case h_4 =>
    split at h <;> cases h
    omega
  case h_5 => cases h

theorem calcNextResetLater (h : 0 < calcNextResetTime cal base plan endUnix) :
    base < calcNextResetTime cal base plan endUnix := by
  unfold calcNextResetTime at h ⊢
  cases boundary : nextBoundary cal base plan with
  | none => simp [boundary] at h
  | some =>
    simp only [boundary] at h ⊢
    split at h
    · exact absurd h (lt_irrefl 0)
    rename_i within
    rw [if_neg within]
    exact nextBoundaryLater boundary

def advance (cal : Calendar) (plan : Plan) (endUnix now base next : Int) : Int × Int :=
  if 0 < next ∧ next ≤ now then
    advance cal plan endUnix now next (calcNextResetTime cal next plan endUnix)
  else (base,next)
termination_by if 0 < next ∧ next ≤ now then (now - next).toNat + 1 else 0
decreasing_by
  rename_i due
  simp only [if_pos due]
  by_cases again : 0 < calcNextResetTime cal next plan endUnix
  · have later := calcNextResetLater again
    split <;> omega
  · rw [if_neg (fun h => again h.1)]
    omega

namespace Utc

def day (t : Int) : Int := t / 86400

def yearOfEra (d : Int) : Int := (d - d/1460 + d/36524 - d/146096) / 365

def civil (z : Int) : Int × Int × Int :=
  let shifted := z + 719468
  let era := shifted / 146097
  let ofEra := shifted - era*146097
  let year := yearOfEra ofEra
  let ofYear := ofEra - (365*year + year/4 - year/100)
  let month := (5*ofYear + 2) / 153
  let m := if month < 10 then month + 3 else month - 9
  (if m ≤ 2 then year + era*400 + 1 else year + era*400,m,ofYear - (153*month + 2)/5 + 1)

def fromCivil (y m d : Int) : Int :=
  let year := if m ≤ 2 then y - 1 else y
  let era := year / 400
  let ofEra := year - era*400
  let ofYear := (153*(if m > 2 then m - 3 else m + 9) + 2)/5 + d - 1
  era*146097 + ofEra*365 + ofEra/4 - ofEra/100 + ofYear - 719468

/- `AddDate` keeps the day of the month and lets an overflow run into the next one. -/
def addDate (t years months : Int) : Int :=
  let (y,m,d) := civil (day t)
  let month := m - 1 + months
  (fromCivil (y + years + month/12) (month % 12 + 1) 1 + d - 1)*86400 + t % 86400

def nextMonday (t : Int) : Int := (day t + (7 - (day t + 3) % 7))*86400

def firstOfMonth (z : Int) : Nat → Int
  | 0 => z
  | n+1 => if (civil z).2.2 = 1 then z else firstOfMonth (z + 1) n

theorem firstOfMonthLater (z) (n : Nat) : z ≤ firstOfMonth z n := by
  induction n generalizing z with
  | zero => exact le_refl z
  | succ n ih =>
    unfold firstOfMonth
    split
    · exact le_refl z
    · have := ih (z + 1); omega

end Utc

def utc : Calendar where
  addDate := Utc.addDate
  nextDay t := (Utc.day t + 1)*86400
  nextMonday := Utc.nextMonday
  nextMonth t := Utc.firstOfMonth (Utc.day t + 1) 31 * 86400
  dayLater t := by unfold Utc.day; omega
  mondayLater t := by unfold Utc.nextMonday Utc.day; omega
  monthLater t := by
    have := Utc.firstOfMonthLater (Utc.day t + 1) 31
    unfold Utc.day at *
    omega

end Omnigate.SubscriptionPlan
