import Omnigate.SubscriptionPlan
import Omnigate.Table
import Omnigate.Transaction

/-! The subscription tables and the transactions that do not consume quota: creation from a plan, admin resets,
cancellation, deletion and expiry with their user-group transitions. -/
namespace Omnigate.SubscriptionStore

open SubscriptionPlan Table Text Transaction

inductive SubscriptionStatus where
  | active | expired | cancelled
  deriving DecidableEq, Repr

structure UserSubscription where
  (id userId planId amountTotal amountUsed startTime endTime : Int)
  status : SubscriptionStatus
  source : String
  (lastResetTime nextResetTime : Int)
  (upgradeGroup prevUserGroup downgradeGroup : String)
  allowWalletOverflow : Bool
  deriving DecidableEq, Repr

inductive RecordStatus where
  | consumed | refunded
  deriving DecidableEq, Repr

structure SubscriptionPreConsumeRecord where
  requestId : String
  (userId userSubscriptionId preConsumed : Int)
  status : RecordStatus
  deriving DecidableEq, Repr

structure UserGroup where
  userId : Int
  group : String
  deriving DecidableEq, Repr

structure Db where
  subs : List UserSubscription
  records : List SubscriptionPreConsumeRecord
  users : List UserGroup
  nextId : Int
  deriving DecidableEq, Repr

abbrev SubTx := Tx Db String

def recordNotFound : String := "record not found"

def Db.sub (db : Db) (id : Int) : Option UserSubscription := lookup UserSubscription.id id db.subs

def Db.record (db : Db) (requestId : String) : Option SubscriptionPreConsumeRecord :=
  lookup SubscriptionPreConsumeRecord.requestId requestId db.records

def Db.putSub (db : Db) (sub : UserSubscription) : Db :=
  {db with subs := save UserSubscription.id sub db.subs}

def Db.putRecord (db : Db) (record : SubscriptionPreConsumeRecord) : Db :=
  {db with records := save SubscriptionPreConsumeRecord.requestId record db.records}

def saveSub (sub : UserSubscription) : SubTx Unit := exec (fun db => db.putSub sub)

def endsBefore (a b : UserSubscription) : Bool :=
  a.endTime < b.endTime ∨ a.endTime = b.endTime ∧ a.id ≤ b.id

def userThenEnd (a b : UserSubscription) : Bool :=
  a.userId < b.userId ∨ a.userId = b.userId ∧ endsBefore a b

def isActive (now : Int) (sub : UserSubscription) : Bool := sub.status = .active ∧ now < sub.endTime

def latest (subs : List UserSubscription) : Option UserSubscription :=
  (subs.insertionSort (fun a b => endsBefore b a)).head?

def getUserGroupByIdTx (userId : Int) : SubTx String :=
  if userId ≤ 0 then fail "invalid userId"
  else query (fun db => ((lookup UserGroup.userId userId db.users).map UserGroup.group).getD "")

def setGroup (userId : Int) (group : String) : SubTx Unit := exec (fun db =>
  {db with users := updateWhere (fun u => u.userId = userId) (fun u => {u with group := group}) db.users})

/- The query for another upgraded subscription only counts when it does not fail. -/
def hasOtherUpgrade (sub : UserSubscription) (now : Int) : SubTx Bool := do
  let activeSub ← attempt (query (fun db => latest (db.subs.filter (fun s =>
    s.userId = sub.userId ∧ isActive now s ∧ s.id ≠ sub.id ∧ s.upgradeGroup ≠ ""))))
  return match activeSub with
    | .ok (some _) => true
    | _ => false

/- Where a subscription that ends takes its user: the explicit group, otherwise back to the group before if the
purchase raised it. -/
def downgradeTarget (sub : UserSubscription) (currentGroup : String) : String :=
  if trimSpace sub.downgradeGroup ≠ "" then trimSpace sub.downgradeGroup
  else if currentGroup ≠ trimSpace sub.upgradeGroup then ""
  else trimSpace sub.prevUserGroup

def moveToGroup (userId : Int) (currentGroup target : String) : SubTx String :=
  if target = "" ∨ target = currentGroup then pure ""
  else do
    setGroup userId target
    return target

def downgradeUserGroupForSubscriptionTx (sub : UserSubscription) (now : Int) : SubTx String :=
  if trimSpace sub.downgradeGroup = "" ∧ trimSpace sub.upgradeGroup = "" then pure ""
  else do
    let currentGroup ← getUserGroupByIdTx sub.userId
    if ← hasOtherUpgrade sub now then return ""
    else moveToGroup sub.userId currentGroup (downgradeTarget sub currentGroup)

def checkPurchaseLimit (userId : Int) (plan : Plan) : SubTx Unit :=
  if plan.maxPurchasePerUser ≤ 0 then pure ()
  else do
    let count ← query (fun db => db.subs.countP (fun s => s.userId = userId ∧ s.planId = plan.id))
    if plan.maxPurchasePerUser ≤ count then fail "已达到该套餐购买上限" else pure ()

def upgradeUserGroup (userId : Int) (upgradeGroup : String) : SubTx String :=
  if upgradeGroup = "" then pure ""
  else do
    let currentGroup ← getUserGroupByIdTx userId
    if currentGroup = upgradeGroup then return ""
    else
      setGroup userId upgradeGroup
      return currentGroup

def newSubscription (cal : Calendar) (userId : Int) (plan : Plan) (source : String)
    (nowUnix endUnix : Int) (prevGroup : String) (id : Int) : UserSubscription :=
  let nextReset := calcNextResetTime cal nowUnix plan endUnix
  { id := id, userId := userId, planId := plan.id, amountTotal := plan.totalAmount, amountUsed := 0,
    startTime := nowUnix, endTime := endUnix, status := .active, source := source,
    lastResetTime := if 0 < nextReset then nowUnix else 0, nextResetTime := nextReset,
    upgradeGroup := trimSpace plan.upgradeGroup, prevUserGroup := prevGroup,
    downgradeGroup := trimSpace plan.downgradeGroup,
    allowWalletOverflow := plan.allowWalletOverflow.getD true }

def createUserSubscriptionFromPlanTx (cal : Calendar) (userId : Int) (plan : Plan) (source : String)
    (nowUnix : Int) : SubTx UserSubscription :=
  if plan.id = 0 then fail "invalid plan"
  else if userId ≤ 0 then fail "invalid user id"
  else do
    checkPurchaseLimit userId plan
    let endUnix ← ofResult (calcPlanEndTime cal nowUnix plan)
    let prevGroup ← upgradeUserGroup userId (trimSpace plan.upgradeGroup)
    alter (fun db =>
      let sub := newSubscription cal userId plan source nowUnix endUnix prevGroup db.nextId
      (sub,{db with subs := db.subs ++ [sub], nextId := db.nextId + 1}))

def resetSubscription (cal : Calendar) (sub : UserSubscription) (plan : Plan) (now : Int)
    (advanceResetTime : Bool) : UserSubscription :=
  if advanceResetTime then
    let nextReset := calcNextResetTime cal now plan sub.endTime
    {sub with amountUsed := 0, nextResetTime := nextReset,lastResetTime := if 0 < nextReset then now else 0}
  else {sub with amountUsed := 0}

def resetUserSubscriptionTx (cal : Calendar) (sub : UserSubscription) (plan : Plan) (now : Int)
    (advanceResetTime : Bool) : SubTx Unit :=
  saveSub (resetSubscription cal sub plan now advanceResetTime)

def resetAll (cal : Calendar) (plan : Plan) (now : Int) (advanceResetTime : Bool) :
    List UserSubscription → SubTx Unit
  | [] => pure ()
  | sub::rest => do
    resetUserSubscriptionTx cal sub plan now advanceResetTime
    resetAll cal plan now advanceResetTime rest

structure SubscriptionResetResult where
  planId : Int
  (matchedCount resetCount userCount : Nat)
  advanceResetTime : Bool
  planTitle : String
  affectedUserIds : List Int
  deriving DecidableEq, Repr

def buildSubscriptionResetResult (plan : Plan) (subs : List UserSubscription)
    (advanceResetTime : Bool) : SubscriptionResetResult :=
  let userIds := (subs.map UserSubscription.userId).eraseDups
  ⟨plan.id,subs.length,subs.length,userIds.length,advanceResetTime,plan.title,userIds⟩

def adminResetUserSubscriptionsByPlanTx (cal : Calendar) (userId : Int) (plan : Plan) (now : Int)
    (advanceResetTime : Bool) : SubTx SubscriptionResetResult := do
  let subs ← query (fun db => (db.subs.filter (fun s =>
    s.userId = userId ∧ s.planId = plan.id ∧ isActive now s)).insertionSort (endsBefore · ·))
  if subs = [] then fail "该用户没有有效的此套餐订阅"
  else
    resetAll cal plan now advanceResetTime subs
    return buildSubscriptionResetResult plan subs advanceResetTime

def adminResetPlanSubscriptionsTx (cal : Calendar) (plan : Plan) (now : Int)
    (advanceResetTime : Bool) : SubTx SubscriptionResetResult := do
  let subs ← query (fun db => (db.subs.filter (fun s =>
    s.planId = plan.id ∧ isActive now s)).insertionSort (userThenEnd · ·))
  resetAll cal plan now advanceResetTime subs
  return buildSubscriptionResetResult plan subs advanceResetTime

def adminResetUserSubscriptionsByPlan (cal : Calendar) (userId planId now : Int)
    (advanceResetTime : Bool) (found : Except String Plan) (faults : List (Option String)) (db : Db) :
    Except String SubscriptionResetResult × Db :=
  if userId ≤ 0 ∨ planId ≤ 0 then (.error "invalid userId or planId",db)
  else atomically (do
    let plan ← ofResult (getSubscriptionPlanById planId found)
    adminResetUserSubscriptionsByPlanTx cal userId plan now advanceResetTime) faults db

def adminResetPlanSubscriptions (cal : Calendar) (planId now : Int) (advanceResetTime : Bool)
    (found : Except String Plan) (faults : List (Option String)) (db : Db) :
    Except String SubscriptionResetResult × Db :=
  if planId ≤ 0 then (.error "invalid planId",db)
  else atomically (do
    let plan ← ofResult (getSubscriptionPlanById planId found)
    adminResetPlanSubscriptionsTx cal plan now advanceResetTime) faults db

def groupNotice (target : String) : String :=
  if target = "" then "" else "用户分组将回退到 " ++ target

def cancel (now : Int) (sub : UserSubscription) : UserSubscription :=
  {sub with status := .cancelled, endTime := now}

def adminInvalidateUserSubscription (userSubscriptionId now : Int) (faults : List (Option String))
    (db : Db) : Except String String × Db :=
  if userSubscriptionId ≤ 0 then (.error "invalid userSubscriptionId",db)
  else atomically (do
    let sub ← first (fun db => db.sub userSubscriptionId) recordNotFound
    exec (fun db => {db with subs := updateWhere (fun s => s.id = sub.id) (cancel now) db.subs})
    let target ← downgradeUserGroupForSubscriptionTx (cancel now sub) now
    return groupNotice target) faults db

def adminDeleteUserSubscription (userSubscriptionId now : Int) (faults : List (Option String))
    (db : Db) : Except String String × Db :=
  if userSubscriptionId ≤ 0 then (.error "invalid userSubscriptionId",db)
  else atomically (do
    let sub ← first (fun db => db.sub userSubscriptionId) recordNotFound
    let target ← downgradeUserGroupForSubscriptionTx sub now
    exec (fun db => {db with subs := db.subs.filter (fun s => s.id ≠ userSubscriptionId)})
    return groupNotice target) faults db

def isExpiring (now : Int) (sub : UserSubscription) : Bool :=
  sub.status = .active ∧ 0 < sub.endTime ∧ sub.endTime ≤ now

/- The listing of `ExpireDueSubscriptions`: the users with a subscription to expire, in no fixed order. -/
def expiringUsers (limit now : Int) (db : Db) : List Int :=
  let due := ((db.subs.filter (isExpiring now)).insertionSort (endsBefore · ·)).take
    (if limit ≤ 0 then 200 else limit.toNat)
  ((due.map UserSubscription.userId).filter (fun u => 0 < u)).eraseDups

/- A query that failed or found nothing ends the transaction without a group change; as a downgrade target the last
expired subscription needs both groups. -/
def expiredTarget (lastExpired : UserSubscription) (currentGroup : String) : String :=
  if trimSpace lastExpired.downgradeGroup ≠ "" then trimSpace lastExpired.downgradeGroup
  else if trimSpace lastExpired.upgradeGroup = "" ∨ trimSpace lastExpired.prevUserGroup = "" then ""
  else if currentGroup ≠ trimSpace lastExpired.upgradeGroup then ""
  else trimSpace lastExpired.prevUserGroup

def revertExpiredGroup (userId now : Int) : SubTx String := do
  let activeSub ← attempt (query (fun db => latest (db.subs.filter (fun s =>
    s.userId = userId ∧ isActive now s ∧ s.upgradeGroup ≠ ""))))
  match activeSub with
  | .ok (some _) => return ""
  | _ =>
    let lastExpired ← attempt (query (fun db => latest (db.subs.filter (fun s =>
      s.userId = userId ∧ s.status = .expired ∧ (s.downgradeGroup ≠ "" ∨ s.upgradeGroup ≠ "")))))
    match lastExpired with
    | .ok (some sub) =>
      let currentGroup ← getUserGroupByIdTx userId
      moveToGroup userId currentGroup (expiredTarget sub currentGroup)
    | _ => return ""

def isExpiringOf (userId now : Int) (sub : UserSubscription) : Bool :=
  sub.userId = userId ∧ isExpiring now sub

def expire (sub : UserSubscription) : UserSubscription := {sub with status := .expired}

def expireUserTx (userId now : Int) : SubTx Unit := do
  exec (fun db => {db with subs := updateWhere (isExpiringOf userId now) expire db.subs})
  let _ ← revertExpiredGroup userId now
  return ()

/- One user of `ExpireDueSubscriptions`. The counter is advanced by the update statement and not taken back when the
transaction fails later. -/
def expireUser (userId now : Int) (faults : List (Option String)) (db : Db) :
    Except String Unit × Nat × Db :=
  let (result,after) := atomically (expireUserTx userId now) faults db
  let affected := match faults with
    | some _::_ => 0
    | _ => db.subs.countP (isExpiringOf userId now)
  (result,affected,after)

end Omnigate.SubscriptionStore
