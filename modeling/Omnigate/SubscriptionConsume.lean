import Omnigate.SubscriptionStore

/-! The transactions that move `AmountUsed`: pre-consumption by request id, settlement deltas, refund and periodic
reset. The refund of a record adjusts the subscription in a transaction of its own, inside the one that holds the
record; the two take separate fault scripts. -/
namespace Omnigate.SubscriptionConsume

open SubscriptionPlan SubscriptionStore Table Text Transaction

def resetBase (sub : UserSubscription) : Int :=
  if sub.lastResetTime ≤ 0 then sub.startTime else sub.lastResetTime

def dueReset (cal : Calendar) (sub : UserSubscription) (plan : Plan) (now : Int) :
    Option UserSubscription :=
  if 0 < sub.nextResetTime ∧ now < sub.nextResetTime then none
  else if normalizeResetPeriod plan.quotaResetPeriod = .never then none
  else
    let boundary := calcNextResetTime cal (resetBase sub) plan sub.endTime
    if 0 < boundary ∧ boundary ≤ now then
      let (base,next) := advance cal plan sub.endTime now (resetBase sub) boundary
      some {sub with amountUsed := 0, lastResetTime := base, nextResetTime := next}
    else if sub.nextResetTime = 0 ∧ 0 < boundary then
      some {sub with nextResetTime := boundary, lastResetTime := resetBase sub}
    else none

def maybeResetUserSubscriptionWithPlanTx (cal : Calendar) (sub : UserSubscription) (plan : Plan)
    (now : Int) : SubTx UserSubscription :=
  match dueReset cal sub plan now with
  | none => pure sub
  | some row => do
    saveSub row
    return row

structure SubscriptionPreConsumeResult where
  (userSubscriptionId preConsumed amountTotal amountUsedBefore amountUsedAfter : Int)
  deriving DecidableEq, Repr

def alreadyRefunded : String := "subscription pre-consume already refunded"

def noActiveSubscription : String := "no active subscription"

def quotaInsufficient (amount : Int) : String :=
  "subscription quota insufficient, need=" ++ toString amount

def createRecord (record : SubscriptionPreConsumeRecord) : SubTx Unit := insert (fun db =>
  match db.record record.requestId with
  | some _ => .error "duplicate key value violates unique constraint"
  | none => .ok {db with records := db.records ++ [record]})

def replayRecord (existing : SubscriptionPreConsumeRecord) : SubTx SubscriptionPreConsumeResult :=
  if existing.status = .refunded then fail alreadyRefunded
  else do
    let sub ← first (fun db => db.sub existing.userSubscriptionId) recordNotFound
    return ⟨sub.id,existing.preConsumed,sub.amountTotal,sub.amountUsed,sub.amountUsed⟩

def replayDuplicate (requestId : String) (sub : UserSubscription) (err : String) :
    SubTx SubscriptionPreConsumeResult := do
  match ← attempt (first (fun db => db.record requestId) recordNotFound) with
  | .error _ => fail err
  | .ok dup =>
    if dup.status = .refunded then fail alreadyRefunded
    else return ⟨sub.id,dup.preConsumed,sub.amountTotal,sub.amountUsed,sub.amountUsed⟩

def consumeFrom (requestId : String) (userId amount : Int) (sub : UserSubscription) :
    SubTx SubscriptionPreConsumeResult := do
  match ← attempt (createRecord ⟨requestId,userId,sub.id,amount,.consumed⟩) with
  | .error err => replayDuplicate requestId sub err
  | .ok _ =>
    saveSub {sub with amountUsed := sub.amountUsed + amount}
    return ⟨sub.id,amount,sub.amountTotal,sub.amountUsed,sub.amountUsed + amount⟩

/- The candidates in order of expiry. Each is reset first when its period is over; one without enough left keeps that
reset. -/
def consumeFirst (cal : Calendar) (requestId : String) (userId amount now : Int)
    (plans : UserSubscription → Except String Plan) :
    List UserSubscription → SubTx SubscriptionPreConsumeResult
  | [] => fail (quotaInsufficient amount)
  | candidate::rest => do
    let plan ← ofResult (getSubscriptionPlanById candidate.planId (plans candidate))
    let sub ← maybeResetUserSubscriptionWithPlanTx cal candidate plan now
    if 0 < sub.amountTotal ∧ sub.amountTotal - sub.amountUsed < amount then
      consumeFirst cal requestId userId amount now plans rest
    else consumeFrom requestId userId amount sub

def activeCandidates (userId now : Int) (db : Db) : List UserSubscription :=
  (db.subs.filter (fun s => s.userId = userId ∧ isActive now s)).insertionSort (endsBefore · ·)

/- The lookup of an existing record takes no lock, so it may answer from before a concurrent request: `seen` is the
table it reads. -/
def preConsumeTx (cal : Calendar) (requestId : String) (userId amount now : Int)
    (seen : Db → List SubscriptionPreConsumeRecord)
    (plans : UserSubscription → Except String Plan) : SubTx SubscriptionPreConsumeResult := do
  let existing ← query (fun db =>
    lookup SubscriptionPreConsumeRecord.requestId requestId (seen db))
  match existing with
  | some record => replayRecord record
  | none =>
    match ← attempt (query (activeCandidates userId now)) with
    | .error _ => fail noActiveSubscription
    | .ok [] => fail noActiveSubscription
    | .ok subs => consumeFirst cal requestId userId amount now plans subs

def preConsumeUserSubscription (cal : Calendar) (requestId : String) (userId amount now : Int)
    (seen : Db → List SubscriptionPreConsumeRecord) (plans : UserSubscription → Except String Plan)
    (faults : List (Option String)) (db : Db) : Except String SubscriptionPreConsumeResult × Db :=
  if userId ≤ 0 then (.error "invalid userId",db)
  else if trimSpace requestId = "" then (.error "requestId is empty",db)
  else if amount ≤ 0 then (.error "amount must be > 0",db)
  else atomically (preConsumeTx cal requestId userId amount now seen plans) faults db

def clampUsed (used delta : Int) : Int := if used + delta < 0 then 0 else used + delta

def usedExceedsTotal (used total : Int) : String :=
  "subscription used exceeds total, used=" ++ toString used ++ " total=" ++ toString total

def postConsumeTx (userSubscriptionId delta : Int) : SubTx Unit := do
  let sub ← first (fun db => db.sub userSubscriptionId) recordNotFound
  let newUsed := clampUsed sub.amountUsed delta
  if 0 < sub.amountTotal ∧ sub.amountTotal < newUsed then fail (usedExceedsTotal newUsed sub.amountTotal)
  else saveSub {sub with amountUsed := newUsed}

def postConsumeUserSubscriptionDelta (userSubscriptionId delta : Int) (faults : List (Option String))
    (db : Db) : Except String Unit × Db :=
  if userSubscriptionId ≤ 0 then (.error "invalid userSubscriptionId",db)
  else if delta = 0 then (.ok (),db)
  else atomically (postConsumeTx userSubscriptionId delta) faults db

inductive RefundProgress where
  | commitOnly
  | saveRecord (record : SubscriptionPreConsumeRecord)
  deriving DecidableEq, Repr

def refundAdjust (requestId : String) (lockFault : Option String) (inner : List (Option String))
    (db : Db) : Except String RefundProgress × Db :=
  if trimSpace requestId = "" then (.error "requestId is empty",db)
  else match lockFault with
    | some err => (.error err,db)
    | none => match db.record requestId with
      | none => (.error recordNotFound,db)
      | some record =>
        if record.status = .refunded then (.ok .commitOnly,db)
        else if record.preConsumed ≤ 0 then (.ok (.saveRecord record),db)
        else match postConsumeUserSubscriptionDelta record.userSubscriptionId (-record.preConsumed) inner db with
          | (.error err,after) => (.error err,after)
          | (.ok _,after) => (.ok (.saveRecord record),after)

def refundFinish (progress : RefundProgress) (outer : List (Option String)) (db : Db) :
    Except String Unit × Db :=
  match progress with
  | .commitOnly => atomically (pure ()) outer db
  | .saveRecord record => atomically (exec (fun db => db.putRecord {record with status := .refunded})) outer db

def refundSubscriptionPreConsume (requestId : String) (lockFault : Option String)
    (inner outer : List (Option String)) (db : Db) : Except String Unit × Db :=
  match refundAdjust requestId lockFault inner db with
  | (.error err,after) => (.error err,after)
  | (.ok progress,after) => refundFinish progress outer after

/- The listing of `ResetDueSubscriptions` and one row of its loop. A row without a plan is left alone; one that is
gone or no longer due counts as done. -/
def isDue (now : Int) (sub : UserSubscription) : Bool :=
  0 < sub.nextResetTime ∧ sub.nextResetTime ≤ now

def dueSubscriptions (limit now : Int) (db : Db) : List UserSubscription :=
  ((db.subs.filter (fun s => isDue now s ∧ s.status = .active)).insertionSort
    (fun a b => a.nextResetTime ≤ b.nextResetTime)).take (if limit ≤ 0 then 200 else limit.toNat)

def resetDueTx (cal : Calendar) (id : Int) (plan : Plan) (now : Int) : SubTx Nat := do
  match ← attempt (first (fun db => (db.subs.filter (isDue now)).find? (fun s => s.id = id)) recordNotFound) with
  | .error _ => return 0
  | .ok locked =>
    let _ ← maybeResetUserSubscriptionWithPlanTx cal locked plan now
    return 1

/- The counter is advanced inside the transaction, before its commit can fail. -/
def resetDueRow (cal : Calendar) (sub : UserSubscription) (found : Except String Plan) (now : Int)
    (faults : List (Option String)) (db : Db) : Except String Unit × Nat × Db :=
  match getSubscriptionPlanById sub.planId found with
  | .error _ => (.ok (),0,db)
  | .ok plan =>
    let counted := match resetDueTx cal sub.id plan now ⟨db,faults⟩ with
      | .ok (n,_) => n
      | .error _ => 0
    let (result,after) := atomically (resetDueTx cal sub.id plan now) faults db
    (result.map (fun _ => ()),counted,after)

end Omnigate.SubscriptionConsume
