import Omnigate.Accounts

/-! One row of the tasks table and the single statements on it. Which rows a listing returns is up to the scheduler.
-/
namespace Omnigate.TaskRow

open Accounts

inductive TaskStatus where
  | notStart | submitted | queued | inProgress | failure | success | unknown
  | other (text : String)
  deriving DecidableEq, Repr

def terminal (status : TaskStatus) : Bool := status = .success ∨ status = .failure

structure TaskBillingContext where
  otherRatios : List (String × ℚ)
  originModelName : String
  perCallBilling : Bool
  deriving DecidableEq

structure TaskPrivateData where
  resultURL : String
  billingSource : Option BillingSource
  (subscriptionId tokenId : Int)
  billingContext : Option TaskBillingContext
  deriving DecidableEq

structure Task where
  updatedAt : Int
  (taskID group : String)
  quota : Int
  status : TaskStatus
  failReason : String
  (submitTime startTime finishTime : Int)
  (progress originModelName : String)
  privateData : TaskPrivateData
  data : List UInt8
  deriving DecidableEq

structure TaskSnapshot where
  status : TaskStatus
  progress : String
  (startTime finishTime : Int)
  (failReason resultURL : String)
  data : List UInt8
  deriving DecidableEq

def snapshot (task : Task) : TaskSnapshot :=
  ⟨task.status,task.progress,task.startTime,task.finishTime,task.failReason,task.privateData.resultURL,task.data⟩

def taskRefundLegacyCutoff : Int := 1740182400

def unFinishSync (row : Task) : Bool := row.progress ≠ "100%" ∧ ¬terminal row.status

def timedOutUnfinished (cutoffUnix : Int) (row : Task) : Bool :=
  unFinishSync row ∧ row.submitTime < cutoffUnix

def unrefundedFailed (updatedBefore : Int) (row : Task) : Bool :=
  row.status = .failure ∧ row.quota ≠ 0 ∧ row.updatedAt ≤ updatedBefore ∧
    (row.submitTime ≤ 0 ∨ taskRefundLegacyCutoff ≤ row.submitTime)

/- How one statement on the row ends: its time, its error, and whether the driver reports matched rather than changed
rows. -/
structure Statement where
  now : Int
  fault : Option String
  matchedRows : Bool
  deriving DecidableEq

/- All columns are written, the quota included, if the stored status is still the one
the writer started from. -/
def updateWithStatus (stmt : Statement) (fromStatus : TaskStatus) (task row : Task) : Except String Bool × Task :=
  match stmt.fault with
  | some e => (.error e,row)
  | none =>
    let written := {task with updatedAt := stmt.now}
    if row.status = fromStatus then (.ok (stmt.matchedRows ∨ written ≠ row),written) else (.ok false,row)

def updateQuota (stmt : Statement) (task row : Task) : Except String Unit × Task :=
  match stmt.fault with
  | some e => (.error e,row)
  | none => (.ok (),{row with quota := task.quota, updatedAt := stmt.now})

def replaceQuota (stmt : Statement) (expected quota : Int) (row : Task) : Except String Bool × Task :=
  match stmt.fault with
  | some e => (.error e,row)
  | none =>
    if row.quota = expected then (.ok true,{row with quota := quota, updatedAt := stmt.now}) else (.ok false,row)

def claimQuotaForRefund (stmt : Statement) (expectedQuota : Int) (row : Task) : Except String Bool × Task :=
  if expectedQuota = 0 then (.ok false,row) else replaceQuota stmt expectedQuota 0 row

def restoreQuotaAfterFailedRefund (stmt : Statement) (quota : Int) (row : Task) : Except String Bool × Task :=
  if quota = 0 then (.ok false,row) else replaceQuota stmt 0 quota row

/- The bulk failure of rows without a channel or an upstream id looks at no status. -/
def taskBulkUpdateByID (stmt : Statement) (failReason : Option String) (row : Task) : Except String Unit × Task :=
  match stmt.fault with
  | some e => (.error e,row)
  | none => (.ok (),{row with
      status := .failure, progress := "100%", failReason := failReason.getD row.failReason, updatedAt := stmt.now })

theorem updateWithStatusCases (h : updateWithStatus stmt fromStatus task row = (r,row')) :
    (row' = row ∧ r ≠ .ok true ∧ ¬(stmt.fault = none ∧ row.status = fromStatus)) ∨
      (stmt.fault = none ∧ row.status = fromStatus ∧ row' = {task with updatedAt := stmt.now} ∧
        (task.status ≠ fromStatus → r = .ok true)) := by
  unfold updateWithStatus at h
  split at h
  · rename_i failed
    cases h
    exact .inl ⟨rfl,by simp,by simp [failed]⟩
  rename_i clear
  split at h
  · rename_i matching
    cases h
    refine .inr ⟨clear,matching,rfl,fun moved => ?_⟩
    have differs : ({task with updatedAt := stmt.now} : Task) ≠ row := by
      intro same
      exact moved ((congrArg Task.status same).trans matching)
    simp [differs]
  · rename_i other
    cases h
    exact .inl ⟨rfl,by simp,fun both => other both.2⟩

end Omnigate.TaskRow
