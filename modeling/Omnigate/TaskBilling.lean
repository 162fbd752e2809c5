import Omnigate.QuotaMath
import Omnigate.TaskRow

/-! Billing of an asynchronous task: the adjustment of its funding source and token, the refund of a failed task and
the settlement of a finished one. A refund or settlement is two effects, money first and then the stored quota. -/
namespace Omnigate.TaskBilling

open Accounts QuotaMath TaskRow

/- How the money side of a refund or settlement ends: the wallet, the statements on the subscription, the lookup of
the token's key and the token update. -/
structure Funds where
  wallet : Option String
  sub : List (Option String)
  (tokenKey token : Option String)

def taskIsSubscription (task : Task) : Bool :=
  task.privateData.billingSource = some .subscription ∧ 0 < task.privateData.subscriptionId

def taskAdjustFunding (task : Task) (delta : Int) (f : Funds) (w : World) : Except String Unit × World :=
  if taskIsSubscription task then postConsumeSubscription task.privateData.subscriptionId delta f.sub w
  else settleWallet delta f.wallet w

def taskAdjustTokenQuota (task : Task) (delta : Int) (f : Funds) (w : World) : World :=
  if task.privateData.tokenId ≤ 0 ∨ delta = 0 then w
  else match f.tokenKey with
    | none => w
    | some key => if key = "" then w else (settleToken delta f.token w).2

def adjustTask (task : Task) (delta : Int) (f : Funds) (w : World) : Bool × World :=
  match taskAdjustFunding task delta f w with
  | (.error _,after) => (false,after)
  | (.ok _,after) => (true,taskAdjustTokenQuota task delta f after)

def refundTaskQuota (f : Funds) (stmt : Statement) (task row : Task) (w : World) :
    Bool × Task × Task × World :=
  if task.quota = 0 then (true,task,row,w)
  else match adjustTask task (-task.quota) f w with
    | (false,after) => (false,task,row,after)
    | (true,after) =>
      let cleared := {task with quota := 0}
      (true,cleared,(updateQuota stmt cleared row).2,after)

structure Pricing where
  modelRatio : String → ℚ × Bool
  userGroup : Except String String
  groupRatio : String → ℚ
  groupGroupRatio : String → Option ℚ

def isValidOtherRatio (ratio : ℚ) : Bool := 0 < ratio

def otherRatioMultiplier (ratios : List (String × ℚ)) : ℚ :=
  ((ratios.map Prod.snd).filter (fun ratio => isValidOtherRatio ratio ∧ ratio ≠ 1)).prod

def taskModelName (task : Task) : String :=
  match task.privateData.billingContext with
  | some bc => if bc.originModelName ≠ "" then bc.originModelName else task.originModelName
  | none => task.originModelName

def settleable (actualQuota : Int) : Option Int := if actualQuota ≤ 0 then none else some actualQuota

def taskGroup (cfg : Pricing) (task : Task) : String :=
  if task.group = "" then cfg.userGroup.toOption.getD "" else task.group

def recalculateByTokens (cfg : Pricing) (task : Task) (totalTokens : Int) : Option Int :=
  if totalTokens ≤ 0 then none
  else
    let (modelRatio,hasRatioSetting) := cfg.modelRatio (taskModelName task)
    let group := taskGroup cfg task
    if ¬hasRatioSetting ∨ modelRatio ≤ 0 then none
    else if group = "" then none
    else
      let finalGroupRatio := (cfg.groupGroupRatio group).getD (cfg.groupRatio group)
      let ratios := (task.privateData.billingContext.map TaskBillingContext.otherRatios).getD []
      settleable (quotaFromFloat (totalTokens * modelRatio * finalGroupRatio * otherRatioMultiplier ratios))

structure TaskInfo where
  status : Option TaskStatus
  (reason url progress : String)
  totalTokens : Int
  deriving DecidableEq

/- What `settleTaskBillingOnComplete` settles for: the adaptor's quota if any, else that of the reported tokens; a
task billed per call is left. -/
def settleTaskBillingOnComplete (adjustBillingOnComplete : Task → TaskInfo → Int) (cfg : Pricing) (task : Task)
    (taskResult : TaskInfo) : Option Int :=
  if (task.privateData.billingContext.map TaskBillingContext.perCallBilling).getD false then none
  else if 0 < adjustBillingOnComplete task taskResult then settleable (adjustBillingOnComplete task taskResult)
  else if 0 < taskResult.totalTokens then recalculateByTokens cfg task taskResult.totalTokens
  else none

theorem adjustTokenFunds (task delta f w) :
    SameFunds w (taskAdjustTokenQuota task delta f w) := by
  unfold taskAdjustTokenQuota
  split
  · exact sameFundsRefl _
  split
  · exact sameFundsRefl _
  split
  · exact sameFundsRefl _
  · exact settleTokenFunds _ _ _

end Omnigate.TaskBilling
