import Omnigate.GroupRetry
import Omnigate.TaskSubmission

/-! The ratios of a task: those a remix takes over from its origin task, those the upstream
corrects when it accepts the task, and the group's ratio when the finished task is settled
by its tokens. -/
namespace Omnigate.TaskRatios

open QuotaMath TaskRow TaskBilling TaskPrice TaskSubmission List

def maxTaskDurationSeconds : Int := 3600

def decimal (digits : List Char) : Int :=
  if digits ≠ [] ∧ digits.all Char.isDigit then digits.foldl (fun n c => 10 * n + (c.toNat - 48)) 0 else 0

/- `strconv.Atoi` with its error dropped; a number out of range stays one here. -/
def atoi (s : String) : Int :=
  if s.toList.head? = some '-' then -decimal s.toList.tail
  else if s.toList.head? = some '+' then decimal s.toList.tail
  else decimal s.toList

/- The ratios part of `ResolveOriginTask`. `fields` reads the texts under seconds and size from the
origin task's data. -/
def resolveOriginTask (fields : List UInt8 → String × String) (originTask : Task) (p : PriceData) : PriceData :=
  match originTask.privateData.billingContext with
  | some bc => addOtherRatios bc.otherRatios p
  | none =>
    let (secondsStr,sizeStr) := fields originTask.data
    let seconds := if atoi secondsStr ≤ 0 then 4 else min (atoi secondsStr) maxTaskDurationSeconds
    let sized := addOtherRatio "size" 1 (addOtherRatio "seconds" seconds p)
    if sizeStr = "1792x1024" ∨ sizeStr = "1024x1792" then addOtherRatio "size" (1666667 / 1000000) sized else sized

def estimatedSubmission (a : Attempt) (priceData : PriceData) (s : Submission) : Submission :=
  noteTaskQuotaClamp (estimateQuota a.book a.modelName a.estimated priceData).2
    {s with priceData := (estimateQuota a.book a.modelName a.estimated priceData).1}

def relayHeld (a : Attempt) : Option TaskError × Submission → Except TaskError TaskSubmitResult × Submission
  | (some e,held) => (.error e,held)
  | (none,held) => match a.upstream with
    | .error e => (.error e,held)
    | .ok accepted =>
      let (final,clamp) := adjustOnSubmit accepted.adjusted held.priceData
      (.ok ⟨final.quota,a.modelName,a.book,accepted.data⟩,noteTaskQuotaClamp clamp {held with priceData := final})

theorem submitHolds {cfg : Config} {a : Attempt} (s) (asked : a.rejected = none)
    (perCall : modelPriceHelperPerCall a.book a.modelName a.groupRatio = .ok base) :
    relayTaskSubmit cfg a s = relayHeld a (preConsumeOnce cfg a (estimatedSubmission a base s)) := by
  unfold relayTaskSubmit
  rw [asked,perCall]
  show (match preConsumeOnce cfg a (estimatedSubmission a base s) with | (some e,held) => _ | (none,held) => _) = _
  rcases preConsumeOnce cfg a (estimatedSubmission a base s) with ⟨_ | e,held⟩ <;> rfl

def estimatedRatios (a : Attempt) : List (String × ℚ) := (addOtherRatios a.estimated noPrice).otherRatios

def overridden (estimated : List (String × ℚ)) (entry : String × ℚ) : Bool :=
  estimated.any (fun other => isValidOtherRatio other.2 ∧ other.1 = entry.1)

theorem multiplierAppend (first rest : List (String × ℚ)) :
    otherRatioMultiplier (first ++ rest) = otherRatioMultiplier first * otherRatioMultiplier rest := by
  simp [otherRatioMultiplier]

theorem addedRatios (ratios : List (String × ℚ)) (p) :
    (addOtherRatios ratios p).otherRatios = (addOtherRatios ratios noPrice).otherRatios ++
      p.otherRatios.filter (fun entry => !overridden ratios entry) := by
  induction ratios generalizing p with
  | nil => simp [addOtherRatios,noPrice,overridden]
  | cons entry rest ih =>
    show (addOtherRatios rest (addOtherRatio entry.1 entry.2 p)).otherRatios =
      (addOtherRatios rest (addOtherRatio entry.1 entry.2 noPrice)).otherRatios ++ _
    rw [ih,ih (addOtherRatio entry.1 entry.2 noPrice),append_assoc]
    congr 1
    have set : ∀ other : String × ℚ, overridden (entry::rest) other =
        (decide (isValidOtherRatio entry.2 ∧ entry.1 = other.1) || overridden rest other) := fun _ => rfl
    unfold addOtherRatio
    by_cases valid : isValidOtherRatio entry.2
    · have kept : ∀ other : String × ℚ, (!overridden rest other && decide (other.1 ≠ entry.1)) =
          !overridden (entry::rest) other := by
        intro other
        by_cases same : entry.1 = other.1 <;> simp [set,valid,same,eq_comm]
      simp only [if_pos valid,filter_cons,filter_filter,kept]
      split <;> simp [noPrice]
    · simp [valid,noPrice,set]

theorem estimateSpec {a : Attempt} (perCall : modelPriceHelperPerCall a.book a.modelName a.groupRatio = .ok base) :
    (estimateQuota a.book a.modelName a.estimated base).1.otherRatios = estimatedRatios a ∧
      (estimateQuota a.book a.modelName a.estimated base).1.quota =
        if a.modelName ∈ a.book.taskPricePatches then base.quota
        else quotaFromFloat (base.quota * otherRatioMultiplier (estimatedRatios a)) := by
  have added : (addOtherRatios a.estimated base).otherRatios = estimatedRatios a := by
    rw [addedRatios,(perCallPriced perCall).1,filter_nil,append_nil]
    rfl
  have kept := (addOtherRatiosKeep a.estimated base).1
  unfold estimateQuota
  split
  · exact ⟨added,kept⟩
  · exact ⟨added,by simp only [applyOtherRatiosToFloat,kept,added]; rfl⟩

def originTask : Task :=
  submittedTask ticket ⟨200,"video",plainBook,[]⟩
    { request "wallet_only" with priceData := { noPrice with otherRatios := [("seconds",4)] } }

def remix : Submission :=
  { request "wallet_only" with priceData := resolveOriginTask (fun _ => ("","")) originTask noPrice }

def fifty : PriceData := ⟨false,5,0,true,1,[],50⟩

theorem videoPrice : modelPriceHelperPerCall plainBook "video" 1 = .ok fifty := by
  norm_num [modelPriceHelperPerCall,pricedPerCall,perCallQuota,plainBook,quotaFromFloatStrict,quotaFromFloatChecked,
    saturateQuota,maxQuota,minQuota,truncate,fifty]

theorem removeEq (value : ℚ) (p) :
    removeOtherRatiosFromFloat value p = value / otherRatioMultiplier p.otherRatios := by
  unfold removeOtherRatiosFromFloat otherRatioMultiplier
  generalize (p.otherRatios.map Prod.snd).filter (fun ratio => isValidOtherRatio ratio ∧ ratio ≠ 1) = ratios
  induction ratios generalizing value with
  | nil => simp
  | cons ratio _ ih => rw [foldl_cons,ih,prod_cons,div_div]

theorem multiplierPositive {ratios : List (String × ℚ)} (positive : ∀ entry ∈ ratios, 0 < entry.2) :
    otherRatioMultiplier ratios = (ratios.map Prod.snd).prod := by
  induction ratios with
  | nil => rfl
  | cons entry _ ih =>
    rw [forall_mem_cons] at positive
    have tail := ih positive.2
    unfold otherRatioMultiplier at tail ⊢
    by_cases one : entry.2 = 1
    · simpa [isValidOtherRatio,one] using tail
    · rw [map_cons,filter_cons,if_pos (by simp [isValidOtherRatio,positive.1,one]),prod_cons,prod_cons,tail]

theorem replacedRatios {ratios : List (String × ℚ)} (positive : ∀ entry ∈ ratios, 0 < entry.2)
    (keys : (ratios.map Prod.fst).Nodup) : (addOtherRatios ratios noPrice).otherRatios.Perm ratios := by
  induction ratios with
  | nil => exact .refl _
  | cons entry rest ih =>
    rw [forall_mem_cons] at positive
    rw [map_cons,nodup_cons] at keys
    show (addOtherRatios rest (addOtherRatio entry.1 entry.2 noPrice)).otherRatios.Perm _
    have single : (addOtherRatio entry.1 entry.2 noPrice).otherRatios = [entry] := by
      simp [addOtherRatio,isValidOtherRatio,positive.1,noPrice]
    have apart : overridden rest entry = false := by
      simp only [overridden,any_eq_false,decide_eq_true_eq]
      exact fun _ member same => keys.1 (same.2 ▸ mem_map_of_mem member)
    rw [addedRatios,single,filter_singleton,apart]
    exact perm_append_comm.trans ((ih positive.2 keys.2).cons entry)

theorem adjustedQuota {ratios : List (String × ℚ)} (reported : ratios ≠ []) (positive : ∀ entry ∈ ratios, 0 < entry.2)
    (keys : (ratios.map Prod.fst).Nodup) (p) : (adjustOnSubmit ratios p).1.quota =
      quotaFromFloat (p.quota / otherRatioMultiplier p.otherRatios * (ratios.map Prod.snd).prod) := by
  have set := replacedRatios positive keys
  have replaced : (addOtherRatios ratios {p with otherRatios := []}).otherRatios =
      (addOtherRatios ratios noPrice).otherRatios := by
    rw [addedRatios,filter_nil,append_nil]
  have some' : (addOtherRatios ratios noPrice).otherRatios.isEmpty = false := by
    rw [isEmpty_eq_false_iff]
    exact fun empty => reported (perm_nil.mp (empty ▸ set).symm)
  have product : otherRatioMultiplier (addOtherRatios ratios noPrice).otherRatios = (ratios.map Prod.snd).prod := by
    rw [multiplierPositive (fun entry member => positive entry (set.mem_iff.mp member)),(set.map Prod.snd).prod_eq]
  unfold adjustOnSubmit recalcQuotaFromRatios
  simp [replaceOtherRatios,replaced,some',reported,applyOtherRatiosToFloat,product,removeEq,quotaFromFloat]

theorem preConsumePrice (cfg a s) :
    (preConsumeOnce cfg a s).2.priceData = s.priceData := by
  unfold preConsumeOnce
  split
  · dsimp only
    split <;> rfl
  · rfl

theorem acceptedQuota {cfg : Config} {a : Attempt} {s n : Submission} (perCall : modelPriceHelperPerCall a.book a.modelName a.groupRatio = .ok base) (answered : a.upstream = .ok accepted)
    (h : relayTaskSubmit cfg a s = (.ok result,n)) :
    result.quota = (adjustOnSubmit accepted.adjusted (estimateQuota a.book a.modelName a.estimated base).1).1.quota := by
  cases asked : a.rejected with
  | some =>
    rw [relayTaskSubmit,asked] at h
    cases h
  | none =>
    rw [submitHolds s asked perCall] at h
    have kept := preConsumePrice cfg a (estimatedSubmission a base s)
    generalize preConsumeOnce cfg a (estimatedSubmission a base s) = consumed at h kept
    rcases consumed with ⟨_ | e,_⟩
    · simp only [relayHeld,answered] at h
      cases h
      exact congrArg (fun p => (adjustOnSubmit accepted.adjusted p).1.quota) kept
    · cases h

def submittedQuota (a : Attempt) : Option Int :=
  (relayTaskSubmit plainSubmit a (request "wallet_only")).1.toOption.map TaskSubmitResult.quota

/- The settings at completion, with those of the submission: `found` tells whether the user's row is read. -/
def atCompletion (b : TextQuota.PriceBook) (modelRatio : String → ℚ × Bool) (found : Except String Unit)
    (userGroup : String) : Pricing :=
  ⟨modelRatio,found.map (fun _ => userGroup),TextQuota.getGroupRatio b,fun group => b.groupGroupRatio group group⟩

/- The ratio `RecalculateTaskQuotaByTokens` multiplies with, if it comes to that. -/
def recalculationRatio (cfg : Pricing) (task : Task) (totalTokens : Int) : Option ℚ :=
  if totalTokens ≤ 0 then none
  else
    let (modelRatio,hasRatioSetting) := cfg.modelRatio (taskModelName task)
    let group := taskGroup cfg task
    if ¬hasRatioSetting ∨ modelRatio ≤ 0 then none
    else if group = "" then none
    else some ((cfg.groupGroupRatio group).getD (cfg.groupRatio group))

theorem recalculateMultiplies (cfg task totalTokens) :
    recalculateByTokens cfg task totalTokens = (recalculationRatio cfg task totalTokens).bind (fun ratio =>
      settleable (quotaFromFloat (totalTokens * (cfg.modelRatio (taskModelName task)).1 * ratio * otherRatioMultiplier
        ((task.privateData.billingContext.map TaskBillingContext.otherRatios).getD [])))) := by
  unfold recalculateByTokens recalculationRatio
  split
  · rfl
  dsimp only
  split
  · rfl
  split <;> rfl

/- The configured ratios a submission and its completion look up: a special one, or else the group's own. -/
def SameRatio (b : TextQuota.PriceBook) (userGroup usingGroup group : String) : Prop :=
  (b.groupGroupRatio group group).getD ((b.groupRatio group).getD 1) =
    (b.groupGroupRatio userGroup usingGroup).getD ((b.groupRatio usingGroup).getD 1)

def specialBook : TextQuota.PriceBook :=
  { GroupRetry.ratioBook with groupGroupRatio := fun user group =>
      if user = "vip" ∧ group = "default" then some (1 / 2) else none }

def client (userGroup : String) : TextQuota.RelayInfo := ⟨"video",userGroup,"default",0,{},none,0,⟨.tokens,0,1⟩⟩

def tokenTask : Task := submittedTask ticket ⟨50,"video",plainBook,[]⟩ (request "wallet_only")

def settings (userGroup : String) : Pricing := atCompletion specialBook (fun _ => (1,true)) (.ok ()) userGroup

end Omnigate.TaskRatios
