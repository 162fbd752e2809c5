import Omnigate.TaskBilling

/-! The price of one submission attempt: the per-call price of the model, the ratios an adaptor adds, and the quota
recomputed from what the upstream reports. Ratios are a list with one entry for each key. -/
namespace Omnigate.TaskPrice

open QuotaMath TaskBilling

structure PriceData where
  freeModel : Bool
  (modelPrice modelRatio : ℚ)
  usePrice : Bool
  groupRatio : ℚ
  otherRatios : List (String × ℚ)
  quota : Int

def noPrice : PriceData := ⟨false,0,0,false,0,[],0⟩

def addOtherRatio (key : String) (ratio : ℚ) (p : PriceData) : PriceData :=
  if isValidOtherRatio ratio then
    {p with otherRatios := (key,ratio)::p.otherRatios.filter (fun entry => entry.1 ≠ key)}
  else p

def addOtherRatios (ratios : List (String × ℚ)) (p : PriceData) : PriceData :=
  ratios.foldl (fun acc entry => addOtherRatio entry.1 entry.2 acc) p

def replaceOtherRatios (ratios : List (String × ℚ)) (p : PriceData) : Bool × PriceData :=
  let replaced := addOtherRatios ratios {p with otherRatios := []}
  (¬replaced.otherRatios.isEmpty,replaced)

def applyOtherRatiosToFloat (value : ℚ) (p : PriceData) : ℚ := value * otherRatioMultiplier p.otherRatios

def removeOtherRatiosFromFloat (value : ℚ) (p : PriceData) : ℚ :=
  ((p.otherRatios.map Prod.snd).filter (fun ratio => isValidOtherRatio ratio ∧ ratio ≠ 1)).foldl
    (fun left ratio => left / ratio) value

structure PriceBook where
  (modelPrice defaultModelPrice : String → Option ℚ)
  modelRatio : String → ℚ × Bool × String
  quotaPerUnit : ℚ
  (enableFreeModelPreConsume acceptUnsetRatioModel isAdmin : Bool)
  taskPricePatches : List String
  formatFloat : ℚ → String

def modelPriceNotConfiguredError (isAdmin : Bool) (modelName : String) : String :=
  if isAdmin then
    "模型 " ++ modelName ++ " 的价格未配置。请前往「系统设置 → 运营设置」开启自用模式，或在「系统设置 → 分组与模型定价设置」中为该模型配置价格；" ++
      "Model " ++ modelName ++ " price not configured. Go to System Settings → Operation Settings to enable " ++
      "self-use mode, or configure the model price in System Settings → Group & Model Pricing."
  else
    "模型 " ++ modelName ++ " 的价格尚未由管理员配置，暂时无法使用，请联系站点管理员开启该模型；" ++
      "Model " ++ modelName ++ " has not been priced by the administrator yet. Please contact the site " ++
      "administrator to enable this model."

def perCallQuota (b : PriceBook) (value price groupRatio : ℚ) : Except String (Int × Bool) :=
  match quotaFromFloatStrict value with
  | .error clamp => .error (clampText b.formatFloat clamp)
  | .ok quota =>
    if ¬b.enableFreeModelPreConsume ∧ (groupRatio = 0 ∨ price = 0) then .ok (0,true) else .ok (quota,false)

def pricedPerCall (b : PriceBook) (price groupRatio : ℚ) : Except String PriceData :=
  match perCallQuota b (price * b.quotaPerUnit * groupRatio) price groupRatio with
  | .error e => .error e
  | .ok (quota,free) => .ok ⟨free,price,0,true,groupRatio,[],quota⟩

def pricedByRatio (b : PriceBook) (modelRatio groupRatio : ℚ) : Except String PriceData :=
  match perCallQuota b (modelRatio / 2 * b.quotaPerUnit * groupRatio) modelRatio groupRatio with
  | .error e => .error e
  | .ok (quota,free) => .ok ⟨free,-1,modelRatio,false,groupRatio,[],quota⟩

def modelPriceHelperPerCall (b : PriceBook) (modelName : String) (groupRatio : ℚ) : Except String PriceData :=
  match b.modelPrice modelName with
  | some price => pricedPerCall b price groupRatio
  | none => match b.defaultModelPrice modelName with
    | some price => pricedPerCall b price groupRatio
    | none =>
      let (modelRatio,success,matchName) := b.modelRatio modelName
      if ¬success ∧ ¬b.acceptUnsetRatioModel then .error (modelPriceNotConfiguredError b.isAdmin matchName)
      else pricedByRatio b modelRatio groupRatio

def estimateQuota (b : PriceBook) (modelName : String) (estimated : List (String × ℚ)) (p : PriceData) :
    PriceData × Option QuotaClamp :=
  let rated := addOtherRatios estimated p
  if modelName ∈ b.taskPricePatches then (rated,none)
  else match quotaFromFloatChecked (applyOtherRatiosToFloat rated.quota rated) with
    | (quota,clamp) => ({rated with quota := quota},clamp)

def recalcQuotaFromRatios (p : PriceData) (ratios : List (String × ℚ)) : Option (Int × Option QuotaClamp) :=
  let baseQuota := removeOtherRatiosFromFloat p.quota p
  match replaceOtherRatios ratios p with
  | (false,_) => none
  | (true,replaced) => some (quotaFromFloatChecked (applyOtherRatiosToFloat baseQuota replaced))

def adjustOnSubmit (adjusted : List (String × ℚ)) (p : PriceData) : PriceData × Option QuotaClamp :=
  if adjusted.isEmpty then (p,none)
  else match recalcQuotaFromRatios p adjusted with
    | none => (p,none)
    | some (quota,clamp) => ({(replaceOtherRatios adjusted p).2 with quota := quota},clamp)

theorem addOtherRatioKeeps (key) (ratio : ℚ) (p) :
    (addOtherRatio key ratio p).quota = p.quota ∧ (addOtherRatio key ratio p).freeModel = p.freeModel := by
  unfold addOtherRatio
  split <;> exact ⟨rfl,rfl⟩

theorem addOtherRatiosKeep (ratios : List (String × ℚ)) (p) :
    (addOtherRatios ratios p).quota = p.quota ∧ (addOtherRatios ratios p).freeModel = p.freeModel := by
  induction ratios generalizing p with
  | nil => exact ⟨rfl,rfl⟩
  | cons entry _ ih =>
    have step := addOtherRatioKeeps entry.1 entry.2 p
    have tail := ih (addOtherRatio entry.1 entry.2 p)
    exact ⟨tail.1.trans step.1,tail.2.trans step.2⟩

theorem removeFromZero (p) : removeOtherRatiosFromFloat 0 p = 0 := by
  unfold removeOtherRatiosFromFloat
  generalize (p.otherRatios.map Prod.snd).filter (fun ratio => isValidOtherRatio ratio ∧ ratio ≠ 1) = ratios
  induction ratios with
  | nil => rfl
  | cons ratio _ ih => simpa using ih

theorem perCallFree (h : perCallQuota b value price groupRatio = .ok (quota,true)) :
    quota = 0 := by
  unfold perCallQuota at h
  split at h
  · cases h
  · split at h <;> cases h
    rfl

theorem perCallPriced (h : modelPriceHelperPerCall b modelName groupRatio = .ok p) :
    p.otherRatios = [] ∧ ∃ value price, perCallQuota b value price groupRatio = .ok (p.quota,p.freeModel) := by
  have way : (∃ price, pricedPerCall b price groupRatio = .ok p) ∨ ∃ ratio, pricedByRatio b ratio groupRatio = .ok p := by
    unfold modelPriceHelperPerCall at h
    split at h
    · exact .inl ⟨_,h⟩
    split at h
    · exact .inl ⟨_,h⟩
    dsimp only at h
    split at h
    · cases h
    · exact .inr ⟨_,h⟩
  rcases way with ⟨_,priced⟩ | ⟨_,priced⟩
  · unfold pricedPerCall at priced
    split at priced <;> cases priced
    exact ⟨rfl,_,_,‹_›⟩
  · unfold pricedByRatio at priced
    split at priced <;> cases priced
    exact ⟨rfl,_,_,‹_›⟩

theorem freeModelQuota (h : modelPriceHelperPerCall b modelName groupRatio = .ok p)
    (free : p.freeModel = true) : p.quota = 0 := by
  obtain ⟨_,_,_,perCall⟩ := perCallPriced h
  rw [free] at perCall
  exact perCallFree perCall

theorem estimateFree (nothing : p.quota = 0) : (estimateQuota b modelName estimated p).1.quota = 0 := by
  have kept := (addOtherRatiosKeep estimated p).1
  unfold estimateQuota
  split
  · exact kept.trans nothing
  · simp [kept,nothing,applyOtherRatiosToFloat,quotaFromFloatZero]

theorem estimateKeeps : (estimateQuota b modelName estimated p).1.freeModel = p.freeModel := by
  have kept := (addOtherRatiosKeep estimated p).2
  unfold estimateQuota
  split <;> exact kept

theorem adjustFree (nothing : p.quota = 0) : (adjustOnSubmit adjusted p).1.quota = 0 := by
  unfold adjustOnSubmit
  split
  · exact nothing
  split
  · exact nothing
  rename_i quota _ recalculated
  unfold recalcQuotaFromRatios at recalculated
  split at recalculated
  · cases recalculated
  simp only [nothing,Int.cast_zero,removeFromZero,applyOtherRatiosToFloat,zero_mul,quotaFromFloatZero,
    Option.some.injEq,Prod.mk.injEq] at recalculated
  exact recalculated.1.symm

end Omnigate.TaskPrice
