import Omnigate.TextQuota

/-! What a text request is charged: the quota of ratio pricing between its bounds, the token parameters of a billing
expression, and the bookkeeping of the settled quota. -/
namespace Omnigate.TextQuota

open QuotaMath UsageConvert List

structure Tokens.Nonnegative (u : Tokens) : Prop where
  prompt : 0 ≤ u.promptTokens
  completion : 0 ≤ u.completionTokens
  input : u.promptTokensDetails.Nonnegative
  output : u.completionTokenDetails.Nonnegative
  fiveMinutes : 0 ≤ u.claudeCacheCreation5mTokens
  oneHour : 0 ≤ u.claudeCacheCreation1hTokens

instance (d : InputTokenDetails) : Decidable d.Nonnegative := by unfold InputTokenDetails.Nonnegative; infer_instance

instance (d : OutputTokenDetails) : Decidable d.Nonnegative := by unfold OutputTokenDetails.Nonnegative; infer_instance

theorem creationNonneg (d : InputTokenDetails) : 0 ≤ d.cacheCreationTokensTotal := by
  unfold InputTokenDetails.cacheCreationTokensTotal
  dsimp only
  split <;> omega

structure PriceData.Nonnegative (p : PriceData) : Prop where
  model : 0 ≤ p.modelRatio
  group : 0 ≤ p.groupRatioInfo.groupRatio
  completion : 0 ≤ p.completionRatio
  cache : 0 ≤ p.cacheRatio
  image : 0 ≤ p.imageRatio
  creation : 0 ≤ p.cacheCreationRatio
  creation5m : 0 ≤ p.cacheCreation5mRatio
  creation1h : 0 ≤ p.cacheCreation1hRatio

def separate (u : Tokens) (served : Served) : Bool :=
  isClaudeUsageSemantic u served ∨ isLegacyClaudeDerivedOpenAIUsage u served

def baseTokens (t : ToolPrices) (n : Counts) (separate : Bool) : ℚ :=
  max 0 ((n.prompt - (if separate then 0 else n.cached) -
    (if (n.cacheCreation ≠ 0 ∨ n.cacheCreation5m > 0 ∨ n.cacheCreation1h > 0) ∧ ¬separate then n.cacheCreation else 0) -
    n.image - (if n.audio ≠ 0 ∧ t.geminiInputAudioPerMillionTokens > 0 then n.audio else 0) : Int) : ℚ)

def creationTokens (p : PriceData) (n : Counts) (separate : Bool) : ℚ :=
  if n.cacheCreation ≠ 0 ∨ n.cacheCreation5m > 0 ∨ n.cacheCreation1h > 0 then
    if separate then
      (max 0 (n.cacheCreation - n.cacheCreation5m - n.cacheCreation1h) : Int) * p.cacheCreationRatio +
        n.cacheCreation5m * p.cacheCreation5mRatio + n.cacheCreation1h * p.cacheCreation1hRatio
    else n.cacheCreation * p.cacheCreationRatio
  else 0

theorem weightedSplit (t p u served) :
    weightedTokens t p u served = baseTokens t (summaryCounts t p u served) (separate u served) +
      (summaryCounts t p u served).cached * p.cacheRatio + (summaryCounts t p u served).image * p.imageRatio +
      creationTokens p (summaryCounts t p u served) (separate u served) +
      (summaryCounts t p u served).completion * p.completionRatio := by
  simp only [weightedTokens,baseTokens,creationTokens,separate,decide_eq_true_eq]

def modelGroupRatio (p : PriceData) : ℚ := p.modelRatio * p.groupRatioInfo.groupRatio

def ratioPrice (t : ToolPrices) (p : PriceData) (u : Tokens) (served : Served) : ℚ :=
  weightedTokens t p u served * modelGroupRatio p * TaskBilling.otherRatioMultiplier p.otherRatios

/- Pricing by ratios without tool calls, without a price for audio input and without the adjustment for OpenRouter. -/
structure Plain (t : ToolPrices) (info : RelayInfo) (u : Tokens) (served : Served) : Prop where
  byRatio : info.priceData.usePrice = false
  tools : total (calculateTextToolCallSurcharge t info served) = 0
  audio : t.geminiInputAudioPerMillionTokens ≤ 0
  router : ¬ (served.openRouter ∧ isClaudeUsageSemantic u served)

theorem baseNonneg (t n separate) : 0 ≤ baseTokens t n separate := le_max_left _ _

theorem creationTokensNonneg (ratios : p.Nonnegative) (usage : Tokens.Nonnegative u)
    (separate : Bool) : 0 ≤ creationTokens p (counts u) separate := by
  have total : (0 : ℚ) ≤ (counts u).cacheCreation := by exact_mod_cast creationNonneg u.promptTokensDetails
  have fiveMinutes : (0 : ℚ) ≤ (counts u).cacheCreation5m := by exact_mod_cast usage.fiveMinutes
  have oneHour : (0 : ℚ) ≤ (counts u).cacheCreation1h := by exact_mod_cast usage.oneHour
  have left : (0 : ℚ) ≤ (max 0 ((counts u).cacheCreation - (counts u).cacheCreation5m - (counts u).cacheCreation1h) : Int) := by
    exact_mod_cast le_max_left _ _
  unfold creationTokens
  split
  · split
    · exact add_nonneg (add_nonneg (mul_nonneg left ratios.creation) (mul_nonneg fiveMinutes ratios.creation5m))
        (mul_nonneg oneHour ratios.creation1h)
    · exact mul_nonneg total ratios.creation
  · exact le_refl 0

theorem multiplierPositive (ratios : List (String × ℚ)) : 0 < TaskBilling.otherRatioMultiplier ratios := by
  refine prod_pos fun _ member => ?_
  have valid := (mem_filter.mp member).2
  simp only [TaskBilling.isValidOtherRatio,decide_eq_true_eq] at valid
  exact valid.1

theorem leastCharge {ratio price : ℚ} (nonneg : 0 ≤ price) (free : ratio = 0 → price = 0) :
    (if ratio ≠ 0 ∧ quotaFromDecimal (if ratio ≠ 0 ∧ price ≤ 0 then 1 else price) = 0 then 1
      else quotaFromDecimal (if ratio ≠ 0 ∧ price ≤ 0 then 1 else price)) =
      if ratio = 0 then 0 else max 1 (quotaFromDecimal price) := by
  have one : quotaFromDecimal 1 = 1 := by decide +kernel
  have zero : quotaFromDecimal 0 = 0 := quotaFromDecimalZero.mpr (by norm_num)
  have charged : 0 ≤ quotaFromDecimal price := quotaFromDecimalNonneg nonneg
  by_cases none_ : ratio = 0
  · simp only [none_,free none_,ne_eq,not_true_eq_false,false_and,if_false,if_true,zero]
  simp only [none_,ne_eq,not_false_eq_true,true_and,if_false]
  by_cases low : price ≤ 0
  · rw [if_pos low,le_antisymm low nonneg,one,zero]
    rfl
  · rw [if_neg low]
    split <;> omega

section
variable {t : ToolPrices} {info : RelayInfo} {u : Tokens} {served : Served}

theorem plainCounts (plain : Plain t info u served) : summaryCounts t info.priceData u served = counts u :=
  if_neg plain.router

variable (plain : Plain t info u served) (ratios : info.priceData.Nonnegative) (usage : Tokens.Nonnegative u)

include plain ratios usage

theorem weightedNonneg : 0 ≤ weightedTokens t info.priceData u served := by
  have cached : (0 : ℚ) ≤ (counts u).cached := by exact_mod_cast usage.input.1
  have image : (0 : ℚ) ≤ (counts u).image := by exact_mod_cast usage.input.2.2.2.2.2
  have completion : (0 : ℚ) ≤ (counts u).completion := by exact_mod_cast usage.completion
  rw [weightedSplit,plainCounts plain]
  have base := baseNonneg t (counts u) (separate u served)
  have creation := creationTokensNonneg ratios usage (separate u served)
  have := mul_nonneg cached ratios.cache
  have := mul_nonneg image ratios.image
  have := mul_nonneg completion ratios.completion
  linarith

theorem plainQuota :
    0 ≤ ratioPrice t info.priceData u served ∧ (calculateTextQuotaSummary t info u served).quota =
      if u.promptTokens + u.completionTokens = 0 ∨ modelGroupRatio info.priceData = 0 then 0
      else max 1 (quotaFromDecimal (ratioPrice t info.priceData u served)) := by
  have audio : audioInput t info.priceData u served = [] := if_neg fun h => not_lt.mpr plain.audio h.2.2
  have value : applyOtherRatios (total (tokenCharge t info.priceData u served ::
      calculateTextToolCallSurcharge t info served ++ audioInput t info.priceData u served)) info.priceData =
      ratioPrice t info.priceData u served := by
    have tools := plain.tools
    unfold total at tools ⊢
    rw [audio,append_nil,map_cons,sum_cons,tools,add_zero]
    simp only [applyOtherRatios,Component.amount,tokenCharge,plain.byRatio,Bool.false_eq_true,if_false,ratioPrice,
      modelGroupRatio]
    ring
  have nonneg : 0 ≤ ratioPrice t info.priceData u served :=
    mul_nonneg (mul_nonneg (weightedNonneg plain ratios usage) (mul_nonneg ratios.model ratios.group))
      (multiplierPositive _).le
  have free : modelGroupRatio info.priceData = 0 → ratioPrice t info.priceData u served = 0 := by
    intro zero
    rw [ratioPrice,zero,mul_zero,zero_mul]
  refine ⟨nonneg,?_⟩
  simp only [calculateTextQuotaSummary,value,plain.byRatio,Bool.false_eq_true,not_false_eq_true,true_and]
  change (if u.promptTokens + u.completionTokens = 0 then _ else _) = _
  by_cases tokens : u.promptTokens + u.completionTokens = 0
  · simp only [tokens,true_or,if_true]
  · simp only [tokens,false_or,if_false]
    exact leastCharge nonneg free

omit usage in
theorem weightedMono (morePrompt : u.promptTokens ≤ prompt) (moreCompletion : u.completionTokens ≤ completion) :
    weightedTokens t info.priceData u served ≤
      weightedTokens t info.priceData {u with promptTokens := prompt, completionTokens := completion} served := by
  have plain' : Plain t info {u with promptTokens := prompt, completionTokens := completion} served :=
    {plain with}
  rw [weightedSplit,weightedSplit,plainCounts plain,plainCounts plain']
  have base : baseTokens t (counts u) (separate u served) ≤
      baseTokens t (counts {u with promptTokens := prompt, completionTokens := completion}) (separate u served) := by
    refine max_le_max (le_refl 0) ?_
    have less : (counts u).prompt ≤ prompt := morePrompt
    exact_mod_cast sub_le_sub_right (sub_le_sub_right (sub_le_sub_right (sub_le_sub_right less _) _) _) _
  have more : ((counts u).completion : ℚ) * info.priceData.completionRatio ≤ completion * info.priceData.completionRatio :=
    mul_le_mul_of_nonneg_right (by exact_mod_cast moreCompletion) ratios.completion
  exact add_le_add (add_le_add_left (add_le_add_left (add_le_add_left base _) _) _) more

theorem quotaMono (morePrompt : u.promptTokens ≤ prompt) (moreCompletion : u.completionTokens ≤ completion) :
    (calculateTextQuotaSummary t info u served).quota ≤ (calculateTextQuotaSummary t info
      {u with promptTokens := prompt, completionTokens := completion} served).quota := by
  have prompts := usage.prompt
  have completions := usage.completion
  obtain ⟨nonneg,quota⟩ := plainQuota plain ratios usage
  obtain ⟨_,quota'⟩ := @plainQuota t info {u with promptTokens := prompt, completionTokens := completion} served
    {plain with} ratios ⟨prompts.trans morePrompt,completions.trans moreCompletion,
      usage.input,usage.output,usage.fiveMinutes,usage.oneHour⟩
  rw [quota,quota']
  by_cases free : modelGroupRatio info.priceData = 0
  · simp only [free,or_true,if_true,le_refl]
  simp only [free,or_false]
  split
  · split
    · exact le_refl 0
    · exact le_max_of_le_left (by decide)
  rw [if_neg (by omega),quotaFromDecimalEq,quotaFromDecimalEq]
  have dearer := mul_le_mul_of_nonneg_right (mul_le_mul_of_nonneg_right
    (weightedMono plain ratios morePrompt moreCompletion) (mul_nonneg ratios.model ratios.group))
    (multiplierPositive info.priceData.otherRatios).le
  exact max_le_max (le_refl 1) (max_le_max (le_refl _) (min_le_min (le_refl _) (roundMono nonneg dearer)))

end

theorem ratioPricingSane {t : ToolPrices} {info : RelayInfo} {u : Tokens} {served : Served}
    (plain : Plain t info u served) (ratios : info.priceData.Nonnegative) (usage : Tokens.Nonnegative u) :
    let quota (u : Tokens) := (calculateTextQuotaSummary t info u served).quota
    0 ≤ quota u ∧ quota u ≤ maxQuota ∧ (quota u = 0 ↔ u.promptTokens + u.completionTokens = 0 ∨
        info.priceData.modelRatio * info.priceData.groupRatioInfo.groupRatio = 0) ∧
      (∀ completion, u.completionTokens ≤ completion → quota u ≤ quota {u with completionTokens := completion}) ∧
      (∀ prompt, u.promptTokens ≤ prompt → quota u ≤ quota {u with promptTokens := prompt}) ∧
      0 ≤ baseTokens t (counts u) (separate u served) ∧
      weightedTokens t info.priceData u served = baseTokens t (counts u) (separate u served) +
        (counts u).cached * info.priceData.cacheRatio + (counts u).image * info.priceData.imageRatio +
        creationTokens info.priceData (counts u) (separate u served) +
        (counts u).completion * info.priceData.completionRatio := by
  have weights := weightedSplit t info.priceData u served
  rw [plainCounts plain] at weights
  obtain ⟨_,quota⟩ := plainQuota plain ratios usage
  refine ⟨?_,?_,?_,fun completion more => quotaMono plain ratios usage (le_refl _) more,
    fun prompt more => quotaMono plain ratios usage more (le_refl _),baseNonneg _ _ _,weights⟩
  · show 0 ≤ (calculateTextQuotaSummary t info u served).quota
    rw [quota]
    split
    · exact le_refl 0
    · exact le_max_of_le_left (by decide)
  · show (calculateTextQuotaSummary t info u served).quota ≤ _
    rw [quota,quotaFromDecimalEq]
    split
    · decide
    · exact max_le (by decide) (max_le (by decide) (min_le_left _ _))
  show (calculateTextQuotaSummary t info u served).quota = 0 ↔ _
  rw [quota]
  split
  · rename_i nothing
    exact iff_of_true rfl nothing
  · rename_i something
    exact iff_of_false (by omega) something

def overlapping : Tokens :=
  {promptTokens := 100, completionTokens := 10
   promptTokensDetails := {cachedTokens := 80, cachedCreationTokens := 60, imageTokens := 20}}

def halfPrice : RelayInfo :=
  {originModelName := "m", userGroup := "default", usingGroup := "default", estimatePromptTokens := 0
   priceData := {modelRatio := 1 / 2, completionRatio := 4, cacheRatio := 1 / 10, imageRatio := 1, cacheCreationRatio := 5 / 4}}

def freeTools : ToolPrices := ⟨0,0,0,0,0,none,500000⟩

theorem overlapPricedSanely :
    (calculateTextQuotaSummary freeTools halfPrice overlapping {usage := none}).quota ≤ maxQuota ∧
      (calculateTextQuotaSummary freeTools halfPrice overlapping {usage := none}).quota ≤
        (calculateTextQuotaSummary freeTools halfPrice {overlapping with promptTokens := 500} {usage := none}).quota := by
  have plain : Plain freeTools halfPrice overlapping {usage := none} :=
    ⟨rfl,by decide +kernel,le_refl _,fun router => by cases router.1⟩
  have ratios : halfPrice.priceData.Nonnegative := by constructor <;> norm_num [halfPrice]
  have usage : Tokens.Nonnegative overlapping := by constructor <;> decide
  obtain ⟨_,most,_,_,inPrompt,_⟩ := ratioPricingSane plain ratios usage
  exact ⟨most,inPrompt 500 (by decide)⟩

def pricedInput (params : TokenParams) (usedVars : List Var) : ℚ :=
  let share (var : Var) (n : ℚ) : ℚ := if var ∈ usedVars then n else 0
  share .cr params.cr + share .cc params.cc + share .cc1h params.cc1h + share .img params.img + share .ai params.ai

def pricedOutput (params : TokenParams) (usedVars : List Var) : ℚ :=
  (if Var.imgO ∈ usedVars then params.imgO else 0) + if Var.ao ∈ usedVars then params.ao else 0

def allCreation (u : Tokens) : Int :=
  max u.promptTokensDetails.cacheCreationTokensTotal (u.claudeCacheCreation5mTokens + u.claudeCacheCreation1hTokens)

structure Conserved (u : Tokens) (usedVars : List Var) : Prop where
  input : u.usageSemantic ≠ .anthropic → pricedInput (buildTieredTokenParams u false usedVars) usedVars ≤ u.promptTokens →
    (buildTieredTokenParams u false usedVars).p + pricedInput (buildTieredTokenParams u false usedVars) usedVars =
      u.promptTokens
  output : u.usageSemantic ≠ .anthropic →
    pricedOutput (buildTieredTokenParams u false usedVars) usedVars ≤ u.completionTokens →
    (buildTieredTokenParams u false usedVars).c + pricedOutput (buildTieredTokenParams u false usedVars) usedVars =
      u.completionTokens
  length : u.usageSemantic = .anthropic → (buildTieredTokenParams u true usedVars).len =
    u.promptTokens + u.promptTokensDetails.cachedTokens + allCreation u
  creation : u.usageSemantic = .anthropic →
    (buildTieredTokenParams u true usedVars).cc + (buildTieredTokenParams u true usedVars).cc1h = allCreation u

theorem ratioCreation (u) :
    creationTokens {cacheCreationRatio := 1, cacheCreation5mRatio := 1, cacheCreation1hRatio := 1} (counts u) true =
      allCreation u := by
  simp only [creationTokens,counts,allCreation,if_true,mul_one]
  split
  · norm_cast
    omega
  norm_cast
  omega

theorem tieredConservedIff (u : Tokens) (usedVars : List Var) (usage : Tokens.Nonnegative u) :
    (Conserved u usedVars ↔ (u.usageSemantic = .anthropic → u.promptTokensDetails.cacheCreationTokensTotal ≤
        u.claudeCacheCreation5mTokens + u.claudeCacheCreation1hTokens)) ∧
      creationTokens {cacheCreationRatio := 1, cacheCreation5mRatio := 1, cacheCreation1hRatio := 1} (counts u) true =
        allCreation u := by
  refine ⟨⟨fun conserved marked => ?_,fun covered => ⟨?_,?_,?_,?_⟩⟩,ratioCreation u⟩
  · have split := conserved.creation marked
    simp only [buildTieredTokenParams,marked,if_true] at split
    have same : u.claudeCacheCreation5mTokens + u.claudeCacheCreation1hTokens = allCreation u := by exact_mod_cast split
    rw [same]
    exact le_max_left _ _
  · intro plain within
    simp only [pricedInput,buildTieredTokenParams,plain,if_false,Bool.false_eq_true,not_false_eq_true,true_and] at within ⊢
    rw [max_eq_right (by linarith)]
    ring
  · intro plain within
    simp only [pricedOutput,buildTieredTokenParams,Bool.false_eq_true,not_false_eq_true,true_and] at within ⊢
    rw [max_eq_right (by linarith)]
    ring
  · intro marked
    simp only [buildTieredTokenParams,allCreation,marked,if_true,max_eq_right (covered marked)]
    push_cast
    ring
  · intro marked
    simp only [buildTieredTokenParams,allCreation,marked,if_true,max_eq_right (covered marked)]
    push_cast
    ring

def splitReport : Tokens :=
  usageFromClaudeBillingUsage
    {inputTokens := 10, outputTokens := 5, cacheCreationInputTokens := 100
     cacheCreation := some {ephemeral5mInputTokens := 60, ephemeral1hInputTokens := 40}}

theorem splitReportConserved : Conserved splitReport [.cr,.cc,.cc1h] ∧ allCreation splitReport = 100 := by
  have usage : Tokens.Nonnegative splitReport := by constructor <;> decide
  exact ⟨(tieredConservedIff _ _ usage).1.mpr fun _ => by decide,by decide⟩

def unsplitReport : Tokens :=
  usageFromClaudeBillingUsage {inputTokens := 10, outputTokens := 5, cacheCreationInputTokens := 100}

theorem unsplitCreationUnbilled :
    Tokens.Nonnegative unsplitReport ∧ unsplitReport.usageSemantic = .anthropic ∧
      (buildTieredTokenParams unsplitReport true [.cc,.cc1h]).len = 10 ∧
      (buildTieredTokenParams unsplitReport true [.cc,.cc1h]).cc +
        (buildTieredTokenParams unsplitReport true [.cc,.cc1h]).cc1h = 0 ∧
      allCreation unsplitReport = 100 ∧ ¬ Conserved unsplitReport [.cc,.cc1h] := by
  refine ⟨by constructor <;> decide,by decide,by decide +kernel,by decide +kernel,by decide,fun conserved => ?_⟩
  have split := conserved.creation (by decide)
  revert split
  decide +kernel

structure Booked where
  settled : Int
  (userUsedQuota channelUsedQuota : Int := 0)
  deriving DecidableEq, Repr

def totalTokens (info : RelayInfo) (served : Served) : Int :=
  let u := usageOrEstimate info (served.usage.map fun usage => (effectiveBillingUsage usage).toTokens)
  u.promptTokens + u.completionTokens

def bookTextConsumeQuota (t : ToolPrices) (info : RelayInfo) (served : Served) : Booked :=
  let quota := (postTextConsumeQuota t info served).quota
  if totalTokens info served = 0 then {settled := quota} else ⟨quota,quota,quota⟩

def tieredPrice (snap : BillingSnapshot) (info : RelayInfo) (params : TokenParams) (tools : List Component) : ℚ :=
  (match snap.expr.cost params with
    | .error _ =>
      if info.finalPreConsumedQuota ≤ 0 then (snap.estimatedQuotaAfterGroup : ℚ) else info.finalPreConsumedQuota
    | .ok cost => cost / 1000000 * snap.quotaPerUnit * snap.groupRatio) + total tools

theorem tieredZero (snap info params tools) :
    (tieredSettle snap info params tools).quota = 0 ↔ |tieredPrice snap info params tools| < 1 / 2 := by
  have whole : ∀ n : Int, n = 0 ↔ |(n : ℚ)| < 1 / 2 := by
    intro n
    constructor
    · rintro rfl
      norm_num
    intro small
    have unit : |(n : ℚ)| < 1 := small.trans (by norm_num)
    exact Int.abs_lt_one_iff.mp (by exact_mod_cast unit)
  have rounds : ∀ value, quotaRound value = 0 ↔ |value| < 1 / 2 := by
    intro value
    rw [quotaRound,saturateEq,truncateInt,← roundZero]
    unfold minQuota maxQuota
    omega
  unfold tieredSettle tieredPrice
  cases snap.expr.cost params with
  | error =>
    by_cases free : total tools = 0
    · by_cases held : info.finalPreConsumedQuota ≤ 0 <;> simp only [held,free,if_true,if_false,add_zero,whole]
    · by_cases held : info.finalPreConsumedQuota ≤ 0 <;> simp only [held,free,if_true,if_false,quotaFromDecimalZero]
  | ok =>
    by_cases free : total tools = 0
    · simp only [free,if_true,add_zero,rounds,Component.amount]
    · simp only [free,if_false,quotaFromDecimalZero,Component.amount]

theorem settledIsRecordedIff (t : ToolPrices) (info : RelayInfo) (served : Served) :
    ((bookTextConsumeQuota t info served).settled = (bookTextConsumeQuota t info served).userUsedQuota ∧
      (bookTextConsumeQuota t info served).settled = (bookTextConsumeQuota t info served).channelUsedQuota) ↔
      totalTokens info served ≠ 0 ∨ ∀ usage snap, served.usage = some usage → info.tieredBillingSnapshot = some snap →
        |tieredPrice snap info (tieredParams snap.expr served usage) (calculateTextToolCallSurcharge t info served)| <
          1 / 2 := by
  unfold bookTextConsumeQuota
  by_cases tokens : totalTokens info served = 0
  · simp only [tokens,if_true,ne_eq,not_true_eq_false,false_or,and_self]
    unfold postTextConsumeQuota
    split
    · rename_i usage snap isUsage isSnap
      rw [tieredZero]
      simp only [isUsage,isSnap,Option.some.injEq]
      exact ⟨fun small _ _ same same' => same ▸ same' ▸ small,fun small => small usage snap rfl rfl⟩
    rename_i plain
    refine iff_of_true ?_ (fun usage snap isUsage isSnap => absurd isSnap (plain usage snap isUsage))
    exact if_pos tokens
  · simp only [tokens,if_false,and_self,ne_eq,not_false_eq_true,true_or]

def flatFee : RelayInfo :=
  {originModelName := "m", userGroup := "default", usingGroup := "default", estimatePromptTokens := 0
   tieredBillingSnapshot := some ⟨⟨fun _ => .ok 2000,[]⟩,1,1000,1000,500000⟩}

theorem flatFeeNotRecorded :
    bookTextConsumeQuota freeTools flatFee {usage := some {}} = ⟨1000,0,0⟩ := by decide +kernel

end Omnigate.TextQuota
