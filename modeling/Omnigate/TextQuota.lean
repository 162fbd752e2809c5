import Omnigate.TaskPrice
import Omnigate.UsageConvert

/-! The price of a relayed text request and the quota settled for it. Prices and quotas are exact rationals until the
last conversion; a charge is the list of its components, each with its group ratio. -/
namespace Omnigate.TextQuota

open QuotaMath UsageConvert List

structure GroupRatioInfo where
  groupRatio : ℚ := 1
  groupSpecialRatio : ℚ := -1
  hasSpecialRatio : Bool := false
  deriving DecidableEq

structure PriceData where
  freeModel : Bool := false
  (modelPrice modelRatio completionRatio : ℚ := 0)
  groupRatioInfo : GroupRatioInfo := {}
  usePrice : Bool := false
  (cacheRatio imageRatio cacheCreationRatio cacheCreation5mRatio cacheCreation1hRatio : ℚ := 0)
  quotaToPreConsume : Int := 0
  otherRatios : List (String × ℚ) := []
  deriving DecidableEq

def applyOtherRatios (value : ℚ) (p : PriceData) : ℚ := value * TaskBilling.otherRatioMultiplier p.otherRatios

inductive Var where
  | cr | cc | cc1h | img | ai | imgO | ao
  deriving DecidableEq, Repr

structure TokenParams where
  (p c len cr cc cc1h img imgO ai ao : ℚ := 0)
  deriving DecidableEq

structure Expression where
  cost : TokenParams → Except String ℚ
  usedVars : List Var

structure BillingSnapshot where
  expr : Expression
  (groupRatio estimatedQuotaBeforeGroup : ℚ)
  estimatedQuotaAfterGroup : Int
  quotaPerUnit : ℚ

inductive Part where
  | tokens | audioInput | webSearch | claudeWebSearch | fileSearch | imageGeneration
  deriving DecidableEq, Repr

structure Component where
  part : Part
  (base groupRatio : ℚ)
  deriving DecidableEq

def Component.amount (c : Component) : ℚ := c.base * c.groupRatio

def total (components : List Component) : ℚ := (components.map Component.amount).sum

/- The held estimate records what finalPreConsumedQuota was computed from. -/
structure RelayInfo where
  (originModelName userGroup usingGroup : String)
  estimatePromptTokens : Int
  priceData : PriceData := {}
  tieredBillingSnapshot : Option BillingSnapshot := none
  finalPreConsumedQuota : Int := 0
  heldEstimate : Component := ⟨.tokens,0,1⟩

structure PriceBook where
  modelPrice : Option ℚ
  modelRatio : ℚ × Bool × String
  (completionRatio cacheRatio createCacheRatio imageRatio : ℚ)
  tieredExpr : Bool
  billingExpr : Option Expression
  requestInputError : Option String
  preConsumedQuota : Int
  quotaPerUnit : ℚ
  (enableFreeModelPreConsume acceptUnsetRatioModel isAdmin : Bool)
  formatFloat : ℚ → String
  groupRatio : String → Option ℚ
  groupGroupRatio : String → String → Option ℚ

structure TokenCountMeta where
  maxTokens : Int := 0
  imagePriceRatio : ℚ := 0
  billingRatios : List (String × ℚ) := []

def claudeCacheCreation1hMultiplier : ℚ := 6 / (15 / 4)

def defaultTieredPreConsumeMaxTokens : Int := 8192

def getGroupRatio (b : PriceBook) (name : String) : ℚ := (b.groupRatio name).getD 1

def handleGroupRatio (b : PriceBook) (autoGroup : Option String) (info : RelayInfo) : GroupRatioInfo × RelayInfo :=
  let usingGroup := autoGroup.getD info.usingGroup
  let next := {info with usingGroup := usingGroup}
  match b.groupGroupRatio info.userGroup usingGroup with
  | some ratio => ({groupRatio := ratio, groupSpecialRatio := ratio, hasSpecialRatio := true},next)
  | none => ({groupRatio := getGroupRatio b usingGroup},next)

def addOtherRatio (ratios : List (String × ℚ)) (entry : String × ℚ) : List (String × ℚ) :=
  if TaskBilling.isValidOtherRatio entry.2 then entry::ratios.filter (fun other => other.1 ≠ entry.1) else ratios

def quotaRoundStrict (value : ℚ) : Except QuotaClamp Int :=
  match saturateQuota (QuotaMath.round value) "QuotaRound" with
  | (_,some clamp) => .error clamp
  | (quota,none) => .ok quota

def modelPriceHelperTiered (b : PriceBook) (info : RelayInfo) (promptTokens : Int) (tokenMeta : TokenCountMeta)
    (groupRatioInfo : GroupRatioInfo) : Except String RelayInfo :=
  match b.billingExpr with
  | none =>
      .error ("model " ++ info.originModelName ++ " is configured as tiered_expr but has no billing expression")
  | some expr =>
    let estimatedCompletionTokens :=
      if tokenMeta.maxTokens = 0 ∧ groupRatioInfo.groupRatio ≠ 0 then defaultTieredPreConsumeMaxTokens
      else tokenMeta.maxTokens
    match b.requestInputError with
    | some e => .error e
    | none =>
      match expr.cost {p := promptTokens, c := estimatedCompletionTokens, len := promptTokens} with
      | .error e => .error ("model " ++ info.originModelName ++ " tiered expr run failed: " ++ e)
      | .ok rawCost =>
        let quotaBeforeGroup := rawCost / 1000000 * b.quotaPerUnit
        match quotaRoundStrict (quotaBeforeGroup * groupRatioInfo.groupRatio) with
        | .error clamp => .error (clampText b.formatFloat clamp)
        | .ok quota =>
          let freeModel := ¬b.enableFreeModelPreConsume ∧ groupRatioInfo.groupRatio = 0
          let preConsumedQuota := if freeModel then 0 else quota
          .ok {info with
            tieredBillingSnapshot := some ⟨expr,groupRatioInfo.groupRatio,quotaBeforeGroup,preConsumedQuota,b.quotaPerUnit⟩
            priceData :=
              {freeModel := freeModel, groupRatioInfo := groupRatioInfo, quotaToPreConsume := preConsumedQuota}}

def pricedPerCall (b : PriceBook) (price : ℚ) (tokenMeta : TokenCountMeta) (groupRatioInfo : GroupRatioInfo) :
    Except String PriceData :=
  let modelPrice := if tokenMeta.imagePriceRatio ≠ 0 then price * tokenMeta.imagePriceRatio else price
  let freeModel := ¬b.enableFreeModelPreConsume ∧ (groupRatioInfo.groupRatio = 0 ∨ modelPrice = 0)
  let priceData : PriceData :=
    {freeModel := freeModel, modelPrice := modelPrice, groupRatioInfo := groupRatioInfo, usePrice := true
     otherRatios := tokenMeta.billingRatios.foldl addOtherRatio []}
  match quotaFromFloatStrict (applyOtherRatios (modelPrice * b.quotaPerUnit * groupRatioInfo.groupRatio) priceData) with
  | .error clamp => .error (clampText b.formatFloat clamp)
  | .ok quota => .ok {priceData with quotaToPreConsume := quota}

def pricedByRatio (b : PriceBook) (promptTokens : Int) (tokenMeta : TokenCountMeta) (groupRatioInfo : GroupRatioInfo) :
    Except String PriceData :=
  let (modelRatio,success,matchName) := b.modelRatio
  if ¬success ∧ ¬b.acceptUnsetRatioModel then .error (TaskPrice.modelPriceNotConfiguredError b.isAdmin matchName)
  else
    let preConsumedTokens := max promptTokens b.preConsumedQuota + tokenMeta.maxTokens
    match quotaFromFloatStrict (preConsumedTokens * (modelRatio * groupRatioInfo.groupRatio)) with
    | .error clamp => .error (clampText b.formatFloat clamp)
    | .ok quota =>
      let freeModel := ¬b.enableFreeModelPreConsume ∧ (groupRatioInfo.groupRatio = 0 ∨ modelRatio = 0)
      .ok {freeModel := freeModel
           modelPrice := -1
           modelRatio := modelRatio
           completionRatio := b.completionRatio
           groupRatioInfo := groupRatioInfo
           cacheRatio := b.cacheRatio
           imageRatio := b.imageRatio
           cacheCreationRatio := b.createCacheRatio
           cacheCreation5mRatio := b.createCacheRatio
           cacheCreation1hRatio := b.createCacheRatio * claudeCacheCreation1hMultiplier
           quotaToPreConsume := if freeModel then 0 else quota}

def modelPriceHelper (b : PriceBook) (autoGroup : Option String) (info : RelayInfo) (promptTokens : Int)
    (tokenMeta : TokenCountMeta) : Except String RelayInfo :=
  let (groupRatioInfo,info) := handleGroupRatio b autoGroup info
  if b.tieredExpr then modelPriceHelperTiered b info promptTokens tokenMeta groupRatioInfo
  else
    match (match b.modelPrice with
      | some price => pricedPerCall b price tokenMeta groupRatioInfo
      | none => pricedByRatio b promptTokens tokenMeta groupRatioInfo) with
    | .error e => .error e
    | .ok priceData => .ok {info with priceData := priceData}

structure BuiltInTools where
  (webSearchPreview fileSearch : Int := 0)
  deriving DecidableEq, Repr

/- What the attempt that succeeds leaves for settlement. The cost is the one OpenRouter reports, 0 if none. -/
structure Served where
  usage : Option Usage
  cost : ℚ := 0
  (claudeFormat openRouter : Bool := false)
  responsesUsageInfo : Option BuiltInTools := none
  claudeWebSearchRequests : Int := 0
  imageGenerationCall : Bool := false

structure ToolPrices where
  (webSearchPreview webSearch fileSearch gptImage1OnceCall geminiInputAudioPerMillionTokens : ℚ)
  defaultModelRatio : Option ℚ
  quotaPerUnit : ℚ

def webSearchCalls (info : RelayInfo) (served : Served) : Int :=
  match served.responsesUsageInfo with
  | some tools => if tools.webSearchPreview > 0 then tools.webSearchPreview else 0
  | none => if info.originModelName.endsWith "search-preview" then 1 else 0

def fileSearchCalls (served : Served) : Int :=
  match served.responsesUsageInfo with
  | some tools => if tools.fileSearch > 0 then tools.fileSearch else 0
  | none => 0

def calculateTextToolCallSurcharge (t : ToolPrices) (info : RelayInfo) (served : Served) : List Component :=
  let groupRatio := info.priceData.groupRatioInfo.groupRatio
  let perThousand (part : Part) (price : ℚ) (calls : Int) : List Component :=
    if calls > 0 then [⟨part,price * calls / 1000 * t.quotaPerUnit,groupRatio⟩] else []
  perThousand .webSearch t.webSearchPreview (webSearchCalls info served) ++
    perThousand .claudeWebSearch t.webSearch served.claudeWebSearchRequests ++
    perThousand .fileSearch t.fileSearch (fileSearchCalls served) ++
    if served.imageGenerationCall then [⟨.imageGeneration,t.gptImage1OnceCall * t.quotaPerUnit,groupRatio⟩] else []

def hasCustomModelRatio (t : ToolPrices) (currentRatio : ℚ) : Bool :=
  match t.defaultModelRatio with
  | none => true
  | some ratio => currentRatio ≠ ratio

def calcOpenRouterCacheCreateTokens (t : ToolPrices) (u : Tokens) (cost : ℚ) (p : PriceData) : Int :=
  if p.cacheCreationRatio = 1 then 0
  else
    let quotaPrice := p.modelRatio / t.quotaPerUnit
    QuotaMath.round ((cost - u.promptTokens * quotaPrice +
      u.promptTokensDetails.cachedTokens * (quotaPrice - quotaPrice * p.cacheRatio) -
      u.completionTokens * (quotaPrice * p.completionRatio)) / (quotaPrice * p.cacheCreationRatio - quotaPrice))

def isClaudeUsageSemantic (u : Tokens) (served : Served) : Bool :=
  match u.usageSemantic with
  | .unset => served.claudeFormat
  | semantic => semantic = .anthropic

def isLegacyClaudeDerivedOpenAIUsage (u : Tokens) (served : Served) : Bool :=
  ¬served.claudeFormat ∧ u.usageSource = .unset ∧ u.usageSemantic = .unset ∧
    (u.claudeCacheCreation5mTokens > 0 ∨ u.claudeCacheCreation1hTokens > 0)

/- The counts of textQuotaSummary after the OpenRouter adjustment of prompt and cache-creation tokens. -/
def summaryCounts (t : ToolPrices) (p : PriceData) (u : Tokens) (served : Served) : Counts :=
  let n := counts u
  if served.openRouter ∧ isClaudeUsageSemantic u served then
    let prompt := n.prompt - n.cached
    let isUsingCustomSettings := p.usePrice ∨ hasCustomModelRatio t p.modelRatio
    let maybe := calcOpenRouterCacheCreateTokens t u served.cost p
    let creation :=
      if n.cacheCreation = 0 ∧ p.cacheCreationRatio ≠ 1 ∧ ¬isUsingCustomSettings ∧ maybe ≥ 0 ∧ prompt ≥ maybe then maybe
      else n.cacheCreation
    {n with prompt := prompt - creation, cacheCreation := creation}
  else n

def weightedTokens (t : ToolPrices) (p : PriceData) (u : Tokens) (served : Served) : ℚ :=
  let n := summaryCounts t p u served
  let separate := isClaudeUsageSemantic u served ∨ isLegacyClaudeDerivedOpenAIUsage u served
  let cached : ℚ := n.cached * p.cacheRatio
  let creation : ℚ :=
    if separate then
      (max 0 (n.cacheCreation - n.cacheCreation5m - n.cacheCreation1h) : Int) * p.cacheCreationRatio +
        n.cacheCreation5m * p.cacheCreation5mRatio + n.cacheCreation1h * p.cacheCreation1hRatio
    else n.cacheCreation * p.cacheCreationRatio
  let hasCreation := n.cacheCreation ≠ 0 ∨ n.cacheCreation5m > 0 ∨ n.cacheCreation1h > 0
  let audioPriced := n.audio ≠ 0 ∧ t.geminiInputAudioPerMillionTokens > 0
  let base := n.prompt - (if separate then 0 else n.cached) - (if hasCreation ∧ ¬separate then n.cacheCreation else 0) -
    n.image - (if audioPriced then n.audio else 0)
  max 0 (base : ℚ) + cached + n.image * p.imageRatio + (if hasCreation then creation else 0) +
    n.completion * p.completionRatio

def audioInput (t : ToolPrices) (p : PriceData) (u : Tokens) (served : Served) : List Component :=
  let n := summaryCounts t p u served
  if ¬p.usePrice ∧ n.audio ≠ 0 ∧ t.geminiInputAudioPerMillionTokens > 0 then
    [⟨.audioInput,t.geminiInputAudioPerMillionTokens / 1000000 * n.audio * t.quotaPerUnit,p.groupRatioInfo.groupRatio⟩]
  else []

def tokenCharge (t : ToolPrices) (p : PriceData) (u : Tokens) (served : Served) : Component :=
  let base := if p.usePrice then p.modelPrice * t.quotaPerUnit else weightedTokens t p u served * p.modelRatio
  ⟨.tokens,base,p.groupRatioInfo.groupRatio⟩

structure Settled where
  components : List Component
  quota : Int
  deriving DecidableEq

def usageOrEstimate (info : RelayInfo) (u : Option Tokens) : Tokens :=
  u.getD {promptTokens := info.estimatePromptTokens, totalTokens := info.estimatePromptTokens}

def calculateTextQuotaSummary (t : ToolPrices) (info : RelayInfo) (u : Tokens) (served : Served) : Settled :=
  let p := info.priceData
  let ratio := p.modelRatio * p.groupRatioInfo.groupRatio
  let components :=
    tokenCharge t p u served :: calculateTextToolCallSurcharge t info served ++ audioInput t p u served
  let value := applyOtherRatios (total components) p
  let charged := if ¬p.usePrice ∧ ratio ≠ 0 ∧ value ≤ 0 then 1 else value
  let quota := quotaFromDecimal charged
  ⟨components,if (counts u).prompt + (counts u).completion = 0 then 0 else if ratio ≠ 0 ∧ quota = 0 then 1 else quota⟩

def buildTieredTokenParams (u : Tokens) (isClaude : Bool) (usedVars : List Var) : TokenParams :=
  let anthropic := u.usageSemantic = .anthropic
  let cr : ℚ := u.promptTokensDetails.cachedTokens
  let cc : ℚ := if anthropic then u.claudeCacheCreation5mTokens else u.promptTokensDetails.cacheCreationTokensTotal
  let cc1h : ℚ := if anthropic then u.claudeCacheCreation1hTokens else 0
  let img : ℚ := u.promptTokensDetails.imageTokens
  let ai : ℚ := u.promptTokensDetails.audioTokens
  let imgO : ℚ := u.completionTokenDetails.imageTokens
  let ao : ℚ := u.completionTokenDetails.audioTokens
  let minus (var : Var) (n : ℚ) : ℚ := if ¬isClaude ∧ var ∈ usedVars then n else 0
  {p := max 0 (u.promptTokens - minus .cr cr - minus .cc cc - minus .cc1h cc1h - minus .img img - minus .ai ai)
   c := max 0 (u.completionTokens - minus .imgO imgO - minus .ao ao)
   len := if isClaude then u.promptTokens + cr + cc + cc1h else u.promptTokens
   cr := cr, cc := cc, cc1h := cc1h, img := img, imgO := imgO, ai := ai, ao := ao}

def quotaRound (value : ℚ) : Int := (saturateQuota (QuotaMath.round value) "QuotaRound").1

/- TryTieredSettle and composeTieredTextQuota.  When the expression fails, the estimate stays charged. -/
def tieredSettle (snap : BillingSnapshot) (info : RelayInfo) (params : TokenParams) (tools : List Component) : Settled :=
  match snap.expr.cost params with
  | .error _ =>
      let (token,tieredQuota) :=
        if info.finalPreConsumedQuota ≤ 0 then
          ((⟨.tokens,snap.estimatedQuotaBeforeGroup,snap.groupRatio⟩ : Component),snap.estimatedQuotaAfterGroup)
        else (info.heldEstimate,info.finalPreConsumedQuota)
      ⟨token :: tools, if total tools = 0 then tieredQuota else quotaFromDecimal (tieredQuota + total tools)⟩
  | .ok cost =>
      let token : Component := ⟨.tokens,cost / 1000000 * snap.quotaPerUnit,snap.groupRatio⟩
      ⟨token :: tools, if total tools = 0 then quotaRound token.amount else quotaFromDecimal (token.amount + total tools)⟩

def tieredParams (expr : Expression) (served : Served) (usage : Usage) : TokenParams :=
  let u := (effectiveBillingUsage usage).toTokens
  buildTieredTokenParams u (isClaudeUsageSemantic u served) expr.usedVars

def postTextConsumeQuota (t : ToolPrices) (info : RelayInfo) (served : Served) : Settled :=
  match served.usage, info.tieredBillingSnapshot with
  | some usage, some snap =>
      tieredSettle snap info (tieredParams snap.expr served usage) (calculateTextToolCallSurcharge t info served)
  | usage, _ =>
      calculateTextQuotaSummary t info
        (usageOrEstimate info (usage.map fun usage => (effectiveBillingUsage usage).toTokens)) served

def ratioOf (b : PriceBook) (userGroup group : String) : ℚ :=
  (b.groupGroupRatio userGroup group).getD (getGroupRatio b group)

theorem handleGroupRatioSpec (b autoGroup info) :
    (handleGroupRatio b autoGroup info).1.groupRatio = ratioOf b info.userGroup (autoGroup.getD info.usingGroup) ∧
      (handleGroupRatio b autoGroup info).2 = {info with usingGroup := autoGroup.getD info.usingGroup} := by
  unfold handleGroupRatio ratioOf
  cases special : b.groupGroupRatio info.userGroup (autoGroup.getD info.usingGroup) <;> simp [special]

theorem tieredRatio (h : modelPriceHelperTiered b info promptTokens tokenMeta groupRatioInfo = .ok priced) :
    priced.priceData.groupRatioInfo = groupRatioInfo ∧ priced.usingGroup = info.usingGroup ∧
      priced.userGroup = info.userGroup ∧ priced.finalPreConsumedQuota = info.finalPreConsumedQuota ∧
      priced.heldEstimate = info.heldEstimate ∧
      ∃ snap, priced.tieredBillingSnapshot = some snap ∧ snap.groupRatio = groupRatioInfo.groupRatio ∧
        b.billingExpr = some snap.expr := by
  unfold modelPriceHelperTiered at h
  split at h
  · cases h
  rename_i expr isExpr
  dsimp only at h
  split at h
  · cases h
  split at h
  · cases h
  split at h
  · cases h
  · cases h
    exact ⟨rfl,rfl,rfl,rfl,rfl,_,rfl,rfl,isExpr⟩

theorem perCallRatio
    (h : pricedPerCall b price tokenMeta groupRatioInfo = .ok p) : p.groupRatioInfo = groupRatioInfo := by
  unfold pricedPerCall at h
  dsimp only at h
  split at h <;> cases h
  rfl

theorem byRatioRatio
    (h : pricedByRatio b promptTokens tokenMeta groupRatioInfo = .ok p) : p.groupRatioInfo = groupRatioInfo := by
  unfold pricedByRatio at h
  dsimp only at h
  split at h
  · cases h
  · split at h <;> cases h
    rfl

theorem modelPriceHelperSpec (h : modelPriceHelper b autoGroup info promptTokens tokenMeta = .ok priced) :
    priced.priceData.groupRatioInfo.groupRatio = ratioOf b info.userGroup (autoGroup.getD info.usingGroup) ∧
      priced.usingGroup = autoGroup.getD info.usingGroup ∧ priced.userGroup = info.userGroup ∧
      priced.finalPreConsumedQuota = info.finalPreConsumedQuota ∧ priced.heldEstimate = info.heldEstimate ∧
      if b.tieredExpr then ∃ snap, priced.tieredBillingSnapshot = some snap ∧
        snap.groupRatio = ratioOf b info.userGroup (autoGroup.getD info.usingGroup) ∧ b.billingExpr = some snap.expr
      else priced.tieredBillingSnapshot = info.tieredBillingSnapshot := by
  obtain ⟨ratio,next⟩ := handleGroupRatioSpec b autoGroup info
  unfold modelPriceHelper at h
  dsimp only at h
  split at h
  · rename_i tiered
    obtain ⟨sameRatio,sameUsing,sameUser,samePre,sameHeld,snap,isSnap,snapRatio,isExpr⟩ := tieredRatio h
    rw [next] at sameUsing sameUser samePre sameHeld
    rw [if_pos tiered]
    exact ⟨by rw [sameRatio,ratio],sameUsing,sameUser,samePre,sameHeld,snap,isSnap,by rw [snapRatio,ratio],isExpr⟩
  rename_i plain
  split at h
  · cases h
  rename_i p pricing
  cases h
  have sameRatio : p.groupRatioInfo = (handleGroupRatio b autoGroup info).1 := by
    cases price : b.modelPrice with
    | none => rw [price] at pricing; exact byRatioRatio pricing
    | some => rw [price] at pricing; exact perCallRatio pricing
  rw [if_neg plain,next]
  exact ⟨by rw [sameRatio,ratio],rfl,rfl,rfl,rfl,rfl⟩

theorem toolRatio (member : c ∈ calculateTextToolCallSurcharge t info served) :
    c.groupRatio = info.priceData.groupRatioInfo.groupRatio := by
  simp only [calculateTextToolCallSurcharge,mem_append] at member
  rcases member with ((inPart | inPart) | inPart) | inPart <;>
    (split at inPart <;> simp at inPart; rw [inPart])

theorem summaryRatio (member : c ∈ (calculateTextQuotaSummary t info u served).components) :
    c.groupRatio = info.priceData.groupRatioInfo.groupRatio := by
  simp only [calculateTextQuotaSummary,cons_append,mem_cons,mem_append] at member
  rcases member with isToken | isTool | isAudio
  · rw [isToken]; rfl
  · exact toolRatio isTool
  unfold audioInput at isAudio
  dsimp only at isAudio
  split at isAudio <;> simp at isAudio
  rw [isAudio]

def estimateCharged (expr : Expression) (params : TokenParams) (held : Int) : Bool :=
  match expr.cost params with
  | .error _ => 0 < held
  | .ok _ => false

theorem tieredComponents (snap info params tools) :
    ∃ token, (tieredSettle snap info params tools).components = token :: tools ∧
      token.groupRatio = if estimateCharged snap.expr params info.finalPreConsumedQuota
        then info.heldEstimate.groupRatio else snap.groupRatio := by
  unfold tieredSettle estimateCharged
  split
  · by_cases held : 0 < info.finalPreConsumedQuota
    · exact ⟨_,rfl,by simp [held,not_le.mpr held]⟩
    · exact ⟨_,rfl,by simp [held,not_lt.mp held]⟩
  · exact ⟨_,rfl,by simp⟩

theorem settledRatios (t info served) (ratio : ℚ)
    (refreshed : info.priceData.groupRatioInfo.groupRatio = ratio) :
    (∀ c ∈ (postTextConsumeQuota t info served).components, c.groupRatio = ratio) ↔
      ∀ usage snap, served.usage = some usage → info.tieredBillingSnapshot = some snap →
        (if estimateCharged snap.expr (tieredParams snap.expr served usage) info.finalPreConsumedQuota
          then info.heldEstimate.groupRatio else snap.groupRatio) = ratio := by
  unfold postTextConsumeQuota
  split
  · rename_i usage snap isUsage isSnap
    obtain ⟨_,components,tokenRatio⟩ := tieredComponents snap info (tieredParams snap.expr served usage)
      (calculateTextToolCallSurcharge t info served)
    simp only [isUsage,isSnap,components,mem_cons,forall_eq_or_imp,tokenRatio,Option.some.injEq]
    constructor
    · rintro ⟨same,_⟩ _ _ rfl rfl
      exact same
    · intro same
      exact ⟨same usage snap rfl rfl,fun c member => (toolRatio member).trans refreshed⟩
  · rename_i plain
    refine iff_of_true (fun c member => (summaryRatio member).trans refreshed) ?_
    intro usage snap isUsage isSnap
    exact absurd isSnap (plain usage snap isUsage)

end Omnigate.TextQuota
