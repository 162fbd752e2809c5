import Mathlib.Tactic

/-! The usage reports of the four upstream protocols, their conversions and the counts that settlement bills. Every
converter copies the report into the billing_usage side channel, and effectiveBillingUsage decodes that copy again. A
report is what the provider sends, without the side channel and a handler's estimates of missing prompt tokens. -/
namespace Omnigate.UsageConvert

inductive Semantic where
  | unset | anthropic | gemini | openai
  deriving DecidableEq, Repr

inductive Source where
  | unset | anthropic | claudeMessages | geminiChat | oaiChat | oaiResponses
  deriving DecidableEq, Repr

structure InputTokenDetails where
  (cachedTokens cachedCreationTokens cacheWriteTokens textTokens audioTokens imageTokens : Int := 0)
  deriving DecidableEq, Repr

def InputTokenDetails.cacheCreationTokensTotal (d : InputTokenDetails) : Int :=
  let total := if d.cacheWriteTokens > d.cachedCreationTokens then d.cacheWriteTokens else d.cachedCreationTokens
  if total < 0 then 0 else total

structure OutputTokenDetails where
  (textTokens audioTokens imageTokens reasoningTokens : Int := 0)
  deriving DecidableEq, Repr

/- dto.Usage without its side channel.  The cost that OpenRouter reports is no count and is left out. -/
structure Tokens where
  (promptTokens completionTokens totalTokens promptCacheHitTokens : Int := 0)
  usageSemantic : Semantic := .unset
  usageSource : Source := .unset
  promptTokensDetails : InputTokenDetails := {}
  completionTokenDetails : OutputTokenDetails := {}
  (inputTokens outputTokens : Int := 0)
  inputTokensDetails : Option InputTokenDetails := none
  (claudeCacheCreation5mTokens claudeCacheCreation1hTokens : Int := 0)
  deriving DecidableEq, Repr

structure ClaudeCacheCreationUsage where
  (ephemeral5mInputTokens ephemeral1hInputTokens : Int := 0)
  deriving DecidableEq, Repr

structure ClaudeUsage where
  (inputTokens cacheCreationInputTokens cacheReadInputTokens outputTokens : Int := 0)
  cacheCreation : Option ClaudeCacheCreationUsage := none
  (claudeCacheCreation5mTokens claudeCacheCreation1hTokens : Int := 0)
  deriving DecidableEq, Repr

def ClaudeUsage.getCacheCreation5mTokens (u : ClaudeUsage) : Int :=
  (u.cacheCreation.map (·.ephemeral5mInputTokens)).getD 0

def ClaudeUsage.getCacheCreation1hTokens (u : ClaudeUsage) : Int :=
  (u.cacheCreation.map (·.ephemeral1hInputTokens)).getD 0

inductive Modality where
  | text | image | audio | other
  deriving DecidableEq, Repr

structure GeminiPromptTokensDetails where
  modality : Modality
  tokenCount : Int
  deriving DecidableEq, Repr

structure GeminiUsageMetadata where
  (promptTokenCount toolUsePromptTokenCount candidatesTokenCount totalTokenCount : Int := 0)
  (thoughtsTokenCount cachedContentTokenCount : Int := 0)
  (promptTokensDetails toolUsePromptTokensDetails : List GeminiPromptTokensDetails := [])
  candidatesTokensDetails : List GeminiPromptTokensDetails := []
  deriving DecidableEq, Repr

/- The usages inside have no side channel of their own: every clone clears it. -/
structure BillingUsage where
  source : Source
  semantic : Semantic
  estimated : Bool := false
  openAIUsage : Option Tokens := none
  claudeUsage : Option ClaudeUsage := none
  geminiUsageMetadata : Option GeminiUsageMetadata := none
  deriving DecidableEq, Repr

structure Usage extends Tokens where
  billingUsage : Option BillingUsage := none
  deriving DecidableEq, Repr

def hasClaudeUsageTokens (u : ClaudeUsage) : Bool :=
  u.inputTokens != 0 || u.outputTokens != 0 || u.cacheCreationInputTokens != 0 || u.cacheReadInputTokens != 0 ||
    u.claudeCacheCreation5mTokens != 0 || u.claudeCacheCreation1hTokens != 0 ||
    u.getCacheCreation5mTokens != 0 || u.getCacheCreation1hTokens != 0

def newClaudeMessagesBillingUsage (u : ClaudeUsage) : Option BillingUsage :=
  if hasClaudeUsageTokens u then
    some {source := .claudeMessages, semantic := .anthropic, claudeUsage := some u} else none

def InputTokenDetails.reported (d : InputTokenDetails) : Bool :=
  d.cachedTokens != 0 || d.cachedCreationTokens != 0 || d.cacheWriteTokens != 0 || d.textTokens != 0 ||
    d.imageTokens != 0 || d.audioTokens != 0

def OutputTokenDetails.reported (d : OutputTokenDetails) : Bool :=
  d.reasoningTokens != 0 || d.textTokens != 0 || d.imageTokens != 0 || d.audioTokens != 0

def hasOpenAIUsageTokens (u : Tokens) : Bool :=
  u.promptTokens != 0 || u.completionTokens != 0 || u.totalTokens != 0 || u.inputTokens != 0 ||
    u.outputTokens != 0 || u.promptCacheHitTokens != 0 || u.claudeCacheCreation5mTokens != 0 ||
    u.claudeCacheCreation1hTokens != 0 || u.promptTokensDetails.reported || u.completionTokenDetails.reported ||
    u.inputTokensDetails.isSome

def newOpenAIBillingUsage (source : Source) (u : Tokens) : Option BillingUsage :=
  if hasOpenAIUsageTokens u then
    some {source := source, semantic := .openai, openAIUsage := some u} else none

def newOpenAIChatBillingUsage (u : Tokens) : Option BillingUsage := newOpenAIBillingUsage .oaiChat u

def newOpenAIResponsesBillingUsage (u : Tokens) : Option BillingUsage := newOpenAIBillingUsage .oaiResponses u

def hasGeminiUsageMetadataTokens (m : GeminiUsageMetadata) : Bool :=
  m.promptTokenCount != 0 || m.toolUsePromptTokenCount != 0 || m.candidatesTokenCount != 0 ||
    m.totalTokenCount != 0 || m.thoughtsTokenCount != 0 || m.cachedContentTokenCount != 0 ||
    m.promptTokensDetails.any (·.tokenCount != 0) || m.toolUsePromptTokensDetails.any (·.tokenCount != 0) ||
    m.candidatesTokensDetails.any (·.tokenCount != 0)

def newGeminiChatBillingUsage (m : GeminiUsageMetadata) : Option BillingUsage :=
  if hasGeminiUsageMetadataTokens m then
    some {source := .geminiChat, semantic := .gemini, geminiUsageMetadata := some m} else none

def filled (source : Source) (u : Tokens) : Tokens :=
  let prompt := if u.promptTokens = 0 ∧ u.inputTokens > 0 then u.inputTokens else u.promptTokens
  let completion := if u.completionTokens = 0 ∧ u.outputTokens > 0 then u.outputTokens else u.completionTokens
  {u with
    promptTokens := prompt
    completionTokens := completion
    inputTokens := if u.inputTokens = 0 ∧ prompt > 0 then prompt else u.inputTokens
    outputTokens := if u.outputTokens = 0 ∧ completion > 0 then completion else u.outputTokens
    totalTokens := if u.totalTokens = 0 then prompt + completion else u.totalTokens
    usageSemantic := .openai
    usageSource := source}

def usageFromClaudeBillingUsage (u : ClaudeUsage) : Tokens :=
  {promptTokens := u.inputTokens
   completionTokens := u.outputTokens
   totalTokens := u.inputTokens + u.outputTokens
   inputTokens := u.inputTokens + u.cacheReadInputTokens + u.cacheCreationInputTokens
   outputTokens := u.outputTokens
   usageSemantic := .anthropic
   usageSource := .claudeMessages
   claudeCacheCreation5mTokens :=
     if u.getCacheCreation5mTokens = 0 then u.claudeCacheCreation5mTokens else u.getCacheCreation5mTokens
   claudeCacheCreation1hTokens :=
     if u.getCacheCreation1hTokens = 0 then u.claudeCacheCreation1hTokens else u.getCacheCreation1hTokens
   promptTokensDetails :=
     {cachedTokens := u.cacheReadInputTokens, cachedCreationTokens := u.cacheCreationInputTokens}}

def addGeminiInputTokenDetail (details : InputTokenDetails) (detail : GeminiPromptTokensDetails) :
    InputTokenDetails :=
  match detail.modality with
  | .audio => {details with audioTokens := details.audioTokens + detail.tokenCount}
  | .image => {details with imageTokens := details.imageTokens + detail.tokenCount}
  | .text => {details with textTokens := details.textTokens + detail.tokenCount}
  | .other => details

def addGeminiOutputTokenDetail (details : OutputTokenDetails) (detail : GeminiPromptTokensDetails) :
    OutputTokenDetails :=
  match detail.modality with
  | .audio => {details with audioTokens := details.audioTokens + detail.tokenCount}
  | .image => {details with imageTokens := details.imageTokens + detail.tokenCount}
  | .text => {details with textTokens := details.textTokens + detail.tokenCount}
  | .other => details

def geminiInputDetails (m : GeminiUsageMetadata) : InputTokenDetails :=
  (m.promptTokensDetails ++ m.toolUsePromptTokensDetails).foldl addGeminiInputTokenDetail
    {cachedTokens := m.cachedContentTokenCount}

def geminiOutputDetails (m : GeminiUsageMetadata) : OutputTokenDetails :=
  m.candidatesTokensDetails.foldl addGeminiOutputTokenDetail {reasoningTokens := m.thoughtsTokenCount}

def geminiTextFilled (prompt : Int) (details : InputTokenDetails) : InputTokenDetails :=
  if prompt > 0 ∧ details.textTokens = 0 ∧ details.audioTokens = 0 then {details with textTokens := prompt}
  else details

def usageFromGeminiBillingUsage (m : GeminiUsageMetadata) : Tokens :=
  let prompt := m.promptTokenCount + m.toolUsePromptTokenCount
  let completion := m.candidatesTokenCount + m.thoughtsTokenCount
  {promptTokens := prompt
   completionTokens :=
     if m.totalTokenCount ≠ 0 ∧ completion ≤ 0 then m.totalTokenCount - prompt else completion
   totalTokens := if m.totalTokenCount = 0 then prompt + completion else m.totalTokenCount
   usageSemantic := .gemini
   usageSource := .geminiChat
   completionTokenDetails := geminiOutputDetails m
   promptTokensDetails := geminiTextFilled prompt (geminiInputDetails m)}

def decode (b : BillingUsage) : Option Tokens :=
  if b.openAIUsage.isSome ∧ (b.source = .oaiChat ∨ b.source = .oaiResponses ∨ b.semantic = .openai) then
    b.openAIUsage.map (filled b.source)
  else if b.claudeUsage.isSome ∧ (b.source = .claudeMessages ∨ b.semantic = .anthropic) then
    b.claudeUsage.map usageFromClaudeBillingUsage
  else if b.geminiUsageMetadata.isSome ∧ (b.source = .geminiChat ∨ b.semantic = .gemini) then
    b.geminiUsageMetadata.map usageFromGeminiBillingUsage
  else none

def usageFromBillingUsage (u : Usage) : Option Usage :=
  u.billingUsage.bind fun b => (decode b).map fun tokens => {toTokens := tokens, billingUsage := some b}

def effectiveBillingUsage (u : Usage) : Usage := (usageFromBillingUsage u).getD u

structure Counts where
  (prompt completion cached cacheCreation cacheCreation5m cacheCreation1h image audio imageOutput : Int := 0)
  audioOutput : Int := 0
  deriving DecidableEq, Repr

def counts (u : Tokens) : Counts :=
  {prompt := u.promptTokens
   completion := u.completionTokens
   cached := u.promptTokensDetails.cachedTokens
   cacheCreation := u.promptTokensDetails.cacheCreationTokensTotal
   cacheCreation5m := u.claudeCacheCreation5mTokens
   cacheCreation1h := u.claudeCacheCreation1hTokens
   image := u.promptTokensDetails.imageTokens
   audio := u.promptTokensDetails.audioTokens
   imageOutput := u.completionTokenDetails.imageTokens
   audioOutput := u.completionTokenDetails.audioTokens}

def billed (u : Usage) : Counts := counts (effectiveBillingUsage u).toTokens

def usageFromResponsesUsage (src : Usage) : Usage :=
  let total := if src.totalTokens ≠ 0 then src.totalTokens else src.inputTokens + src.outputTokens
  {usageSemantic := src.usageSemantic
   usageSource := src.usageSource
   billingUsage := src.billingUsage.or (newOpenAIResponsesBillingUsage src.toTokens)
   promptTokens := src.inputTokens
   inputTokens := src.inputTokens
   completionTokens := src.outputTokens
   outputTokens := src.outputTokens
   totalTokens := total
   promptTokensDetails := src.inputTokensDetails.getD {}
   completionTokenDetails := src.completionTokenDetails
   claudeCacheCreation5mTokens := src.claudeCacheCreation5mTokens
   claudeCacheCreation1hTokens := src.claudeCacheCreation1hTokens}

def usageFromChatUsage (src : Usage) : Usage :=
  let total := if src.totalTokens ≠ 0 then src.totalTokens else src.promptTokens + src.completionTokens
  {usageSemantic := src.usageSemantic
   usageSource := src.usageSource
   billingUsage := src.billingUsage.or (newOpenAIChatBillingUsage src.toTokens)
   promptTokens := src.promptTokens
   inputTokens := src.promptTokens
   completionTokens := src.completionTokens
   outputTokens := src.completionTokens
   totalTokens := total
   inputTokensDetails := if src.promptTokensDetails.reported then some src.promptTokensDetails else none
   completionTokenDetails := src.completionTokenDetails
   claudeCacheCreation5mTokens := src.claudeCacheCreation5mTokens
   claudeCacheCreation1hTokens := src.claudeCacheCreation1hTokens}

def normalizeCacheCreationSplit (totalTokens tokens5m tokens1h : Int) : Int × Int :=
  let remainder := totalTokens - tokens5m - tokens1h
  (tokens5m + if remainder < 0 then 0 else remainder, tokens1h)

def cacheCreationTokensForOpenAIUsage (u : Tokens) : Int :=
  let split := u.claudeCacheCreation5mTokens + u.claudeCacheCreation1hTokens
  if split = 0 then u.promptTokensDetails.cachedCreationTokens
  else if u.promptTokensDetails.cachedCreationTokens > split then u.promptTokensDetails.cachedCreationTokens
  else split

def buildOpenAIStyleUsageFromClaudeUsage (u : Usage) : Usage :=
  let split := normalizeCacheCreationSplit u.promptTokensDetails.cachedCreationTokens
    u.claudeCacheCreation5mTokens u.claudeCacheCreation1hTokens
  let cacheCreationTokens := cacheCreationTokensForOpenAIUsage u.toTokens
  let totalInputTokens := u.promptTokens + u.promptTokensDetails.cachedTokens + cacheCreationTokens
  {u with
    claudeCacheCreation5mTokens := split.1
    claudeCacheCreation1hTokens := split.2
    promptTokensDetails := {u.promptTokensDetails with cacheWriteTokens := cacheCreationTokens}
    promptTokens := totalInputTokens
    inputTokens := totalInputTokens
    totalTokens := totalInputTokens + u.completionTokens
    usageSemantic := .openai
    usageSource := .anthropic}

def claudeSemanticUsage (u : ClaudeUsage) : Usage :=
  {promptTokens := u.inputTokens
   completionTokens := u.outputTokens
   usageSemantic := .anthropic
   usageSource := .anthropic
   billingUsage := newClaudeMessagesBillingUsage u
   promptTokensDetails :=
     {cachedTokens := u.cacheReadInputTokens, cachedCreationTokens := u.cacheCreationInputTokens}
   claudeCacheCreation5mTokens := u.getCacheCreation5mTokens
   claudeCacheCreation1hTokens := u.getCacheCreation1hTokens}

def usageFromClaudeAPIUsage (u : ClaudeUsage) : Usage :=
  buildOpenAIStyleUsageFromClaudeUsage (claudeSemanticUsage u)

def usageFromGeminiMetadata (m : GeminiUsageMetadata) (fallbackPromptTokens : Int) : Usage :=
  let reported := m.promptTokenCount + m.toolUsePromptTokenCount
  let prompt := if reported ≤ 0 ∧ fallbackPromptTokens > 0 then fallbackPromptTokens else reported
  let completion := m.candidatesTokenCount + m.thoughtsTokenCount
  {promptTokens := prompt
   completionTokens := if m.totalTokenCount > 0 ∧ completion ≤ 0 then m.totalTokenCount - prompt else completion
   totalTokens := m.totalTokenCount
   billingUsage := newGeminiChatBillingUsage m
   completionTokenDetails := geminiOutputDetails m
   promptTokensDetails := geminiTextFilled prompt (geminiInputDetails m)}

/- A report has the fields of its provider's format; those of the other format stay zero when it is parsed. -/
structure ChatUsage where
  (promptTokens completionTokens totalTokens : Int)
  promptCacheHitTokens : Int := 0
  promptTokensDetails : InputTokenDetails := {}
  completionTokenDetails : OutputTokenDetails := {}
  deriving DecidableEq, Repr

structure ResponsesUsage where
  (inputTokens outputTokens totalTokens : Int)
  inputTokensDetails : Option InputTokenDetails := none
  deriving DecidableEq, Repr

def ChatUsage.parsed (u : ChatUsage) : Usage :=
  {promptTokens := u.promptTokens, completionTokens := u.completionTokens, totalTokens := u.totalTokens,
   promptCacheHitTokens := u.promptCacheHitTokens, promptTokensDetails := u.promptTokensDetails,
   completionTokenDetails := u.completionTokenDetails}

def ResponsesUsage.parsed (u : ResponsesUsage) : Usage :=
  {inputTokens := u.inputTokens, outputTokens := u.outputTokens, totalTokens := u.totalTokens,
   inputTokensDetails := u.inputTokensDetails}

inductive Report where
  | chat (u : ChatUsage)
  | responses (u : ResponsesUsage)
  | claude (u : ClaudeUsage)
  | gemini (m : GeminiUsageMetadata) (fallbackPromptTokens : Int)
  deriving DecidableEq, Repr

def oaiResponsesHandler (u : ResponsesUsage) : Usage :=
  {promptTokens := u.inputTokens
   completionTokens := u.outputTokens
   totalTokens := u.totalTokens
   promptTokensDetails :=
     match u.inputTokensDetails with
     | some d => {cachedTokens := d.cachedTokens, cacheWriteTokens := d.cacheWriteTokens}
     | none => {}}

def handleClaudeResponseData (u : ClaudeUsage) : Usage :=
  {promptTokens := u.inputTokens
   completionTokens := u.outputTokens
   totalTokens := u.inputTokens + u.outputTokens
   usageSemantic := .anthropic
   billingUsage := newClaudeMessagesBillingUsage u
   promptTokensDetails :=
     {cachedTokens := u.cacheReadInputTokens, cachedCreationTokens := u.cacheCreationInputTokens}
   claudeCacheCreation5mTokens := u.getCacheCreation5mTokens
   claudeCacheCreation1hTokens := u.getCacheCreation1hTokens}

def native : Report → Usage
  | .chat u => u.parsed
  | .responses u => oaiResponsesHandler u
  | .claude u => handleClaudeResponseData u
  | .gemini m fallback => usageFromGeminiMetadata m fallback

def carried : Report → Usage
  | .chat u => u.parsed
  | .responses u => u.parsed
  | .claude u => usageFromClaudeAPIUsage u
  | .gemini m fallback => usageFromGeminiMetadata m fallback

inductive Converter where
  | fromResponses | fromChat
  deriving DecidableEq, Repr

def Converter.apply : Converter → Usage → Usage
  | .fromResponses => usageFromResponsesUsage
  | .fromChat => usageFromChatUsage

def converted (r : Report) (chain : List Converter) : Usage :=
  chain.foldl (fun u c => c.apply u) (carried r)

def Carries (n : Counts) (u : Usage) : Prop :=
  (∃ b tokens, u.billingUsage = some b ∧ decode b = some tokens ∧ counts tokens = n) ∨
    (u.billingUsage = none ∧ hasOpenAIUsageTokens u.toTokens = false ∧ n = {})

theorem inputDetailsBlank {d : InputTokenDetails} : d.reported = false ↔ d = {} := by
  cases d
  simp [InputTokenDetails.reported,and_assoc]
  tauto

theorem outputDetailsBlank {d : OutputTokenDetails} : d.reported = false ↔ d = {} := by
  cases d
  simp [OutputTokenDetails.reported,and_assoc]
  tauto

theorem tokensBlank {u : Tokens} (blank : hasOpenAIUsageTokens u = false) :
    u.promptTokens = 0 ∧ u.completionTokens = 0 ∧ u.totalTokens = 0 ∧ u.inputTokens = 0 ∧ u.outputTokens = 0 ∧
      u.claudeCacheCreation5mTokens = 0 ∧ u.claudeCacheCreation1hTokens = 0 ∧ u.promptTokensDetails = {} ∧
      u.completionTokenDetails = {} ∧ u.inputTokensDetails = none := by
  simp only [hasOpenAIUsageTokens,Bool.or_eq_false_iff,bne_eq_false_iff_eq,inputDetailsBlank,outputDetailsBlank,
    Option.isSome_eq_false_iff,Option.isNone_iff_eq_none] at blank
  tauto

theorem countsBlank (blank : hasOpenAIUsageTokens u = false) : counts u = {} := by
  obtain ⟨prompt,completion,_,_,_,fiveMinutes,oneHour,input,output,_⟩ := tokensBlank blank
  simp [counts,prompt,completion,fiveMinutes,oneHour,input,output,InputTokenDetails.cacheCreationTokensTotal]

theorem filledPlain (source) (input : u.inputTokens = 0) (output : u.outputTokens = 0) :
    counts (filled source u) = counts u := by
  simp [counts,filled,input,output]

theorem filledBlank (source) (blank : hasOpenAIUsageTokens u = false) :
    counts (filled source u) = {} := by
  obtain ⟨_,_,_,input,output,_⟩ := tokensBlank blank
  rw [filledPlain source input output,countsBlank blank]

theorem carriesBilled (carries : Carries n u) : billed u = n := by
  rcases carries with ⟨b,_,channel,decoded,same⟩ | ⟨channel,blank,zero⟩
  · simp [billed,effectiveBillingUsage,usageFromBillingUsage,channel,decoded,same]
  · simp [billed,effectiveBillingUsage,usageFromBillingUsage,channel,countsBlank blank,zero]

theorem blankConverted {u : Usage} (c : Converter) (channel : u.billingUsage = none)
    (blank : hasOpenAIUsageTokens u.toTokens = false) :
    (c.apply u).billingUsage = none ∧ hasOpenAIUsageTokens (c.apply u).toTokens = false := by
  obtain ⟨prompt,completion,total,inputTokens,outputTokens,fiveMinutes,oneHour,input,output,details⟩ :=
    tokensBlank blank
  have inputBlank := inputDetailsBlank.mpr (rfl : ({} : InputTokenDetails) = {})
  have outputBlank := outputDetailsBlank.mpr (rfl : ({} : OutputTokenDetails) = {})
  cases c with
  | fromResponses =>
      constructor
      · simp [Converter.apply,usageFromResponsesUsage,newOpenAIResponsesBillingUsage,newOpenAIBillingUsage,channel,
          blank]
      · simp [Converter.apply,usageFromResponsesUsage,hasOpenAIUsageTokens,total,inputTokens,outputTokens,
          fiveMinutes,oneHour,output,details,inputBlank,outputBlank]
  | fromChat =>
      constructor
      · simp [Converter.apply,usageFromChatUsage,newOpenAIChatBillingUsage,newOpenAIBillingUsage,channel,blank]
      · simp [Converter.apply,usageFromChatUsage,hasOpenAIUsageTokens,total,prompt,completion,
          fiveMinutes,oneHour,input,output,inputBlank,outputBlank]

theorem channelKept (c : Converter) (channel : u.billingUsage = some b) :
    (c.apply u).billingUsage = some b := by
  cases c <;> simp [Converter.apply,usageFromResponsesUsage,usageFromChatUsage,channel]

theorem carriesConverted (c : Converter) (carries : Carries n u) : Carries n (c.apply u) := by
  rcases carries with ⟨b,tokens,channel,decoded,same⟩ | ⟨channel,blank,zero⟩
  · exact Or.inl ⟨b,tokens,channelKept c channel,decoded,same⟩
  · obtain ⟨channel,blank⟩ := blankConverted c channel blank
    exact Or.inr ⟨channel,blank,zero⟩

theorem carriesChain (chain : List Converter) (carries : Carries n u) :
    Carries n (chain.foldl (fun u c => c.apply u) u) := by
  induction chain generalizing u with
  | nil => exact carries
  | cons c _ ih => exact ih (carriesConverted c carries)

theorem firstConversion (c : Converter) (channel : u.billingUsage = none) :
    Carries (counts (filled .oaiChat u.toTokens)) (c.apply u) := by
  by_cases reported : hasOpenAIUsageTokens u.toTokens = true
  · cases c with
    | fromResponses =>
        refine Or.inl ⟨{source := .oaiResponses, semantic := .openai, openAIUsage := some u.toTokens},_,?_,rfl,rfl⟩
        simp [Converter.apply,usageFromResponsesUsage,newOpenAIResponsesBillingUsage,newOpenAIBillingUsage,channel,
          reported]
    | fromChat =>
        refine Or.inl ⟨{source := .oaiChat, semantic := .openai, openAIUsage := some u.toTokens},_,?_,rfl,rfl⟩
        simp [Converter.apply,usageFromChatUsage,newOpenAIChatBillingUsage,newOpenAIBillingUsage,channel,reported]
  · have blank := Bool.eq_false_iff.mpr reported
    obtain ⟨nextChannel,nextBlank⟩ := blankConverted c channel blank
    exact Or.inr ⟨nextChannel,nextBlank,filledBlank _ blank⟩

theorem chainCarries {u : Usage} {chain : List Converter} (channel : u.billingUsage = none) (nonempty : chain ≠ []) :
    Carries (counts (filled .oaiChat u.toTokens)) (chain.foldl (fun u c => c.apply u) u) := by
  cases chain with
  | nil => exact absurd rfl nonempty
  | cons c rest => exact carriesChain rest (firstConversion c channel)

theorem billedPlain (channel : u.billingUsage = none) : billed u = counts u.toTokens := by
  simp [billed,effectiveBillingUsage,usageFromBillingUsage,channel]

def InputTokenDetails.Nonnegative (d : InputTokenDetails) : Prop :=
  0 ≤ d.cachedTokens ∧ 0 ≤ d.cachedCreationTokens ∧ 0 ≤ d.cacheWriteTokens ∧ 0 ≤ d.textTokens ∧
    0 ≤ d.audioTokens ∧ 0 ≤ d.imageTokens

def OutputTokenDetails.Nonnegative (d : OutputTokenDetails) : Prop :=
  0 ≤ d.textTokens ∧ 0 ≤ d.audioTokens ∧ 0 ≤ d.imageTokens ∧ 0 ≤ d.reasoningTokens

def ClaudeUsage.Nonnegative (u : ClaudeUsage) : Prop :=
  0 ≤ u.inputTokens ∧ 0 ≤ u.cacheCreationInputTokens ∧ 0 ≤ u.cacheReadInputTokens ∧ 0 ≤ u.outputTokens ∧
    0 ≤ u.getCacheCreation5mTokens ∧ 0 ≤ u.getCacheCreation1hTokens ∧ 0 ≤ u.claudeCacheCreation5mTokens ∧
    0 ≤ u.claudeCacheCreation1hTokens

def GeminiUsageMetadata.Nonnegative (m : GeminiUsageMetadata) : Prop :=
  0 ≤ m.promptTokenCount ∧ 0 ≤ m.toolUsePromptTokenCount ∧ 0 ≤ m.candidatesTokenCount ∧ 0 ≤ m.totalTokenCount ∧
    0 ≤ m.thoughtsTokenCount ∧ 0 ≤ m.cachedContentTokenCount ∧
    ∀ d ∈ m.promptTokensDetails ++ m.toolUsePromptTokensDetails ++ m.candidatesTokensDetails, 0 ≤ d.tokenCount

def Report.Nonnegative : Report → Prop
  | .chat u =>
      0 ≤ u.promptTokens ∧ 0 ≤ u.completionTokens ∧ 0 ≤ u.totalTokens ∧ 0 ≤ u.promptCacheHitTokens ∧
        u.promptTokensDetails.Nonnegative ∧ u.completionTokenDetails.Nonnegative
  | .responses u =>
      0 ≤ u.inputTokens ∧ 0 ≤ u.outputTokens ∧ 0 ≤ u.totalTokens ∧
        ∀ d, u.inputTokensDetails = some d → d.Nonnegative
  | .claude u => u.Nonnegative
  | .gemini m fallback => m.Nonnegative ∧ 0 ≤ fallback

def Report.cacheFree : Report → Prop
  | .responses u => ∀ d, u.inputTokensDetails = some d → d.cachedTokens = 0 ∧ d.cacheWriteTokens = 0
  | _ => True

theorem claudeChannel (u) :
    (usageFromClaudeAPIUsage u).billingUsage = newClaudeMessagesBillingUsage u ∧
      (handleClaudeResponseData u).billingUsage = newClaudeMessagesBillingUsage u := ⟨rfl,rfl⟩

theorem claudeBlank (blank : hasClaudeUsageTokens u = false) :
    hasOpenAIUsageTokens (usageFromClaudeAPIUsage u).toTokens = false ∧
      counts (handleClaudeResponseData u).toTokens = {} := by
  simp only [hasClaudeUsageTokens,Bool.or_eq_false_iff,bne_eq_false_iff_eq] at blank
  obtain ⟨⟨⟨⟨⟨⟨⟨input,output⟩,creation⟩,read⟩,_⟩,_⟩,fiveMinutes⟩,oneHour⟩ := blank
  constructor
  · simp [usageFromClaudeAPIUsage,buildOpenAIStyleUsageFromClaudeUsage,claudeSemanticUsage,
      normalizeCacheCreationSplit,cacheCreationTokensForOpenAIUsage,hasOpenAIUsageTokens,input,output,creation,read,
      fiveMinutes,oneHour,InputTokenDetails.reported,OutputTokenDetails.reported]
  · simp [handleClaudeResponseData,counts,input,output,creation,read,fiveMinutes,oneHour,
      InputTokenDetails.cacheCreationTokensTotal]

theorem claudeCarries (u : ClaudeUsage) :
    Carries (billed (handleClaudeResponseData u)) (usageFromClaudeAPIUsage u) := by
  obtain ⟨converterChannel,handlerChannel⟩ := claudeChannel u
  by_cases reported : hasClaudeUsageTokens u = true
  · have channel : newClaudeMessagesBillingUsage u =
        some {source := .claudeMessages, semantic := .anthropic, claudeUsage := some u} := by
      simp [newClaudeMessagesBillingUsage,reported]
    rw [channel] at converterChannel handlerChannel
    have decoded : decode {source := .claudeMessages, semantic := .anthropic, claudeUsage := some u} =
        some (usageFromClaudeBillingUsage u) := rfl
    have native : Carries (counts (usageFromClaudeBillingUsage u)) (handleClaudeResponseData u) :=
      Or.inl ⟨_,_,handlerChannel,decoded,rfl⟩
    rw [carriesBilled native]
    exact Or.inl ⟨_,_,converterChannel,decoded,rfl⟩
  · have blank := Bool.eq_false_iff.mpr reported
    have channel : newClaudeMessagesBillingUsage u = none := by simp [newClaudeMessagesBillingUsage,blank]
    rw [channel] at converterChannel handlerChannel
    obtain ⟨converterBlank,handlerBlank⟩ := claudeBlank blank
    rw [billedPlain handlerChannel,handlerBlank]
    exact Or.inr ⟨converterChannel,converterBlank,rfl⟩

theorem geminiChain (m : GeminiUsageMetadata) (fallback : Int) (chain : List Converter) (nonempty : chain ≠ []) :
    Carries (billed (usageFromGeminiMetadata m fallback)) (converted (.gemini m fallback) chain) := by
  by_cases reported : hasGeminiUsageMetadataTokens m = true
  · have channel : (usageFromGeminiMetadata m fallback).billingUsage =
        some {source := .geminiChat, semantic := .gemini, geminiUsageMetadata := some m} := by
      simp [usageFromGeminiMetadata,newGeminiChatBillingUsage,reported]
    have native : Carries (counts (usageFromGeminiBillingUsage m)) (usageFromGeminiMetadata m fallback) :=
      Or.inl ⟨_,_,channel,rfl,rfl⟩
    rw [carriesBilled native]
    exact carriesChain chain native
  · have channel : (usageFromGeminiMetadata m fallback).billingUsage = none := by
      simp [usageFromGeminiMetadata,newGeminiChatBillingUsage,reported]
    rw [billedPlain channel,← filledPlain .oaiChat (u := (usageFromGeminiMetadata m fallback).toTokens) rfl rfl]
    exact chainCarries channel nonempty

theorem chatChain (u chain) (nonempty : chain ≠ []) :
    Carries (billed u.parsed) (converted (.chat u) chain) := by
  have channel : u.parsed.billingUsage = none := rfl
  rw [billedPlain channel,← filledPlain .oaiChat (u := u.parsed.toTokens) rfl rfl]
  exact chainCarries channel nonempty

theorem nonnegativeFilled {n : Int} (nonnegative : 0 ≤ n) : (if 0 < n then n else 0) = n := by
  split <;> omega

theorem responsesChain {u : ResponsesUsage} {chain : List Converter} (nonnegative : (Report.responses u).Nonnegative)
    (nonempty : chain ≠ []) :
    Carries {prompt := u.inputTokens, completion := u.outputTokens} (converted (.responses u) chain) := by
  have same : counts (filled .oaiChat u.parsed.toTokens) =
      {prompt := u.inputTokens, completion := u.outputTokens} := by
    simp [counts,filled,ResponsesUsage.parsed,InputTokenDetails.cacheCreationTokensTotal,
      nonnegativeFilled nonnegative.1,nonnegativeFilled nonnegative.2.1]
  rw [← same]
  exact chainCarries rfl nonempty

theorem responsesNative (u) :
    billed (oaiResponsesHandler u) =
      {prompt := u.inputTokens, completion := u.outputTokens,
       cached := (oaiResponsesHandler u).promptTokensDetails.cachedTokens,
       cacheCreation := max 0 (oaiResponsesHandler u).promptTokensDetails.cacheWriteTokens} := by
  rw [billedPlain rfl]
  cases details : u.inputTokensDetails with
  | none => simp [counts,oaiResponsesHandler,details,InputTokenDetails.cacheCreationTokensTotal]
  | some =>
      simp only [counts,oaiResponsesHandler,details,InputTokenDetails.cacheCreationTokensTotal,Counts.mk.injEq,
        true_and,and_true]
      split <;> split <;> omega

theorem responsesBilledAlike (nonnegative : (Report.responses u).Nonnegative) :
    ({prompt := u.inputTokens, completion := u.outputTokens} : Counts) = billed (oaiResponsesHandler u) ↔
      (Report.responses u).cacheFree := by
  rw [responsesNative]
  cases details : u.inputTokensDetails with
  | none => simp [oaiResponsesHandler,Report.cacheFree,details]
  | some d =>
      have bound := nonnegative.2.2.2 d details
      simp only [oaiResponsesHandler,Report.cacheFree,details,Counts.mk.injEq,true_and,and_true,Option.some.injEq,
        forall_eq']
      have cacheWrite := bound.2.2.1
      constructor <;> intro h <;> omega

theorem billedAlikeIffCacheFree {r : Report} {chain : List Converter} (nonnegative : r.Nonnegative)
    (converts : chain ≠ [] ∨ ∃ u, r = .claude u) :
    billed (converted r chain) = billed (native r) ↔ r.cacheFree := by
  cases r with
  | chat u =>
      have nonempty : chain ≠ [] := by simpa using converts
      exact iff_of_true (carriesBilled (chatChain u chain nonempty)) trivial
  | responses =>
      have nonempty : chain ≠ [] := by simpa using converts
      rw [carriesBilled (responsesChain nonnegative nonempty)]
      exact responsesBilledAlike nonnegative
  | claude u => exact iff_of_true (carriesBilled (carriesChain chain (claudeCarries u))) trivial
  | gemini m fallback =>
      have nonempty : chain ≠ [] := by simpa using converts
      exact iff_of_true (carriesBilled (geminiChain m fallback chain nonempty)) trivial

def pictureReport : Report :=
  .chat {promptTokens := 120, completionTokens := 7, totalTokens := 127
         promptTokensDetails := {cachedTokens := 40, imageTokens := 30}}

theorem pictureBilledAlikeAfterTwoConversions :
    billed (converted pictureReport [.fromChat,.fromResponses]) = billed (native pictureReport) ∧
      (billed (native pictureReport)).cached = 40 ∧ (billed (native pictureReport)).image = 30 := by
  have nonnegative : pictureReport.Nonnegative := by
    simp [pictureReport,Report.Nonnegative,InputTokenDetails.Nonnegative,OutputTokenDetails.Nonnegative]
  exact ⟨(billedAlikeIffCacheFree nonnegative (Or.inl (by decide))).mpr trivial,by decide,by decide⟩

def cachedReport : Report :=
  .responses {inputTokens := 100, outputTokens := 10, totalTokens := 110
              inputTokensDetails := some {cachedTokens := 80}}

theorem cachedTokensBilledInFull :
    cachedReport.Nonnegative ∧ (billed (native cachedReport)).cached = 80 ∧
      (billed (converted cachedReport [.fromResponses])).cached = 0 ∧
      billed (converted cachedReport [.fromResponses]) ≠ billed (native cachedReport) := by
  have nonnegative : cachedReport.Nonnegative := by
    simp [cachedReport,Report.Nonnegative,InputTokenDetails.Nonnegative]
  exact ⟨nonnegative,by decide,by decide,by decide⟩

end Omnigate.UsageConvert
