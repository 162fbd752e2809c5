import Omnigate.BlockStream
import Omnigate.UsageConvert

/-! The OpenAI stream handler for a Claude client: every chunk of the upstream becomes zero or more Claude events, and
the last one is held back until the stream is over. Chunks are taken as parsed, and every event reaches the client. -/
namespace Omnigate.ClaudeStream

open UsageConvert

structure ToolCall where
  index : Option Int
  (id name arguments : String)
  deriving DecidableEq, Repr

structure Delta where
  (content reasoningContent reasoning : Option String)
  toolCalls : List ToolCall
  deriving DecidableEq, Repr

def Delta.getContentString (d : Delta) : String := d.content.getD ""

def Delta.getReasoningContent (d : Delta) : String := (d.reasoningContent.or d.reasoning).getD ""

structure Choice where
  delta : Delta
  finishReason : Option String
  deriving DecidableEq, Repr

def Choice.finished (c : Choice) : Bool := c.finishReason.getD "" ≠ ""

structure Chunk where
  (id model : String)
  choices : List Choice
  usage : Option Usage
  deriving DecidableEq, Repr

inductive ContentBlock where
  | toolUse (id name : String)
  | text
  | thinking
  deriving DecidableEq, Repr

inductive BlockDelta where
  | inputJson (partialJson : String)
  | text (text : String)
  | thinking (thinking : String)
  deriving DecidableEq, Repr

inductive ClaudeResponse where
  | messageStart (id model : String) (inputTokens : Int)
  | contentBlockStart (index : Int) (block : ContentBlock)
  | contentBlockDelta (index : Int) (delta : BlockDelta)
  | contentBlockStop (index : Int)
  | messageDelta (usage : ClaudeUsage) (stopReason : String)
  | messageStop
  deriving DecidableEq, Repr

inductive LastMessageType where
  | none | text | tools | thinking
  deriving DecidableEq, Repr

structure Info where
  (sendResponseCount estimatePromptTokens : Int)
  lastMessagesType : LastMessageType
  index : Int
  usage : Option Usage
  finishReason : String
  done : Bool
  (toolCallBaseIndex toolCallMaxIndexOffset : Int)
  deriving DecidableEq, Repr

def newInfo (estimatePromptTokens : Int) : Info := ⟨0,estimatePromptTokens,.none,0,none,"",false,0,0⟩

def openAIFinishReasonToClaudeStopReason (finishReason : String) : String :=
  if finishReason.toLower = "stop" then "end_turn"
  else if finishReason.toLower = "stop_sequence" then "stop_sequence"
  else if finishReason.toLower = "length" ∨ finishReason.toLower = "max_tokens" then "max_tokens"
  else if finishReason.toLower = "content_filter" then "refusal"
  else if finishReason.toLower = "tool_calls" then "tool_use"
  else finishReason

/- The side channel of the usage is copied along for billing and is not part of the event here. -/
def buildClaudeUsageFromOpenAIUsage (oaiUsage : Usage) : ClaudeUsage :=
  let reported := do
    let billing ← oaiUsage.billingUsage
    let claude ← billing.claudeUsage
    if billing.source = .claudeMessages ∨ billing.semantic = .anthropic then some claude else none
  match reported with
  | some claude => claude
  | none =>
    let details := oaiUsage.promptTokensDetails
    let (creation5m,creation1h) := normalizeCacheCreationSplit details.cachedCreationTokens
      oaiUsage.claudeCacheCreation5mTokens oaiUsage.claudeCacheCreation1hTokens
    let inputTokens :=
      if 0 < details.cacheWriteTokens then
        max (oaiUsage.promptTokens - details.cachedTokens - details.cacheCreationTokensTotal) 0
      else oaiUsage.promptTokens
    { inputTokens := inputTokens
      outputTokens := oaiUsage.completionTokens
      cacheCreationInputTokens := details.cacheCreationTokensTotal
      cacheReadInputTokens := details.cachedTokens
      cacheCreation := if 0 < creation5m ∨ 0 < creation1h then some ⟨creation5m,creation1h⟩ else none }

/- Input, cache reads and cache writes add up to the prompt, and the two parts of the split to the cache writes. -/
def Conserved (oaiUsage : Usage) (usage : ClaudeUsage) : Prop :=
  usage.inputTokens + usage.cacheReadInputTokens + usage.cacheCreationInputTokens = oaiUsage.promptTokens ∧
    ∀ split, usage.cacheCreation = some split →
      split.ephemeral5mInputTokens + split.ephemeral1hInputTokens = usage.cacheCreationInputTokens

/- Cached tokens are only taken out of the prompt when cache writes are reported in OpenAI's own field. -/
theorem claudeUsageConservedIff {u : Usage} (channel : u.billingUsage = none) :
    Conserved u (buildClaudeUsageFromOpenAIUsage u) ↔
      (if 0 < u.promptTokensDetails.cacheWriteTokens then
        u.promptTokensDetails.cachedTokens + u.promptTokensDetails.cacheCreationTokensTotal ≤ u.promptTokens
      else u.promptTokensDetails.cachedTokens + u.promptTokensDetails.cacheCreationTokensTotal = 0) ∧
      (0 < max u.claudeCacheCreation5mTokens (u.promptTokensDetails.cachedCreationTokens - u.claudeCacheCreation1hTokens) ∨
          0 < u.claudeCacheCreation1hTokens →
        max u.promptTokensDetails.cachedCreationTokens (u.claudeCacheCreation5mTokens + u.claudeCacheCreation1hTokens) =
          u.promptTokensDetails.cacheCreationTokensTotal) := by
  have unreported : (do
      let billing ← u.billingUsage
      let claude ← billing.claudeUsage
      if billing.source = .claudeMessages ∨ billing.semantic = .anthropic then some claude else none) = none := by
    rw [channel]
    rfl
  unfold Conserved buildClaudeUsageFromOpenAIUsage normalizeCacheCreationSplit
  rw [unreported]
  dsimp only
  generalize u.promptTokensDetails.cacheCreationTokensTotal = total
  refine and_congr ?_ ?_
  · split <;> omega
  have part : (u.claudeCacheCreation5mTokens + if u.promptTokensDetails.cachedCreationTokens -
      u.claudeCacheCreation5mTokens - u.claudeCacheCreation1hTokens < 0 then 0 else
        u.promptTokensDetails.cachedCreationTokens - u.claudeCacheCreation5mTokens - u.claudeCacheCreation1hTokens) =
      max u.claudeCacheCreation5mTokens (u.promptTokensDetails.cachedCreationTokens - u.claudeCacheCreation1hTokens) := by
    split <;> omega
  rw [part]
  split
  · rename_i present
    simp only [Option.some.injEq,forall_eq',present,forall_const]
    omega
  · rename_i absent
    exact iff_of_true (fun _ none_ => by cases none_) (fun present => absurd present absent)

def writing : Usage := {promptTokens := 100, promptTokensDetails := {cachedTokens := 60, cacheWriteTokens := 30}}

theorem writingConserved : Conserved writing (buildClaudeUsageFromOpenAIUsage writing) :=
  (claudeUsageConservedIff rfl).mpr ⟨by decide,by decide⟩

def reading : Usage := {promptTokens := 100, promptTokensDetails := {cachedTokens := 80}}

theorem cachedCountedTwice : reading.promptTokensDetails.cachedTokens ≤ reading.promptTokens ∧
    ¬ Conserved reading (buildClaudeUsageFromOpenAIUsage reading) :=
  ⟨by decide,fun conserved => absurd conserved.1 (by decide)⟩

def stopOpenBlocks (info : Info) : List ClaudeResponse :=
  match info.lastMessagesType with
  | .none => []
  | .text | .thinking => [.contentBlockStop info.index]
  | .tools => (List.range (info.toolCallMaxIndexOffset + 1).toNat).map
      (fun offset : Nat => .contentBlockStop (info.toolCallBaseIndex + offset))

def stopOpenBlocksAndAdvance (info : Info) : List ClaudeResponse × Info :=
  match info.lastMessagesType with
  | .none => ([],info)
  | .tools => (stopOpenBlocks info,{info with
      index := info.toolCallBaseIndex + info.toolCallMaxIndexOffset + 1, toolCallBaseIndex := 0,
      toolCallMaxIndexOffset := 0, lastMessagesType := .none })
  | _ => (stopOpenBlocks info,{info with index := info.index + 1, lastMessagesType := .none})

def messageDelta (oaiUsage : Option Usage) (stopReason : String) : List ClaudeResponse :=
  match oaiUsage with
  | none => []
  | some usage => [.messageDelta (buildClaudeUsageFromOpenAIUsage usage) stopReason]

def finish (oaiUsage : Option Usage) (stopReason : String) (info : Info) : List ClaudeResponse × Info :=
  (stopOpenBlocks info ++ messageDelta oaiUsage stopReason ++ [.messageStop],{info with done := true})

def argumentsDelta (index : Int) (call : ToolCall) : List ClaudeResponse :=
  if call.arguments = "" then [] else [.contentBlockDelta index (.inputJson call.arguments)]

/- Only the first call of the first chunk is sent, as block 0 whatever its own index. -/
def firstToolCall (delta : Delta) (info : Info) : List ClaudeResponse × Info :=
  match delta.toolCalls with
  | [] => ([],info)
  | call::_ => (.contentBlockStart 0 (.toolUse call.id call.name)::argumentsDelta 0 call,
      {info with lastMessagesType := .tools, toolCallBaseIndex := 0, toolCallMaxIndexOffset := 0})

def openBlock (type : LastMessageType) (info : Info) : List ClaudeResponse × Info :=
  if info.lastMessagesType ≠ type then stopOpenBlocksAndAdvance info else ([],info)

def firstContent (delta : Delta) (info : Info) : List ClaudeResponse × Info :=
  if delta.getReasoningContent ≠ "" then
    let (stops,info) := openBlock .thinking info
    (stops ++ [.contentBlockStart info.index .thinking,
      .contentBlockDelta info.index (.thinking delta.getReasoningContent)],
      {info with lastMessagesType := .thinking})
  else if delta.getContentString ≠ "" then
    let (stops,info) := openBlock .text info
    (stops ++ [.contentBlockStart info.index .text,.contentBlockDelta info.index (.text delta.getContentString)],
      {info with lastMessagesType := .text})
  else ([],info)

def firstFinish (chunk : Chunk) (choice : Choice) (info : Info) : List ClaudeResponse × Info :=
  if choice.finished then
    let info := { info with finishReason := choice.finishReason.getD "" }
    finish (chunk.usage.or info.usage) (openAIFinishReasonToClaudeStopReason info.finishReason) info
  else ([],info)

def firstResponse (chunk : Chunk) (info : Info) : List ClaudeResponse × Info :=
  let start := .messageStart chunk.id chunk.model info.estimatePromptTokens
  match chunk.choices with
  | [] => ([start],info)
  | choice::_ =>
    let (tools,info) := firstToolCall choice.delta info
    let (content,info) := firstContent choice.delta info
    let (last,info) := firstFinish chunk choice info
    (start::tools ++ content ++ last,info)

def toolCallEvents (blockIndex : Int) (call : ToolCall) : List ClaudeResponse :=
  (if call.name = "" then [] else [.contentBlockStart blockIndex (.toolUse call.id call.name)]) ++
    argumentsDelta blockIndex call

def toolLoop (base : Int) : Nat → Int → List ToolCall → List ClaudeResponse × Int
  | _,maxOffset,[] => ([],maxOffset)
  | i,maxOffset,call::rest =>
    let offset := call.index.getD i
    let (later,last) := toolLoop base (i + 1) (if maxOffset < offset then offset else maxOffset) rest
    (toolCallEvents (base + offset) call ++ later,last)

def laterTools (toolCalls : List ToolCall) (info : Info) : List ClaudeResponse × Info :=
  let (stops,info) :=
    if info.lastMessagesType ≠ .tools then
      let (stops,info) := stopOpenBlocksAndAdvance info
      (stops,{info with toolCallBaseIndex := info.index, toolCallMaxIndexOffset := 0})
    else ([],info)
  let (events,maxOffset) := toolLoop info.toolCallBaseIndex 0 info.toolCallMaxIndexOffset toolCalls
  (stops ++ events,{info with
    lastMessagesType := .tools, toolCallMaxIndexOffset := maxOffset, index := info.toolCallBaseIndex + maxOffset })

def laterBlock (type : LastMessageType) (block : ContentBlock) (delta : BlockDelta) (info : Info) :
    List ClaudeResponse × Info :=
  if info.lastMessagesType ≠ type then
    let (stops,info) := stopOpenBlocksAndAdvance info
    (stops ++ [.contentBlockStart info.index block,.contentBlockDelta info.index delta],
      {info with lastMessagesType := type})
  else ([.contentBlockDelta info.index delta],info)

def laterDelta (delta : Delta) (info : Info) : List ClaudeResponse × Info :=
  if delta.toolCalls ≠ [] then laterTools delta.toolCalls info
  else if delta.getReasoningContent ≠ "" then
    laterBlock .thinking .thinking (.thinking delta.getReasoningContent) info
  else if delta.getContentString ≠ "" then laterBlock .text .text (.text delta.getContentString) info
  else ([],info)

def usageOnly (chunk : Chunk) (info : Info) : List ClaudeResponse × Info :=
  match chunk.usage.or info.usage with
  | none => ([],info)
  | some usage =>
    let stopReason := openAIFinishReasonToClaudeStopReason info.finishReason
    finish (some usage) (if stopReason = "" then "end_turn" else stopReason) info

/- A finish reason without a usage is only noted: the end waits for a chunk with the usage. -/
def laterResponse (chunk : Chunk) (info : Info) : List ClaudeResponse × Info :=
  match chunk.choices with
  | [] => usageOnly chunk info
  | choice::_ =>
    if choice.finished then
      let info := { info with finishReason := choice.finishReason.getD "" }
      match chunk.usage with
      | none => ([],info)
      | some usage =>
        let (events,info) := laterDelta choice.delta info
        let (last,info) := finish (some usage) (openAIFinishReasonToClaudeStopReason info.finishReason) info
        (events ++ last,info)
    else laterDelta choice.delta info

def streamResponseOpenAI2Claude (chunk : Chunk) (info : Info) : List ClaudeResponse × Info :=
  if info.done then ([],info)
  else if info.sendResponseCount = 1 then firstResponse chunk info
  else laterResponse chunk info

def handleStreamFormat (chunk : Chunk) (info : Info) : List ClaudeResponse × Info :=
  streamResponseOpenAI2Claude chunk
    {info with sendResponseCount := info.sendResponseCount + 1, usage := chunk.usage.or info.usage}

def handleFinalResponse (usage : Usage) (chunk : Chunk) (info : Info) : List ClaudeResponse × Info :=
  let (events,info) := streamResponseOpenAI2Claude chunk {info with usage := some usage}
  (events,{info with done := true})

structure Relay where
  lastStreamData : Option Chunk
  info : Info
  sent : List ClaudeResponse
  deriving DecidableEq, Repr

def onData (relay : Relay) (data : Chunk) : Relay :=
  match relay.lastStreamData with
  | none => {relay with lastStreamData := some data}
  | some last =>
    let (events,info) := handleStreamFormat last relay.info
    ⟨some data,info,relay.sent ++ events⟩

def oaiStreamHandler (usage : Usage) (estimatePromptTokens : Int) (chunks : List Chunk) : List ClaudeResponse :=
  let relay := chunks.foldl onData ⟨none,newInfo estimatePromptTokens,[]⟩
  match relay.lastStreamData with
  | none => relay.sent
  | some last => relay.sent ++ (handleFinalResponse usage last relay.info).1

end Omnigate.ClaudeStream
