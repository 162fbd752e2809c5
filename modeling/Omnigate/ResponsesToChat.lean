import Omnigate.ChatToResponses

/-! The stream converter of a Responses upstream for a chat-completions client. A tool is one record that several keys
may lead to, identified by its index, which is never given twice. Keys are kept apart by their constructors as in the
source by what they begin with. -/
namespace Omnigate.ResponsesStream

open ClaudeStream (ToolCall)
open Text Table UsageConvert

section Maps

variable {κ ν : Type} [DecidableEq κ]

def get (k : κ) (m : List (κ × ν)) : Option ν := (lookup Prod.fst k m).map Prod.snd

def put (k : κ) (v : ν) (m : List (κ × ν)) : List (κ × ν) := save Prod.fst (k,v) m

def delete (k : κ) (m : List (κ × ν)) : List (κ × ν) := m.filter (fun entry => entry.1 ≠ k)

end Maps

inductive Key where
  | output (outputIndex : Int)
  | item (itemID : String)
  | call (callID : String)
  deriving DecidableEq, Repr

def Key.text : Key → String
  | .output outputIndex => "output:" ++ toString outputIndex
  | .item itemID => "item:" ++ itemID
  | .call callID => "call:" ++ callID

structure StreamTool where
  key : Key
  (callID itemID name arguments : String := "")
  index : Nat
  (sent nameSent : Bool := false)
  argsSentAt : Nat := 0
  deriving DecidableEq, Repr

structure ResponsesState where
  (id model : String)
  created : Int
  includeUsage : Bool
  usage : Option Usage
  (sentStart finalized hasSentText sawToolCall hasSentReasoning needsReasoningSummaryBreak : Bool)
  nextToolIndex : Nat
  tools : List StreamTool
  toolByKey : List (Key × Nat)
  outputIndexToKey : List (Int × Key)
  (itemIDToKey callIDToKey : List (String × Key))
  pendingArgsByOutputIndex : List (Int × String)
  pendingArgsByItemID : List (String × String)
  usageText : String
  deriving DecidableEq, Repr

def newResponsesToChatStreamState (id model : String) (now : Int) (includeUsage : Bool) : ResponsesState :=
  ⟨id,model,now,includeUsage,some {},false,false,false,false,false,false,0,[],[],[],[],[],[],[],""⟩

namespace ResponsesState

def makeChunk (s : ResponsesState) (delta : Delta) (finishReason : Option String) : Chunk :=
  ⟨s.id,s.created,s.model,[⟨delta,finishReason⟩],none⟩

def ensureStart (s : ResponsesState) : List Chunk × ResponsesState :=
  if s.sentStart then ([],s)
  else ([s.makeChunk { role := "assistant", content := some "" } none],{ s with sentStart := true })

def applyResponseMetadata (s : ResponsesState) : Option Response → ResponsesState
  | none => s
  | some response => {s with
      id := if response.id ≠ "" ∧ s.id = "" then response.id else s.id
      model := if response.model ≠ "" then response.model else s.model
      created := if response.createdAt ≠ 0 then response.createdAt else s.created
      usage := (response.usage.map usageFromResponsesUsage).or s.usage }

def textDelta (s : ResponsesState) (delta : String) : List Chunk × ResponsesState :=
  if delta = "" then ([],s)
  else
    let s := {s with usageText := s.usageText ++ delta, hasSentText := true}
    let (start,s) := s.ensureStart
    (start ++ [s.makeChunk {content := some delta} none],s)

def brokenDelta (needsBreak : Bool) (delta : String) : String :=
  if needsBreak then
    if "\n\n".toList.isPrefixOf delta.toList then delta
    else if "\n".toList.isPrefixOf delta.toList then "\n" ++ delta
    else "\n\n" ++ delta
  else delta

def reasoningDelta (s : ResponsesState) (delta : String) : List Chunk × ResponsesState :=
  if delta = "" then ([],s)
  else
    let delta := brokenDelta s.needsReasoningSummaryBreak delta
    let s := {s with needsReasoningSummaryBreak := false, usageText := s.usageText ++ delta}
    let (start,s) := s.ensureStart
    (start ++ [s.makeChunk {reasoningContent := some delta} none],{s with hasSentReasoning := true})

def toolFor (s : ResponsesState) (key : Key) : Option StreamTool :=
  (get key s.toolByKey).bind (fun index => lookup StreamTool.index index s.tools)

def saveTool (s : ResponsesState) (tool : StreamTool) : ResponsesState :=
  {s with tools := save StreamTool.index tool s.tools}

/- Go slices bytes; what would split a character is not a string of the model. -/
def sliceFrom (text : String) (offset : Nat) : String :=
  (String.fromUTF8? (text.toUTF8.extract offset text.utf8ByteSize)).getD ""

def unsentArguments (tool : StreamTool) (explicitDelta : String) : String :=
  if explicitDelta = "" ∧ tool.argsSentAt < tool.arguments.utf8ByteSize then sliceFrom tool.arguments tool.argsSentAt
  else explicitDelta

def toolDelta (s : ResponsesState) (tool : StreamTool) (explicitDelta : String) : List Chunk × ResponsesState :=
  let argsDelta := unsentArguments tool explicitDelta
  if tool.sent ∧ argsDelta = "" ∧ (tool.name = "" ∨ tool.nameSent) then ([],s.saveTool tool)
  else
    let (start,s) := s.ensureStart
    let callID := if trimSpace tool.callID = "" then tool.key.text else trimSpace tool.callID
    let name := if tool.nameSent = false ∧ tool.name ≠ "" then tool.name else ""
    let tool := {tool with
      nameSent := tool.nameSent || tool.name ≠ "", sent := true, argsSentAt := tool.argsSentAt + argsDelta.utf8ByteSize }
    let s := s.saveTool tool
    (start ++ [s.makeChunk {toolCalls := [⟨some tool.index,callID,name,argsDelta⟩]} none],
      {s with usageText := s.usageText ++ argsDelta ++ name, sawToolCall := true})

end ResponsesState

def keyForEvent (event : Event) : Option Key :=
  match event.outputIndex with
  | some outputIndex => some (.output outputIndex)
  | none =>
    let ofItem := event.item.bind (fun item =>
      if trimSpace item.id ≠ "" then some (.item (trimSpace item.id))
      else if trimSpace item.callId ≠ "" then some (.call (trimSpace item.callId)) else none)
    ofItem.or (if trimSpace event.itemId ≠ "" then some (.item (trimSpace event.itemId)) else none)

def fallbackToolKey (itemID callID : String) (outputIndex : Option Int) : Option Key :=
  match outputIndex with
  | some outputIndex => some (.output outputIndex)
  | none =>
    if trimSpace itemID ≠ "" then some (.item (trimSpace itemID))
    else if trimSpace callID ≠ "" then some (.call (trimSpace callID)) else none

def responseStreamEventItemID (event : Event) : String :=
  let itemID := trimSpace ((event.item.map Output.id).getD "")
  if itemID ≠ "" then itemID else trimSpace event.itemId

def fallbackCallID (event : Event) : String :=
  if trimSpace event.itemId ≠ "" then trimSpace event.itemId
  else match event.outputIndex with
    | some outputIndex => "call_output_" ++ toString outputIndex
    | none => ""

namespace ResponsesState

def newTool (s : ResponsesState) (key : Key) (callID : String) : StreamTool × ResponsesState :=
  ({key := key, index := s.nextToolIndex, callID := callID},
    {s with nextToolIndex := s.nextToolIndex + 1, toolByKey := put key s.nextToolIndex s.toolByKey})

def resolveTool (s : ResponsesState) (key : Key) (itemID callID : String) : StreamTool × ResponsesState :=
  match s.toolFor key with
  | some tool => (tool,s)
  | none =>
    let byItem := if itemID = "" then none else (get itemID s.itemIDToKey).bind s.toolFor
    let byCall := if callID = "" then none else (get callID s.callIDToKey).bind s.toolFor
    match byItem.or byCall with
    | some tool => (tool,{s with toolByKey := put key tool.index s.toolByKey})
    | none => s.newTool key ""

def claimOutputIndex (s : ResponsesState) (key : Key) (tool : StreamTool) : Option Int → StreamTool × ResponsesState
  | none => (tool,s)
  | some outputIndex =>
    let pending := (get outputIndex s.pendingArgsByOutputIndex).getD ""
    ({tool with arguments := tool.arguments ++ pending},{s with
        outputIndexToKey := put outputIndex key s.outputIndexToKey
        pendingArgsByOutputIndex :=
          if pending = "" then s.pendingArgsByOutputIndex else delete outputIndex s.pendingArgsByOutputIndex })

def claimItemID (s : ResponsesState) (key : Key) (tool : StreamTool) (itemID : String) : StreamTool × ResponsesState :=
  if itemID = "" then (tool,s)
  else
    let pending := (get itemID s.pendingArgsByItemID).getD ""
    ({tool with itemID := itemID, arguments := tool.arguments ++ pending},{s with
        itemIDToKey := put itemID key s.itemIDToKey
        pendingArgsByItemID := if pending = "" then s.pendingArgsByItemID else delete itemID s.pendingArgsByItemID })

def claimCallID (s : ResponsesState) (key : Key) (tool : StreamTool) (item : Output) : StreamTool × ResponsesState :=
  let callID := trimSpace item.callId
  if callID ≠ "" then ({ tool with callID := callID },{ s with callIDToKey := put callID key s.callIDToKey })
  else if tool.callID = "" then ({ tool with callID := trimSpace item.id },s)
  else (tool,s)

def nameTool (tool : StreamTool) (item : Output) : StreamTool :=
  if trimSpace item.name ≠ "" then { tool with name := trimSpace item.name } else tool

def ensureToolForEvent (s : ResponsesState) (event : Event) (item : Output) : Option (StreamTool × ResponsesState) := do
  let key ← (keyForEvent event).or (fallbackToolKey item.id item.callId event.outputIndex)
  let (tool,s) := s.resolveTool key (responseStreamEventItemID event) (trimSpace item.callId)
  let (tool,s) := s.claimOutputIndex key tool event.outputIndex
  let (tool,s) := s.claimItemID key tool (responseStreamEventItemID event)
  let (tool,s) := s.claimCallID key tool item
  some (nameTool tool item,s)

def findToolForEvent (s : ResponsesState) (event : Event) : Option StreamTool :=
  match event.outputIndex.bind (fun outputIndex => get outputIndex s.outputIndexToKey) with
  | some key => s.toolFor key
  | none =>
    let ofItem := if trimSpace event.itemId = "" then none else get (trimSpace event.itemId) s.itemIDToKey
    match ofItem with
    | some key => s.toolFor key
    | none => event.item.bind (fun _ => (keyForEvent event).bind s.toolFor)

def ensureFallbackToolForEvent (s : ResponsesState) (event : Event) : Option (StreamTool × ResponsesState) := do
  let key ← (event.outputIndex.map Key.output).or
    (if trimSpace event.itemId ≠ "" then some (.item (trimSpace event.itemId)) else none)
  let (tool,s) := match s.toolFor key with
    | some tool => (tool,s)
    | none => s.newTool key (fallbackCallID event)
  let (tool,s) := s.claimOutputIndex key tool event.outputIndex
  some (s.claimItemID key tool (responseStreamEventItemID event))

def toolItem (s : ResponsesState) (event : Event) (item : Output) : List Chunk × ResponsesState :=
  match s.ensureToolForEvent event item with
  | none => ([],s)
  | some (tool,s) =>
    s.toolDelta (if item.arguments ≠ "" then { tool with arguments := item.arguments } else tool) ""

def holdArguments (s : ResponsesState) (event : Event) : ResponsesState :=
  match event.outputIndex with
  | some outputIndex =>
    let held := (get outputIndex s.pendingArgsByOutputIndex).getD ""
    {s with pendingArgsByOutputIndex := put outputIndex (held ++ event.delta) s.pendingArgsByOutputIndex}
  | none =>
    let itemID := trimSpace event.itemId
    let held := (get itemID s.pendingArgsByItemID).getD ""
    if itemID = "" then s
    else {s with pendingArgsByItemID := put itemID (held ++ event.delta) s.pendingArgsByItemID}

def toolArgumentsDelta (s : ResponsesState) (event : Event) : List Chunk × ResponsesState :=
  if event.delta = "" then ([],s)
  else match s.findToolForEvent event with
    | some tool => s.toolDelta {tool with arguments := tool.arguments ++ event.delta} event.delta
    | none => ([],s.holdArguments event)

def flushPendingTool (s : ResponsesState) (event : Event) : List Chunk × ResponsesState :=
  match s.findToolForEvent event with
  | some tool => s.toolDelta tool ""
  | none => match s.ensureFallbackToolForEvent event with
    | some (tool,s) => s.toolDelta tool ""
    | none => ([],s)

def flushKeys (s : ResponsesState) : List Key :=
  let known := s.toolByKey.map Prod.fst
  let outputs := (s.pendingArgsByOutputIndex.map (fun entry => Key.output entry.1)).filter (fun key => key ∉ known)
  let items := (s.pendingArgsByItemID.map (fun entry => Key.item entry.1)).filter (fun key => key ∉ known)
  (known ++ outputs ++ items).insertionSort (fun a b => a.text ≤ b.text)

def flushCallID : Key → String
  | .output outputIndex => "call_output_" ++ toString outputIndex
  | .item itemID => itemID
  | .call callID => "call:" ++ callID

def takePending (s : ResponsesState) (tool : StreamTool) : Key → StreamTool × ResponsesState
  | .output outputIndex =>
    ({ tool with arguments := tool.arguments ++ (get outputIndex s.pendingArgsByOutputIndex).getD "" },
      {s with pendingArgsByOutputIndex := delete outputIndex s.pendingArgsByOutputIndex})
  | .item itemID =>
    ({ tool with arguments := tool.arguments ++ (get itemID s.pendingArgsByItemID).getD "" },
      {s with pendingArgsByItemID := delete itemID s.pendingArgsByItemID})
  | .call _ => (tool,s)

def flushKey (s : ResponsesState) (key : Key) : List Chunk × ResponsesState :=
  let (tool,s) := match s.toolFor key with
    | some tool => (tool,s)
    | none => s.newTool key (flushCallID key)
  let (tool,s) := s.takePending tool key
  s.toolDelta tool ""

def flushTools (s : ResponsesState) : List Key → List Chunk × ResponsesState
  | [] => ([],s)
  | key::rest =>
    let (chunks,s) := s.flushKey key
    let (later,s) := s.flushTools rest
    (chunks ++ later,s)

def flushAllPendingTools (s : ResponsesState) : List Chunk × ResponsesState := s.flushTools s.flushKeys

end ResponsesState

def responsesFinishReasonFromStatus (response : Option Response) : Option String := do
  let response ← response
  if response.status ≠ some .incomplete then none
  else if trimSpace (response.incompleteDetails.getD "") = "content_filter" then some "content_filter"
  else some "length"

namespace ResponsesState

def usageChunk (s : ResponsesState) : List Chunk :=
  if s.includeUsage ∧ s.usage ≠ none then [⟨s.id,s.created,s.model,[],s.usage⟩] else []

def finalize (s : ResponsesState) (response : Option Response) : List Chunk × ResponsesState :=
  if s.finalized then ([],s)
  else
    let (flushed,s) := {s with finalized := true}.flushAllPendingTools
    let (start,s) := s.ensureStart
    let finishReason := (responsesFinishReasonFromStatus response).getD (if s.sawToolCall then "tool_calls" else "stop")
    (flushed ++ start ++ [s.makeChunk {} (some finishReason)] ++ s.usageChunk,s)

def terminalItem (s : ResponsesState) (out : Output) : List Chunk × ResponsesState :=
  if out.type = .message ∧ s.hasSentText = false then
    s.textDelta (String.join ((out.content.filter (fun c => c.type = .outputText)).map OutputContent.text))
  else if out.type = .reasoning ∧ s.hasSentReasoning = false then
    s.reasoningDelta (String.join (out.content.map OutputContent.text))
  else if out.type = .functionCall ∨ out.type = .customToolCall then
    s.toolItem {type := .other, item := some out} out
  else ([],s)

def terminalItems (s : ResponsesState) : List Output → List Chunk × ResponsesState
  | [] => ([],s)
  | out::rest =>
    let (chunks,s) := s.terminalItem out
    let (later,s) := s.terminalItems rest
    (chunks ++ later,s)

def terminalOutputChunks (s : ResponsesState) (response : Option Response) : List Chunk × ResponsesState :=
  s.terminalItems ((response.map Response.output).getD [])

end ResponsesState

def ensureIncompleteResponse (response : Option Response) : Response :=
  let response := response.getD { id := "", createdAt := 0, status := none, model := "", output := [] }
  {response with status := response.status.or (some .incomplete)}

namespace ResponsesState

def terminal (s : ResponsesState) (response : Option Response) : List Chunk × ResponsesState :=
  let (chunks,s) := (s.applyResponseMetadata response).terminalOutputChunks response
  let (last,s) := s.finalize response
  (chunks ++ last,s)

end ResponsesState

def responsesStreamEventToChatChunks (event : Event) (s : ResponsesState) : Except String (List Chunk × ResponsesState) :=
  match event.type with
  | .created => .ok (s.applyResponseMetadata event.response).ensureStart
  | .reasoningSummaryDelta | .reasoningTextDelta => .ok (s.reasoningDelta event.delta)
  | .reasoningSummaryDone | .reasoningTextDone =>
    .ok ([],{s with needsReasoningSummaryBreak := s.needsReasoningSummaryBreak || s.hasSentReasoning})
  | .outputTextDelta => .ok (s.textDelta event.delta)
  | .outputItemAdded | .outputItemDone => match event.item with
    | none => .ok ([],s)
    | some item =>
      if item.type = .functionCall ∨ item.type = .customToolCall then .ok (s.toolItem event item) else .ok ([],s)
  | .functionArgsDelta | .customToolInputDelta => .ok (s.toolArgumentsDelta event)
  | .functionArgsDone | .customToolInputDone => .ok (s.flushPendingTool event)
  | .completed | .done => .ok (s.terminal event.response)
  | .incomplete => .ok (s.terminal (some (ensureIncompleteResponse event.response)))
  | .failed => .error "responses stream error: response.failed"
  | .error => .error "responses stream error: response.error"
  | .outputTextDone | .other => .ok ([],s)

def finalizeResponsesToChatStream (s : ResponsesState) : List Chunk × ResponsesState := s.finalize none

end Omnigate.ResponsesStream
