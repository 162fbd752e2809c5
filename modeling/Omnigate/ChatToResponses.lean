import Omnigate.ClaudeStream
import Omnigate.Text
import Omnigate.Table

/-! The stream converter of a chat-completions upstream for a Responses client. A raw JSON field is modelled by what
it decodes to: the arguments of a function call by the string, a status by its value, none if absent. -/
namespace Omnigate.ResponsesStream

open ClaudeStream (ToolCall)
open Text Table UsageConvert

structure Delta where
  role : String := ""
  (content reasoningContent reasoning : Option String := none)
  toolCalls : List ToolCall := []
  deriving DecidableEq, Repr

def Delta.getContentString (d : Delta) : String := d.content.getD ""

def Delta.getReasoningContent (d : Delta) : String := (d.reasoningContent.or d.reasoning).getD ""

structure Choice where
  delta : Delta
  finishReason : Option String
  deriving DecidableEq, Repr

structure Chunk where
  id : String
  created : Int
  model : String
  choices : List Choice
  usage : Option Usage
  deriving DecidableEq, Repr

inductive EventType where
  | created | completed | done | incomplete | failed | error
  | outputTextDelta | outputTextDone | outputItemAdded | outputItemDone
  | functionArgsDelta | functionArgsDone | customToolInputDelta | customToolInputDone
  | reasoningSummaryDelta | reasoningSummaryDone | reasoningTextDelta | reasoningTextDone
  | other
  deriving DecidableEq, Repr

inductive OutputType where
  | message | reasoning | functionCall | customToolCall | other
  deriving DecidableEq, Repr

inductive Status where
  | inProgress | completed | incomplete | other
  deriving DecidableEq, Repr

inductive ContentType where
  | outputText | summaryText | other
  deriving DecidableEq, Repr

structure OutputContent where
  type : ContentType
  text : String
  deriving DecidableEq, Repr

structure Output where
  type : OutputType
  id : String
  status : Status
  role : String := ""
  content : List OutputContent := []
  (callId name arguments : String := "")
  deriving DecidableEq, Repr

structure Response where
  id : String
  createdAt : Int
  status : Option Status
  incompleteDetails : Option String := none
  model : String
  output : List Output
  usage : Option Usage := none
  deriving DecidableEq, Repr

structure Event where
  type : EventType
  response : Option Response := none
  delta : String := ""
  item : Option Output := none
  (outputIndex contentIndex summaryIndex : Option Int := none)
  itemId : String := ""
  part : Option OutputContent := none
  deriving DecidableEq, Repr

structure ChatTool where
  (chatIndex outputIndex : Int)
  (id name arguments : String)
  done : Bool
  deriving DecidableEq, Repr

inductive OutputRef where
  | message | reasoning
  | tool (toolIndex : Int)
  deriving DecidableEq, Repr

structure ChatState where
  (id model : String)
  created : Int
  usage : Option Usage
  status : Status
  incompleteDetails : Option String
  sentCreated : Bool
  textOutputIndex : Int
  (textStarted textDone : Bool)
  reasoningIndex : Int
  (reasoningStarted reasoningDone finalized : Bool)
  nextOutputIndex : Int
  toolsByIndex : List ChatTool
  outputOrder : List OutputRef
  (text reasoning : String)
  deriving DecidableEq, Repr

def newChatToResponsesStreamState (id model : String) (now : Int) : ChatState :=
  ⟨id,model,now,some {},.completed,none,false,-1,false,false,-1,false,false,false,0,[],[],"",""⟩

namespace ChatState

def messageID (s : ChatState) : String := s.id ++ "_msg_0"

def reasoningID (s : ChatState) : String := s.id ++ "_reasoning_0"

def outputStatus (s : ChatState) : Status := if s.status = .incomplete then .incomplete else .completed

def nextIndex (s : ChatState) (ref : OutputRef) : Int × ChatState :=
  (s.nextOutputIndex,{s with nextOutputIndex := s.nextOutputIndex + 1, outputOrder := s.outputOrder ++ [ref]})

def sortedTools (s : ChatState) : List ChatTool :=
  s.toolsByIndex.insertionSort (fun a b => a.chatIndex ≤ b.chatIndex)

def messageOutput (s : ChatState) (status : Status) : Output :=
  { type := .message, id := s.messageID, status := status, role := "assistant", content := [⟨.outputText,s.text⟩] }

def reasoningOutput (s : ChatState) (status : Status) : Output :=
  {type := .reasoning, id := s.reasoningID, status := status, content := [⟨.summaryText,s.reasoning⟩]}

def toolOutput (tool : ChatTool) (status : Status) : Output :=
  { type := .functionCall, id := tool.id, status := status, callId := tool.id, name := tool.name
    arguments := tool.arguments }

def createdResponse (s : ChatState) : Response :=
  {id := s.id, createdAt := s.created, status := some .inProgress, model := s.model, output := []}

def finalOutput (s : ChatState) (status : Status) : OutputRef → Option Output
  | .message => some (s.messageOutput status)
  | .reasoning => some (s.reasoningOutput status)
  | .tool toolIndex => (lookup ChatTool.chatIndex toolIndex s.toolsByIndex).map (fun tool => toolOutput tool status)

def finalResponse (s : ChatState) : Response :=
  { id := s.id, createdAt := s.created, status := some s.status, incompleteDetails := s.incompleteDetails
    model := s.model, output := s.outputOrder.filterMap (s.finalOutput s.outputStatus), usage := s.usage }

def startText (s : ChatState) : List Event × ChatState :=
  if s.textStarted then ([],s)
  else
    let (index,s) := s.nextIndex .message
    ([{ type := .outputItemAdded, outputIndex := some index
        item := some { type := .message, id := s.messageID, status := .inProgress, role := "assistant" } }],
      {s with textStarted := true, textOutputIndex := index})

def appendTextDelta (s : ChatState) (delta : String) : List Event × ChatState :=
  let (events,s) := s.startText
  let s := {s with text := s.text ++ delta}
  (events ++ [{ type := .outputTextDelta, outputIndex := some s.textOutputIndex, contentIndex := some 0
                delta := delta, itemId := s.messageID }],s)

def startReasoning (s : ChatState) : List Event × ChatState :=
  if s.reasoningStarted then ([],s)
  else
    let (index,s) := s.nextIndex .reasoning
    ([{ type := .outputItemAdded, outputIndex := some index
        item := some {type := .reasoning, id := s.reasoningID, status := .inProgress} }],
      {s with reasoningStarted := true, reasoningIndex := index})

def appendReasoningDelta (s : ChatState) (delta : String) : List Event × ChatState :=
  let (events,s) := s.startReasoning
  let s := {s with reasoning := s.reasoning ++ delta}
  (events ++ [{ type := .reasoningSummaryDelta, outputIndex := some s.reasoningIndex, summaryIndex := some 0
                delta := delta, itemId := s.reasoningID }],s)

def newTool (s : ChatState) (chatIndex : Int) (toolCall : ToolCall) (outputIndex : Int) : ChatTool :=
  let id := trimSpace toolCall.id
  { chatIndex := chatIndex, outputIndex := outputIndex
    id := if id = "" then s.id ++ "_call_" ++ toString chatIndex else id
    name := trimSpace toolCall.name, arguments := "", done := false }

def ensureTool (s : ChatState) (chatIndex : Int) (toolCall : ToolCall) : List Event × ChatTool × ChatState :=
  match lookup ChatTool.chatIndex chatIndex s.toolsByIndex with
  | some tool => ([],tool,s)
  | none =>
    let (outputIndex,s) := s.nextIndex (.tool chatIndex)
    let tool := s.newTool chatIndex toolCall outputIndex
    ([{ type := .outputItemAdded, outputIndex := some tool.outputIndex, itemId := tool.id
        item := some {type := .functionCall, id := tool.id, status := .inProgress, callId := tool.id, name := tool.name} }],
      tool,s)

def appendToolCallDelta (s : ChatState) (toolCall : ToolCall) : List Event × ChatState :=
  let (events,tool,s) := s.ensureTool (toolCall.index.getD 0) toolCall
  let tool := {tool with
    id := if trimSpace toolCall.id = "" then tool.id else trimSpace toolCall.id
    name := if trimSpace toolCall.name = "" then tool.name else trimSpace toolCall.name
    arguments := tool.arguments ++ toolCall.arguments }
  (events ++ (if toolCall.arguments = "" then []
      else [{ type := .functionArgsDelta, outputIndex := some tool.outputIndex, itemId := tool.id
              delta := toolCall.arguments }]),
    {s with toolsByIndex := save ChatTool.chatIndex tool s.toolsByIndex})

def appendToolCalls (s : ChatState) : List ToolCall → List Event × ChatState
  | [] => ([],s)
  | toolCall::rest =>
    let (events,s) := s.appendToolCallDelta toolCall
    let (later,s) := s.appendToolCalls rest
    (events ++ later,s)

def toolDoneEvents (status : Status) (tool : ChatTool) : List Event :=
  if tool.done then []
  else [{type := .functionArgsDone, outputIndex := some tool.outputIndex, itemId := tool.id},
    {type := .outputItemDone, outputIndex := some tool.outputIndex, item := some (toolOutput tool status)}]

def doneDeltaEvents (s : ChatState) : List Event × ChatState :=
  let status := s.outputStatus
  let text : List Event := if s.textStarted ∧ s.textDone = false then
    [{type := .outputTextDone, outputIndex := some s.textOutputIndex, contentIndex := some 0, itemId := s.messageID},
      {type := .outputItemDone, outputIndex := some s.textOutputIndex, item := some (s.messageOutput status)}] else []
  let reasoning : List Event := if s.reasoningStarted ∧ s.reasoningDone = false then
    [{ type := .reasoningSummaryDone, outputIndex := some s.reasoningIndex, summaryIndex := some 0
       itemId := s.reasoningID, part := some ⟨.summaryText,s.reasoning⟩ },
      {type := .outputItemDone, outputIndex := some s.reasoningIndex, item := some (s.reasoningOutput status)}] else []
  (text ++ reasoning ++ s.sortedTools.flatMap (toolDoneEvents status),{s with
      textDone := s.textDone || s.textStarted
      reasoningDone := s.reasoningDone || s.reasoningStarted
      toolsByIndex := s.toolsByIndex.map (fun tool => {tool with done := true}) })

end ChatState

def responsesStatusFromChatFinishReason (finishReason : String) : Status × Option String :=
  if trimSpace finishReason = "length" then (.incomplete,some "max_output_tokens")
  else if trimSpace finishReason = "content_filter" then (.incomplete,some "content_filter")
  else (.completed,none)

def ChatState.applyFinishReason (s : ChatState) (finishReason : String) : ChatState :=
  let (status,details) := responsesStatusFromChatFinishReason finishReason
  {s with status := status, incompleteDetails := details}

def Choice.finishes (choice : Choice) : Bool := trimSpace (choice.finishReason.getD "") ≠ ""

def ChatState.appendChoice (s : ChatState) (choice : Choice) : List Event × ChatState :=
  let (reasoning,s) := if choice.delta.getReasoningContent ≠ "" then
    s.appendReasoningDelta choice.delta.getReasoningContent else ([],s)
  let (text,s) := if choice.delta.getContentString ≠ "" then
    s.appendTextDelta choice.delta.getContentString else ([],s)
  let (tools,s) := s.appendToolCalls choice.delta.toolCalls
  let (last,s) := if choice.finishes then
    (s.applyFinishReason (choice.finishReason.getD "")).doneDeltaEvents else ([],s)
  (reasoning ++ text ++ tools ++ last,s)

def ChatState.appendChoices (s : ChatState) : List Choice → List Event × ChatState
  | [] => ([],s)
  | choice::rest =>
    let (events,s) := s.appendChoice choice
    let (later,s) := s.appendChoices rest
    (events ++ later,s)

def ChatState.applyMetadata (s : ChatState) (chunk : Chunk) : ChatState :=
  {s with
    id := if s.id = "" then chunk.id else s.id
    model := if s.model = "" then chunk.model else s.model
    created := if s.created = 0 then chunk.created else s.created
    usage := (chunk.usage.map usageFromChatUsage).or s.usage }

def ChatState.sendCreated (s : ChatState) : List Event × ChatState :=
  if s.sentCreated then ([],s)
  else ([{type := .created, response := some s.createdResponse}],{s with sentCreated := true})

def chatCompletionsStreamChunkToResponsesEvents (chunk : Chunk) (s : ChatState) : List Event × ChatState :=
  let (created,s) := (s.applyMetadata chunk).sendCreated
  let (events,s) := s.appendChoices chunk.choices
  (created ++ events,s)

def finalizeChatCompletionsStreamToResponses (s : ChatState) : List Event × ChatState :=
  if s.finalized then ([],s)
  else
    let (events,s) := s.doneDeltaEvents
    let s := {s with finalized := true}
    (events ++ [{ type := if s.status = .incomplete then .incomplete else .completed
                  response := some s.finalResponse }],s)

end Omnigate.ResponsesStream
