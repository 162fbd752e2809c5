import Omnigate.ResponsesSpoken

/-! The end of a chat stream that went through both converters: the final response repeats everything and nothing
is sent twice, and the finish reason comes back. -/
namespace Omnigate.ResponsesStream

open ClaudeStream (ToolCall)
open Text Table UsageConvert List Option

structure Ending (rows : List Row) (b : ResponsesState) : Prop where
  tools : b.tools = rows.map Row.streamTool
  known : ∀ entry ∈ b.toolByKey, ∃ r ∈ rows, r.index = entry.2
  resolves : ∀ r ∈ rows, b.toolFor (.item r.call.id) = some r.streamTool ∨
    b.toolFor (.item r.call.id) = none ∧ get r.call.id b.itemIDToKey = some (.output r.output) ∧
      b.toolFor (.output r.output) = some r.streamTool
  pendingArgsByOutputIndex : b.pendingArgsByOutputIndex = []
  pendingArgsByItemID : b.pendingArgsByItemID = []

theorem mirrorsEnding (distinct : Distinct rows) (mirrors : Mirrors rows b) : Ending rows b := by
  refine ⟨mirrors.tools,?_,?_,mirrors.pendingArgsByOutputIndex,mirrors.pendingArgsByItemID⟩
  · intro _ member
    rw [mirrors.toolByKey] at member
    obtain ⟨r,inside,rfl⟩ := mem_map.mp member
    exact ⟨r,inside,rfl⟩
  intro r member
  right
  refine ⟨?_,?_,toolForOutput distinct mirrors member⟩
  · unfold ResponsesState.toolFor
    rw [mirrors.toolByKey,getFresh Row.byKey (fun x _ same => by cases same)]
    rfl
  · rw [mirrors.itemIDToKey]
    exact getMapped Row.byId distinct.ids member

theorem getPut {κ ν : Type} [DecidableEq κ] (k k' : κ) (v : ν) (m : List (κ × ν)) :
    get k (put k' v m) = if k' = k then some v else get k m := by
  unfold get put
  rw [lookupSave]
  split <;> rfl

structure SameEnd (b b' : ResponsesState) : Prop where
  sentStart : b'.sentStart = b.sentStart
  finalized : b'.finalized = b.finalized
  hasSentText : b'.hasSentText = b.hasSentText
  hasSentReasoning : b'.hasSentReasoning = b.hasSentReasoning
  sawToolCall : b'.sawToolCall = b.sawToolCall

theorem sameEndTrans (first : SameEnd b b') (second : SameEnd b' b'') : SameEnd b b'' :=
  ⟨second.sentStart.trans first.sentStart,second.finalized.trans first.finalized,
    second.hasSentText.trans first.hasSentText,second.hasSentReasoning.trans first.hasSentReasoning,
    second.sawToolCall.trans first.sawToolCall⟩

section

variable (distinct : Distinct rows) (ending : Ending rows b)

include distinct ending

theorem resolveEnding (member : r ∈ rows) :
    ∃ keys, b.resolveTool (.item r.call.id) r.call.id r.call.id = (r.streamTool,{b with toolByKey := keys}) ∧
      get (.item r.call.id) keys = some r.index ∧ (∀ key, key ≠ .item r.call.id → get key keys = get key b.toolByKey) ∧
      ∀ entry ∈ keys, ∃ r ∈ rows, r.index = entry.2 := by
  obtain ⟨nonempty,_⟩ := distinct.cleanIds r member
  unfold ResponsesState.resolveTool
  rcases ending.resolves r member with own | ⟨unknown,byItem,byOutput⟩
  · rw [own]
    refine ⟨b.toolByKey,rfl,?_,fun _ _ => rfl,ending.known⟩
    obtain ⟨index,isIndex,isTool⟩ := bind_eq_some_iff.mp own
    obtain ⟨_,same⟩ := lookupSound isTool
    rw [isIndex,← same]
    rfl
  rw [unknown]
  dsimp only
  rw [if_neg nonempty,byItem,bind_some,byOutput,Option.some_or]
  refine ⟨_,rfl,?_,?_,?_⟩
  · rw [getPut,if_pos rfl]
    rfl
  · intro key other
    rw [getPut,if_neg (fun same => other same.symm)]
  intro entry inside
  rcases saveMem inside with rfl | old
  · exact ⟨r,member,rfl⟩
  · exact ending.known entry old

def aliased (b : ResponsesState) (id : String) (keys : List (Key × Nat)) : ResponsesState :=
  {b with
    toolByKey := keys
    itemIDToKey := put id (.item id) b.itemIDToKey
    callIDToKey := put id (.item id) b.callIDToKey }

theorem aliasedEnding (member : r ∈ rows)
    {keys} (own : get (.item r.call.id) keys = some r.index)
    (others : ∀ key, key ≠ .item r.call.id → get key keys = get key b.toolByKey)
    (known : ∀ entry ∈ keys, ∃ r ∈ rows, r.index = entry.2) : Ending rows (aliased b r.call.id keys) := by
  have toolAt : ∀ key, key ≠ .item r.call.id → (aliased b r.call.id keys).toolFor key = b.toolFor key := by
    intro key other
    exact congrArg (fun found => found.bind (fun index => lookup StreamTool.index index b.tools)) (others key other)
  refine ⟨ending.tools,known,?_,ending.pendingArgsByOutputIndex,ending.pendingArgsByItemID⟩
  intro x inside
  by_cases isRow : x = r
  · left
    have found : (aliased b r.call.id keys).toolFor (.item r.call.id) =
        (some r.index).bind (fun index => lookup StreamTool.index index b.tools) :=
      congrArg (fun found => found.bind (fun index => lookup StreamTool.index index b.tools)) own
    rw [isRow,found]
    exact toolMapped distinct ending.tools member
  have otherId : x.call.id ≠ r.call.id := fun sameId =>
    isRow (inj_on_of_nodup_map distinct.ids inside member sameId)
  have items : get x.call.id (aliased b r.call.id keys).itemIDToKey = get x.call.id b.itemIDToKey := by
    unfold aliased
    rw [getPut,if_neg (fun sameId => otherId sameId.symm)]
  rw [toolAt _ (fun sameKey => otherId (Key.item.inj sameKey)),toolAt (.output x.output) (by simp),items]
  exact ending.resolves x inside

theorem toolItemEnding (member : r ∈ rows)
    (status : Status) (done : Bool) : ∃ b', b.toolItem
        {type := .other, item := some (ChatState.toolOutput (r.chatTool done) status)}
        (ChatState.toolOutput (r.chatTool done) status) = ([],b') ∧ Ending rows b' ∧ SameEnd b b' := by
  obtain ⟨nonempty,idClean⟩ := distinct.cleanIds r member
  obtain ⟨_,nameClean⟩ := distinct.cleanNames r member
  obtain ⟨keys,resolved,own,others,known⟩ := resolveEnding distinct ending member
  have ending' := aliasedEnding distinct ending member own others known
  have noItems : get r.call.id b.pendingArgsByItemID = none := by rw [ending.pendingArgsByItemID]; rfl
  have ensured : b.ensureToolForEvent {type := .other, item := some (ChatState.toolOutput (r.chatTool done) status)}
      (ChatState.toolOutput (r.chatTool done) status) = some (r.streamTool,aliased b r.call.id keys) := by
    simp [ResponsesState.ensureToolForEvent,keyForEvent,ChatState.toolOutput,Row.chatTool,idClean,nonempty,
      responseStreamEventItemID,resolved,ResponsesState.claimOutputIndex,ResponsesState.claimItemID,noItems,
      ResponsesState.claimCallID,ResponsesState.nameTool,nameClean,Row.streamTool,aliased]
  refine ⟨aliased b r.call.id keys,?_,ending',⟨rfl,rfl,rfl,rfl,rfl⟩⟩
  unfold ResponsesState.toolItem
  rw [ensured]
  dsimp only
  rw [argumentsSame]
  exact quietTool distinct ending'.tools member

theorem terminalSilent (repeated : ∀ out ∈ outputs, out.type = .message ∧ b.hasSentText = true ∨ out.type = .reasoning ∧ b.hasSentReasoning = true ∨
      ∃ r ∈ rows, ∃ done status, out = ChatState.toolOutput (r.chatTool done) status) :
    ∃ b', b.terminalItems outputs = ([],b') ∧ Ending rows b' ∧ SameEnd b b' := by
  induction outputs generalizing b with
  | nil => exact ⟨b,rfl,ending,⟨rfl,rfl,rfl,rfl,rfl⟩⟩
  | cons out rest ih =>
    have here : ∃ b', b.terminalItem out = ([],b') ∧ Ending rows b' ∧ SameEnd b b' := by
      unfold ResponsesState.terminalItem
      rcases repeated out mem_cons_self with ⟨isType,isSent⟩ | ⟨isType,isSent⟩ | ⟨r,member,done,status,rfl⟩
      · refine ⟨b,?_,ending,⟨rfl,rfl,rfl,rfl,rfl⟩⟩
        simp [isType,isSent]
      · refine ⟨b,?_,ending,⟨rfl,rfl,rfl,rfl,rfl⟩⟩
        simp [isType,isSent]
      exact toolItemEnding distinct ending member status done
    obtain ⟨mid,converted,ending',same⟩ := here
    have later : ∀ out ∈ rest, out.type = .message ∧ mid.hasSentText = true ∨
        out.type = .reasoning ∧ mid.hasSentReasoning = true ∨
        ∃ r ∈ rows, ∃ done status, out = ChatState.toolOutput (r.chatTool done) status := by
      intro out inside
      rw [same.hasSentText,same.hasSentReasoning]
      exact repeated out (mem_cons_of_mem _ inside)
    obtain ⟨b',remaining,ending'',same'⟩ := ih ending' later
    refine ⟨b',?_,ending'',sameEndTrans same same'⟩
    unfold ResponsesState.terminalItems
    rw [converted]
    dsimp only
    rw [remaining]
    rfl

theorem flushSilent {keys}
    (known : ∀ key ∈ keys, key ∈ b.toolByKey.map Prod.fst) : b.flushTools keys = ([],b) := by
  induction keys with
  | nil => rfl
  | cons key _ ih =>
    have found : ∃ r ∈ rows, b.toolFor key = some r.streamTool := by
      obtain ⟨entry,inside,isKey⟩ := mem_map.mp (known key mem_cons_self)
      cases isEntry : lookup Prod.fst key b.toolByKey with
      | none => exact absurd isKey (lookupNone.mp isEntry entry inside)
      | some other =>
        obtain ⟨r,member,isIndex⟩ := ending.known other (lookupSound isEntry).1
        refine ⟨r,member,?_⟩
        unfold ResponsesState.toolFor get
        rw [isEntry,map_some,bind_some,← isIndex]
        exact toolMapped distinct ending.tools member
    obtain ⟨r,member,isTool⟩ := found
    have nothing : b.takePending r.streamTool key = (r.streamTool,b) := by
      cases key with
      | output outputIndex =>
        have unheld : get outputIndex b.pendingArgsByOutputIndex = none := by
          rw [ending.pendingArgsByOutputIndex]
          rfl
        have kept : delete outputIndex b.pendingArgsByOutputIndex = b.pendingArgsByOutputIndex := by
          rw [ending.pendingArgsByOutputIndex]
          rfl
        simp only [ResponsesState.takePending,unheld,kept,getD_none,String.append_empty]
      | item itemID =>
        have unheld : get itemID b.pendingArgsByItemID = none := by
          rw [ending.pendingArgsByItemID]
          rfl
        have kept : delete itemID b.pendingArgsByItemID = b.pendingArgsByItemID := by
          rw [ending.pendingArgsByItemID]
          rfl
        simp only [ResponsesState.takePending,unheld,kept,getD_none,String.append_empty]
      | call => rfl
    have here : b.flushKey key = ([],b) := by
      unfold ResponsesState.flushKey
      rw [isTool]
      dsimp only
      rw [nothing]
      exact quietTool distinct ending.tools member
    unfold ResponsesState.flushTools
    rw [here]
    dsimp only
    rw [ih (fun k inside => known k (mem_cons_of_mem _ inside))]
    rfl

theorem finalizeSilent (goesOn : b.finalized = false)
    (response : Option Response) : b.finalize response =
      (b.ensureStart.1 ++ b.makeChunk {} (some ((responsesFinishReasonFromStatus response).getD
        (if b.sawToolCall then "tool_calls" else "stop")))::b.usageChunk,{ b with finalized := true, sentStart := true }) := by
  have ended : Ending rows {b with finalized := true} :=
    {ending with}
  have keys : ∀ key ∈ {b with finalized := true}.flushKeys, key ∈ b.toolByKey.map Prod.fst := by
    intro key member
    have inside := (perm_insertionSort _ _).mem_iff.mp member
    simpa [ending.pendingArgsByOutputIndex,ending.pendingArgsByItemID] using inside
  have flushed : {b with finalized := true}.flushAllPendingTools = ([],{b with finalized := true}) :=
    flushSilent distinct ended keys
  have started : ({b with finalized := true} : ResponsesState).ensureStart =
      (b.ensureStart.1,{b with finalized := true, sentStart := true}) := by
    unfold ResponsesState.ensureStart
    by_cases begun : b.sentStart = true
    · rw [if_pos begun,if_pos begun,← begun]
    · rw [if_neg begun,if_neg begun]
      rfl
  unfold ResponsesState.finalize
  rw [if_neg (by simp [goesOn]),flushed]
  dsimp only
  rw [started]
  rw [nil_append,append_assoc,singleton_append]
  rfl

end

theorem finalRepeats (paired : Paired rows done c a b) (status : Status) :
    ∀ out ∈ a.outputOrder.filterMap (a.finalOutput status), out.type = .message ∧ b.hasSentText = true ∨
      out.type = .reasoning ∧ b.hasSentReasoning = true ∨
      ∃ r ∈ rows, ∃ done status, out = ChatState.toolOutput (r.chatTool done) status := by
  intro out member
  obtain ⟨ref,inside,isOutput⟩ := mem_filterMap.mp member
  cases ref with
  | message =>
    cases isOutput
    exact Or.inl ⟨rfl,paired.textSent.trans (paired.textRef inside)⟩
  | reasoning =>
    cases isOutput
    exact Or.inr (Or.inl ⟨rfl,paired.reasoningSent.trans (paired.reasoningRef inside)⟩)
  | tool =>
    obtain ⟨tool,found,rfl⟩ := map_eq_some_iff.mp isOutput
    have known := (lookupSound found).1
    rw [paired.chat] at known
    obtain ⟨r,isRow,rfl⟩ := mem_map.mp known
    exact Or.inr (Or.inr ⟨r,isRow,done,status,rfl⟩)

theorem usageBare (b : ResponsesState) : ∀ chunk ∈ b.usageChunk, chunk.choices = [] := by
  unfold ResponsesState.usageChunk
  intro chunk member
  split at member
  · rw [mem_singleton.mp member]
  · cases member

theorem terminalSpoken (paired : Paired rows true c a b) : ∃ model created id usage b', responsesStreamEventToChatChunks
      {type := if a.status = .incomplete then .incomplete else .completed, response := some a.finalResponse} b =
      .ok (⟨id,created,model,[⟨{},some ((responsesFinishReasonFromStatus (some a.finalResponse)).getD
        (if rows = [] then "stop" else "tool_calls"))⟩],none⟩::usage,b') ∧ ∀ chunk ∈ usage, chunk.choices = [] := by
  have noted : Mirrors rows (b.applyResponseMetadata (some a.finalResponse)) :=
    mirrorsSame paired.mirrors ⟨rfl,rfl,rfl,rfl,rfl,rfl,rfl,rfl⟩
  obtain ⟨b',items,ending,same⟩ := terminalSilent paired.distinct (mirrorsEnding paired.distinct noted)
    (finalRepeats paired a.outputStatus)
  have finalized := finalizeSilent paired.distinct ending (same.finalized.trans paired.goesOn) (some a.finalResponse)
  have saw : (if b'.sawToolCall then "tool_calls" else "stop") = if rows = [] then "stop" else "tool_calls" := by
    rw [show b'.sawToolCall = decide (rows ≠ []) from same.sawToolCall.trans paired.called]
    by_cases empty : rows = [] <;> simp [empty]
  have terminal : b.terminal (some a.finalResponse) = (b'.makeChunk {} (some ((responsesFinishReasonFromStatus
      (some a.finalResponse)).getD (if rows = [] then "stop" else "tool_calls")))::b'.usageChunk,
      {b' with finalized := true, sentStart := true}) := by
    unfold ResponsesState.terminal ResponsesState.terminalOutputChunks
    rw [show (b.applyResponseMetadata (some a.finalResponse)).terminalItems
      ((Option.map Response.output (some a.finalResponse)).getD []) = _ from items]
    dsimp only
    rw [finalized,saw,startSent (same.sentStart.trans paired.begun)]
    rfl
  refine ⟨b'.model,b'.created,b'.id,b'.usageChunk,{b' with finalized := true, sentStart := true},?_,?_⟩
  · have sure : ensureIncompleteResponse (some a.finalResponse) = a.finalResponse := rfl
    unfold responsesStreamEventToChatChunks
    by_cases incomplete : a.status = .incomplete
    · rw [if_pos incomplete]
      rw [sure,terminal]
      rfl
    rw [if_neg incomplete]
    rw [terminal]
    rfl
  · exact usageBare b'

def noteFinish (last : String) (choice : Choice) : String :=
  if choice.finishes then trimSpace (choice.finishReason.getD "") else last

def finishOf (chunks : List Chunk) : String := (chunks.flatMap Chunk.choices).foldl noteFinish ""

def finishReasonOf (chunks : List Chunk) : String :=
  if finishOf chunks = "length" ∨ finishOf chunks = "content_filter" then finishOf chunks
  else if (accumulate chunks).calls = [] then "stop" else "tool_calls"

def ChatState.verdict (a : ChatState) : Status × Option String := (a.status,a.incompleteDetails)

theorem toolVerdict (a : ChatState) (toolCall) : (a.appendToolCallDelta toolCall).2.verdict = a.verdict := by
  unfold ChatState.appendToolCallDelta ChatState.ensureTool
  cases lookup ChatTool.chatIndex (toolCall.index.getD 0) a.toolsByIndex <;> rfl

theorem toolsVerdict (a : ChatState) (toolCalls) : (a.appendToolCalls toolCalls).2.verdict = a.verdict := by
  induction toolCalls generalizing a with
  | nil => rfl
  | cons toolCall _ ih => exact (ih _).trans (toolVerdict a toolCall)

section

variable {a : ChatState} {last} (h : a.verdict = responsesStatusFromChatFinishReason last)

include h

theorem choiceVerdict (choice) : (a.appendChoice choice).2.verdict = responsesStatusFromChatFinishReason (noteFinish last choice) := by
  have texts : ∀ (s : ChatState) delta, (s.appendTextDelta delta).2.verdict = s.verdict := by
    intro s delta
    unfold ChatState.appendTextDelta ChatState.startText
    cases s.textStarted <;> rfl
  have thoughts : ∀ (s : ChatState) delta, (s.appendReasoningDelta delta).2.verdict = s.verdict := by
    intro s delta
    unfold ChatState.appendReasoningDelta ChatState.startReasoning
    cases s.reasoningStarted <;> rfl
  have noted : ∀ (s : ChatState) finishReason, (s.applyFinishReason finishReason).doneDeltaEvents.2.verdict =
      responsesStatusFromChatFinishReason (trimSpace finishReason) := by
    intro s finishReason
    unfold responsesStatusFromChatFinishReason
    rw [trimSpaceTwice]
    rfl
  unfold ChatState.appendChoice
  dsimp only
  generalize isReasoned : (if choice.delta.getReasoningContent ≠ "" then
    a.appendReasoningDelta choice.delta.getReasoningContent else ([],a)) = reasoned
  have first : reasoned.2.verdict = a.verdict := by
    rw [← isReasoned]
    split
    · exact thoughts _ _
    · rfl
  generalize isSpoken : (if choice.delta.getContentString ≠ "" then
    reasoned.2.appendTextDelta choice.delta.getContentString else ([],reasoned.2)) = spoken
  have second : spoken.2.verdict = reasoned.2.verdict := by
    rw [← isSpoken]
    split
    · exact texts _ _
    · rfl
  have third := toolsVerdict spoken.2 choice.delta.toolCalls
  unfold noteFinish
  split
  · exact noted _ _
  · exact third.trans (second.trans (first.trans h))

theorem chunksVerdict (chunks) : (convertAll a chunks).2.verdict =
      responsesStatusFromChatFinishReason ((chunks.flatMap Chunk.choices).foldl noteFinish last) := by
  have choices : ∀ (list : List Choice) (a : ChatState) (last : String),
      a.verdict = responsesStatusFromChatFinishReason last →
      (a.appendChoices list).2.verdict = responsesStatusFromChatFinishReason (list.foldl noteFinish last) := by
    intro list
    induction list with
    | nil => exact fun _ _ h => h
    | cons choice rest ih =>
      intro a last h
      have tail := ih _ _ (choiceVerdict h choice)
      unfold ChatState.appendChoices
      exact tail
  induction chunks generalizing a last with
  | nil => exact h
  | cons chunk rest ih =>
    have created : (a.applyMetadata chunk).sendCreated.2.verdict = a.verdict := by
      unfold ChatState.sendCreated
      split <;> rfl
    have tail := ih (choices chunk.choices _ _ (created.trans h))
    rw [flatMap_cons,foldl_append]
    unfold convertAll chatCompletionsStreamChunkToResponsesEvents
    exact tail

end

theorem finalReason {a : ChatState} (h : a.verdict = responsesStatusFromChatFinishReason last)
    (isTrimmed : trimSpace last = last) : (responsesFinishReasonFromStatus (some a.finalResponse)).getD fallback =
      if last = "length" ∨ last = "content_filter" then last else fallback := by
  have status : a.finalResponse.status = some (responsesStatusFromChatFinishReason last).1 :=
    congrArg (fun v => some (Prod.fst v)) h
  have details : a.finalResponse.incompleteDetails = (responsesStatusFromChatFinishReason last).2 := congrArg Prod.snd h
  unfold responsesFinishReasonFromStatus
  simp only [bind,bind_some,status,details]
  unfold responsesStatusFromChatFinishReason
  rw [isTrimmed]
  by_cases isLength : last = "length"
  · rw [if_pos isLength,if_pos (Or.inl isLength)]
    rw [if_neg (by decide),isLength]
    rfl
  rw [if_neg isLength]
  by_cases isFilter : last = "content_filter"
  · rw [if_pos isFilter,if_pos (Or.inr isFilter)]
    simp only [ne_eq,not_true_eq_false,if_false,getD_some]
    rw [if_pos (by decide),isFilter]
    rfl
  · have neither : ¬(last = "length" ∨ last = "content_filter") := by simp [isLength,isFilter]
    rw [if_neg isFilter,if_neg neither]
    simp

theorem finishTrimmed (chunks) : trimSpace (finishOf chunks) = finishOf chunks := by
  have trimmed : ∀ (list : List Choice) (last : String), trimSpace last = last →
      trimSpace (list.foldl noteFinish last) = list.foldl noteFinish last := by
    intro list
    induction list with
    | nil => exact fun _ h => h
    | cons _ _ ih =>
      intro last h
      refine ih _ ?_
      unfold noteFinish
      split
      · exact trimSpaceTwice _
      · exact h
  exact trimmed _ "" trimEmpty

structure RoundTrips (chunks out : List Chunk) : Prop where
  text : (accumulate out).text = (accumulate chunks).text
  reasoning : (accumulate out).reasoning = (accumulate chunks).reasoning
  calls : (accumulate out).calls.map Prod.snd = (accumulate chunks).calls.map Prod.snd
  order : (accumulate out).calls.map Prod.fst = (List.range (accumulate chunks).calls.length).map Int.ofNat
  role : ∃ first rest, out = first::rest ∧ first.isRole = true ∧ ∀ chunk ∈ rest, chunk.isRole = false
  finish : out.flatMap Chunk.finishReasons = [finishReasonOf chunks]

theorem absorbFinish (c : Content) (id model created reason) {usage : List Chunk}
    (bare : ∀ chunk ∈ usage, chunk.choices = []) :
    c.absorbAll (⟨id,created,model,[⟨{},some reason⟩],none⟩::usage) = c := by
  have nothing : usage.flatMap Chunk.choices = [] := flatMap_eq_nil_iff.mpr bare
  simp [Content.absorbAll,nothing,Content.absorb,Delta.getContentString,Delta.getReasoningContent]

theorem spokenRoundTrips (h : Spoken done (accumulate chunks) a b out)
    (verdict : a.verdict = responsesStatusFromChatFinishReason (finishOf chunks)) :
    Moves (finalizeChatCompletionsStreamToResponses a).1 b out (fun _ => RoundTrips chunks) := by
  have goesOn : a.finalized = false := by
    obtain ⟨⟨rows,paired,_⟩,_⟩ := h
    exact paired.chatGoesOn
  unfold finalizeChatCompletionsStreamToResponses
  rw [if_neg (by simp [goesOn])]
  refine movesAppend (spokenDone h) ?_
  rintro _ out' ⟨⟨rows,paired,said⟩,first,rest,isOut,isRole,noFinish,plains⟩
  obtain ⟨model,created,id,usage,_,converted,bare⟩ := terminalSpoken paired
  rw [finalReason (show a.doneDeltaEvents.2.verdict = _ from verdict) (finishTrimmed chunks)] at converted
  refine movesOne converted ?_
  have content : ∀ reason, accumulate (out' ++ ⟨id,created,model,[⟨{},some reason⟩],none⟩::usage) =
      sent rows (accumulate chunks) := by
    intro reason
    rw [accumulateAppend,said]
    exact absorbFinish _ id model created reason bare
  have empty : rows = [] ↔ (accumulate chunks).calls = [] := by
    rw [paired.calls,map_eq_nil_iff]
  refine ⟨?_,?_,?_,?_,?_,?_⟩
  · exact (congrArg Content.text (content _)).trans rfl
  · exact (congrArg Content.reasoning (content _)).trans rfl
  · rw [congrArg Content.calls (content _),paired.calls]
    simp [sent,Row.entry,Row.sentEntry,Function.comp_def]
  · rw [congrArg Content.calls (content _),paired.calls,length_map,← paired.distinct.indices]
    simp [sent,Row.sentEntry,Function.comp_def]
  · refine ⟨first,rest ++ _,by rw [isOut,cons_append],isRole,fun chunk member => ?_⟩
    rcases mem_append.mp member with old | new
    · exact (plains chunk old).1
    rcases mem_cons.mp new with rfl | last
    · rfl
    · simp [Chunk.isRole,bare chunk last]
  · have early : rest.flatMap Chunk.finishReasons = [] :=
      flatMap_eq_nil_iff.mpr (fun chunk member => (plains chunk member).2)
    have late : usage.flatMap Chunk.finishReasons = [] :=
      flatMap_eq_nil_iff.mpr (fun chunk member => by simp [Chunk.finishReasons,bare chunk member])
    rw [isOut]
    simp only [flatMap_append,flatMap_cons,noFinish,early,late,nil_append,append_nil]
    simp [Chunk.finishReasons,finishReasonOf,empty]

theorem emptyRoundTrips (id model id' model' : String) (now now' : Int) (includeUsage : Bool) :
    Moves (finalizeChatCompletionsStreamToResponses (newChatToResponsesStreamState id model now)).1
      (newResponsesToChatStreamState id' model' now' includeUsage) [] (fun _ => RoundTrips []) := by
  have distinct : Distinct [] := ⟨nodup_nil,nodup_nil,rfl,nodup_nil,fun r member => (by cases member),
    fun r member => (by cases member)⟩
  have mirrors : Mirrors [] ((newResponsesToChatStreamState id' model' now' includeUsage).applyResponseMetadata
      (some (newChatToResponsesStreamState id model now).finalResponse)) := ⟨rfl,rfl,rfl,rfl,rfl,rfl,rfl,rfl⟩
  generalize isState : (newResponsesToChatStreamState id' model' now' includeUsage).applyResponseMetadata
    (some (newChatToResponsesStreamState id model now).finalResponse) = b at mirrors
  have finalized := finalizeSilent distinct (mirrorsEnding distinct mirrors) (by rw [← isState]; rfl)
    (some (newChatToResponsesStreamState id model now).finalResponse)
  have started : b.ensureStart.1 = [b.makeChunk { role := "assistant", content := some "" } none] := by
    rw [← isState]
    rfl
  have saw : b.sawToolCall = false := by
    rw [← isState]
    rfl
  have converted : responsesStreamEventToChatChunks
      {type := .completed, response := some (newChatToResponsesStreamState id model now).finalResponse}
      (newResponsesToChatStreamState id' model' now' includeUsage) =
      .ok (b.makeChunk { role := "assistant", content := some "" } none::b.makeChunk {} (some "stop")::b.usageChunk,
        {b with finalized := true, sentStart := true}) := by
    unfold responsesStreamEventToChatChunks ResponsesState.terminal ResponsesState.terminalOutputChunks
    dsimp only
    rw [isState,show b.terminalItems _ = ([],b) from rfl]
    rw [finalized,started,saw]
    rfl
  refine movesOne converted ?_
  have bare := usageBare b
  have nothing : b.usageChunk.flatMap Chunk.choices = [] := flatMap_eq_nil_iff.mpr bare
  have content : accumulate (b.makeChunk { role := "assistant", content := some "" } none::b.makeChunk {} (some "stop")::
      b.usageChunk) = ⟨"","",[]⟩ := by
    simp [accumulate,Content.absorbAll,ResponsesState.makeChunk,nothing,Content.absorb,Delta.getContentString,
      Delta.getReasoningContent]
  refine ⟨congrArg Content.text content,congrArg Content.reasoning content,?_,?_,⟨_,_,rfl,rfl,?_⟩,?_⟩
  · exact congrArg (fun c => c.calls.map Prod.snd) content
  · exact congrArg (fun c => c.calls.map Prod.fst) content
  · intro chunk member
    rcases mem_cons.mp member with rfl | last
    · rfl
    · simp [Chunk.isRole,bare chunk last]
  · have late : b.usageChunk.flatMap Chunk.finishReasons = [] :=
      flatMap_eq_nil_iff.mpr (fun chunk member => by simp [Chunk.finishReasons,bare chunk member])
    simp only [nil_append,flatMap_cons,late]
    rfl

/-- A chat stream through both converters comes back with the same text, reasoning and tool calls, one role chunk at
its head and one finish chunk. -/
theorem chatRoundTrip (id model id' model' : String) (now now' : Int) (includeUsage : Bool) {chunks : List Chunk}
    (conforming : conforms ⟨"","",[]⟩ false chunks = true) :
    ∃ out b, feed (newResponsesToChatStreamState id' model' now' includeUsage)
        (eventsOf (newChatToResponsesStreamState id model now) chunks) = .ok (out,b) ∧ RoundTrips chunks out := by
  have untold : responsesStatusFromChatFinishReason "" = (.completed,none) := by decide
  have fresh : (newChatToResponsesStreamState id model now).verdict = responsesStatusFromChatFinishReason "" :=
    untold.symm
  have verdict := chunksVerdict fresh chunks
  suffices moves : Moves (eventsOf (newChatToResponsesStreamState id model now) chunks)
      (newResponsesToChatStreamState id' model' now' includeUsage) [] (fun _ => RoundTrips chunks) by
    obtain ⟨out,b,fed,trips⟩ := moves
    exact ⟨out,b,fed,trips⟩
  cases chunks with
  | nil => exact emptyRoundTrips id model id' model' now now' includeUsage
  | cons chunk rest =>
    have all : Moves (convertAll (newChatToResponsesStreamState id model now) (chunk::rest)).1
        (newResponsesToChatStreamState id' model' now' includeUsage) [] (fun b' out' => ∃ done,
          Spoken done (accumulate (chunk::rest))
            (convertAll (newChatToResponsesStreamState id model now) (chunk::rest)).2 b' out') := by
      refine movesAppend (movesAppend (spokenCreated id model id' model' now now' includeUsage chunk)
        (fun b' out' spoken => spokenChoices spoken conforming)) ?_
      rintro b' out' ⟨done,spoken,remaining⟩
      have later := spokenChunks spoken remaining
      rw [← absorbCons] at later
      exact later
    refine movesAppend all ?_
    rintro b' out' ⟨done,spoken⟩
    exact spokenRoundTrips spoken verdict

def chatChunk (delta : Delta) (finishReason : Option String) : Chunk := ⟨"chatcmpl",1,"gpt",[⟨delta,finishReason⟩],none⟩

def interleavedChat : List Chunk :=
  [chatChunk { role := "assistant", content := some "" } none,
    chatChunk { content := some "Let me ", reasoningContent := some "Hm." } none,
    chatChunk { toolCalls := [⟨some 0,"call_a","lookup",""⟩,⟨some 2,"call_b","search","\x7b"⟩] } none,
    chatChunk { content := some "look.", toolCalls := [⟨some 0,"","","\x7b\x7d"⟩] } none,
    chatChunk { toolCalls := [⟨some 2,"call_b","","\x7d"⟩] } (some "length")]

theorem interleavedChatComesBack : ∃ out b, feed (newResponsesToChatStreamState "" "" 0 true)
    (eventsOf (newChatToResponsesStreamState "resp" "gpt" 0) interleavedChat) = .ok (out,b) ∧
      RoundTrips interleavedChat out :=
  chatRoundTrip "resp" "gpt" "" "" 0 0 true (by decide +kernel)

end Omnigate.ResponsesStream
