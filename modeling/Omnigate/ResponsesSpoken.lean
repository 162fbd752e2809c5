import Omnigate.ResponsesMirror

/-! A chat stream through both converters. The first fragment of a tool index introduces it, later ones continue it,
and nothing is said after a finish reason. The chunks that come out say at every point what has gone in. -/
namespace Omnigate.ResponsesStream

open ClaudeStream (ToolCall)
open Text Table UsageConvert List

instance (s : String) : Decidable (clean s) := by
  unfold clean
  infer_instance

def fits (calls : List (Int × Call)) (fragment : ToolCall) : Bool :=
  match get (fragment.index.getD 0) calls with
  | none => clean fragment.id ∧ clean fragment.name ∧
      ∀ entry ∈ calls, entry.1 < fragment.index.getD 0 ∧ entry.2.id ≠ fragment.id
  | some call => (fragment.id = "" ∨ fragment.id = call.id) ∧ (fragment.name = "" ∨ fragment.name = call.name)

def fitAll (calls : List (Int × Call)) : List ToolCall → Bool
  | [] => true
  | fragment::rest => fits calls fragment && fitAll (collect calls fragment) rest

def Choice.bare (choice : Choice) : Bool :=
  choice.delta.getContentString = "" ∧ choice.delta.getReasoningContent = "" ∧ choice.delta.toolCalls = []

def conforms (c : Content) (finished : Bool) : List Chunk → Bool
  | [] => true
  | chunk::rest => match chunk.choices with
    | [] => conforms c finished rest
    | [choice] => (finished = false ∨ choice.bare) && fitAll c.calls choice.delta.toolCalls &&
        conforms (c.absorb choice) (finished || choice.finishes) rest
    | _ => false

def convertAll (a : ChatState) : List Chunk → List Event × ChatState
  | [] => ([],a)
  | chunk::rest =>
    let (events,a) := chatCompletionsStreamChunkToResponsesEvents chunk a
    let (later,a) := convertAll a rest
    (events ++ later,a)

def eventsOf (a : ChatState) (chunks : List Chunk) : List Event :=
  (convertAll a chunks).1 ++ (finalizeChatCompletionsStreamToResponses (convertAll a chunks).2).1

def feed (b : ResponsesState) : List Event → Except String (List Chunk × ResponsesState)
  | [] => .ok ([],b)
  | event::rest => do
    let (chunks,b) ← responsesStreamEventToChatChunks event b
    let (later,b) ← feed b rest
    return (chunks ++ later,b)

def Moves (events : List Event) (b : ResponsesState) (out : List Chunk) (p : ResponsesState → List Chunk → Prop) : Prop :=
  ∃ chunks b', feed b events = .ok (chunks,b') ∧ p b' (out ++ chunks)

theorem movesNil (h : p b out) : Moves [] b out p := ⟨[],b,rfl,by rwa [append_nil]⟩

section

variable (h : responsesStreamEventToChatChunks event b = .ok (chunks,b'))

include h

theorem movesOne (after : p b' (out ++ chunks)) : Moves [event] b out p := by
  refine ⟨chunks,b',?_,after⟩
  simp only [feed,h,bind,Except.bind,pure,Except.pure,append_nil]

theorem movesCons (after : Moves events b' (out ++ chunks) p) : Moves (event::events) b out p := by
  obtain ⟨later,b'',fed,_⟩ := after
  refine ⟨chunks ++ later,b'',?_,by rwa [← append_assoc]⟩
  simp only [feed,h,fed,bind,Except.bind,pure,Except.pure]

end

theorem movesAppend {p q : ResponsesState → List Chunk → Prop} (first : Moves xs b out p)
    (next : ∀ b out, p b out → Moves ys b out q) : Moves (xs ++ ys) b out q := by
  obtain ⟨chunks,_,fed,holds⟩ := first
  induction xs generalizing b out chunks with
  | nil =>
    obtain ⟨rfl,rfl⟩ := Prod.mk.inj (Except.ok.inj fed)
    rw [append_nil] at holds
    exact next b out holds
  | cons event xs ih =>
    rw [feed] at fed
    cases converted : responsesStreamEventToChatChunks event b with
    | error =>
      rw [converted] at fed
      cases fed
    | ok result =>
      obtain ⟨_,mid⟩ := result
      rw [converted] at fed
      simp only [bind,Except.bind] at fed
      cases rest : feed mid xs with
      | error =>
        rw [rest] at fed
        cases fed
      | ok result =>
        obtain ⟨tail,_⟩ := result
        rw [rest] at fed
        obtain ⟨rfl,rfl⟩ := Prod.mk.inj (Except.ok.inj fed)
        refine movesCons converted (ih tail rest ?_)
        rwa [append_assoc]

def sent (rows : List Row) (c : Content) : Content := ⟨c.text,c.reasoning,rows.map Row.sentEntry⟩

structure Paired (rows : List Row) (done : Bool) (c : Content) (a : ChatState) (b : ResponsesState) : Prop where
  distinct : Distinct rows
  mirrors : Mirrors rows b
  calls : c.calls = rows.map Row.entry
  chat : a.toolsByIndex = rows.map (Row.chatTool done)
  below : ∀ r ∈ rows, r.output < a.nextOutputIndex
  text : a.text = c.text
  textStarted : a.textStarted = decide (c.text ≠ "")
  textSent : b.hasSentText = a.textStarted
  textRef : .message ∈ a.outputOrder → a.textStarted = true
  reasoning : a.reasoning = c.reasoning
  reasoningStarted : a.reasoningStarted = decide (c.reasoning ≠ "")
  reasoningSent : b.hasSentReasoning = a.reasoningStarted
  reasoningRef : .reasoning ∈ a.outputOrder → a.reasoningStarted = true
  unbroken : done = false → b.needsReasoningSummaryBreak = false
  called : b.sawToolCall = decide (rows ≠ [])
  created : a.sentCreated = true
  begun : b.sentStart = true
  chatGoesOn : a.finalized = false
  goesOn : b.finalized = false

def Chunk.isRole (chunk : Chunk) : Bool := chunk.choices.any (fun choice => choice.delta.role ≠ "")

def Chunk.finishReasons (chunk : Chunk) : List String := chunk.choices.filterMap Choice.finishReason

def plain (chunk : Chunk) : Prop := chunk.isRole = false ∧ chunk.finishReasons = []

structure Spoken (done : Bool) (c : Content) (a : ChatState) (b : ResponsesState) (out : List Chunk) : Prop where
  paired : ∃ rows, Paired rows done c a b ∧ accumulate out = sent rows c
  opening : ∃ first rest, out = first::rest ∧ first.isRole = true ∧ first.finishReasons = [] ∧ ∀ chunk ∈ rest, plain chunk

def Opened (out : List Chunk) : Prop :=
  ∃ first rest, out = first::rest ∧ first.isRole = true ∧ first.finishReasons = [] ∧ ∀ chunk ∈ rest, plain chunk

theorem openingAppend (h : Opened out) (more : ∀ chunk ∈ chunks, plain chunk) :
    Opened (out ++ chunks) := by
  obtain ⟨first,rest,isOut,isRole,noFinish,all⟩ := h
  exact ⟨first,rest ++ chunks,by rw [isOut,cons_append],isRole,noFinish,forall_mem_append.mpr ⟨all,more⟩⟩

theorem accumulateAppend (xs ys) : accumulate (xs ++ ys) = (accumulate xs).absorbAll ys := absorbAppend _ xs ys

theorem itemIgnored {event : Event} (b)
    (isType : event.type = .outputItemAdded ∨ event.type = .outputItemDone) (isItem : event.item = some item)
    (other : item.type = .message ∨ item.type = .reasoning) : responsesStreamEventToChatChunks event b = .ok ([],b) := by
  have notTool : ¬(item.type = .functionCall ∨ item.type = .customToolCall) := by
    rcases other with h | h <;> simp [h]
  unfold responsesStreamEventToChatChunks
  rcases isType with h | h <;> rw [h,isItem] <;> exact if_neg notTool

theorem textChunk (b : ResponsesState) (delta) : plain (b.makeChunk {content := some delta} none) ∧
    ∀ c : Content, c.absorbAll [b.makeChunk {content := some delta} none] = {c with text := c.text ++ delta} := by
  refine ⟨⟨rfl,rfl⟩,fun c => ?_⟩
  simp [Content.absorbAll,ResponsesState.makeChunk,Content.absorb,Delta.getContentString,Delta.getReasoningContent]

theorem reasoningChunk (b : ResponsesState) (delta) : plain (b.makeChunk {reasoningContent := some delta} none) ∧
    ∀ c : Content, c.absorbAll [b.makeChunk {reasoningContent := some delta} none] =
      {c with reasoning := c.reasoning ++ delta} := by
  refine ⟨⟨rfl,rfl⟩,fun c => ?_⟩
  simp [Content.absorbAll,ResponsesState.makeChunk,Content.absorb,Delta.getContentString,Delta.getReasoningContent]

theorem appendNonempty (nonempty : t ≠ "") : s ++ t ≠ "" := by
  intro empty
  exact nonempty (String.append_eq_empty_iff.mp empty).2

theorem spokenText (h : Spoken false c a b out) (nonempty : delta ≠ "") :
    Moves (a.appendTextDelta delta).1 b out
      (Spoken false {c with text := c.text ++ delta} (a.appendTextDelta delta).2) := by
  obtain ⟨⟨rows,paired,said⟩,opening⟩ := h
  have grown := appendNonempty (s := c.text) nonempty
  obtain ⟨isPlain,absorbed⟩ := textChunk b delta
  have converted : ∀ outputIndex itemId, responsesStreamEventToChatChunks
      {type := .outputTextDelta, outputIndex := outputIndex, contentIndex := some 0, delta := delta, itemId := itemId} b =
      .ok ([b.makeChunk {content := some delta} none],
        {b with usageText := b.usageText ++ delta, hasSentText := true}) := by
    intro outputIndex itemId
    simp [responsesStreamEventToChatChunks,ResponsesState.textDelta,nonempty,ResponsesState.ensureStart,paired.begun,
      ResponsesState.makeChunk]
  have mirrors : Mirrors rows {b with usageText := b.usageText ++ delta, hasSentText := true} :=
    mirrorsSame paired.mirrors ⟨rfl,rfl,rfl,rfl,rfl,rfl,rfl,rfl⟩
  have content : accumulate (out ++ [b.makeChunk {content := some delta} none]) =
      sent rows {c with text := c.text ++ delta} := by
    rw [accumulateAppend,said,absorbed]
    rfl
  unfold ChatState.appendTextDelta ChatState.startText
  cases started : a.textStarted with
  | true =>
    refine movesOne (converted _ _) ⟨⟨rows,?_,content⟩,openingAppend opening (forall_mem_singleton.mpr isPlain)⟩
    exact {paired with
      mirrors := mirrors
      text := by dsimp only; rw [if_pos rfl]; dsimp only; rw [paired.text]
      textStarted := by dsimp only; rw [if_pos rfl]; simp [started,grown]
      textSent := by dsimp only; rw [if_pos rfl]; exact started.symm
      textRef := fun _ => started
      reasoningRef := paired.reasoningRef }
  | false =>
    refine movesCons (itemIgnored b (Or.inl rfl) rfl (Or.inl rfl)) (movesOne (converted _ _) ?_)
    rw [append_nil]
    refine ⟨⟨rows,?_,content⟩,openingAppend opening (forall_mem_singleton.mpr isPlain)⟩
    exact {paired with
      mirrors := mirrors
      below := fun r member => by
        have := paired.below r member
        show r.output < a.nextOutputIndex + 1
        omega
      text := by show a.text ++ delta = _; rw [paired.text]
      textStarted := by simp [ChatState.nextIndex,grown]
      textSent := rfl
      textRef := fun _ => rfl
      reasoningRef := fun member => paired.reasoningRef (by simpa [ChatState.nextIndex] using member) }

theorem spokenReasoning (h : Spoken false c a b out) (nonempty : delta ≠ "") :
    Moves (a.appendReasoningDelta delta).1 b out
      (Spoken false {c with reasoning := c.reasoning ++ delta} (a.appendReasoningDelta delta).2) := by
  obtain ⟨⟨rows,paired,said⟩,opening⟩ := h
  have grown := appendNonempty (s := c.reasoning) nonempty
  obtain ⟨isPlain,absorbed⟩ := reasoningChunk b delta
  have unbroken := paired.unbroken rfl
  have converted : ∀ outputIndex itemId, responsesStreamEventToChatChunks
      { type := .reasoningSummaryDelta, outputIndex := outputIndex, summaryIndex := some 0, delta := delta
        itemId := itemId } b =
      .ok ([b.makeChunk {reasoningContent := some delta} none],
        {b with needsReasoningSummaryBreak := false, usageText := b.usageText ++ delta, hasSentReasoning := true}) := by
    intro outputIndex itemId
    simp [responsesStreamEventToChatChunks,ResponsesState.reasoningDelta,nonempty,ResponsesState.ensureStart,paired.begun,
      ResponsesState.makeChunk,ResponsesState.brokenDelta,unbroken]
  have mirrors : Mirrors rows
      {b with needsReasoningSummaryBreak := false, usageText := b.usageText ++ delta, hasSentReasoning := true} :=
    mirrorsSame paired.mirrors ⟨rfl,rfl,rfl,rfl,rfl,rfl,rfl,rfl⟩
  have content : accumulate (out ++ [b.makeChunk {reasoningContent := some delta} none]) =
      sent rows {c with reasoning := c.reasoning ++ delta} := by
    rw [accumulateAppend,said,absorbed]
    rfl
  unfold ChatState.appendReasoningDelta ChatState.startReasoning
  cases started : a.reasoningStarted with
  | true =>
    refine movesOne (converted _ _) ⟨⟨rows,?_,content⟩,openingAppend opening (forall_mem_singleton.mpr isPlain)⟩
    exact {paired with
      mirrors := mirrors
      reasoning := by dsimp only; rw [if_pos rfl]; dsimp only; rw [paired.reasoning]
      reasoningStarted := by dsimp only; rw [if_pos rfl]; simp [started,grown]
      reasoningSent := by dsimp only; rw [if_pos rfl]; exact started.symm
      reasoningRef := fun _ => started
      textRef := paired.textRef
      unbroken := fun _ => rfl }
  | false =>
    refine movesCons (itemIgnored b (Or.inl rfl) rfl (Or.inr rfl)) (movesOne (converted _ _) ?_)
    rw [append_nil]
    refine ⟨⟨rows,?_,content⟩,openingAppend opening (forall_mem_singleton.mpr isPlain)⟩
    exact {paired with
      mirrors := mirrors
      below := fun r member => by
        have := paired.below r member
        show r.output < a.nextOutputIndex + 1
        omega
      reasoning := by show a.reasoning ++ delta = _; rw [paired.reasoning]
      reasoningStarted := by simp [ChatState.nextIndex,grown]
      reasoningSent := rfl
      reasoningRef := fun _ => rfl
      textRef := fun member => paired.textRef (by simpa [ChatState.nextIndex] using member)
      unbroken := fun _ => rfl }

theorem collectNew (k : Row → Int) {rows row} (fragment) (isIndex : fragment.index.getD 0 = k row)
    (fresh : ∀ r ∈ rows, k r ≠ k row) (isCall : row.call = ⟨fragment.id,fragment.name,fragment.arguments⟩) :
    collect (rows.map (fun r => (k r,r.call))) fragment = (rows ++ [row]).map (fun r => (k r,r.call)) := by
  unfold collect
  dsimp only
  rw [isIndex,getFresh (fun r => (k r,r.call)) fresh]
  rw [← isCall]
  exact putFresh (fun r => (k r,r.call)) fresh

theorem collectMore (k : Row → Int) (distinct : Distinct rows) (unique : (rows.map k).Nodup)
    (stable : ∀ r arguments, k (Row.more r arguments) = k r) (member : r ∈ rows) (fragment : ToolCall)
    (isIndex : fragment.index.getD 0 = k r) :
    collect (rows.map (fun r => (k r,r.call))) fragment =
      (extend rows r fragment.arguments).map (fun r => (k r,r.call)) := by
  have found : get (k r) (rows.map (fun r => (k r,r.call))) = some r.call :=
    getMapped (fun r => (k r,r.call)) unique member
  have mirrored : save Prod.fst (k (r.more fragment.arguments),(r.more fragment.arguments).call)
      (rows.map (fun r => (k r,r.call))) = (extend rows r fragment.arguments).map (fun r => (k r,r.call)) := by
    refine saveMap (fun r => (k r,r.call)) (fun x inside => ?_)
    have keys := inj_on_of_nodup_map unique inside member
    have indices := inj_on_of_nodup_map (indicesNodup distinct) inside member
    rw [stable]
    exact ⟨fun same => by rw [keys same]; rfl,fun same => by rw [indices same]⟩
  unfold collect
  dsimp only
  rw [isIndex,found]
  rw [stable] at mirrored
  exact mirrored

theorem toolChunk (b : ResponsesState) (fragment) : plain (b.makeChunk {toolCalls := [fragment]} none) ∧
    ∀ c : Content, c.absorbAll [b.makeChunk {toolCalls := [fragment]} none] =
      {c with calls := collect c.calls fragment} := by
  refine ⟨⟨rfl,rfl⟩,fun c => ?_⟩
  simp [Content.absorbAll,ResponsesState.makeChunk,Content.absorb,Delta.getContentString,Delta.getReasoningContent]

theorem moreEmpty (r : Row) : r.more "" = r := by
  simp [Row.more]

theorem extendEmpty (distinct : Distinct rows) (member : r ∈ rows) : extend rows r "" = rows := by
  unfold extend
  rw [moreEmpty]
  exact saveStored (lookupUnique (indicesNodup distinct) member)

theorem extendLast {rows} (distinct : Distinct rows) {row} (isIndex : row.index = rows.length) (arguments : String) :
    extend (rows ++ [row]) row arguments = rows ++ [row.more arguments] := by
  refine saveLast (fun r member => ?_) rfl
  have below := newIndices distinct member
  show r.index ≠ row.index
  omega

theorem trimEmpty : trimSpace "" = "" := by decide

theorem keptText (isClean : clean known) (repeated : own = "" ∨ own = known) :
    (if trimSpace own = "" then known else trimSpace own) = known := by
  rcases repeated with rfl | rfl
  · rw [trimEmpty,if_pos rfl]
  · rw [isClean.2,if_neg isClean.1]

theorem appendMore {a : ChatState} (distinct : Distinct rows) (chat : a.toolsByIndex = rows.map (Row.chatTool false))
    {r : Row} (member : r ∈ rows) (isKey : fragment.index.getD 0 = r.key)
    (isId : fragment.id = "" ∨ fragment.id = r.call.id) (isName : fragment.name = "" ∨ fragment.name = r.call.name) :
    a.appendToolCallDelta fragment =
      (if fragment.arguments = "" then []
        else [{ type := .functionArgsDelta, outputIndex := some r.output, itemId := r.call.id
                delta := fragment.arguments }],
        {a with toolsByIndex := (extend rows r fragment.arguments).map (Row.chatTool false)}) := by
  have found : lookup ChatTool.chatIndex r.key a.toolsByIndex = some (r.chatTool false) := by
    rw [chat,lookupMap]
    exact congrArg (Option.map (Row.chatTool false)) (lookupUnique distinct.keys member)
  have mirrored : save ChatTool.chatIndex ((r.more fragment.arguments).chatTool false) (rows.map (Row.chatTool false)) =
      (extend rows r fragment.arguments).map (Row.chatTool false) := by
    refine saveMap (Row.chatTool false) (fun x inside => ?_)
    have keys := inj_on_of_nodup_map distinct.keys inside member
    have indices := inj_on_of_nodup_map (indicesNodup distinct) inside member
    exact ⟨fun same => by rw [keys same]; rfl,fun same => by rw [indices same]; rfl⟩
  unfold ChatState.appendToolCallDelta ChatState.ensureTool
  rw [isKey,found]
  simp only [Row.chatTool] at mirrored ⊢
  rw [keptText (distinct.cleanIds r member) isId,keptText (distinct.cleanNames r member) isName,nil_append,
    ← mirrored,chat]
  rfl

theorem appendNew {a : ChatState} (chat : a.toolsByIndex = rows.map (Row.chatTool false))
    (cleanId : clean fragment.id) (cleanName : clean fragment.name)
    (fresh : ∀ r ∈ rows, r.key ≠ fragment.index.getD 0) :
    a.appendToolCallDelta fragment =
      ({ type := .outputItemAdded, outputIndex := some a.nextOutputIndex, itemId := fragment.id
         item := some { type := .functionCall, id := fragment.id, status := .inProgress, callId := fragment.id
                        name := fragment.name } } ::
        (if fragment.arguments = "" then []
          else [{ type := .functionArgsDelta, outputIndex := some a.nextOutputIndex, itemId := fragment.id
                  delta := fragment.arguments }]),
        {a with
          nextOutputIndex := a.nextOutputIndex + 1
          outputOrder := a.outputOrder ++ [.tool (fragment.index.getD 0)]
          toolsByIndex := (rows ++ [Row.mk (fragment.index.getD 0) a.nextOutputIndex rows.length
            ⟨fragment.id,fragment.name,fragment.arguments⟩]).map (Row.chatTool false) }) := by
  have unknown : lookup ChatTool.chatIndex (fragment.index.getD 0) a.toolsByIndex = none := by
    rw [chat,lookupNone]
    exact forall_mem_map.mpr fresh
  unfold ChatState.appendToolCallDelta ChatState.ensureTool
  rw [unknown]
  dsimp only [ChatState.nextIndex,ChatState.newTool]
  rw [cleanId.2,cleanName.2,if_neg cleanId.1,if_neg cleanId.1,if_neg cleanName.1,chat,saveFresh]
  · simp [Row.chatTool]
  exact forall_mem_map.mpr fresh

theorem spokenArguments (paired : Paired rows false c a b) (said : accumulate out = sent rows c)
    (opening : Opened out) (member : r ∈ rows) (arguments : String) :
    Moves (if arguments = "" then []
        else [{type := .functionArgsDelta, outputIndex := some r.output, itemId := r.call.id, delta := arguments}]) b out
      (Spoken false {c with calls := (extend rows r arguments).map Row.entry}
        {a with toolsByIndex := (extend rows r arguments).map (Row.chatTool false)}) := by
  by_cases empty : arguments = ""
  · rw [if_pos empty,empty,extendEmpty paired.distinct member,← paired.chat,← paired.calls]
    exact movesNil ⟨⟨rows,paired,said⟩,opening⟩
  rw [if_neg empty]
  obtain ⟨_,converted,mirrors,flags,called⟩ :=
    argsDeltaSent paired.distinct paired.mirrors member paired.begun r.call.id empty
  obtain ⟨isPlain,absorbed⟩ := toolChunk b ⟨some r.index,r.call.id,"",arguments⟩
  have indices : (rows.map (fun r => (r.index : Int))).Nodup := by
    have image := (indicesNodup paired.distinct).map (Nat.cast_injective (R := Int))
    rwa [map_map] at image
  have collected := collectMore (fun r => (r.index : Int)) paired.distinct indices (fun _ _ => rfl) member
    ⟨some r.index,r.call.id,"",arguments⟩ rfl
  refine movesOne converted ⟨⟨extend rows r arguments,?_,?_⟩,openingAppend opening (forall_mem_singleton.mpr isPlain)⟩
  · exact {paired with
      distinct := extendDistinct paired.distinct member arguments
      mirrors := mirrors
      calls := rfl
      chat := rfl
      below := fun x inside => by
        obtain ⟨y,old,_,_,isOutput,_⟩ := extendMember paired.distinct member arguments inside
        rw [isOutput]
        exact paired.below y old
      textSent := flags.hasSentText.trans paired.textSent
      reasoningSent := flags.hasSentReasoning.trans paired.reasoningSent
      unbroken := fun isFalse => flags.needsReasoningSummaryBreak.trans (paired.unbroken isFalse)
      called := by
        have nonempty : extend rows r arguments ≠ [] := by
          intro empty
          have kept := extendKept paired.distinct member arguments Row.index rfl
          rw [empty] at kept
          have none := map_eq_nil_iff.mp kept.symm
          rw [none] at member
          cases member
        rw [called,decide_eq_true nonempty]
      begun := flags.sentStart.trans paired.begun
      goesOn := flags.finalized.trans paired.goesOn }
  · rw [accumulateAppend,said,absorbed]
    exact congrArg (Content.mk c.text c.reasoning) collected

theorem spokenIntroduced {rows c a b out} (paired : Paired rows false c a b) (said : accumulate out = sent rows c)
    {row} (isIndex : row.index = rows.length) (isOutput : row.output = a.nextOutputIndex)
    (newKey : ∀ r ∈ rows, r.key ≠ row.key) (newId : ∀ r ∈ rows, r.call.id ≠ row.call.id) (cleanId : clean row.call.id)
    (cleanName : clean row.call.name) (silent : row.call.arguments = "") :
    ∃ chunks b', responsesStreamEventToChatChunks row.added b = .ok (chunks,b') ∧
      Paired (rows ++ [row]) false {c with calls := (rows ++ [row]).map Row.entry} {a with
        nextOutputIndex := a.nextOutputIndex + 1
        outputOrder := a.outputOrder ++ [.tool row.key]
        toolsByIndex := (rows ++ [row]).map (Row.chatTool false) } b' ∧
      accumulate (out ++ chunks) = sent (rows ++ [row]) {c with calls := (rows ++ [row]).map Row.entry} ∧
      ∀ chunk ∈ chunks, plain chunk := by
  have newOutput : ∀ r ∈ rows, r.output ≠ row.output := by
    intro r member
    have := paired.below r member
    omega
  obtain ⟨b',converted,mirrors,flags,called⟩ := itemAddedSent paired.distinct paired.mirrors paired.begun isIndex newOutput
    newId cleanId cleanName silent
  obtain ⟨isPlain,absorbed⟩ := toolChunk b ⟨some row.index,row.call.id,row.call.name,""⟩
  have collected := collectNew (fun r => (r.index : Int)) ⟨some row.index,row.call.id,row.call.name,""⟩ rfl
    (fun r member _ => by
      have below := newIndices paired.distinct member
      omega) (by rw [← silent] : row.call = _)
  refine ⟨_,b',converted,?_,?_,forall_mem_singleton.mpr isPlain⟩
  · exact {paired with
      distinct := appendDistinct paired.distinct isIndex newKey newOutput newId cleanId cleanName
      mirrors := mirrors
      calls := rfl
      chat := rfl
      below := by
        refine allAdded (fun r old => ?_) (by dsimp only; omega)
        have := paired.below r old
        dsimp only
        omega
      textSent := flags.hasSentText.trans paired.textSent
      textRef := fun member => paired.textRef (by simpa using member)
      reasoningSent := flags.hasSentReasoning.trans paired.reasoningSent
      reasoningRef := fun member => paired.reasoningRef (by simpa using member)
      unbroken := fun isFalse => flags.needsReasoningSummaryBreak.trans (paired.unbroken isFalse)
      called := by simp [called]
      begun := flags.sentStart.trans paired.begun
      goesOn := flags.finalized.trans paired.goesOn }
  · rw [accumulateAppend,said,absorbed]
    exact congrArg (Content.mk c.text c.reasoning) collected

theorem spokenTool (h : Spoken false c a b out) {fragment : ToolCall} (fit : fits c.calls fragment = true) :
    Moves (a.appendToolCallDelta fragment).1 b out
      (Spoken false {c with calls := collect c.calls fragment} (a.appendToolCallDelta fragment).2) := by
  obtain ⟨⟨rows,paired,said⟩,opening⟩ := h
  unfold fits at fit
  cases known : get (fragment.index.getD 0) c.calls with
  | some =>
    rw [known] at fit
    obtain ⟨isId,isName⟩ := of_decide_eq_true fit
    rw [paired.calls] at known
    obtain ⟨entry,found,isCall⟩ := Option.map_eq_some_iff.mp known
    obtain ⟨inside,isKey⟩ := lookupSound found
    obtain ⟨r,member,rfl⟩ := mem_map.mp inside
    cases isCall
    have collected := collectMore Row.key paired.distinct paired.distinct.keys (fun _ _ => rfl) member fragment isKey.symm
    rw [appendMore paired.distinct paired.chat member isKey.symm isId isName,paired.calls]
    rw [show collect (rows.map Row.entry) fragment = _ from collected]
    exact spokenArguments paired said opening member fragment.arguments
  | none =>
    rw [known] at fit
    obtain ⟨cleanId,cleanName,fresh⟩ := of_decide_eq_true fit
    have before : ∀ r ∈ rows, r.key < fragment.index.getD 0 ∧ r.call.id ≠ fragment.id := by
      intro r member
      exact fresh r.entry (by rw [paired.calls]; exact mem_map.mpr ⟨r,member,rfl⟩)
    have newKey : ∀ r ∈ rows, r.key ≠ fragment.index.getD 0 := fun r member => (before r member).1.ne
    obtain ⟨_,_,converted,paired',said',plains⟩ := @spokenIntroduced _ _ _ _ _ paired said
      ⟨fragment.index.getD 0,a.nextOutputIndex,rows.length,⟨fragment.id,fragment.name,""⟩⟩ rfl rfl newKey
      (fun r member => (before r member).2) cleanId cleanName rfl
    have last := @extendLast _ paired.distinct
      ⟨fragment.index.getD 0,a.nextOutputIndex,rows.length,⟨fragment.id,fragment.name,""⟩⟩ rfl fragment.arguments
    have spoken := spokenArguments paired' said' (openingAppend opening plains)
      (mem_append_right _ (mem_singleton.mpr rfl)) fragment.arguments
    have collected := @collectNew Row.key rows
      ⟨fragment.index.getD 0,a.nextOutputIndex,rows.length,⟨fragment.id,fragment.name,fragment.arguments⟩⟩ fragment rfl
      newKey rfl
    rw [last] at spoken
    rw [appendNew paired.chat cleanId cleanName newKey,paired.calls,
      show collect (rows.map Row.entry) fragment = _ from collected]
    exact movesCons converted spoken

theorem spokenTools (h : Spoken false c a b out) (fit : fitAll c.calls fragments = true) :
    Moves (a.appendToolCalls fragments).1 b out
      (Spoken false {c with calls := fragments.foldl collect c.calls} (a.appendToolCalls fragments).2) := by
  induction fragments generalizing c a b out with
  | nil => exact movesNil h
  | cons _ _ ih =>
    obtain ⟨here,there⟩ := Bool.and_eq_true_iff.mp fit
    exact movesAppend (spokenTool h here) (fun _ _ spoken => ih spoken there)

theorem toolDoneSilent (distinct : Distinct rows) (mirrors : Mirrors rows b) (member : r ∈ rows)
    (status : Status) (done : Bool) {p : ResponsesState → List Chunk → Prop} (h : p b out) :
    Moves (ChatState.toolDoneEvents status (r.chatTool done)) b out p := by
  cases done with
  | true => exact movesNil h
  | false =>
    refine movesCons (argsDoneSilent distinct mirrors member r.call.id) ?_
    rw [append_nil]
    refine movesOne (itemDoneSilent distinct mirrors member status false) ?_
    rwa [append_nil]

theorem toolsDoneSilent (distinct : Distinct rows) (mirrors : Mirrors rows b) (status : Status)
    {tools : List ChatTool} (known : ∀ tool ∈ tools, ∃ r ∈ rows, tool = r.chatTool done)
    {p : ResponsesState → List Chunk → Prop} (h : p b out) :
    Moves (tools.flatMap (ChatState.toolDoneEvents status)) b out p := by
  induction tools with
  | nil => exact movesNil h
  | cons tool _ ih =>
    obtain ⟨r,member,rfl⟩ := known tool mem_cons_self
    have here : Moves (ChatState.toolDoneEvents status (r.chatTool done)) b out (fun b' out' => b' = b ∧ out' = out) :=
      toolDoneSilent distinct mirrors member status done ⟨rfl,rfl⟩
    refine movesAppend here (fun b' out' same => ?_)
    rw [same.1,same.2]
    exact ih (fun x inside => known x (mem_cons_of_mem _ inside))

theorem pairedDone (paired : Paired rows done c a b) (broken : Bool) :
    Paired rows true c a.doneDeltaEvents.2 {b with needsReasoningSummaryBreak := broken} := by
  exact {paired with
    mirrors := mirrorsSame paired.mirrors ⟨rfl,rfl,rfl,rfl,rfl,rfl,rfl,rfl⟩
    chat := by
      show a.toolsByIndex.map _ = _
      rw [paired.chat,map_map]
      rfl
    unbroken := fun isTrue => by cases isTrue }

section

variable (h : Spoken done c a b out)

include h

theorem spokenDone :
    Moves a.doneDeltaEvents.1 b out (Spoken true c a.doneDeltaEvents.2) := by
  obtain ⟨⟨rows,paired,said⟩,opening⟩ := h
  have sorted : ∀ tool ∈ a.sortedTools, ∃ r ∈ rows, tool = r.chatTool done := by
    intro tool member
    have inside := (perm_insertionSort _ _).mem_iff.mp member
    rw [paired.chat] at inside
    obtain ⟨r,known,same⟩ := mem_map.mp inside
    exact ⟨r,known,same.symm⟩
  -- only the end of the reasoning is noted, for a summary that would follow
  refine movesAppend (movesAppend (p := fun b' out' => b' = b ∧ out' = out) ?_
    (q := fun b' out' => (∃ broken, b' = {b with needsReasoningSummaryBreak := broken}) ∧ out' = out) ?_) ?_
  · split
    · refine movesCons (show responsesStreamEventToChatChunks _ b = .ok ([],b) from rfl) ?_
      rw [append_nil]
      refine movesOne (itemIgnored b (Or.inr rfl) rfl (Or.inl rfl)) ?_
      rw [append_nil]
      exact ⟨rfl,rfl⟩
    · exact movesNil ⟨rfl,rfl⟩
  · rintro b' out' ⟨rfl,rfl⟩
    split
    · refine movesCons rfl ?_
      rw [append_nil]
      refine movesOne (itemIgnored _ (Or.inr rfl) rfl (Or.inr rfl)) ?_
      rw [append_nil]
      exact ⟨⟨_,rfl⟩,rfl⟩
    · exact movesNil ⟨⟨b'.needsReasoningSummaryBreak,rfl⟩,rfl⟩
  · rintro b' out' ⟨⟨broken,rfl⟩,rfl⟩
    have paired' := pairedDone paired broken
    exact toolsDoneSilent paired'.distinct paired'.mirrors _ sorted ⟨⟨rows,paired',said⟩,opening⟩

theorem spokenFinish (choice : Choice) :
    Moves (if choice.finishes then (a.applyFinishReason (choice.finishReason.getD "")).doneDeltaEvents else ([],a)).1 b out
      (Spoken (done || choice.finishes) c
        (if choice.finishes then (a.applyFinishReason (choice.finishReason.getD "")).doneDeltaEvents else ([],a)).2) := by
  cases finishes : choice.finishes with
  | false =>
    rw [Bool.or_false]
    exact movesNil h
  | true =>
    rw [Bool.or_true]
    obtain ⟨⟨rows,paired,said⟩,opening⟩ := h
    have noted : Spoken done c (a.applyFinishReason (choice.finishReason.getD "")) b out := by
      refine ⟨⟨rows,?_,said⟩,opening⟩
      unfold ChatState.applyFinishReason
      generalize responsesStatusFromChatFinishReason (choice.finishReason.getD "") = verdict
      exact {paired with}
    exact spokenDone noted

theorem spokenChoice (talks : done = false ∨ choice.bare = true)
    (fit : fitAll c.calls choice.delta.toolCalls = true) :
    Moves (a.appendChoice choice).1 b out (Spoken (done || choice.finishes) (c.absorb choice) (a.appendChoice choice).2) := by
  unfold ChatState.appendChoice
  cases done with
  | true =>
    have bare := of_decide_eq_true (talks.resolve_left (by simp))
    have same : c.absorb choice = c := by
      unfold Content.absorb
      rw [bare.1,bare.2.1,bare.2.2,String.append_empty,String.append_empty]
      rfl
    rw [same]
    simp only [bare.1,bare.2.1,bare.2.2,ne_eq,not_true_eq_false,if_false,ChatState.appendToolCalls,nil_append]
    exact spokenFinish h choice
  | false =>
    have reasoned : Moves (if choice.delta.getReasoningContent ≠ "" then
          a.appendReasoningDelta choice.delta.getReasoningContent else ([],a)).1 b out
        (Spoken false {c with reasoning := c.reasoning ++ choice.delta.getReasoningContent}
          (if choice.delta.getReasoningContent ≠ "" then
            a.appendReasoningDelta choice.delta.getReasoningContent else ([],a)).2) := by
      split
      · rename_i nonempty
        exact spokenReasoning h nonempty
      rename_i empty
      rw [not_not.mp empty,String.append_empty]
      exact movesNil h
    refine movesAppend (movesAppend (movesAppend reasoned ?_
      (q := fun b' out' => Spoken false {c with
        text := c.text ++ choice.delta.getContentString
        reasoning := c.reasoning ++ choice.delta.getReasoningContent } _ b' out'))
      (fun b' out' spoken => spokenTools spoken fit)) (fun b' out' spoken => spokenFinish spoken choice)
    intro b' out' spoken
    split
    · rename_i nonempty
      exact spokenText spoken nonempty
    rename_i empty
    rw [not_not.mp empty,String.append_empty]
    exact movesNil spoken

theorem spokenChoices (conforming : conforms c done (chunk::rest) = true) :
    Moves (a.appendChoices chunk.choices).1 b out (fun b' out' => ∃ done',
      Spoken done' (c.absorbAll [chunk]) (a.appendChoices chunk.choices).2 b' out' ∧
        conforms (c.absorbAll [chunk]) done' rest = true) := by
  unfold conforms at conforming
  simp only [Content.absorbAll,flatMap_cons,flatMap_nil,append_nil]
  rcases isChoices : chunk.choices with _ | ⟨_,_ | _⟩
  · rw [isChoices] at conforming
    exact movesNil ⟨done,h,conforming⟩
  · rw [isChoices] at conforming
    obtain ⟨here,there⟩ := Bool.and_eq_true_iff.mp conforming
    obtain ⟨bare,fit⟩ := Bool.and_eq_true_iff.mp here
    simp only [ChatState.appendChoices,append_nil]
    obtain ⟨chunks,b',fed,spoken⟩ := spokenChoice h (of_decide_eq_true bare) fit
    exact ⟨chunks,b',fed,_,spoken,there⟩
  · rw [isChoices] at conforming
    cases conforming

theorem spokenMetadata (chunk : Chunk) :
    Spoken done c (a.applyMetadata chunk) b out := by
  obtain ⟨⟨rows,paired,said⟩,opening⟩ := h
  exact ⟨⟨rows,{paired with},said⟩,opening⟩

theorem createdSilent : a.sendCreated = ([],a) := by
  obtain ⟨⟨_,paired,_⟩,_⟩ := h
  unfold ChatState.sendCreated
  rw [if_pos paired.created]

end

theorem absorbCons (c : Content) (chunk rest) :
    c.absorbAll (chunk::rest) = (c.absorbAll [chunk]).absorbAll rest := absorbAppend c [chunk] rest

theorem spokenChunks (h : Spoken done c a b out) (conforming : conforms c done chunks = true) :
    Moves (convertAll a chunks).1 b out (fun b' out' => ∃ done',
      Spoken done' (c.absorbAll chunks) (convertAll a chunks).2 b' out') := by
  induction chunks generalizing done c a b out with
  | nil => exact movesNil ⟨done,h⟩
  | cons chunk _ ih =>
    have noted := spokenMetadata h chunk
    unfold convertAll chatCompletionsStreamChunkToResponsesEvents
    rw [createdSilent noted,absorbCons]
    refine movesAppend (spokenChoices noted conforming) ?_
    rintro b' out' ⟨done',spoken,remaining⟩
    exact ih spoken remaining

theorem spokenCreated (id model id' model' now now' includeUsage chunk) :
    Moves ((newChatToResponsesStreamState id model now).applyMetadata chunk).sendCreated.1
      (newResponsesToChatStreamState id' model' now' includeUsage) []
      (Spoken false ⟨"","",[]⟩ ((newChatToResponsesStreamState id model now).applyMetadata chunk).sendCreated.2) := by
  refine movesOne rfl ⟨⟨[],?_,rfl⟩,_,[],rfl,rfl,rfl,fun chunk member => by cases member⟩
  exact {
    distinct := ⟨nodup_nil,nodup_nil,rfl,nodup_nil,fun r member => (by cases member),fun r member => (by cases member)⟩
    mirrors := ⟨rfl,rfl,rfl,rfl,rfl,rfl,rfl,rfl⟩
    calls := rfl
    chat := rfl
    below := fun r member => by cases member
    text := rfl
    textStarted := rfl
    textSent := rfl
    textRef := fun member => by cases member
    reasoning := rfl
    reasoningStarted := rfl
    reasoningSent := rfl
    reasoningRef := fun member => by cases member
    unbroken := fun _ => rfl
    called := rfl
    created := rfl
    begun := rfl
    chatGoesOn := rfl
    goesOn := rfl }

end Omnigate.ResponsesStream
