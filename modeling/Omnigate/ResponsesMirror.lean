import Omnigate.ResponsesToChat

/-! The two stream converters side by side. What the upstream has said of its tool calls is one list of rows, which
every table of both converters mirrors. -/
namespace Omnigate.ResponsesStream

open ClaudeStream (ToolCall)
open Text Table UsageConvert List

structure Call where
  (id name arguments : String)
  deriving DecidableEq, Repr

structure Content where
  (text reasoning : String)
  calls : List (Int × Call)
  deriving DecidableEq, Repr

def collect (calls : List (Int × Call)) (fragment : ToolCall) : List (Int × Call) :=
  let index := fragment.index.getD 0
  match get index calls with
  | none => put index ⟨fragment.id,fragment.name,fragment.arguments⟩ calls
  | some call => put index {call with arguments := call.arguments ++ fragment.arguments} calls

def Content.absorb (c : Content) (choice : Choice) : Content :=
  ⟨c.text ++ choice.delta.getContentString,c.reasoning ++ choice.delta.getReasoningContent,
    choice.delta.toolCalls.foldl collect c.calls⟩

def Content.absorbAll (c : Content) (chunks : List Chunk) : Content := (chunks.flatMap Chunk.choices).foldl Content.absorb c

def accumulate (chunks : List Chunk) : Content := Content.absorbAll ⟨"","",[]⟩ chunks

theorem absorbAppend (c : Content) (xs ys) : c.absorbAll (xs ++ ys) = (c.absorbAll xs).absorbAll ys := by
  simp [Content.absorbAll,flatMap_append,foldl_append]

structure Row where
  (key output : Int)
  index : Nat
  call : Call
  deriving DecidableEq, Repr

namespace Row

def entry (r : Row) : Int × Call := (r.key,r.call)

def sentEntry (r : Row) : Int × Call := (r.index,r.call)

def chatTool (done : Bool) (r : Row) : ChatTool :=
  ⟨r.key,r.output,r.call.id,r.call.name,r.call.arguments,done⟩

def streamTool (r : Row) : StreamTool :=
  { key := .output r.output, callID := r.call.id, itemID := r.call.id, name := r.call.name
    arguments := r.call.arguments, index := r.index, sent := true, nameSent := true
    argsSentAt := r.call.arguments.utf8ByteSize }

def byKey (r : Row) : Key × Nat := (.output r.output,r.index)

def byOutput (r : Row) : Int × Key := (r.output,.output r.output)

def byId (r : Row) : String × Key := (r.call.id,.output r.output)

end Row

def clean (s : String) : Prop := s ≠ "" ∧ trimSpace s = s

structure Distinct (rows : List Row) : Prop where
  keys : (rows.map Row.key).Nodup
  outputs : (rows.map Row.output).Nodup
  indices : rows.map Row.index = List.range rows.length
  ids : (rows.map (fun r => r.call.id)).Nodup
  cleanIds : ∀ r ∈ rows, clean r.call.id
  cleanNames : ∀ r ∈ rows, clean r.call.name

structure Mirrors (rows : List Row) (b : ResponsesState) : Prop where
  tools : b.tools = rows.map Row.streamTool
  toolByKey : b.toolByKey = rows.map Row.byKey
  outputIndexToKey : b.outputIndexToKey = rows.map Row.byOutput
  itemIDToKey : b.itemIDToKey = rows.map Row.byId
  callIDToKey : b.callIDToKey = rows.map Row.byId
  pendingArgsByOutputIndex : b.pendingArgsByOutputIndex = []
  pendingArgsByItemID : b.pendingArgsByItemID = []
  nextToolIndex : b.nextToolIndex = rows.length

section Lookups

variable {κ ν : Type} [DecidableEq κ]

section

variable (f : Row → κ × ν) {rows : List Row} (unique : (rows.map (fun r => (f r).1)).Nodup) {r} (member : r ∈ rows)

include f unique member

theorem getMapped : get (f r).1 (rows.map f) = some (f r).2 := by
  unfold get
  rw [lookupMap,lookupUnique unique member]
  rfl

theorem putMapped : put (f r).1 (f r).2 (rows.map f) = rows.map f := by
  refine saveStored ?_
  rw [lookupMap]
  exact (congrArg (Option.map f) (lookupUnique unique member)).trans rfl

end

theorem getFresh (f : Row → κ × ν) {rows : List Row} (fresh : ∀ r ∈ rows, (f r).1 ≠ k) :
    get k (rows.map f) = none := by
  unfold get
  rw [lookupNone.mpr]
  · rfl
  exact forall_mem_map.mpr fresh

theorem putFresh (f : Row → κ × ν) (fresh : ∀ r ∈ rows, (f r).1 ≠ (f row).1) :
    put (f row).1 (f row).2 (rows.map f) = (rows ++ [row]).map f := by
  unfold put
  rw [saveFresh,map_append]
  · rfl
  exact forall_mem_map.mpr fresh

end Lookups

theorem indicesNodup (h : Distinct rows) : (rows.map Row.index).Nodup := by
  rw [h.indices]
  exact nodup_range

theorem keyUnique (h : Distinct rows) : (rows.map (fun r => r.byKey.1)).Nodup := by
  have image := h.outputs.map (f := Key.output) (fun a b same => by cases same; rfl)
  rwa [map_map] at image

section Tools

variable {rows : List Row} {b : ResponsesState} (distinct : Distinct rows) (tools : b.tools = rows.map Row.streamTool)
  {r : Row} (member : r ∈ rows)

include distinct tools member

theorem toolMapped : lookup StreamTool.index r.index b.tools = some r.streamTool := by
  rw [tools,lookupMap]
  exact congrArg (Option.map Row.streamTool) (lookupUnique (indicesNodup distinct) member)

theorem saveToolMapped : b.saveTool r.streamTool = b := by
  unfold ResponsesState.saveTool
  rw [saveStored (toolMapped distinct tools member)]

theorem quietTool : b.toolDelta r.streamTool "" = ([],b) := by
  have unsent : ResponsesState.unsentArguments r.streamTool "" = "" := by
    unfold ResponsesState.unsentArguments
    rw [if_neg (fun both => Nat.lt_irrefl _ both.2)]
  unfold ResponsesState.toolDelta
  rw [unsent,if_pos ⟨rfl,rfl,Or.inr rfl⟩,saveToolMapped distinct tools member]

end Tools

theorem argumentsSame (r : Row) (done status) :
    (if (ChatState.toolOutput (r.chatTool done) status).arguments ≠ "" then
      {r.streamTool with arguments := (ChatState.toolOutput (r.chatTool done) status).arguments} else r.streamTool) =
      r.streamTool := by
  split <;> rfl

section

variable (distinct : Distinct rows) (mirrors : Mirrors rows b)

include distinct mirrors

theorem toolForOutput {r : Row} (member : r ∈ rows) :
    b.toolFor (.output r.output) = some r.streamTool := by
  have found : get (.output r.output) (rows.map Row.byKey) = some r.index :=
    getMapped Row.byKey (keyUnique distinct) member
  unfold ResponsesState.toolFor
  rw [mirrors.toolByKey,found]
  exact toolMapped distinct mirrors.tools member

theorem findMapped {r : Row} (member : r ∈ rows)
    (event : Event) (isOutput : event.outputIndex = some r.output) : b.findToolForEvent event = some r.streamTool := by
  have found : get r.output (rows.map Row.byOutput) = some (.output r.output) :=
    getMapped Row.byOutput distinct.outputs member
  unfold ResponsesState.findToolForEvent
  rw [isOutput,Option.bind_some,mirrors.outputIndexToKey,found]
  exact toolForOutput distinct mirrors member

theorem ensureMapped {r : Row} (member : r ∈ rows)
    (event : Event) (item : Output) (isOutput : event.outputIndex = some r.output) (isItem : event.item = some item)
    (isId : item.id = r.call.id) (isCall : item.callId = r.call.id) (isName : item.name = r.call.name) :
    b.ensureToolForEvent event item = some (r.streamTool,b) := by
  obtain ⟨idNonempty,idClean⟩ := distinct.cleanIds r member
  obtain ⟨_,nameClean⟩ := distinct.cleanNames r member
  have itemID : responseStreamEventItemID event = r.call.id := by
    simp [responseStreamEventItemID,isItem,isId,idClean,idNonempty]
  have resolved : b.resolveTool (.output r.output) r.call.id r.call.id = (r.streamTool,b) := by
    unfold ResponsesState.resolveTool
    rw [toolForOutput distinct mirrors member]
  have outputs : put r.output (.output r.output) b.outputIndexToKey = b.outputIndexToKey := by
    rw [mirrors.outputIndexToKey]
    exact putMapped Row.byOutput distinct.outputs member
  have items : put r.call.id (.output r.output) b.itemIDToKey = b.itemIDToKey := by
    rw [mirrors.itemIDToKey]
    exact putMapped Row.byId distinct.ids member
  have calls : put r.call.id (.output r.output) b.callIDToKey = b.callIDToKey := by
    rw [mirrors.callIDToKey]
    exact putMapped Row.byId distinct.ids member
  have noOutputs : get r.output b.pendingArgsByOutputIndex = none := by rw [mirrors.pendingArgsByOutputIndex]; rfl
  have noItems : get r.call.id b.pendingArgsByItemID = none := by rw [mirrors.pendingArgsByItemID]; rfl
  have claimedOutput : b.claimOutputIndex (.output r.output) r.streamTool (some r.output) = (r.streamTool,b) := by
    simp [ResponsesState.claimOutputIndex,noOutputs,outputs]
  have claimedItem : b.claimItemID (.output r.output) r.streamTool r.call.id = (r.streamTool,b) := by
    simp [ResponsesState.claimItemID,idNonempty,noItems,items,Row.streamTool]
  have claimedCall : b.claimCallID (.output r.output) r.streamTool item = (r.streamTool,b) := by
    simp [ResponsesState.claimCallID,isCall,idClean,idNonempty,calls,Row.streamTool]
  have named : ResponsesState.nameTool r.streamTool item = r.streamTool := by
    simp [ResponsesState.nameTool,isName,nameClean,Row.streamTool]
  unfold ResponsesState.ensureToolForEvent
  have key : keyForEvent event = some (.output r.output) := by simp [keyForEvent,isOutput]
  rw [key,itemID,isOutput,isCall,idClean]
  simp only [Option.some_or,bind,Option.bind_some]
  rw [resolved]
  rw [claimedOutput]
  rw [claimedItem]
  rw [claimedCall,named]

theorem itemDoneSilent (member : r ∈ rows)
    (status : Status) (done : Bool) : responsesStreamEventToChatChunks
      { type := .outputItemDone, outputIndex := some r.output
        item := some (ChatState.toolOutput (r.chatTool done) status) } b = .ok ([],b) := by
  have known := ensureMapped distinct mirrors member
    { type := .outputItemDone, outputIndex := some r.output
      item := some (ChatState.toolOutput (r.chatTool done) status) } _ rfl rfl rfl rfl rfl
  unfold responsesStreamEventToChatChunks
  dsimp only
  rw [if_pos (show (ChatState.toolOutput (r.chatTool done) status).type = .functionCall ∨ _ from Or.inl rfl)]
  unfold ResponsesState.toolItem
  rw [known]
  dsimp only
  rw [argumentsSame,quietTool distinct mirrors.tools member]

theorem argsDoneSilent (member : r ∈ rows)
    (itemId : String) : responsesStreamEventToChatChunks
      {type := .functionArgsDone, outputIndex := some r.output, itemId := itemId} b = .ok ([],b) := by
  have known := findMapped distinct mirrors member
    {type := .functionArgsDone, outputIndex := some r.output, itemId := itemId} rfl
  unfold responsesStreamEventToChatChunks ResponsesState.flushPendingTool
  rw [known]
  dsimp only
  rw [quietTool distinct mirrors.tools member]

end

def Row.more (r : Row) (arguments : String) : Row := {r with call := {r.call with arguments := r.call.arguments ++ arguments}}

def extend (rows : List Row) (r : Row) (arguments : String) : List Row := save Row.index (r.more arguments) rows

section

variable (distinct : Distinct rows) {r} (member : r ∈ rows) (arguments : String)

include distinct member arguments

theorem extendKept {τ : Type}
    (g : Row → τ) (kept : g (r.more arguments) = g r) : (extend rows r arguments).map g = rows.map g := by
  have stored : lookup Row.index (r.more arguments).index rows = some r :=
    lookupUnique (indicesNodup distinct) member
  exact saveKept g stored kept

theorem extendMember (inside : x ∈ extend rows r arguments) : ∃ y ∈ rows, x.call.id = y.call.id ∧ x.call.name = y.call.name ∧
      x.output = y.output ∧ x.index = y.index := by
  have names := extendKept distinct member arguments (fun x => (x.call.id,x.call.name,x.output,x.index)) rfl
  have image : (x.call.id,x.call.name,x.output,x.index) ∈ rows.map (fun x => (x.call.id,x.call.name,x.output,x.index)) := by
    rw [← names]
    exact mem_map.mpr ⟨x,inside,rfl⟩
  obtain ⟨y,old,same⟩ := mem_map.mp image
  simp only [Prod.mk.injEq] at same
  exact ⟨y,old,same.1.symm,same.2.1.symm,same.2.2.1.symm,same.2.2.2.symm⟩

theorem extendDistinct :
    Distinct (extend rows r arguments) := by
  have indices := extendKept distinct member arguments Row.index rfl
  have lengths : (extend rows r arguments).length = rows.length := by
    have := congrArg List.length indices
    simpa using this
  refine ⟨?_,?_,?_,?_,?_,?_⟩
  · rw [extendKept distinct member arguments Row.key rfl]
    exact distinct.keys
  · rw [extendKept distinct member arguments Row.output rfl]
    exact distinct.outputs
  · rw [indices,lengths]
    exact distinct.indices
  · rw [extendKept distinct member arguments (fun x => x.call.id) rfl]
    exact distinct.ids
  · intro x inside
    obtain ⟨y,old,isId,_⟩ := extendMember distinct member arguments inside
    rw [isId]
    exact distinct.cleanIds y old
  · intro x inside
    obtain ⟨y,old,_,isName,_⟩ := extendMember distinct member arguments inside
    rw [isName]
    exact distinct.cleanNames y old

end

theorem extendMirrors (distinct : Distinct rows) (mirrors : Mirrors rows b) (member : r ∈ rows)
    (arguments : String) : Mirrors (extend rows r arguments) (b.saveTool (r.more arguments).streamTool) := by
  have lengths : (extend rows r arguments).length = rows.length := by
    have := congrArg List.length (extendKept distinct member arguments Row.index rfl)
    simpa using this
  refine ⟨?_,?_,?_,?_,?_,mirrors.pendingArgsByOutputIndex,mirrors.pendingArgsByItemID,?_⟩
  · unfold ResponsesState.saveTool
    rw [mirrors.tools]
    exact saveMap Row.streamTool (fun _ _ => Iff.rfl)
  · rw [extendKept distinct member arguments Row.byKey rfl]
    exact mirrors.toolByKey
  · rw [extendKept distinct member arguments Row.byOutput rfl]
    exact mirrors.outputIndexToKey
  · rw [extendKept distinct member arguments Row.byId rfl]
    exact mirrors.itemIDToKey
  · rw [extendKept distinct member arguments Row.byId rfl]
    exact mirrors.callIDToKey
  · rw [lengths]
    exact mirrors.nextToolIndex

structure SameTables (b b' : ResponsesState) : Prop where
  tools : b'.tools = b.tools
  toolByKey : b'.toolByKey = b.toolByKey
  outputIndexToKey : b'.outputIndexToKey = b.outputIndexToKey
  itemIDToKey : b'.itemIDToKey = b.itemIDToKey
  callIDToKey : b'.callIDToKey = b.callIDToKey
  pendingArgsByOutputIndex : b'.pendingArgsByOutputIndex = b.pendingArgsByOutputIndex
  pendingArgsByItemID : b'.pendingArgsByItemID = b.pendingArgsByItemID
  nextToolIndex : b'.nextToolIndex = b.nextToolIndex

theorem mirrorsSame (mirrors : Mirrors rows b) (same : SameTables b b') : Mirrors rows b' :=
  ⟨same.tools.trans mirrors.tools,same.toolByKey.trans mirrors.toolByKey,
    same.outputIndexToKey.trans mirrors.outputIndexToKey,same.itemIDToKey.trans mirrors.itemIDToKey,
    same.callIDToKey.trans mirrors.callIDToKey,same.pendingArgsByOutputIndex.trans mirrors.pendingArgsByOutputIndex,
    same.pendingArgsByItemID.trans mirrors.pendingArgsByItemID,same.nextToolIndex.trans mirrors.nextToolIndex⟩

structure SameFlags (b b' : ResponsesState) : Prop where
  sentStart : b'.sentStart = b.sentStart
  finalized : b'.finalized = b.finalized
  hasSentText : b'.hasSentText = b.hasSentText
  hasSentReasoning : b'.hasSentReasoning = b.hasSentReasoning
  needsReasoningSummaryBreak : b'.needsReasoningSummaryBreak = b.needsReasoningSummaryBreak
  includeUsage : b'.includeUsage = b.includeUsage

theorem startSent {b : ResponsesState} (begun : b.sentStart = true) : b.ensureStart = ([],b) := by
  unfold ResponsesState.ensureStart
  rw [if_pos begun]

section

variable (distinct : Distinct rows)

include distinct

theorem argsDeltaSent (mirrors : Mirrors rows b) {r : Row} (member : r ∈ rows)
    (begun : b.sentStart = true) (itemId : String) (nonempty : delta ≠ "") :
    ∃ b', responsesStreamEventToChatChunks
        {type := .functionArgsDelta, outputIndex := some r.output, itemId := itemId, delta := delta} b =
        .ok ([b.makeChunk { toolCalls := [⟨some r.index,r.call.id,"",delta⟩] } none],b') ∧
      Mirrors (extend rows r delta) b' ∧ SameFlags b b' ∧ b'.sawToolCall = true := by
  obtain ⟨idNonempty,idClean⟩ := distinct.cleanIds r member
  have known := findMapped distinct mirrors member
    {type := .functionArgsDelta, outputIndex := some r.output, itemId := itemId, delta := delta} rfl
  have unsent : ResponsesState.unsentArguments {r.streamTool with arguments := r.streamTool.arguments ++ delta} delta =
      delta := by
    unfold ResponsesState.unsentArguments
    rw [if_neg (fun both => nonempty both.1)]
  have tool : StreamTool.mk (.output r.output) r.call.id r.call.id r.call.name (r.call.arguments ++ delta) r.index true true
      (r.call.arguments.utf8ByteSize + delta.utf8ByteSize) = (r.more delta).streamTool := by
    simp [Row.more,Row.streamTool,String.utf8ByteSize_append]
  have extended := extendMirrors distinct mirrors member delta
  refine ⟨{ b.saveTool (r.more delta).streamTool with usageText := b.usageText ++ delta ++ "", sawToolCall := true },
    ?_,mirrorsSame extended ⟨rfl,rfl,rfl,rfl,rfl,rfl,rfl,rfl⟩,⟨rfl,rfl,rfl,rfl,rfl,rfl⟩,rfl⟩
  unfold responsesStreamEventToChatChunks ResponsesState.toolArgumentsDelta
  rw [if_neg nonempty,known]
  dsimp only
  unfold ResponsesState.toolDelta
  rw [unsent,if_neg (fun quiet => nonempty quiet.2.1),startSent begun]
  simp only [Row.streamTool,idClean,idNonempty,if_false,Bool.true_eq_false,false_and,Bool.true_or,tool,nil_append]
  rfl

theorem newIndices (member : r ∈ rows) : r.index < rows.length := by
  have inside : r.index ∈ List.range rows.length := by
    rw [← distinct.indices]
    exact mem_map.mpr ⟨r,member,rfl⟩
  exact mem_range.mp inside

def ResponsesState.addTool (row : Row) (b : ResponsesState) : ResponsesState :=
  { b.saveTool row.streamTool with
    nextToolIndex := b.nextToolIndex + 1
    toolByKey := put (.output row.output) b.nextToolIndex b.toolByKey
    outputIndexToKey := put row.output (.output row.output) b.outputIndexToKey
    itemIDToKey := put row.call.id (.output row.output) b.itemIDToKey
    callIDToKey := put row.call.id (.output row.output) b.callIDToKey }

def Row.added (row : Row) : Event :=
  { type := .outputItemAdded, outputIndex := some row.output, itemId := row.call.id
    item := some { type := .functionCall, id := row.call.id, status := .inProgress, callId := row.call.id
                   name := row.call.name } }

theorem appendMirrors (mirrors : Mirrors rows b) (isIndex : row.index = rows.length)
    (newOutput : ∀ r ∈ rows, r.output ≠ row.output) (newId : ∀ r ∈ rows, r.call.id ≠ row.call.id) :
    Mirrors (rows ++ [row]) (b.addTool row) := by
  unfold ResponsesState.addTool
  refine ⟨?_,?_,?_,?_,?_,mirrors.pendingArgsByOutputIndex,mirrors.pendingArgsByItemID,?_⟩
  · unfold ResponsesState.saveTool
    rw [mirrors.tools,saveFresh,map_append]
    · rfl
    refine forall_mem_map.mpr (fun r inside => ?_)
    have below := newIndices distinct inside
    show r.index ≠ row.index
    omega
  · rw [mirrors.toolByKey,mirrors.nextToolIndex,← isIndex]
    exact putFresh Row.byKey (fun r inside same => newOutput r inside (Key.output.inj same))
  · rw [mirrors.outputIndexToKey]
    exact putFresh Row.byOutput newOutput
  · rw [mirrors.itemIDToKey]
    exact putFresh Row.byId newId
  · rw [mirrors.callIDToKey]
    exact putFresh Row.byId newId
  · rw [mirrors.nextToolIndex,length_append]
    rfl

theorem appendDistinct (isIndex : row.index = rows.length)
    (newKey : ∀ r ∈ rows, r.key ≠ row.key) (newOutput : ∀ r ∈ rows, r.output ≠ row.output)
    (newId : ∀ r ∈ rows, r.call.id ≠ row.call.id) (cleanId : clean row.call.id) (cleanName : clean row.call.name) :
    Distinct (rows ++ [row]) := by
  refine ⟨keysAdded distinct.keys newKey,keysAdded distinct.outputs newOutput,?_,keysAdded distinct.ids newId,
    allAdded distinct.cleanIds cleanId,allAdded distinct.cleanNames cleanName⟩
  rw [map_append,distinct.indices,length_append,length_singleton,range_succ,← isIndex]
  rfl

theorem itemAddedSent (mirrors : Mirrors rows b) (begun : b.sentStart = true)
    {row : Row} (isIndex : row.index = rows.length) (newOutput : ∀ r ∈ rows, r.output ≠ row.output)
    (newId : ∀ r ∈ rows, r.call.id ≠ row.call.id) (cleanId : clean row.call.id) (cleanName : clean row.call.name)
    (silent : row.call.arguments = "") :
    ∃ b', responsesStreamEventToChatChunks row.added b =
        .ok ([b.makeChunk { toolCalls := [⟨some row.index,row.call.id,row.call.name,""⟩] } none],b') ∧
      Mirrors (rows ++ [row]) b' ∧ SameFlags b b' ∧ b'.sawToolCall = true := by
  obtain ⟨idNonempty,idClean⟩ := cleanId
  obtain ⟨nameNonempty,nameClean⟩ := cleanName
  have noTool : b.toolFor (.output row.output) = none := by
    unfold ResponsesState.toolFor
    rw [mirrors.toolByKey,getFresh Row.byKey (fun r inside same => newOutput r inside (Key.output.inj same))]
    rfl
  have noItem : get row.call.id b.itemIDToKey = none := by
    rw [mirrors.itemIDToKey,getFresh Row.byId newId]
  have noCall : get row.call.id b.callIDToKey = none := by
    rw [mirrors.callIDToKey,getFresh Row.byId newId]
  have noOutputs : get row.output b.pendingArgsByOutputIndex = none := by rw [mirrors.pendingArgsByOutputIndex]; rfl
  have noItems : get row.call.id b.pendingArgsByItemID = none := by rw [mirrors.pendingArgsByItemID]; rfl
  have appended := appendMirrors distinct mirrors isIndex newOutput newId
  have next := mirrors.nextToolIndex.trans isIndex.symm
  refine ⟨{b.addTool row with usageText := b.usageText ++ "" ++ row.call.name, sawToolCall := true},?_,mirrorsSame appended ⟨rfl,rfl,rfl,rfl,rfl,rfl,rfl,rfl⟩,⟨rfl,rfl,rfl,rfl,rfl,rfl⟩,rfl⟩
  simp [responsesStreamEventToChatChunks,Row.added,ResponsesState.addTool,ResponsesState.toolItem,ResponsesState.ensureToolForEvent,keyForEvent,
    responseStreamEventItemID,ResponsesState.resolveTool,noTool,noItem,noCall,ResponsesState.newTool,
    ResponsesState.claimOutputIndex,noOutputs,ResponsesState.claimItemID,noItems,ResponsesState.claimCallID,
    ResponsesState.nameTool,idNonempty,idClean,nameNonempty,nameClean,ResponsesState.toolDelta,
    ResponsesState.unsentArguments,ResponsesState.ensureStart,begun,next,ResponsesState.saveTool,Row.streamTool,silent,
    ResponsesState.makeChunk]

end

end Omnigate.ResponsesStream
