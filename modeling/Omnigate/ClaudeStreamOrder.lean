import Omnigate.ClaudeStream

/-! When the events of the handler form a well-formed Claude stream. A scan of the upstream chunks says which calls
open blocks in order; the events of the conversion are accepted exactly as far as the scan goes. -/
namespace Omnigate.ClaudeStream

open BlockStream Machine UsageConvert List

inductive Kind where
  | tool | text | thinking
  deriving DecidableEq, Repr

def ContentBlock.kind : ContentBlock → Kind
  | .toolUse _ _ => .tool
  | .text => .text
  | .thinking => .thinking

def BlockDelta.kind : BlockDelta → Kind
  | .inputJson _ => .tool
  | .text _ => .text
  | .thinking _ => .thinking

def event : ClaudeResponse → Event Kind
  | .messageStart _ _ _ => .begins
  | .contentBlockStart index block => .opens index block.kind
  | .contentBlockDelta index delta => .updates index delta.kind
  | .contentBlockStop index => .closes index
  | .messageDelta _ _ => .summary
  | .messageStop => .ends

inductive Scan where
  | idle
  | content (kind : Kind)
  | tools (named : Nat) (highest : Int)
  deriving DecidableEq, Repr

def namedAfter (call : ToolCall) (named : Nat) : Nat := if call.name = "" then named else named + 1

def scanCalls : Nat → Nat × Int → List ToolCall → Option (Nat × Int)
  | _,row,[] => some row
  | i,(named,highest),call::rest =>
    let offset := call.index.getD i
    let highest := if highest < offset then offset else highest
    if call.name ≠ "" ∧ offset ≠ named then none
    else if call.arguments ≠ "" ∧ ¬(0 ≤ offset ∧ offset < namedAfter call named) then none
    else scanCalls (i + 1) (namedAfter call named,highest) rest

def Scan.closed : Scan → Bool
  | .tools named highest => named = highest + 1
  | _ => true

def scanTools (calls : List ToolCall) (scan : Scan) : Option Scan :=
  match scan with
  | .tools named highest => (scanCalls 0 (named,highest) calls).map (fun row => .tools row.1 row.2)
  | _ => (scanCalls 0 (0,0) calls).map (fun row => .tools row.1 row.2)

def scanContent (kind : Kind) (scan : Scan) : Option Scan := if scan.closed then some (.content kind) else none

def scanDelta (scan : Scan) (delta : Delta) : Option Scan :=
  if delta.toolCalls ≠ [] then scanTools delta.toolCalls scan
  else if delta.getReasoningContent ≠ "" then scanContent .thinking scan
  else if delta.getContentString ≠ "" then scanContent .text scan
  else some scan

def Chunk.delta (chunk : Chunk) : Delta := (chunk.choices.head?.map Choice.delta).getD ⟨none,none,none,[]⟩

def Chunk.finished (chunk : Chunk) : Bool := (chunk.choices.head?.map Choice.finished).getD false

def scanFirst (delta : Delta) : Scan :=
  if delta.getReasoningContent ≠ "" then .content .thinking
  else if delta.getContentString ≠ "" then .content .text
  else if delta.toolCalls ≠ [] then .tools 1 0
  else .idle

def scanChunks (scan : Scan) (chunks : List Chunk) : Option Scan :=
  run (fun scan chunk => scanDelta scan chunk.delta) scan chunks

def closesAfter (scan : Scan) (chunks : List Chunk) : Bool :=
  match scanChunks scan chunks with
  | none => false
  | some scan => scan.closed

def orderly (first : Chunk) (later : List Chunk) (usageChunk : Option Chunk) : Bool :=
  match later.getLast?,usageChunk with
  | none,none => false
  | none,some _ => first.usage.isSome
  | some last,none => 2 ≤ later.length ∧ last.usage.isSome ∧ closesAfter (scanFirst first.delta) later
  | some last,some _ =>
    closesAfter (scanFirst first.delta) (if last.usage.isSome then later else later.dropLast)

def Kind.lastMessageType : Kind → LastMessageType
  | .tool => .tools
  | .text => .text
  | .thinking => .thinking

def Follows (info : Info) (s : State Kind) : Scan → Prop
  | .idle => info.lastMessagesType = .none ∧ s = ⟨.body,info.index,[]⟩
  | .content kind =>
    kind ≠ .tool ∧ info.lastMessagesType = kind.lastMessageType ∧ s = ⟨.body,info.index + 1,[(info.index,kind)]⟩
  | .tools named highest =>
    info.lastMessagesType = .tools ∧ info.toolCallMaxIndexOffset = highest ∧ 0 ≤ highest ∧ named ≤ highest + 1 ∧
      s = ⟨.body,info.toolCallBaseIndex + named,blocksFrom .tool info.toolCallBaseIndex named⟩

def Tracks (s : State Kind) (out : List ClaudeResponse × Info) : Option Scan → Prop
  | none => run accept s (out.1.map event) = none
  | some scan => ∃ next, run accept s (out.1.map event) = some next ∧ Follows out.2 next scan

theorem stopsAccepted (h : Follows info s scan) :
    run accept s ((stopOpenBlocks info).map event) = if scan.closed then some ⟨.body,s.count,[]⟩ else none := by
  cases scan with
  | idle =>
    obtain ⟨last,rfl⟩ := h
    simp [stopOpenBlocks,last,run,Scan.closed]
  | content kind =>
    obtain ⟨notTool,last,rfl⟩ := h
    cases kind with
    | tool => exact absurd rfl notTool
    | text | thinking => simp [stopOpenBlocks,last,Kind.lastMessageType,run,event,accept,Scan.closed]
  | tools named highest =>
    obtain ⟨last,isMax,_,_,rfl⟩ := h
    have closes := acceptCloses Kind.tool (info.toolCallBaseIndex + named) info.toolCallBaseIndex named
      (highest + 1).toNat
    simp only [stopOpenBlocks,last,isMax,map_map,Scan.closed]
    refine closes.trans ?_
    by_cases all : (named : Int) = highest + 1
    · have enough : (highest + 1).toNat = named := by omega
      simp [all,enough,blocksFrom]
    · have short : ¬(highest + 1).toNat ≤ named := by omega
      simp [all,short]

theorem advanceAccepted (h : Follows info s scan) :
    run accept s ((stopOpenBlocksAndAdvance info).1.map event) =
        (if scan.closed then some ⟨.body,s.count,[]⟩ else none) ∧
      (scan.closed → (stopOpenBlocksAndAdvance info).2.lastMessagesType = .none ∧
        (stopOpenBlocksAndAdvance info).2.index = s.count) := by
  have stops := stopsAccepted h
  cases scan with
  | idle =>
    obtain ⟨last,rfl⟩ := h
    simp [stopOpenBlocksAndAdvance,last,run,Scan.closed]
  | content kind =>
    obtain ⟨notTool,last,rfl⟩ := h
    cases kind with
    | tool => exact absurd rfl notTool
    | text | thinking =>
      simp only [stopOpenBlocksAndAdvance,last,Kind.lastMessageType]
      exact ⟨stops,fun _ => ⟨trivial,trivial⟩⟩
  | tools named highest =>
    obtain ⟨last,_,_,_,rfl⟩ := h
    simp only [stopOpenBlocksAndAdvance,last]
    refine ⟨stops,fun isClosed => ⟨trivial,?_⟩⟩
    have all : (named : Int) = highest + 1 := of_decide_eq_true isClosed
    omega

theorem openAccepted (h : Follows info s scan) (notTool : kind ≠ .tool)
    (isBlock : ContentBlock.kind block = kind) (isDelta : BlockDelta.kind delta = kind) :
    Tracks s ((stopOpenBlocksAndAdvance info).1 ++ [.contentBlockStart (stopOpenBlocksAndAdvance info).2.index block,
          .contentBlockDelta (stopOpenBlocksAndAdvance info).2.index delta],
      {(stopOpenBlocksAndAdvance info).2 with lastMessagesType := kind.lastMessageType}) (scanContent kind scan) := by
  obtain ⟨stops,advanced⟩ := advanceAccepted h
  unfold scanContent
  split
  · rename_i isClosed
    obtain ⟨_,isIndex⟩ := advanced isClosed
    rw [if_pos isClosed] at stops
    refine ⟨⟨.body,s.count + 1,[(s.count,kind)]⟩,?_,notTool,rfl,?_⟩
    · rw [map_append,runBind,stops,isIndex]
      simp [run,event,accept,isBlock,isDelta]
    · rw [isIndex]
  · rename_i isOpen
    rw [if_neg isOpen] at stops
    simp only [Tracks,map_append,runBind,stops,Option.bind_none]

theorem laterBlockTracks {info scan s kind block delta} (h : Follows info s scan) (notTool : kind ≠ .tool)
    (isBlock : ContentBlock.kind block = kind) (isDelta : BlockDelta.kind delta = kind) :
    Tracks s (laterBlock kind.lastMessageType block delta info) (scanContent kind scan) := by
  unfold laterBlock
  split
  · exact openAccepted h notTool isBlock isDelta
  rename_i same
  simp only [ne_eq,not_not] at same
  -- the block of this kind is open already
  cases scan with
  | idle =>
    rw [h.1] at same
    cases kind <;> cases same
  | tools =>
    rw [h.1] at same
    cases kind <;> first | exact absurd rfl notTool | cases same
  | content held =>
    obtain ⟨notTool',last,rfl⟩ := h
    have isKind : held = kind := by
      rw [last] at same
      cases held <;> cases kind <;> first | rfl | cases same
    subst isKind
    refine ⟨⟨.body,info.index + 1,[(info.index,held)]⟩,?_,notTool',last,rfl⟩
    simp [run,event,accept,isDelta]

def rowState (base : Int) (named : Nat) : State Kind := ⟨.body,base + named,blocksFrom .tool base named⟩

theorem callAccepted (base offset) (named : Nat) (call) :
    run accept (rowState base named) ((toolCallEvents (base + offset) call).map event) =
      if call.name ≠ "" ∧ offset ≠ named then none
      else if call.arguments ≠ "" ∧ ¬(0 ≤ offset ∧ offset < namedAfter call named) then none
      else some (rowState base (namedAfter call named)) := by
  have updates : ∀ named : Nat, run accept (rowState base named) ((argumentsDelta (base + offset) call).map event) =
      if call.arguments ≠ "" ∧ ¬(0 ≤ offset ∧ offset < named) then none else some (rowState base named) := by
    intro named
    unfold argumentsDelta
    by_cases silent : call.arguments = ""
    · simp [silent,run]
    have inside : (base + offset,Kind.tool) ∈ blocksFrom Kind.tool base named ↔ 0 ≤ offset ∧ offset < named := by
      rw [memBlocksFrom]
      constructor
      · rintro ⟨_,low,high⟩
        exact ⟨by omega,by omega⟩
      · rintro ⟨low,high⟩
        exact ⟨rfl,by omega,by omega⟩
    by_cases known : 0 ≤ offset ∧ offset < named
    · simp [silent,run,event,accept,rowState,BlockDelta.kind,inside.mpr known,known]
    · have absent : (base + offset,Kind.tool) ∉ blocksFrom Kind.tool base named := fun bad => known (inside.mp bad)
      simp [silent,run,event,accept,rowState,BlockDelta.kind,absent,known]
  unfold toolCallEvents
  by_cases unnamed : call.name = ""
  · simp only [namedAfter,unnamed,↓reduceIte,nil_append,ne_eq,not_true_eq_false,false_and]
    exact updates named
  rw [map_append,runBind]
  simp only [namedAfter,unnamed,↓reduceIte,ne_eq,not_false_eq_true,true_and]
  by_cases next : offset = named
  · have opened : run accept (rowState base named)
        (([.contentBlockStart (base + offset) (.toolUse call.id call.name)] : List ClaudeResponse).map event) =
        some (rowState base (named + 1)) := by
      subst next
      simp [run,event,accept,rowState,ContentBlock.kind,blocksFromNext,add_assoc]
    rw [opened,Option.bind_some,updates (named + 1)]
    simp only [next,not_true_eq_false,↓reduceIte]
  · simp [run,event,accept,rowState,next]

theorem rowAccepted (base) (i named : Nat) (highest calls) :
    run accept (rowState base named) ((toolLoop base i highest calls).1.map event) =
      (scanCalls i (named,highest) calls).map (fun row => rowState base row.1) := by
  induction calls generalizing i named highest with
  | nil => simp [toolLoop,scanCalls,run]
  | cons _ _ ih =>
    simp only [toolLoop,scanCalls,map_append,runBind,callAccepted]
    split
    · rfl
    split
    · rfl
    · exact ih _ _ _

theorem rowHighest {base i named highest calls row}
    (h : scanCalls i (named,highest) calls = some row) (nonneg : 0 ≤ highest) (bound : named ≤ highest + 1) :
    (toolLoop base i highest calls).2 = row.2 ∧ 0 ≤ row.2 ∧ row.1 ≤ row.2 + 1 := by
  induction calls generalizing i named highest with
  | nil =>
    cases h
    exact ⟨rfl,nonneg,bound⟩
  | cons call _ ih =>
    simp only [scanCalls] at h
    split at h
    · cases h
    rename_i inOrder
    split at h
    · cases h
    refine ih h ?_ ?_
    · split <;> omega
    by_cases unnamed : call.name = ""
    · simp only [namedAfter,unnamed,↓reduceIte]
      split <;> omega
    have next : call.index.getD i = named := by
      by_contra other
      exact inOrder ⟨unnamed,other⟩
    simp only [namedAfter,unnamed,↓reduceIte,next]
    split <;> push_cast <;> omega

theorem rowTracks {info : Info} {named : Nat} {highest : Int} {calls} (nonneg : 0 ≤ highest) (bound : named ≤ highest + 1)
    (after) (isLast : after.lastMessagesType = .tools) (isBase : after.toolCallBaseIndex = info.toolCallBaseIndex)
    (isMax : after.toolCallMaxIndexOffset = (toolLoop info.toolCallBaseIndex 0 highest calls).2) :
    Tracks (rowState info.toolCallBaseIndex named) ((toolLoop info.toolCallBaseIndex 0 highest calls).1,after)
      ((scanCalls 0 (named,highest) calls).map (fun row => .tools row.1 row.2)) := by
  have runs := rowAccepted info.toolCallBaseIndex 0 named highest calls
  cases scanned : scanCalls 0 (named,highest) calls with
  | none =>
    rw [scanned] at runs
    exact runs
  | some =>
    rw [scanned] at runs
    obtain ⟨same,nonneg',bound'⟩ := @rowHighest info.toolCallBaseIndex _ _ _ _ _ scanned nonneg bound
    refine ⟨_,runs,isLast,isMax.trans same,nonneg',bound',?_⟩
    rw [isBase]
    rfl

theorem tracksAfter {s mid : State Kind} (before : run accept s (pre.map event) = some mid)
    (h : Tracks mid (events,info) result) : Tracks s (pre ++ events,info) result := by
  cases result with
  | none =>
    simp only [Tracks] at h ⊢
    rw [map_append,runBind,before,Option.bind_some,h]
  | some =>
    obtain ⟨next,runs,follows⟩ := h
    refine ⟨next,?_,follows⟩
    rw [map_append,runBind,before,Option.bind_some,runs]

theorem newRowTracks (h : Follows info s scan) (isClosed : scan.closed) (other : info.lastMessagesType ≠ .tools)
    (calls : List ToolCall) :
    Tracks s (laterTools calls info) ((scanCalls 0 (0,0) calls).map (fun row => .tools row.1 row.2)) := by
  obtain ⟨stops,advanced⟩ := advanceAccepted h
  obtain ⟨_,isIndex⟩ := advanced isClosed
  rw [if_pos isClosed] at stops
  have start : rowState (stopOpenBlocksAndAdvance info).2.index 0 = ⟨.body,s.count,[]⟩ := by
    simp [rowState,isIndex,blocksFrom]
  unfold laterTools
  rw [if_pos other]
  refine tracksAfter stops ?_
  rw [← start]
  exact @rowTracks { (stopOpenBlocksAndAdvance info).2 with
    toolCallBaseIndex := (stopOpenBlocksAndAdvance info).2.index, toolCallMaxIndexOffset := 0 } 0 0 calls le_rfl
    (by decide) _ rfl rfl rfl

theorem laterToolsTracks (h : Follows info s scan) (calls : List ToolCall) :
    Tracks s (laterTools calls info) (scanTools calls scan) := by
  cases scan with
  | idle =>
    refine newRowTracks h rfl ?_ calls
    rw [h.1]
    decide
  | content kind =>
    refine newRowTracks h rfl ?_ calls
    rw [h.2.1]
    have notTool := h.1
    cases kind with
    | tool => exact absurd rfl notTool
    | text | thinking => decide
  | tools named highest =>
    obtain ⟨last,isMax,nonneg,bound,rfl⟩ := h
    unfold laterTools
    rw [if_neg (by simp [last])]
    dsimp only
    rw [isMax]
    exact @rowTracks info named highest calls nonneg bound _ rfl rfl rfl

theorem laterDeltaTracks (h : Follows info s scan) (delta : Delta) :
    Tracks s (laterDelta delta info) (scanDelta scan delta) := by
  unfold laterDelta scanDelta
  split
  · exact laterToolsTracks h delta.toolCalls
  split
  · exact @laterBlockTracks info scan s .thinking _ _ h (by decide) rfl rfl
  split
  · exact @laterBlockTracks info scan s .text _ _ h (by decide) rfl rfl
  · exact ⟨s,rfl,h⟩

theorem firstTracks (delta : Delta) {info} (fresh : info.lastMessagesType = .none) (zero : info.index = 0) :
    Tracks ⟨.body,0,[]⟩ ((firstToolCall delta info).1 ++ (firstContent delta (firstToolCall delta info).2).1,
      (firstContent delta (firstToolCall delta info).2).2) (some (scanFirst delta)) := by
  have tools : ∃ s, run accept ⟨.body,0,[]⟩ ((firstToolCall delta info).1.map event) = some s ∧
      Follows (firstToolCall delta info).2 s (if delta.toolCalls ≠ [] then .tools 1 0 else .idle) := by
    unfold firstToolCall
    cases delta.toolCalls with
    | nil => exact ⟨_,rfl,fresh,by rw [zero]⟩
    | cons call =>
      refine ⟨rowState 0 1,?_,rfl,rfl,le_rfl,by decide,rfl⟩
      by_cases silent : call.arguments = ""
      · simp [argumentsDelta,silent,run,event,accept,rowState,ContentBlock.kind,blocksFrom]
      · simp [argumentsDelta,silent,run,event,accept,rowState,ContentBlock.kind,BlockDelta.kind,blocksFrom]
  obtain ⟨s,runs,follows⟩ := tools
  refine tracksAfter runs ?_
  generalize (firstToolCall delta info).2 = begun at follows
  have isClosed : (if delta.toolCalls ≠ [] then Scan.tools 1 0 else .idle).closed := by
    split <;> rfl
  have noBlock : begun.lastMessagesType ≠ .thinking ∧ begun.lastMessagesType ≠ .text := by
    split at follows <;> rw [follows.1] <;> decide
  have opens : ∀ kind : Kind, ∀ block delta', kind ≠ .tool → ContentBlock.kind block = kind → BlockDelta.kind delta' = kind →
      Tracks s ((stopOpenBlocksAndAdvance begun).1 ++
        [.contentBlockStart (stopOpenBlocksAndAdvance begun).2.index block,
          .contentBlockDelta (stopOpenBlocksAndAdvance begun).2.index delta'],
      {(stopOpenBlocksAndAdvance begun).2 with lastMessagesType := kind.lastMessageType}) (some (.content kind)) := by
    intro kind block delta' notTool isBlock isDelta
    have tracked := openAccepted follows notTool isBlock isDelta
    rw [scanContent,if_pos isClosed] at tracked
    exact tracked
  unfold firstContent scanFirst
  split
  · simp only [openBlock,if_pos noBlock.1]
    exact opens .thinking _ _ (by decide) rfl rfl
  split
  · simp only [openBlock,if_pos noBlock.2]
    exact opens .text _ _ (by decide) rfl rfl
  · exact ⟨s,rfl,follows⟩

theorem finishAccepted {info scan s oaiUsage stopReason} (h : Follows info s scan) :
    run accept s ((finish oaiUsage stopReason info).1.map event) =
      if scan.closed ∧ oaiUsage.isSome then some ⟨.ended,s.count,[]⟩ else none := by
  have stops := stopsAccepted h
  unfold finish
  rw [append_assoc,map_append,runBind,stops]
  cases scan.closed with
  | false => simp
  | true => cases oaiUsage <;> simp [messageDelta,run,event,accept]

end Omnigate.ClaudeStream
