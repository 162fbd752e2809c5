import Omnigate.ClaudeStreamRun
import Omnigate.Fragments

/-! What the handler passes on of a stream: which texts are sent, and in which row of tool calls, at which offset, a
fragment of a call ends up. The events carry exactly that, with one block for every place of a row. -/
namespace Omnigate.ClaudeStream

open Fragments Machine UsageConvert List

def textOf (events : List ClaudeResponse) : String :=
  joined (events.filterMap (fun e => match e with
    | .contentBlockDelta _ (.text text) => some text
    | _ => none))

def thinkingOf (events : List ClaudeResponse) : String :=
  joined (events.filterMap (fun e => match e with
    | .contentBlockDelta _ (.thinking thinking) => some thinking
    | _ => none))

structure ToolStart where
  index : Int
  (id name : String)
  deriving DecidableEq, Repr

def toolStarts (events : List ClaudeResponse) : List ToolStart :=
  events.filterMap (fun e => match e with
    | .contentBlockStart index (.toolUse id name) => some ⟨index,id,name⟩
    | _ => none)

def inputDeltas (events : List ClaudeResponse) : List (Int × String) :=
  events.filterMap (fun e => match e with
    | .contentBlockDelta index (.inputJson partialJson) => some (index,partialJson)
    | _ => none)

def inputAt (events : List ClaudeResponse) (index : Int) : String :=
  joinedWhere (fun d => d.1 = index) Prod.snd (inputDeltas events)

def keyed : Nat → List ToolCall → List (Int × ToolCall)
  | _,[] => []
  | i,call::rest => (call.index.getD i,call)::keyed (i + 1) rest

def fragmentsOf (chunks : List Chunk) : List (Int × ToolCall) :=
  chunks.flatMap (fun chunk => keyed 0 chunk.delta.toolCalls)

def introduced (fragments : List (Int × ToolCall)) (key : Int) : Option ToolCall :=
  (fragments.find? (fun f => f.1 = key)).map Prod.snd

def idOf (fragments : List (Int × ToolCall)) (key : Int) : String := ((introduced fragments key).map ToolCall.id).getD ""

def nameOf (fragments : List (Int × ToolCall)) (key : Int) : String :=
  ((introduced fragments key).map ToolCall.name).getD ""

def argumentsOf (fragments : List (Int × ToolCall)) (key : Int) : String :=
  joinedWhere (fun f => f.1 = key) (fun f => f.2.arguments) fragments

def delivered (events : List ClaudeResponse) (id name arguments : String) : Bool :=
  match (toolStarts events).filter (fun start => start.id = id) with
  | [start] => start.name = name ∧ ((toolStarts events).filter (fun other => other.index = start.index)).length = 1 ∧
      inputAt events start.index = arguments
  | _ => false

def lossless (chunks : List Chunk) (events : List ClaudeResponse) : Bool :=
  textOf events = joined (chunks.map (fun chunk => chunk.delta.getContentString)) ∧
    thinkingOf events = joined (chunks.map (fun chunk => chunk.delta.getReasoningContent)) ∧
    ∀ f ∈ fragmentsOf chunks, delivered events (idOf (fragmentsOf chunks) f.1) (nameOf (fragmentsOf chunks) f.1)
      (argumentsOf (fragmentsOf chunks) f.1)

structure Mark where
  row : Nat
  current : Option Kind
  deriving DecidableEq, Repr

def Mark.close (m : Mark) : Mark := match m.current with
  | none => m
  | some _ => ⟨m.row + 1,none⟩

def Mark.turn (m : Mark) (kind : Kind) : Mark :=
  if m.current = some kind then m else ⟨m.close.row,some kind⟩

structure Fragment where
  key : Int
  call : ToolCall
  place : Option (Nat × Int)
  opens : Bool
  deriving DecidableEq, Repr

structure Passed where
  delta : Delta
  (reasoned spoken : Bool)
  fragments : List Fragment
  deriving DecidableEq, Repr

def unsent (fragments : List (Int × ToolCall)) : List Fragment := fragments.map (fun f => ⟨f.1,f.2,none,false⟩)

def sentFirst : List (Int × ToolCall) → List Fragment
  | [] => []
  | f::rest => ⟨f.1,f.2,some (0,0),true⟩::unsent rest

def sentLater (row : Nat) (fragments : List (Int × ToolCall)) : List Fragment :=
  fragments.map (fun f => ⟨f.1,f.2,some (row,f.1),f.2.name ≠ ""⟩)

structure Walk where
  position : Nat
  (known ended : Bool)
  mark : Mark
  deriving DecidableEq, Repr

def markFirst (m : Mark) (delta : Delta) : Mark :=
  let m := if delta.toolCalls = [] then m else ⟨0,some .tool⟩
  if delta.getReasoningContent ≠ "" then m.turn .thinking
  else if delta.getContentString ≠ "" then m.turn .text
  else m

def markLater (m : Mark) (delta : Delta) : Mark :=
  if delta.toolCalls ≠ [] then m.turn .tool
  else if delta.getReasoningContent ≠ "" then m.turn .thinking
  else if delta.getContentString ≠ "" then m.turn .text
  else m

def pass (w : Walk) (chunk : Chunk) : Passed × Walk :=
  let delta := chunk.delta
  let fragments := keyed 0 delta.toolCalls
  if w.ended then (⟨delta,false,false,unsent fragments⟩,w)
  else if w.position = 1 then
    (⟨delta,true,delta.getReasoningContent = "",sentFirst fragments⟩,
      {w with ended := chunk.finished, mark := markFirst w.mark delta})
  else if chunk.choices = [] then (⟨delta,false,false,[]⟩,{w with ended := w.known})
  else if chunk.finished ∧ chunk.usage = none then (⟨delta,false,false,unsent fragments⟩,w)
  else (⟨delta,delta.toolCalls = [],delta.toolCalls = [] ∧ delta.getReasoningContent = "",
      sentLater (w.mark.turn .tool).row fragments⟩,
    {w with ended := chunk.finished, mark := markLater w.mark delta})

def passages (w : Walk) : List Chunk → List Passed
  | [] => []
  | [last] => [(pass {w with known := true} last).1]
  | chunk::next::rest =>
    let (passed,w) := pass {w with position := w.position + 1, known := w.known || chunk.usage.isSome} chunk
    passed::passages w (next::rest)

def walked (chunks : List Chunk) : List Passed := passages ⟨0,false,false,⟨0,none⟩⟩ chunks

def sentFragments (passed : List Passed) : List Fragment := passed.flatMap Passed.fragments

def openings (fragments : List Fragment) : List Fragment := fragments.filter Fragment.opens

/- A call is carried when one fragment with its id opens a block, no other one does, and all of its arguments go
there. -/
def carries (fragments : List Fragment) (key : Int) (id : String) : Bool :=
  match (openings fragments).filter (fun o => o.call.id = id) with
  | [o] => ((openings fragments).filter (fun other => other.place = o.place)).length = 1 ∧
      ∀ f ∈ fragments, f.key = key → f.call.arguments = "" ∨ f.place = o.place
  | _ => false

def carried (chunks : List Chunk) : Bool :=
  (∀ p ∈ walked chunks, (p.spoken ∨ p.delta.getContentString = "") ∧ (p.reasoned ∨ p.delta.getReasoningContent = "")) ∧
    ∀ f ∈ fragmentsOf chunks, carries (sentFragments (walked chunks)) f.1 (idOf (fragmentsOf chunks) f.1)

structure Conforms (fragments : List (Int × ToolCall)) : Prop where
  natural : ∀ f ∈ fragments, 0 ≤ f.1
  named : ∀ f ∈ fragments, idOf fragments f.1 ≠ "" ∧ nameOf fragments f.1 ≠ ""
  repeated : ∀ f ∈ fragments, f.2.id = "" ∧ f.2.name = "" ∨ f.2.id = idOf fragments f.1 ∧ f.2.name = nameOf fragments f.1
  distinct : ∀ f ∈ fragments, ∀ g ∈ fragments, idOf fragments f.1 = idOf fragments g.1 → f.1 = g.1

structure Content where
  (text thinking : String)
  starts : List ToolStart
  inputs : List (Int × String)

def contentOf (events : List ClaudeResponse) : Content :=
  ⟨textOf events,thinkingOf events,toolStarts events,inputDeltas events⟩

def Content.append (a b : Content) : Content :=
  ⟨a.text ++ b.text,a.thinking ++ b.thinking,a.starts ++ b.starts,a.inputs ++ b.inputs⟩

def noContent : Content := ⟨"","",[],[]⟩

@[simp] theorem contentNil : contentOf [] = noContent := rfl

@[simp] theorem appendNone (c : Content) : c.append noContent = c := by
  simp [Content.append,noContent]

@[simp] theorem noneAppend (c) : noContent.append c = c := by
  simp [Content.append,noContent]

theorem contentAppend (xs ys) : contentOf (xs ++ ys) = (contentOf xs).append (contentOf ys) := by
  simp [contentOf,textOf,thinkingOf,toolStarts,inputDeltas,Content.append,joinedAppend]

def block (base : Nat → Int) (place : Nat × Int) : Int := base place.1 + place.2

def placedStart (base : Nat → Int) (f : Fragment) : Option ToolStart :=
  if f.opens then f.place.map (fun place => ⟨block base place,f.call.id,f.call.name⟩) else none

def placedInput (base : Nat → Int) (f : Fragment) : Option (Int × String) :=
  if f.call.arguments = "" then none else f.place.map (fun place => (block base place,f.call.arguments))

def placed (base : Nat → Int) (p : Passed) : Content :=
  ⟨if p.spoken then p.delta.getContentString else "",if p.reasoned then p.delta.getReasoningContent else "",
    p.fragments.filterMap (placedStart base),p.fragments.filterMap (placedInput base)⟩

theorem contentStops (info) : contentOf (stopOpenBlocks info) = noContent := by
  unfold stopOpenBlocks
  split
  · rfl
  · rfl
  · rfl
  induction List.range (info.toolCallMaxIndexOffset + 1).toNat with
  | nil => rfl
  | cons _ _ ih => exact ih

theorem contentAdvance (info) : contentOf (stopOpenBlocksAndAdvance info).1 = noContent := by
  unfold stopOpenBlocksAndAdvance
  split
  · rfl
  · exact contentStops info
  · exact contentStops info

theorem contentFinish (oaiUsage stopReason info) :
    contentOf (finish oaiUsage stopReason info).1 = noContent := by
  unfold finish
  rw [contentAppend,contentAppend,contentStops]
  cases oaiUsage <;> rfl

theorem unsentContent (base : Nat → Int) (fragments : List (Int × ToolCall)) :
    (unsent fragments).filterMap (placedStart base) = [] ∧ (unsent fragments).filterMap (placedInput base) = [] := by
  unfold unsent
  constructor
  · induction fragments with
    | nil => rfl
    | cons f rest ih => exact ih
  induction fragments with
  | nil => rfl
  | cons f rest ih =>
    rw [map_cons,filterMap_cons]
    have nothing : placedInput base ⟨f.1,f.2,none,false⟩ = none := by
      unfold placedInput
      split <;> rfl
    rw [nothing]
    exact ih

theorem contentArguments (index call) : contentOf (argumentsDelta index call) =
    ⟨"","",[],if call.arguments = "" then [] else [(index,call.arguments)]⟩ := by
  unfold argumentsDelta
  split <;> rfl

theorem contentCall (index call) : contentOf (toolCallEvents index call) =
    ⟨"","",if call.name = "" then [] else [⟨index,call.id,call.name⟩],
      if call.arguments = "" then [] else [(index,call.arguments)]⟩ := by
  unfold toolCallEvents
  rw [contentAppend,contentArguments]
  split <;> rfl

theorem contentLoop (base : Nat → Int) (row i : Nat) (highest calls) :
    contentOf (toolLoop (base row) i highest calls).1 = ⟨"","",(sentLater row (keyed i calls)).filterMap (placedStart base),
      (sentLater row (keyed i calls)).filterMap (placedInput base)⟩ := by
  induction calls generalizing i highest with
  | nil => rfl
  | cons call _ ih =>
    simp only [toolLoop,keyed,sentLater,map_cons,filterMap_cons]
    rw [contentAppend,contentCall,ih]
    simp only [Content.append,placedStart,placedInput,block,sentLater,String.append_empty]
    by_cases name : call.name = "" <;> by_cases arguments : call.arguments = "" <;> simp [name,arguments]

def typeOf (current : Option Kind) : LastMessageType := (current.map Kind.lastMessageType).getD .none

theorem typeOfInj (h : typeOf a = typeOf b) : a = b := by
  rcases a with _ | (_ | _ | _) <;> rcases b with _ | (_ | _ | _) <;> first | rfl | cases h

structure Link (base : Nat → Int) (used : List (Nat × Int)) (info : Info) (mark : Mark) : Prop where
  type : info.lastMessagesType = typeOf mark.current
  origin : base 0 = 0
  here : base mark.row = if mark.current = some .tool then info.toolCallBaseIndex else info.index
  reach : mark.current = some .tool → 0 ≤ info.toolCallMaxIndexOffset
  grows : ∀ r, r < mark.row → base r < base (r + 1)
  nonneg : ∀ place ∈ used, 0 ≤ place.2
  bounded : ∀ place ∈ used, place.1 ≤ mark.row
  closed : ∀ place ∈ used, place.1 < mark.row → block base place < base (place.1 + 1)
  live : ∀ place ∈ used, place.1 = mark.row → mark.current = some .tool ∧ place.2 ≤ info.toolCallMaxIndexOffset

theorem baseMono {base : Nat → Int} (grows : ∀ r, r < row → base r < base (r + 1)) (le : r ≤ r')
    (bound : r' ≤ row) : base r ≤ base r' := by
  induction r' with
  | zero =>
    cases Nat.le_zero.mp le
    exact le_rfl
  | succ n =>
    rcases Nat.lt_or_ge n r with _ | _
    · rw [show r = n + 1 by omega]
    have step := grows n (by omega)
    omega

theorem linkSeparates (h : Link base used info mark) {s t : Nat × Int}
    (ins : s ∈ (0,0)::used) (int : t ∈ (0,0)::used) (same : block base s = block base t) : s = t := by
  have nonneg : ∀ place ∈ (0,0)::used, 0 ≤ place.2 := by
    intro place member
    rcases mem_cons.mp member with rfl | old
    · exact le_rfl
    · exact h.nonneg place old
  have bounded : ∀ place ∈ (0,0)::used, place.1 ≤ mark.row := by
    intro place member
    rcases mem_cons.mp member with rfl | old
    · exact Nat.zero_le _
    · exact h.bounded place old
  have closed : ∀ place ∈ (0,0)::used, place.1 < mark.row → block base place < base (place.1 + 1) := by
    intro place member below
    rcases mem_cons.mp member with rfl | old
    · have := h.grows 0 below
      simpa [block] using this
    · exact h.closed place old below
  have apart : ∀ a ∈ (0,0)::used, ∀ b ∈ (0,0)::used, a.1 < b.1 → block base a < block base b := by
    intro a ina b inb less
    have first := closed a ina (by have := bounded b inb; omega)
    have mono := baseMono h.grows (show a.1 + 1 ≤ b.1 by omega) (bounded b inb)
    have := nonneg b inb
    unfold block at first ⊢
    omega
  rcases Nat.lt_trichotomy s.1 t.1 with less | rows | more
  · have := apart s ins t int less
    omega
  · unfold block at same
    rw [rows] at same
    exact Prod.ext rows (by omega)
  · have := apart t int s ins more
    omega

def agree (row : Nat) (base base' : Nat → Int) : Prop := ∀ r, r ≤ row → base' r = base r

theorem closeRow (m : Mark) : m.row ≤ m.close.row := by
  unfold Mark.close
  split
  · exact Nat.le_refl _
  · exact Nat.le_succ _

theorem closeCurrent (m : Mark) : m.close.current = none := by
  unfold Mark.close
  split
  · assumption
  · rfl

theorem linkAdvance (h : Link base used info mark) :
    ∃ base', agree mark.row base base' ∧ Link base' used (stopOpenBlocksAndAdvance info).2 mark.close ∧
      (∀ place ∈ used, place.1 = mark.close.row → False) := by
  cases current : mark.current with
  | none =>
    have type : info.lastMessagesType = .none := by rw [h.type,current]; rfl
    have closed : mark.close = mark := by simp [Mark.close,current]
    have kept : (stopOpenBlocksAndAdvance info).2 = info := by simp [stopOpenBlocksAndAdvance,type]
    rw [closed,kept]
    refine ⟨base,fun _ _ => rfl,h,fun place member same => ?_⟩
    have := (h.live place member same).1
    rw [current] at this
    cases this
  | some kind =>
    have closed : mark.close = ⟨mark.row + 1,none⟩ := by simp [Mark.close,current]
    rw [closed]
    refine ⟨Function.update base (mark.row + 1) (stopOpenBlocksAndAdvance info).2.index,?_,?_,?_⟩
    · intro r bound
      exact Function.update_of_ne (by omega) _ _
    · have below : ∀ r, r ≤ mark.row →
          Function.update base (mark.row + 1) (stopOpenBlocksAndAdvance info).2.index r = base r :=
        fun r bound => Function.update_of_ne (by omega) _ _
      have next : base mark.row < (stopOpenBlocksAndAdvance info).2.index ∧
          ∀ place ∈ used, place.1 = mark.row → block base place < (stopOpenBlocksAndAdvance info).2.index := by
        have here := h.here
        rw [current] at here
        cases kind with
        | tool =>
          have type : info.lastMessagesType = .tools := by rw [h.type,current]; rfl
          have index : (stopOpenBlocksAndAdvance info).2.index =
              info.toolCallBaseIndex + info.toolCallMaxIndexOffset + 1 := by simp [stopOpenBlocksAndAdvance,type]
          rw [if_pos rfl] at here
          have reach := h.reach current
          refine ⟨by omega,fun place member same => ?_⟩
          have := (h.live place member same).2
          unfold block
          rw [same]
          omega
        | text | thinking =>
          have index : (stopOpenBlocksAndAdvance info).2.index = info.index + 1 := by
            simp [stopOpenBlocksAndAdvance,show info.lastMessagesType = _ from h.type,current,typeOf,Kind.lastMessageType]
          rw [if_neg (by simp)] at here
          refine ⟨by omega,fun place member same => ?_⟩
          have := (h.live place member same).1
          rw [current] at this
          cases this
      refine ⟨?_,?_,?_,?_,?_,h.nonneg,?_,?_,?_⟩
      · unfold stopOpenBlocksAndAdvance
        split <;> first | rfl | assumption
      · exact h.origin
      · simp
      · intro wrong
        cases wrong
      · intro r bound
        rcases Nat.lt_or_ge r mark.row with old | new
        · rw [below r (by omega),below (r + 1) (by omega)]
          exact h.grows r old
        · rw [show r = mark.row from by dsimp only at bound; omega,below _ (Nat.le_refl _),Function.update_self]
          exact next.1
      · intro place member
        have := h.bounded place member
        dsimp only
        omega
      · intro place member _
        have bound := h.bounded place member
        unfold block
        rw [below place.1 bound]
        rcases Nat.lt_or_ge place.1 mark.row with old | new
        · rw [below (place.1 + 1) (by omega)]
          exact h.closed place member old
        have same : place.1 = mark.row := by omega
        rw [same,Function.update_self]
        have := next.2 place member same
        unfold block at this
        rwa [same] at this
      intro place member same
      have := h.bounded place member
      dsimp only at same
      omega
    · intro place member same
      have := h.bounded place member
      dsimp only at same
      omega

theorem linkContent {base used info mark kind} (contentBlock : ContentBlock) (delta : BlockDelta)
    (h : Link base used info mark) (notTool : kind ≠ .tool) : ∃ base', agree mark.row base base' ∧
      Link base' used (laterBlock kind.lastMessageType contentBlock delta info).2 (mark.turn kind) := by
  have types : info.lastMessagesType = kind.lastMessageType ↔ mark.current = some kind := by
    rw [h.type]
    exact ⟨fun same => typeOfInj (b := some kind) same,fun same => by rw [same]; rfl⟩
  unfold laterBlock Mark.turn
  by_cases stays : mark.current = some kind
  · rw [if_neg (not_not.mpr (types.mpr stays)),if_pos stays]
    exact ⟨base,fun _ _ => rfl,h⟩
  rw [if_pos (fun same => stays (types.mp same)),if_neg stays]
  obtain ⟨base',same,link,fresh⟩ := linkAdvance h
  refine ⟨base',same,rfl,link.origin,?_,?_,link.grows,link.nonneg,link.bounded,link.closed,?_⟩
  · have here := link.here
    rw [closeCurrent,if_neg (by simp)] at here
    rw [if_neg (by simpa using notTool)]
    exact here
  · intro tool
    exact absurd (Option.some.inj tool) notTool
  · intro place member there
    exact (fresh place member there).elim

theorem loopHighest (base) (i : Nat) (highest calls) :
    highest ≤ (toolLoop base i highest calls).2 ∧ ∀ f ∈ keyed i calls, f.1 ≤ (toolLoop base i highest calls).2 := by
  induction calls generalizing i highest with
  | nil => exact ⟨le_rfl,fun f member => by cases member⟩
  | cons call _ ih =>
    obtain ⟨above,others⟩ := ih (i + 1) (if highest < call.index.getD i then call.index.getD i else highest)
    have step : highest ≤ (if highest < call.index.getD i then call.index.getD i else highest) ∧
        call.index.getD i ≤ (if highest < call.index.getD i then call.index.getD i else highest) := by
      split <;> omega
    refine ⟨step.1.trans above,fun f member => ?_⟩
    rcases mem_cons.mp member with rfl | inside
    · exact step.2.trans above
    · exact others f inside

def placesOf (fragments : List Fragment) : List (Nat × Int) := fragments.filterMap Fragment.place

theorem placesLater (row : Nat) (fragments : List (Int × ToolCall)) :
    placesOf (sentLater row fragments) = fragments.map (fun f => (row,f.1)) := by
  induction fragments with
  | nil => rfl
  | cons f rest ih =>
    have tail : placesOf (sentLater row (f::rest)) = (row,f.1)::placesOf (sentLater row rest) := rfl
    rw [tail,ih,map_cons]

theorem linkRow (h : Link base used info mark) (isTool : mark.current = some .tool)
    (calls : List ToolCall) (natural : ∀ f ∈ keyed 0 calls, 0 ≤ f.1) :
    Link base (used ++ placesOf (sentLater mark.row (keyed 0 calls))) {info with
      lastMessagesType := .tools
      toolCallMaxIndexOffset := (toolLoop info.toolCallBaseIndex 0 info.toolCallMaxIndexOffset calls).2
      index := info.toolCallBaseIndex + (toolLoop info.toolCallBaseIndex 0 info.toolCallMaxIndexOffset calls).2 } mark := by
  obtain ⟨above,others⟩ := loopHighest info.toolCallBaseIndex 0 info.toolCallMaxIndexOffset calls
  rw [placesLater]
  have new : ∀ place ∈ (keyed 0 calls).map (fun f => (mark.row,f.1)), place.1 = mark.row ∧ 0 ≤ place.2 ∧
      place.2 ≤ (toolLoop info.toolCallBaseIndex 0 info.toolCallMaxIndexOffset calls).2 := by
    exact forall_mem_map.mpr (fun f inside => ⟨rfl,natural f inside,others f inside⟩)
  refine ⟨?_,h.origin,?_,?_,h.grows,?_,?_,?_,?_⟩
  · rw [isTool]
    rfl
  · have here := h.here
    rw [if_pos isTool] at here ⊢
    exact here
  · exact fun _ => (h.reach isTool).trans above
  · exact forall_mem_append.mpr ⟨h.nonneg,fun place added => (new place added).2.1⟩
  · exact forall_mem_append.mpr ⟨h.bounded,fun place added => (new place added).1.le⟩
  · refine forall_mem_append.mpr ⟨h.closed,fun place added below => ?_⟩
    have := (new place added).1
    omega
  · exact forall_mem_append.mpr ⟨fun place old there => ⟨isTool,(h.live place old there).2.trans above⟩,
      fun place added _ => ⟨isTool,(new place added).2.2⟩⟩

theorem linkTools (h : Link base used info mark) (calls : List ToolCall)
    (natural : ∀ f ∈ keyed 0 calls, 0 ≤ f.1) : ∃ base', agree mark.row base base' ∧
      contentOf (laterTools calls info).1 =
        ⟨"","",(sentLater (mark.turn .tool).row (keyed 0 calls)).filterMap (placedStart base'),
          (sentLater (mark.turn .tool).row (keyed 0 calls)).filterMap (placedInput base')⟩ ∧
      Link base' (used ++ placesOf (sentLater (mark.turn .tool).row (keyed 0 calls))) (laterTools calls info).2
        (mark.turn .tool) := by
  have types : info.lastMessagesType = .tools ↔ mark.current = some .tool := by
    rw [h.type]
    exact ⟨fun same => typeOfInj (b := some .tool) same,fun same => by rw [same]; rfl⟩
  unfold laterTools Mark.turn
  by_cases stays : mark.current = some .tool
  · rw [if_neg (not_not.mpr (types.mpr stays)),if_pos stays]
    have here := h.here
    rw [if_pos stays] at here
    have row := linkRow h stays calls natural
    dsimp only
    refine ⟨base,fun _ _ => rfl,?_,row⟩
    rw [nil_append,← here]
    exact contentLoop base mark.row 0 _ calls
  rw [if_pos (fun same => stays (types.mp same)),if_neg stays]
  obtain ⟨base',same,link,fresh⟩ := linkAdvance h
  have here := link.here
  rw [closeCurrent,if_neg (by simp)] at here
  have opened : Link base' used { (stopOpenBlocksAndAdvance info).2 with
      toolCallBaseIndex := (stopOpenBlocksAndAdvance info).2.index, toolCallMaxIndexOffset := 0,
      lastMessagesType := .tools } ⟨mark.close.row,some .tool⟩ :=
    ⟨rfl,link.origin,by rw [if_pos rfl]; exact here,fun _ => le_rfl,link.grows,link.nonneg,link.bounded,link.closed,
      fun place member there => (fresh place member there).elim⟩
  have row := linkRow opened rfl calls natural
  refine ⟨base',same,?_,row⟩
  rw [contentAppend,contentAdvance,noneAppend,← here]
  exact contentLoop base' mark.close.row 0 0 calls

theorem contentThinking (type thinking info) :
    contentOf (laterBlock type .thinking (.thinking thinking) info).1 = ⟨"",thinking,[],[]⟩ := by
  unfold laterBlock
  split
  · rw [contentAppend,contentAdvance,noneAppend]
    simp [contentOf,textOf,thinkingOf,toolStarts,inputDeltas]
  · simp [contentOf,textOf,thinkingOf,toolStarts,inputDeltas]

theorem contentText (type text info) :
    contentOf (laterBlock type .text (.text text) info).1 = ⟨text,"",[],[]⟩ := by
  unfold laterBlock
  split
  · rw [contentAppend,contentAdvance,noneAppend]
    simp [contentOf,textOf,thinkingOf,toolStarts,inputDeltas]
  · simp [contentOf,textOf,thinkingOf,toolStarts,inputDeltas]

def passedLater (mark : Mark) (delta : Delta) : Passed :=
  ⟨delta,delta.toolCalls = [],delta.toolCalls = [] ∧ delta.getReasoningContent = "",
    sentLater (mark.turn .tool).row (keyed 0 delta.toolCalls)⟩

theorem linkDelta (h : Link base used info mark) (delta : Delta)
    (natural : ∀ f ∈ keyed 0 delta.toolCalls, 0 ≤ f.1) : ∃ base', agree mark.row base base' ∧
      contentOf (laterDelta delta info).1 = placed base' (passedLater mark delta) ∧
      Link base' (used ++ placesOf (passedLater mark delta).fragments) (laterDelta delta info).2 (markLater mark delta) := by
  unfold laterDelta markLater
  by_cases tools : delta.toolCalls = []
  · rw [if_neg (not_not.mpr tools),if_neg (not_not.mpr tools)]
    have none : (passedLater mark delta).fragments = [] := by simp [passedLater,tools,keyed,sentLater]
    rw [none,show placesOf [] = [] from rfl,append_nil]
    by_cases reasons : delta.getReasoningContent = ""
    · rw [if_neg (not_not.mpr reasons),if_neg (not_not.mpr reasons)]
      by_cases speaks : delta.getContentString = ""
      · rw [if_neg (not_not.mpr speaks),if_neg (not_not.mpr speaks)]
        refine ⟨base,fun _ _ => rfl,?_,h⟩
        simp [placed,passedLater,tools,reasons,speaks,noContent,keyed,sentLater]
      rw [if_pos speaks,if_pos speaks]
      obtain ⟨base',same,link⟩ := @linkContent _ _ _ _ .text .text (.text delta.getContentString) h (by simp)
      refine ⟨base',same,?_,link⟩
      rw [contentText]
      simp [placed,passedLater,tools,reasons,keyed,sentLater]
    rw [if_pos reasons,if_pos reasons]
    obtain ⟨base',same,link⟩ := @linkContent _ _ _ _ .thinking .thinking (.thinking delta.getReasoningContent) h (by simp)
    refine ⟨base',same,?_,link⟩
    rw [contentThinking]
    simp [placed,passedLater,tools,reasons,keyed,sentLater]
  · rw [if_pos tools,if_pos tools]
    obtain ⟨base',same,content,link⟩ := linkTools h delta.toolCalls natural
    refine ⟨base',same,?_,link⟩
    rw [content]
    simp [placed,passedLater,tools]

def passedFirst (delta : Delta) : Passed :=
  ⟨delta,true,delta.getReasoningContent = "",sentFirst (keyed 0 delta.toolCalls)⟩

theorem contentFirstTools (origin : base 0 = 0) (delta info) :
    contentOf (firstToolCall delta info).1 = ⟨"","",(sentFirst (keyed 0 delta.toolCalls)).filterMap (placedStart base),
      (sentFirst (keyed 0 delta.toolCalls)).filterMap (placedInput base)⟩ := by
  unfold firstToolCall
  cases delta.toolCalls with
  | nil => rfl
  | cons call rest =>
    have unsentRest := unsentContent base (keyed 1 rest)
    simp only [keyed,sentFirst,filterMap_cons,unsentRest.1,unsentRest.2]
    have started : placedStart base ⟨call.index.getD (0 : Nat),call,some (0,0),true⟩ = some ⟨0,call.id,call.name⟩ := by
      simp [placedStart,block,origin]
    have split : contentOf (.contentBlockStart 0 (.toolUse call.id call.name)::argumentsDelta 0 call) =
        (Content.mk "" "" [⟨0,call.id,call.name⟩] []).append (contentOf (argumentsDelta 0 call)) :=
      contentAppend [_] _
    rw [started,split,contentArguments]
    by_cases arguments : call.arguments = ""
    · simp [Content.append,placedInput,arguments]
    · simp [Content.append,placedInput,arguments,block,origin]

theorem contentFirstContent (delta info) : contentOf (firstContent delta info).1 =
    ⟨if delta.getReasoningContent = "" then delta.getContentString else "",delta.getReasoningContent,[],[]⟩ := by
  have stops : ∀ type, contentOf (openBlock type info).1 = noContent := by
    intro type
    unfold openBlock
    split
    · exact contentAdvance info
    · rfl
  unfold firstContent
  by_cases reasons : delta.getReasoningContent = ""
  · rw [if_neg (not_not.mpr reasons)]
    by_cases speaks : delta.getContentString = ""
    · simp [reasons,speaks,noContent]
    rw [if_pos speaks]
    rw [contentAppend,stops,noneAppend]
    simp [contentOf,textOf,thinkingOf,toolStarts,inputDeltas,reasons]
  · rw [if_pos reasons]
    rw [contentAppend,stops,noneAppend]
    simp [contentOf,textOf,thinkingOf,toolStarts,inputDeltas,reasons]

theorem contentFirst (origin : base 0 = 0) (chunk : Chunk) (info) :
    contentOf (firstResponse chunk info).1 = placed base (passedFirst chunk.delta) := by
  unfold firstResponse
  cases choices : chunk.choices with
  | nil =>
    simp only [Chunk.delta,choices,List.head?_nil,Option.map_none,Option.getD_none]
    rfl
  | cons choice =>
    have isDelta : chunk.delta = choice.delta := by simp [Chunk.delta,choices]
    have finishes : ∀ info, contentOf (firstFinish chunk choice info).1 = noContent := by
      intro info
      unfold firstFinish
      split
      · exact contentFinish _ _ _
      · rfl
    rw [isDelta,contentAppend,finishes,appendNone,contentAppend,contentFirstContent]
    have start : ∀ events, contentOf
        (.messageStart chunk.id chunk.model info.estimatePromptTokens::events) = contentOf events := fun _ => rfl
    rw [start,contentFirstTools origin]
    simp [Content.append,placed,passedFirst]

end Omnigate.ClaudeStream
