import Omnigate.ClaudeStreamOrder

/-! The whole stream of the handler, with its last chunk held back: from the chunks followed one by one to the
streams whose events are well formed. -/
namespace Omnigate.ClaudeStream

open BlockStream Machine UsageConvert List Option

def emit : Info → List Chunk → List ClaudeResponse × Info
  | info,[] => ([],info)
  | info,chunk::rest =>
    let (events,info) := handleStreamFormat chunk info
    let (later,info) := emit info rest
    (events ++ later,info)

theorem emitAppend (info xs ys) :
    emit info (xs ++ ys) = ((emit info xs).1 ++ (emit (emit info xs).2 ys).1,(emit (emit info xs).2 ys).2) := by
  induction xs generalizing info with
  | nil => simp [emit]
  | cons x xs ih => simp [emit,ih]

theorem emitOne (info chunk) : emit info [chunk] = handleStreamFormat chunk info := by
  simp [emit]

theorem heldBack (chunk last info sent rest) :
    (rest ++ [last]).foldl onData ⟨some chunk,info,sent⟩ =
      ⟨some last,(emit info (chunk::rest)).2,sent ++ (emit info (chunk::rest)).1⟩ := by
  induction rest generalizing chunk info sent with
  | nil => simp [onData,emit]
  | cons _ rest ih =>
    simp only [cons_append,foldl_cons]
    rw [onData]
    rw [ih]
    simp [emit]

theorem handlerEmits (usage tokens chunks last) :
    oaiStreamHandler usage tokens (chunks ++ [last]) = (emit (newInfo tokens) chunks).1 ++
      (handleFinalResponse usage last (emit (newInfo tokens) chunks).2).1 := by
  unfold oaiStreamHandler
  cases chunks with
  | nil => simp [onData,emit]
  | cons first rest =>
    have held := heldBack first last (newInfo tokens) [] rest
    simp only [nil_append] at held
    simp only [cons_append,foldl_cons]
    have start : onData ⟨none,newInfo tokens,[]⟩ first = ⟨some first,newInfo tokens,[]⟩ := rfl
    rw [start,held]

structure Running (info : Info) : Prop where
  notDone : info.done = false
  sent : 1 ≤ info.sendResponseCount

theorem advanceFrame (info) : (stopOpenBlocksAndAdvance info).2.done = info.done ∧
    (stopOpenBlocksAndAdvance info).2.sendResponseCount = info.sendResponseCount ∧
    (stopOpenBlocksAndAdvance info).2.usage = info.usage := by
  unfold stopOpenBlocksAndAdvance
  split <;> exact ⟨rfl,rfl,rfl⟩

theorem laterBlockFrame (type block delta info) :
    (laterBlock type block delta info).2.done = info.done ∧
      (laterBlock type block delta info).2.sendResponseCount = info.sendResponseCount := by
  unfold laterBlock
  split
  · exact ⟨(advanceFrame info).1,(advanceFrame info).2.1⟩
  · exact ⟨rfl,rfl⟩

theorem laterDeltaFrame (delta info) : (laterDelta delta info).2.done = info.done ∧
    (laterDelta delta info).2.sendResponseCount = info.sendResponseCount := by
  unfold laterDelta
  split
  · unfold laterTools
    dsimp only
    split
    · exact ⟨(advanceFrame info).1,(advanceFrame info).2.1⟩
    · exact ⟨rfl,rfl⟩
  · split
    · exact laterBlockFrame _ _ _ _
    split
    · exact laterBlockFrame _ _ _ _
    · exact ⟨rfl,rfl⟩

theorem followsRelay (h : Follows info s scan) (count : Int) (usage : Option Usage) (finishReason : String) :
    Follows {info with sendResponseCount := count, usage := usage, finishReason := finishReason} s scan := by
  cases scan <;> exact h

theorem convertedLater (chunk) (notDone : info.done = false) (later : info.sendResponseCount ≠ 1) :
    streamResponseOpenAI2Claude chunk info = laterResponse chunk info := by
  unfold streamResponseOpenAI2Claude
  rw [if_neg (by simp [notDone]),if_neg later]

theorem laterChunk (content : chunk.choices ≠ []) (notDone : info.done = false)
    (later : info.sendResponseCount ≠ 1) (goesOn : chunk.finished = false) :
    streamResponseOpenAI2Claude chunk info = laterDelta chunk.delta info := by
  rw [convertedLater chunk notDone later]
  unfold laterResponse
  cases isChoice : chunk.choices with
  | nil => exact absurd isChoice content
  | cons choice =>
    have unfinished : choice.finished = false := by simpa [Chunk.finished,isChoice] using goesOn
    simp [unfinished,Chunk.delta,isChoice]

abbrev received (chunk : Chunk) (info : Info) : Info :=
  {info with sendResponseCount := info.sendResponseCount + 1, usage := chunk.usage.or info.usage}

theorem handledLater (running : Running info) (content : chunk.choices ≠ [])
    (goesOn : chunk.finished = false) : handleStreamFormat chunk info = laterDelta chunk.delta (received chunk info) := by
  refine laterChunk content running.notDone ?_ goesOn
  have := running.sent
  dsimp only
  omega

theorem bodyRunning {info chunks} (running : Running info)
    (content : ∀ chunk ∈ chunks, chunk.choices ≠ []) (goesOn : ∀ chunk ∈ chunks, chunk.finished = false) :
    Running (emit info chunks).2 ∧ (emit info chunks).2.sendResponseCount = info.sendResponseCount + chunks.length := by
  induction chunks generalizing info with
  | nil => exact ⟨running,by simp [emit]⟩
  | cons chunk _ ih =>
    have handled := handledLater running (content chunk (by simp)) (goesOn chunk (by simp))
    have frame := laterDeltaFrame chunk.delta (received chunk info)
    rw [← handled] at frame
    have next : Running (handleStreamFormat chunk info).2 := by
      refine ⟨frame.1.trans running.notDone,?_⟩
      have := running.sent
      have := frame.2
      dsimp only at this
      omega
    obtain ⟨last,count⟩ := ih next (fun c member => content c (mem_cons_of_mem _ member))
      (fun c member => goesOn c (mem_cons_of_mem _ member))
    refine ⟨last,count.trans ?_⟩
    rw [frame.2]
    push_cast [length_cons]
    omega

theorem bodyTracks (h : Follows info s scan) (running : Running info)
    (content : ∀ chunk ∈ chunks, chunk.choices ≠ []) (goesOn : ∀ chunk ∈ chunks, chunk.finished = false) :
    Tracks s (emit info chunks) (scanChunks scan chunks) := by
  induction chunks generalizing info scan s with
  | nil => exact ⟨s,rfl,h⟩
  | cons chunk _ ih =>
    have handled := handledLater running (content chunk (by simp)) (goesOn chunk (by simp))
    have tracks : Tracks s (handleStreamFormat chunk info) (scanDelta scan chunk.delta) := by
      rw [handled]
      exact laterDeltaTracks (followsRelay h _ _ info.finishReason) chunk.delta
    have next := (@bodyRunning info [chunk] running (by simpa using content chunk (by simp))
      (by simpa using goesOn chunk (by simp))).1
    simp only [scanChunks,run,emit] at ih ⊢
    cases scanned : scanDelta scan chunk.delta with
    | none =>
      rw [scanned] at tracks
      simp only [Tracks,bind_none,map_append,runBind] at tracks ⊢
      rw [tracks]
      rfl
    | some =>
      rw [scanned] at tracks
      obtain ⟨_,runs,follows⟩ := tracks
      refine tracksAfter runs ?_
      exact ih follows next (fun c member => content c (mem_cons_of_mem _ member))
        (fun c member => goesOn c (mem_cons_of_mem _ member))

def firstInfo (tokens : Int) (first : Chunk) : Info :=
  {newInfo tokens with sendResponseCount := 1, usage := first.usage.or none}

def begunInfo (tokens : Int) (first : Chunk) : Info :=
  (firstContent first.delta (firstToolCall first.delta (firstInfo tokens first)).2).2

def firstEvents (tokens : Int) (first : Chunk) : List ClaudeResponse :=
  .messageStart first.id first.model tokens::(firstToolCall first.delta (firstInfo tokens first)).1 ++
    (firstContent first.delta (firstToolCall first.delta (firstInfo tokens first)).2).1

theorem firstBegins {first} (tokens) : ∃ s, run accept initial ((firstEvents tokens first).map event) = some s ∧
      Follows (begunInfo tokens first) s (scanFirst first.delta) := by
  obtain ⟨s,runs,follows⟩ := @firstTracks first.delta (firstInfo tokens first) rfl rfl
  refine ⟨s,?_,follows⟩
  exact runs

theorem firstHandled {choice} (isChoice : first.choices = choice::rest) (tokens) :
    handleStreamFormat first (newInfo tokens) = (firstEvents tokens first ++
      (firstFinish first choice (begunInfo tokens first)).1,(firstFinish first choice (begunInfo tokens first)).2) := by
  have isDelta : first.delta = choice.delta := by simp [Chunk.delta,isChoice]
  unfold firstEvents begunInfo
  rw [isDelta]
  unfold handleStreamFormat streamResponseOpenAI2Claude
  unfold firstResponse
  rw [isChoice]
  rfl

theorem begunFrame (tokens first) : (begunInfo tokens first).done = false ∧
    (begunInfo tokens first).sendResponseCount = 1 ∧ (begunInfo tokens first).usage = first.usage := by
  have tools : (firstToolCall first.delta (firstInfo tokens first)).2.done = false ∧
      (firstToolCall first.delta (firstInfo tokens first)).2.sendResponseCount = 1 ∧
      (firstToolCall first.delta (firstInfo tokens first)).2.usage = first.usage := by
    unfold firstToolCall
    split <;> exact ⟨rfl,rfl,or_none⟩
  unfold begunInfo
  generalize (firstToolCall first.delta (firstInfo tokens first)).2 = begun at tools
  have opened : ∀ type, (openBlock type begun).2.done = false ∧ (openBlock type begun).2.sendResponseCount = 1 ∧
      (openBlock type begun).2.usage = first.usage := by
    intro type
    unfold openBlock
    split
    · obtain ⟨done,count,usage⟩ := advanceFrame begun
      exact ⟨done.trans tools.1,count.trans tools.2.1,usage.trans tools.2.2⟩
    · exact tools
  unfold firstContent
  split
  · exact opened .thinking
  split
  · exact opened .text
  · exact tools

def quiet (events : List ClaudeResponse) : Prop := ∀ e ∈ events, event e ≠ .begins

theorem quietAppend (left : quiet xs) (right : quiet ys) : quiet (xs ++ ys) := forall_mem_append.mpr ⟨left,right⟩

theorem quietStops (info) : quiet (stopOpenBlocks info) := by
  intro e member
  unfold stopOpenBlocks at member
  split at member
  · cases member
  · rw [mem_singleton.mp member]
    exact fun bad => nomatch bad
  · rw [mem_singleton.mp member]
    exact fun bad => nomatch bad
  · obtain ⟨_,_,rfl⟩ := mem_map.mp member
    exact fun bad => nomatch bad

theorem quietAdvance (info) : quiet (stopOpenBlocksAndAdvance info).1 := by
  unfold stopOpenBlocksAndAdvance
  split
  · exact fun e member => nomatch member
  · exact quietStops info
  · exact quietStops info

theorem quietCall (index call) : quiet (toolCallEvents index call) := by
  unfold toolCallEvents argumentsDelta
  refine quietAppend ?_ ?_
  · split
    · exact fun e member => nomatch member
    intro e member
    rw [mem_singleton.mp member]
    exact fun bad => nomatch bad
  · split
    · exact fun e member => nomatch member
    intro e member
    rw [mem_singleton.mp member]
    exact fun bad => nomatch bad

theorem quietLoop (base) (i : Nat) (highest calls) :
    quiet (toolLoop base i highest calls).1 := by
  induction calls generalizing i highest with
  | nil => exact fun e member => nomatch member
  | cons _ _ ih => exact quietAppend (quietCall _ _) (ih _ _)

theorem quietBlock (type block delta info) :
    quiet (laterBlock type block delta info).1 := by
  unfold laterBlock
  split
  · refine quietAppend (quietAdvance info) ?_
    intro e member
    rcases mem_pair.mp member with rfl | rfl <;> exact fun bad => nomatch bad
  · intro e member
    rw [mem_singleton.mp member]
    exact fun bad => nomatch bad

theorem quietDelta (delta info) : quiet (laterDelta delta info).1 := by
  unfold laterDelta
  split
  · unfold laterTools
    dsimp only
    split
    · exact quietAppend (quietAdvance info) (quietLoop _ _ _ _)
    · exact quietAppend (fun e member => nomatch member) (quietLoop _ _ _ _)
  · split
    · exact quietBlock _ _ _ _
    split
    · exact quietBlock _ _ _ _
    · exact fun e member => nomatch member

theorem quietFinish (usage stopReason info) : quiet (finish (some usage) stopReason info).1 := by
  refine quietAppend (quietAppend (quietStops info) ?_) ?_
  · intro e member
    rw [mem_singleton.mp member]
    exact fun bad => nomatch bad
  · intro e member
    rw [mem_singleton.mp member]
    exact fun bad => nomatch bad

theorem followsBody (h : Follows info s scan) : s.phase = .body := by
  cases scan with
  | idle => rw [h.2]
  | content => rw [h.2.2]
  | tools => rw [h.2.2.2.2]

def endsIf (isClosed : Bool) : Option Phase := if isClosed then some .ended else none

theorem finishPhase {info scan s usage stopReason} (h : Follows info s scan) :
    (run accept s ((finish (some usage) stopReason info).1.map event)).map State.phase = endsIf scan.closed := by
  rw [finishAccepted h,endsIf]
  cases scan.closed <;> rfl

theorem doneSilent (isDone : info.done = true) : (handleFinalResponse usage chunk info).1 = [] := by
  simp [handleFinalResponse,streamResponseOpenAI2Claude,isDone]

theorem phaseAfter {s out result rest g} (h : Tracks s out result)
    (after : ∀ scan next, Follows out.2 next scan → (run accept next (rest.map event)).map State.phase = g scan) :
    (run accept s ((out.1 ++ rest).map event)).map State.phase = result.bind g := by
  rw [map_append,runBind]
  cases result with
  | none =>
    rw [h]
    rfl
  | some scan =>
    obtain ⟨next,runs,follows⟩ := h
    rw [runs,Option.bind_some,Option.bind_some]
    exact after scan next follows

theorem lastNoted {chunk info} (content : chunk.choices ≠ []) (notDone : info.done = false)
    (later : info.sendResponseCount ≠ 1) (ends : chunk.finished) (noUsage : chunk.usage = none) :
    ∃ finishReason, streamResponseOpenAI2Claude chunk info = ([],{info with finishReason := finishReason}) := by
  rw [convertedLater chunk notDone later]
  unfold laterResponse
  cases isChoice : chunk.choices with
  | nil => exact absurd isChoice content
  | cons choice =>
    have finished : choice.finished = true := by simpa [Chunk.finished,isChoice] using ends
    simp only [finished,↓reduceIte,noUsage]
    exact ⟨_,rfl⟩

theorem lastEnds {chunk info usage} (content : chunk.choices ≠ []) (notDone : info.done = false)
    (later : info.sendResponseCount ≠ 1) (ends : chunk.finished) (isUsage : chunk.usage = some usage) :
    ∃ finishReason, streamResponseOpenAI2Claude chunk info =
      ((laterDelta chunk.delta {info with finishReason := finishReason}).1 ++
        (finish (some usage) (openAIFinishReasonToClaudeStopReason
          (laterDelta chunk.delta {info with finishReason := finishReason}).2.finishReason)
          (laterDelta chunk.delta {info with finishReason := finishReason}).2).1,
        {(laterDelta chunk.delta {info with finishReason := finishReason}).2 with done := true}) := by
  rw [convertedLater chunk notDone later]
  unfold laterResponse
  cases isChoice : chunk.choices with
  | nil => exact absurd isChoice content
  | cons choice =>
    have finished : choice.finished = true := by simpa [Chunk.finished,isChoice] using ends
    have isDelta : chunk.delta = choice.delta := by simp [Chunk.delta,isChoice]
    simp only [finished,↓reduceIte,isUsage,isDelta]
    exact ⟨_,rfl⟩

theorem lastPhase (h : Follows info s scan) (content : chunk.choices ≠ []) (notDone : info.done = false)
    (later : info.sendResponseCount ≠ 1) (ends : chunk.finished) (isUsage : chunk.usage = some usage) :
    (run accept s ((streamResponseOpenAI2Claude chunk info).1.map event)).map State.phase =
      (scanDelta scan chunk.delta).bind (fun scan => endsIf scan.closed) := by
  obtain ⟨finishReason,converted⟩ := lastEnds content notDone later ends isUsage
  rw [converted]
  have tracks := laterDeltaTracks (followsRelay h info.sendResponseCount info.usage finishReason) chunk.delta
  exact phaseAfter tracks (fun scan _ follows => finishPhase follows)

theorem streamTracks {first body} (tokens : Int)
    (content : ∀ chunk ∈ first::body, chunk.choices ≠ []) (goesOn : ∀ chunk ∈ first::body, chunk.finished = false) :
    Tracks initial (emit (newInfo tokens) (first::body)) (scanChunks (scanFirst first.delta) body) ∧
      (emit (newInfo tokens) (first::body)).2.done = false ∧
      (emit (newInfo tokens) (first::body)).2.sendResponseCount = 1 + body.length := by
  cases isChoice : first.choices with
  | nil => exact absurd isChoice (content first (by simp))
  | cons choice =>
    have unfinished : choice.finished = false := by
      simpa [Chunk.finished,isChoice] using goesOn first (by simp)
    obtain ⟨s,runs,follows⟩ := @firstBegins first tokens
    have frame := begunFrame tokens first
    have handled : handleStreamFormat first (newInfo tokens) = (firstEvents tokens first,begunInfo tokens first) := by
      rw [firstHandled isChoice]
      simp [firstFinish,unfinished]
    have running : Running (begunInfo tokens first) := ⟨frame.1,by rw [frame.2.1]⟩
    have contentLater := fun c (member : c ∈ body) => content c (mem_cons_of_mem _ member)
    have goesOnLater := fun c (member : c ∈ body) => goesOn c (mem_cons_of_mem _ member)
    have tracks := bodyTracks follows running contentLater goesOnLater
    obtain ⟨after,count⟩ := bodyRunning running contentLater goesOnLater
    simp only [emit,handled]
    refine ⟨tracksAfter runs tracks,after.notDone,?_⟩
    rw [count,frame.2.1]

theorem closesAfterPhase (scan chunks) :
    decide ((scanChunks scan chunks).bind (fun scan => endsIf scan.closed) = some .ended) = closesAfter scan chunks := by
  unfold closesAfter
  cases scanChunks scan chunks with
  | none => rfl
  | some scan =>
    simp only [Option.bind_some,endsIf]
    by_cases isClosed : scan.closed = true <;> simp [isClosed]

theorem scanLast (scan body last) :
    scanChunks scan (body ++ [last]) = (scanChunks scan body).bind (fun scan => scanDelta scan last.delta) := by
  unfold scanChunks
  rw [runBind]
  refine congrArg _ (funext fun _ => ?_)
  simp [run]

theorem aloneRejected {usage tokens first} (content : first.choices ≠ []) (ends : first.finished) :
    wellFormed ((oaiStreamHandler usage tokens [first]).map event) = false := by
  have handled := handlerEmits usage tokens [] first
  rw [nil_append] at handled
  rw [handled]
  simp only [emit,nil_append,handleFinalResponse]
  have silent : quiet (streamResponseOpenAI2Claude first {newInfo tokens with usage := some usage}).1 := by
    cases isUsage : first.usage with
    | none =>
      obtain ⟨finishReason,converted⟩ := @lastNoted first {newInfo tokens with usage := some usage} content rfl
        (by simp [newInfo]) ends isUsage
      rw [converted]
      exact fun e member => nomatch member
    | some known =>
      obtain ⟨finishReason,converted⟩ := @lastEnds first {newInfo tokens with usage := some usage} known content rfl
        (by simp [newInfo]) ends isUsage
      rw [converted]
      exact quietAppend (quietDelta _ _) (quietFinish _ _ _)
  by_contra accepted
  obtain ⟨_,begins⟩ := wellFormedBegins (Bool.not_eq_false _ ▸ accepted)
  have inside : Event.begins ∈ (streamResponseOpenAI2Claude first {newInfo tokens with usage := some usage}).1.map event := by
    rw [begins]
    exact mem_cons_self
  obtain ⟨e,member,isBegins⟩ := mem_map.mp inside
  exact silent e member isBegins

theorem aloneWithUsage {usage tokens first usageChunk} (content : first.choices ≠ []) (ends : first.finished) :
    wellFormed ((oaiStreamHandler usage tokens [first,usageChunk]).map event) = first.usage.isSome := by
  have handled := handlerEmits usage tokens [first] usageChunk
  rw [singleton_append] at handled
  rw [handled]
  cases isChoice : first.choices with
  | nil => exact absurd isChoice content
  | cons choice =>
    have finished : choice.finished = true := by simpa [Chunk.finished,isChoice] using ends
    obtain ⟨s,runs,follows⟩ := @firstBegins first tokens
    have isUsage := (begunFrame tokens first).2.2
    have isClosed : (scanFirst first.delta).closed = true := by
      unfold scanFirst
      split_ifs <;> rfl
    simp only [emit,firstHandled isChoice,firstFinish,finished,↓reduceIte,isUsage,Option.or_self,append_nil]
    rw [doneSilent rfl,append_nil,wellFormedPhase,map_append,runBind,runs,Option.bind_some]
    have noted := followsRelay follows (begunInfo tokens first).sendResponseCount (begunInfo tokens first).usage
      (choice.finishReason.getD "")
    cases known : first.usage with
    | none =>
      rw [known] at isUsage
      have unsummed := @finishAccepted _ _ _ none
        (openAIFinishReasonToClaudeStopReason (choice.finishReason.getD "")) noted
      rw [isUsage] at unsummed
      rw [unsummed]
      simp
    | some value =>
      rw [known] at isUsage
      have ended := @finishPhase _ _ _ value (openAIFinishReasonToClaudeStopReason (choice.finishReason.getD "")) noted
      rw [isUsage] at ended
      rw [ended,isClosed]
      rfl

theorem pairRejected {usage tokens first last} (content : first.choices ≠ []) (goesOn : first.finished = false) :
    wellFormed ((oaiStreamHandler usage tokens [first,last]).map event) = false := by
  have handled := handlerEmits usage tokens [first] last
  rw [singleton_append] at handled
  obtain ⟨tracks,notDone,count⟩ := @streamTracks first [] tokens (by simpa using content) (by simpa using goesOn)
  have isFirst : (emit (newInfo tokens) [first]).2.sendResponseCount = 1 := count
  have again : ∃ rest, (handleFinalResponse usage last (emit (newInfo tokens) [first]).2).1 =
      .messageStart last.id last.model (emit (newInfo tokens) [first]).2.estimatePromptTokens::rest := by
    simp only [handleFinalResponse,streamResponseOpenAI2Claude]
    rw [if_neg (by simp [notDone]),if_pos isFirst]
    unfold firstResponse
    cases last.choices with
    | nil | cons => exact ⟨_,rfl⟩
  obtain ⟨rest,second⟩ := again
  rw [handled,wellFormedPhase]
  have phase := @phaseAfter _ _ _ (handleFinalResponse usage last (emit (newInfo tokens) [first]).2).1 (fun _ => none) tracks
    (fun _ _ follows => ?_)
  · rw [phase]
    cases scanChunks (scanFirst first.delta) [] <;> rfl
  · rw [second]
    simp [run,event,accept,followsBody follows]

theorem lastDecides {usage tokens first last body} (long : body ≠ [])
    (content : ∀ chunk ∈ first::body, chunk.choices ≠ []) (goesOn : ∀ chunk ∈ first::body, chunk.finished = false)
    (lastContent : last.choices ≠ []) (ends : last.finished) :
    wellFormed ((oaiStreamHandler usage tokens (first::body ++ [last])).map event) =
      (last.usage.isSome && closesAfter (scanFirst first.delta) (body ++ [last])) := by
  obtain ⟨tracks,notDone,_⟩ := streamTracks tokens content goesOn
  have later : (emit (newInfo tokens) (first::body)).2.sendResponseCount ≠ 1 := by
    have : body.length ≠ 0 := fun short => long (length_eq_zero_iff.mp short)
    omega
  rw [handlerEmits,wellFormedPhase]
  cases known : last.usage with
  | none =>
    obtain ⟨_,converted⟩ := @lastNoted last
      {(emit (newInfo tokens) (first::body)).2 with usage := some usage} lastContent notDone later ends known
    have phase := @phaseAfter _ _ _ (handleFinalResponse usage last (emit (newInfo tokens) (first::body)).2).1
      (fun _ => some .body) tracks (fun scan next follows => ?_)
    · rw [phase]
      cases scanChunks (scanFirst first.delta) body <;> rfl
    · simp only [handleFinalResponse,converted]
      simp [run,followsBody follows]
  | some =>
    have phase := @phaseAfter _ _ _ (handleFinalResponse usage last (emit (newInfo tokens) (first::body)).2).1
      (fun scan => (scanDelta scan last.delta).bind (fun scan => endsIf scan.closed)) tracks (fun scan next follows => ?_)
    · rw [phase,← bind_assoc,← scanLast,closesAfterPhase]
      rfl
    · exact lastPhase (followsRelay follows _ (some usage) _) lastContent notDone later ends known

theorem usageOnlyPhase (h : Follows info s scan) (bare : chunk.choices = [])
    (notDone : info.done = false) (later : info.sendResponseCount ≠ 1) (known : info.usage = some usage) :
    (run accept s ((streamResponseOpenAI2Claude chunk info).1.map event)).map State.phase = endsIf scan.closed := by
  rw [convertedLater chunk notDone later]
  unfold laterResponse usageOnly
  rw [bare,known]
  cases chunk.usage with
  | none | some => exact finishPhase h

theorem usageDecides {usage tokens first last usageChunk body}
    (content : ∀ chunk ∈ first::body, chunk.choices ≠ []) (goesOn : ∀ chunk ∈ first::body, chunk.finished = false)
    (lastContent : last.choices ≠ []) (ends : last.finished) (bare : usageChunk.choices = []) :
    wellFormed ((oaiStreamHandler usage tokens (first::body ++ [last] ++ [usageChunk])).map event) =
      closesAfter (scanFirst first.delta) (if last.usage.isSome then body ++ [last] else body) := by
  obtain ⟨tracks,notDone,count⟩ := streamTracks tokens content goesOn
  rw [handlerEmits,emitAppend,emitOne,wellFormedPhase]
  generalize emit (newInfo tokens) (first::body) = out at tracks notDone count
  have later : out.2.sendResponseCount + 1 ≠ 1 := by omega
  rw [append_assoc]
  cases known : last.usage with
  | none =>
    obtain ⟨finishReason,converted⟩ := @lastNoted last (received last out.2) lastContent notDone later ends known
    have noted : handleStreamFormat last out.2 = ([],{received last out.2 with finishReason := finishReason}) := converted
    rw [noted,nil_append]
    have phase := @phaseAfter _ out _ (handleFinalResponse usage usageChunk
      {received last out.2 with finishReason := finishReason}).1 (fun scan => endsIf scan.closed) tracks (fun scan next follows => ?_)
    · rw [phase]
      exact closesAfterPhase _ _
    · exact usageOnlyPhase (followsRelay follows (out.2.sendResponseCount + 1) (some usage) finishReason) bare notDone
        later rfl
  | some value =>
    obtain ⟨finishReason,converted⟩ := @lastEnds last (received last out.2) value lastContent notDone later ends known
    have isDone : (handleStreamFormat last out.2).2.done = true := by
      rw [show handleStreamFormat last out.2 = _ from converted]
    rw [doneSilent isDone,append_nil]
    have phase := @phaseAfter _ out _ (handleStreamFormat last out.2).1
      (fun scan => (scanDelta scan last.delta).bind (fun scan => endsIf scan.closed)) tracks (fun scan next follows => ?_)
    · rw [phase,← bind_assoc,← scanLast]
      exact closesAfterPhase _ _
    · exact lastPhase (followsRelay follows (out.2.sendResponseCount + 1) (last.usage.or out.2.usage) out.2.finishReason)
        lastContent notDone later ends known

structure Upstream (first : Chunk) (later : List Chunk) (usageChunk : Option Chunk) : Prop where
  content : ∀ chunk ∈ first::later, chunk.choices ≠ []
  ends : ((first::later).getLast (cons_ne_nil _ _)).finished
  goesOn : ∀ chunk ∈ (first::later).dropLast, chunk.finished = false
  bare : ∀ chunk, usageChunk = some chunk → chunk.choices = []

theorem wellFormedIff {usage tokens} {first : Chunk} {later : List Chunk} {usageChunk : Option Chunk}
    (upstream : Upstream first later usageChunk) :
    wellFormed ((oaiStreamHandler usage tokens (first::later ++ usageChunk.toList)).map event) ↔
      orderly first later usageChunk := by
  obtain ⟨content,ends,goesOn,bare⟩ := upstream
  rcases eq_nil_or_concat later with rfl | ⟨body,last,rfl⟩
  · cases usageChunk with
    | none =>
      have rejected := @aloneRejected usage tokens first (content first (by simp)) ends
      simp [orderly,rejected]
    | some chunk =>
      have decided := @aloneWithUsage usage tokens first chunk (content first (by simp)) ends
      simp [orderly,decided]
  simp only [concat_eq_append] at content ends goesOn ⊢
  have lastContent := content last (by simp)
  have lastEnds : last.finished := by simpa using ends
  have contentBefore : ∀ chunk ∈ first::body, chunk.choices ≠ [] := fun chunk member => content chunk (by
    rcases mem_cons.mp member with rfl | inside
    · simp
    · simp [inside])
  have goesBefore : ∀ chunk ∈ first::body, chunk.finished = false := fun chunk member => goesOn chunk (by
    rw [← cons_append,dropLast_concat]
    exact member)
  cases usageChunk with
  | none =>
    rw [toList_none,append_nil]
    unfold orderly
    rw [List.getLast?_concat]
    by_cases short : body = []
    · subst short
      have rejected := @pairRejected usage tokens first last (contentBefore first (by simp)) (goesBefore first (by simp))
      rw [nil_append,rejected]
      simp
    have decided := @lastDecides usage tokens first last body short contentBefore goesBefore lastContent lastEnds
    have long : 2 ≤ (body ++ [last]).length := by
      have : body.length ≠ 0 := fun none => short (length_eq_zero_iff.mp none)
      rw [length_append,length_singleton]
      omega
    rw [← cons_append,decided]
    simp only [Bool.and_eq_true,decide_eq_true_eq,long,true_and]
  | some chunk =>
    have decided := @usageDecides usage tokens first last chunk body contentBefore goesBefore lastContent lastEnds
      (bare chunk rfl)
    unfold orderly
    rw [List.getLast?_concat,dropLast_concat,toList_some,← cons_append,decided]

def contentChunk (content : Option String) (toolCalls : List ToolCall) (finishReason : Option String)
    (usage : Option Usage) : Chunk :=
  ⟨"chatcmpl","gpt",[⟨⟨content,none,none,toolCalls⟩,finishReason⟩],usage⟩

def someUsage : Usage := {promptTokens := 7, completionTokens := 3, totalTokens := 10}

def usageChunk : Chunk := ⟨"chatcmpl","gpt",[],some someUsage⟩

theorem textThenToolsWellFormed :
    wellFormed ((oaiStreamHandler someUsage 7 ([contentChunk (some "Let me look.") [] none none,
      contentChunk none [⟨some 0,"call_0","lookup",""⟩] none none,
      contentChunk none [⟨some 1,"call_1","lookup",""⟩,⟨some 0,"","","\x7b\x7d"⟩] none none,
      contentChunk none [] (some "tool_calls") none] ++ (some usageChunk).toList)).map event) := by
  refine wellFormedIff ⟨?_,?_,?_,?_⟩ |>.mpr ?_
  · decide
  · decide
  · decide
  · rintro _ same
    cases same
    rfl
  · decide

theorem shortUnmeteredAndSplitRejected :
    (Upstream (contentChunk (some "Hi") [] (some "stop") (some someUsage)) [] none ∧
      (oaiStreamHandler someUsage 7 [contentChunk (some "Hi") [] (some "stop") (some someUsage)]).map event =
        [.opens 0 .text,.updates 0 .text,.closes 0,.summary,.ends] ∧
      wellFormed ([.opens 0 .text,.updates 0 .text,.closes 0,.summary,.ends] : List (Event Kind)) = false) ∧
    (Upstream (contentChunk (some "Hi") [] none none) [contentChunk none [] (some "stop") (some someUsage)] none ∧
      (oaiStreamHandler someUsage 7 [contentChunk (some "Hi") [] none none,
        contentChunk none [] (some "stop") (some someUsage)]).map event =
        [.begins,.opens 0 .text,.updates 0 .text,.begins,.closes 0,.summary,.ends] ∧
      wellFormed ([.begins,.opens 0 .text,.updates 0 .text,.begins,.closes 0,.summary,.ends] : List (Event Kind)) =
        false) ∧
    (Upstream (contentChunk (some "") [] none none) [contentChunk (some "Hi") [] none none,
        contentChunk none [] (some "stop") none] none ∧
      (oaiStreamHandler someUsage 7 [contentChunk (some "") [] none none,contentChunk (some "Hi") [] none none,
        contentChunk none [] (some "stop") none]).map event = [.begins,.opens 0 .text,.updates 0 .text] ∧
      wellFormed ([.begins,.opens 0 .text,.updates 0 .text] : List (Event Kind)) = false) ∧
    Upstream (contentChunk none [⟨some 0,"call_0","lookup",""⟩] none none) [contentChunk (some "Hi") [] none none,
        contentChunk none [⟨some 1,"call_1","lookup",""⟩] none none,
        contentChunk none [] (some "tool_calls") (some someUsage)] none ∧
      (oaiStreamHandler someUsage 7 [contentChunk none [⟨some 0,"call_0","lookup",""⟩] none none,
        contentChunk (some "Hi") [] none none,contentChunk none [⟨some 1,"call_1","lookup",""⟩] none none,
        contentChunk none [] (some "tool_calls") (some someUsage)]).map event =
        [.begins,.opens 0 .tool,.closes 0,.opens 1 .text,.updates 1 .text,.closes 1,.opens 3 .tool,.closes 2,.closes 3,
          .summary,.ends] ∧
      wellFormed ([.begins,.opens 0 .tool,.closes 0,.opens 1 .text,.updates 1 .text,.closes 1,.opens 3 .tool,.closes 2,
        .closes 3,.summary,.ends] : List (Event Kind)) = false := by
  refine ⟨⟨⟨?_,?_,?_,fun _ same => nomatch same⟩,?_,?_⟩,⟨⟨?_,?_,?_,fun _ same => nomatch same⟩,?_,?_⟩,
    ⟨⟨?_,?_,?_,fun _ same => nomatch same⟩,?_,?_⟩,⟨?_,?_,?_,fun _ same => nomatch same⟩,?_,?_⟩
  all_goals decide

end Omnigate.ClaudeStream
