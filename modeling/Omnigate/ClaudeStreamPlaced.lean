import Omnigate.ClaudeStreamContent

/-! From one chunk to the whole stream: the events of the handler carry what the walk over the upstream passes on,
and no two places share a block. -/
namespace Omnigate.ClaudeStream

open Fragments Machine UsageConvert List Option

structure Abreast (info : Info) (w : Walk) : Prop where
  done : info.done = w.ended
  counted : info.sendResponseCount = w.position
  known : info.usage.isSome = w.known

def Paired (base : Nat → Int) (used : List (Nat × Int)) (row : Nat) (converted : List ClaudeResponse × Info)
    (passed : Passed × Walk) : Prop :=
  ∃ base', agree row base base' ∧ row ≤ passed.2.mark.row ∧ contentOf converted.1 = placed base' passed.1 ∧
    Link base' (used ++ placesOf passed.1.fragments) converted.2 passed.2.mark ∧ Abreast converted.2 passed.2

theorem linkRelabel (h : Link base used info mark) (sendResponseCount : Int) (usage : Option Usage)
    (finishReason : String) (done : Bool) : Link base used {info with
      sendResponseCount := sendResponseCount, usage := usage, finishReason := finishReason, done := done } mark :=
  {h with}

theorem turnRow (m : Mark) (kind) : m.row ≤ (m.turn kind).row := by
  unfold Mark.turn
  split
  · exact Nat.le_refl _
  · exact closeRow m

theorem laterRow (m : Mark) (delta) : m.row ≤ (markLater m delta).row := by
  unfold markLater
  split_ifs
  · exact turnRow m _
  · exact turnRow m _
  · exact turnRow m _
  · exact Nat.le_refl _

theorem placesUnsent (fragments : List (Int × ToolCall)) : placesOf (unsent fragments) = [] := by
  simp [placesOf,unsent]

theorem laterUsage (delta info) : (laterDelta delta info).2.usage = info.usage := by
  unfold laterDelta laterTools laterBlock
  split_ifs
  all_goals first | rfl | exact (advanceFrame info).2.2

theorem pairedDelta (h : Link base used info w.mark) (abreast : Abreast info w)
    (delta : Delta) (natural : ∀ f ∈ keyed 0 delta.toolCalls, 0 ≤ f.1) :
    Paired base used w.mark.row (laterDelta delta info) (passedLater w.mark delta,{w with mark := markLater w.mark delta}) := by
  obtain ⟨base',same,content,link⟩ := linkDelta h delta natural
  have frame := laterDeltaFrame delta info
  refine ⟨base',same,laterRow w.mark delta,content,link,?_,?_,?_⟩
  · exact frame.1.trans abreast.done
  · exact frame.2.trans abreast.counted
  · rw [laterUsage]
    exact abreast.known

theorem pairedFinish
    (h : Paired base used row (events,info) (passed,w)) (oaiUsage : Option Usage) (stopReason : String) :
    Paired base used row (events ++ (finish oaiUsage stopReason info).1,(finish oaiUsage stopReason info).2)
      (passed,{w with ended := true}) := by
  obtain ⟨base',same,rows,content,link,abreast⟩ := h
  refine ⟨base',same,rows,?_,linkRelabel link _ _ _ true,rfl,abreast.counted,abreast.known⟩
  rw [contentAppend,contentFinish,appendNone]
  exact content

theorem pairedSilent (h : Link base used info w.mark) (abreast : Abreast info w)
    (delta : Delta) (fragments : List (Int × ToolCall)) :
    Paired base used w.mark.row ([],info) (⟨delta,false,false,unsent fragments⟩,w) := by
  refine ⟨base,fun _ _ => rfl,Nat.le_refl _,?_,?_,abreast⟩
  · have nothing := unsentContent base fragments
    simp only [placed,nothing.1,nothing.2]
    rfl
  · rw [placesUnsent,append_nil]
    exact h

theorem pairedUsage (h : Link base used info w.mark) (abreast : Abreast info w)
    (goesOn : w.ended = false) (chunk : Chunk) (told : chunk.usage.isSome = true → w.known = true) :
    Paired base used w.mark.row (usageOnly chunk info) (⟨chunk.delta,false,false,[]⟩,{w with ended := w.known}) := by
  have silent := pairedSilent h abreast chunk.delta []
  obtain ⟨_,known,ended,mark⟩ := w
  cases goesOn
  unfold usageOnly
  cases known with
  | false =>
    have unknown : info.usage = none := by
      rw [← not_isSome_iff_eq_none,abreast.known]
      exact Bool.false_ne_true
    have untold : chunk.usage = none := by
      rw [← not_isSome_iff_eq_none]
      exact fun isUsage => Bool.false_ne_true (told isUsage)
    rw [untold,unknown]
    exact silent
  | true =>
    obtain ⟨usage,isUsage⟩ := isSome_iff_exists.mp abreast.known
    cases chunk.usage with
    | none =>
      rw [isUsage]
      exact pairedFinish silent _ _
    | some => exact pairedFinish silent _ _

theorem pairedLater {base used info w} (h : Link base used info w.mark) (abreast : Abreast info w)
    (later : w.position ≠ 1) (chunk : Chunk) (told : chunk.usage.isSome = true → w.known = true)
    (natural : ∀ f ∈ keyed 0 chunk.delta.toolCalls, 0 ≤ f.1) :
    Paired base used w.mark.row (streamResponseOpenAI2Claude chunk info) (pass w chunk) := by
  unfold streamResponseOpenAI2Claude pass
  cases ended : w.ended with
  | true =>
    rw [abreast.done,ended]
    exact pairedSilent h abreast _ _
  | false =>
    have counted : info.sendResponseCount ≠ 1 := by
      rw [abreast.counted]
      exact_mod_cast later
    rw [abreast.done,ended,if_neg (by simp),if_neg counted,if_neg (by simp),if_neg later]
    unfold laterResponse
    cases choices : chunk.choices with
    | nil =>
      exact pairedUsage h abreast ended chunk told
    | cons choice rest =>
      have isDelta : chunk.delta = choice.delta := by simp [Chunk.delta,choices]
      have isFinish : chunk.finished = choice.finished := by simp [Chunk.finished,choices]
      have noted := linkRelabel h info.sendResponseCount info.usage (choice.finishReason.getD "") info.done
      have notedAbreast : Abreast { info with finishReason := choice.finishReason.getD "" } w :=
        {abreast with}
      dsimp only
      rw [if_neg (show ¬choice::rest = [] by simp),isFinish]
      cases finished : choice.finished with
      | true =>
        cases chunk.usage with
        | none =>
          exact pairedSilent noted notedAbreast _ _
        | some usage =>
          have sent := pairedDelta noted notedAbreast chunk.delta natural
          rw [isDelta] at sent ⊢
          exact pairedFinish sent (some usage) _
      | false =>
        have sent := pairedDelta h abreast chunk.delta natural
        rw [isDelta] at sent ⊢
        simp only [passedLater,ended] at sent
        exact sent

theorem openedAs (type block delta info) :
    {(openBlock type info).2 with lastMessagesType := type} = (laterBlock type block delta info).2 := by
  unfold openBlock laterBlock
  by_cases same : info.lastMessagesType = type
  · rw [if_neg (not_not.mpr same),if_neg (not_not.mpr same),← same]
  · rw [if_pos same,if_pos same]

theorem linkFirstTools (h : Link base [] info ⟨0,none⟩) (delta) :
    Link base (placesOf (sentFirst (keyed 0 delta.toolCalls))) (firstToolCall delta info).2
      (if delta.toolCalls = [] then ⟨0,none⟩ else ⟨0,some .tool⟩) := by
  unfold firstToolCall
  cases delta.toolCalls with
  | nil => exact h
  | cons call rest =>
    have places : placesOf (sentFirst (keyed 0 (call::rest))) = [(0,0)] := by
      have rests := placesUnsent (keyed 1 rest)
      simpa [keyed,sentFirst,placesOf] using rests
    rw [places,if_neg (by simp)]
    refine ⟨rfl,h.origin,h.origin,fun _ => le_rfl,h.grows,?_,?_,?_,?_⟩
    · intro place member
      cases mem_singleton.mp member
      exact le_rfl
    · intro place member
      cases mem_singleton.mp member
      exact Nat.le_refl _
    · intro place _ below
      exact absurd below (Nat.not_lt_zero _)
    · intro place member _
      cases mem_singleton.mp member
      exact ⟨rfl,le_rfl⟩

theorem linkFirstContent (h : Link base used info mark) (delta : Delta) :
    ∃ base', agree mark.row base base' ∧ Link base' used (firstContent delta info).2
      (if delta.getReasoningContent ≠ "" then mark.turn .thinking
        else if delta.getContentString ≠ "" then mark.turn .text else mark) := by
  unfold firstContent
  by_cases reasons : delta.getReasoningContent = ""
  · rw [if_neg (not_not.mpr reasons),if_neg (not_not.mpr reasons)]
    by_cases speaks : delta.getContentString = ""
    · rw [if_neg (not_not.mpr speaks),if_neg (not_not.mpr speaks)]
      exact ⟨base,fun _ _ => rfl,h⟩
    rw [if_pos speaks,if_pos speaks]
    dsimp only
    rw [openedAs .text .text (.text delta.getContentString) info]
    exact @linkContent _ _ _ _ .text _ _ h (by simp)
  · rw [if_pos reasons,if_pos reasons]
    dsimp only
    rw [openedAs .thinking .thinking (.thinking delta.getReasoningContent) info]
    exact @linkContent _ _ _ _ .thinking _ _ h (by simp)

theorem firstFrame (chunk info) : (firstResponse chunk info).2.done = (info.done || chunk.finished) ∧
      (firstResponse chunk info).2.sendResponseCount = info.sendResponseCount ∧
      (firstResponse chunk info).2.usage = info.usage := by
  have tools : ∀ delta, (firstToolCall delta info).2.done = info.done ∧
      (firstToolCall delta info).2.sendResponseCount = info.sendResponseCount ∧
      (firstToolCall delta info).2.usage = info.usage := by
    intro delta
    unfold firstToolCall
    split <;> exact ⟨rfl,rfl,rfl⟩
  have opened : ∀ type (state : Info), (openBlock type state).2.done = state.done ∧
      (openBlock type state).2.sendResponseCount = state.sendResponseCount ∧ (openBlock type state).2.usage = state.usage := by
    intro type state
    unfold openBlock
    split
    · exact advanceFrame state
    · exact ⟨rfl,rfl,rfl⟩
  have content : ∀ delta (state : Info), (firstContent delta state).2.done = state.done ∧
      (firstContent delta state).2.sendResponseCount = state.sendResponseCount ∧
      (firstContent delta state).2.usage = state.usage := by
    intro delta state
    unfold firstContent
    split_ifs
    · exact opened .thinking state
    · exact opened .text state
    · exact ⟨rfl,rfl,rfl⟩
  unfold firstResponse
  cases choices : chunk.choices with
  | nil => simp [Chunk.finished,choices]
  | cons choice =>
    have isFinish : chunk.finished = choice.finished := by simp [Chunk.finished,choices]
    obtain ⟨done,count,usage⟩ := content choice.delta (firstToolCall choice.delta info).2
    obtain ⟨done',count',usage'⟩ := tools choice.delta
    dsimp only
    rw [isFinish]
    unfold firstFinish
    cases finished : choice.finished with
    | true =>
      rw [if_pos rfl,Bool.or_true]
      exact ⟨rfl,count.trans count',usage.trans usage'⟩
    | false =>
      rw [if_neg (by simp),Bool.or_false]
      exact ⟨done.trans done',count.trans count',usage.trans usage'⟩

theorem linkFirst (h : Link base [] info ⟨0,none⟩) (chunk : Chunk) :
    ∃ base', agree 0 base base' ∧ Link base' (placesOf (sentFirst (keyed 0 chunk.delta.toolCalls)))
      (firstResponse chunk info).2 (markFirst ⟨0,none⟩ chunk.delta) := by
  unfold firstResponse
  cases choices : chunk.choices with
  | nil =>
    have isDelta : chunk.delta = ⟨none,none,none,[]⟩ := by simp [Chunk.delta,choices]
    rw [isDelta]
    exact ⟨base,fun _ _ => rfl,h⟩
  | cons choice =>
    have isDelta : chunk.delta = choice.delta := by simp [Chunk.delta,choices]
    rw [isDelta]
    obtain ⟨base',same,link⟩ := linkFirstContent (linkFirstTools h choice.delta) choice.delta
    have origin : agree 0 base base' := fun r _ => same r (by omega)
    refine ⟨base',origin,?_⟩
    dsimp only
    unfold firstFinish
    split
    · exact linkRelabel link _ _ _ true
    · exact link

theorem pairedFirst {base info w} (h : Link base [] info w.mark) (abreast : Abreast info w)
    (first : w.position = 1) (fresh : w.mark = ⟨0,none⟩) (goesOn : w.ended = false) (chunk : Chunk) :
    Paired base [] 0 (streamResponseOpenAI2Claude chunk info) (pass w chunk) := by
  have notDone : info.done = false := abreast.done.trans goesOn
  have counted : info.sendResponseCount = 1 := by
    rw [abreast.counted,first]
    rfl
  unfold streamResponseOpenAI2Claude pass
  rw [if_neg (by simp [notDone]),if_pos counted,if_neg (by simp [goesOn]),if_pos first,fresh]
  rw [fresh] at h
  obtain ⟨base',same,link⟩ := linkFirst h chunk
  obtain ⟨done,count,usage⟩ := firstFrame chunk info
  refine ⟨base',same,Nat.zero_le _,contentFirst link.origin chunk info,link,?_,?_,?_⟩
  · rw [done,notDone]
    rfl
  · exact count.trans abreast.counted
  · rw [usage]
    exact abreast.known

def relay (usage : Usage) : Info → List Chunk → List ClaudeResponse
  | _,[] => []
  | info,[last] => (handleFinalResponse usage last info).1
  | info,chunk::next::rest =>
    (handleStreamFormat chunk info).1 ++ relay usage (handleStreamFormat chunk info).2 (next::rest)

theorem relayEmits (usage info chunks last) :
    relay usage info (chunks ++ [last]) =
      (emit info chunks).1 ++ (handleFinalResponse usage last (emit info chunks).2).1 := by
  induction chunks generalizing info with
  | nil => simp [relay,emit]
  | cons chunk rest ih =>
    cases rest with
    | nil => simp [relay,emit]
    | cons =>
      have tail := ih (handleStreamFormat chunk info).2
      simp only [cons_append,relay,emit,append_assoc] at tail ⊢
      rw [tail]

theorem handlerRelays (usage tokens chunks) :
    oaiStreamHandler usage tokens chunks = relay usage (newInfo tokens) chunks := by
  rcases eq_nil_or_concat chunks with rfl | ⟨_,_,rfl⟩
  · rfl
  · rw [concat_eq_append,handlerEmits,relayEmits]

def placedAll (base : Nat → Int) (passages : List Passed) : Content :=
  passages.foldr (fun p later => (placed base p).append later) noContent

def separate (base : Nat → Int) (places : List (Nat × Int)) : Prop :=
  ∀ s ∈ places, ∀ t ∈ places, block base s = block base t → s = t

theorem placedAgree (same : agree row base base') (within : ∀ place ∈ placesOf p.fragments, place.1 ≤ row) : placed base p = placed base' p := by
  have alike : ∀ f ∈ p.fragments, placedStart base f = placedStart base' f ∧ placedInput base f = placedInput base' f := by
    intro f member
    cases isPlace : f.place with
    | none => simp [placedStart,placedInput,isPlace]
    | some place =>
      have bound := within place (mem_filterMap.mpr ⟨f,member,isPlace⟩)
      simp [placedStart,placedInput,isPlace,block,same place.1 bound]
  unfold placed
  rw [filterMap_congr (fun f member => (alike f member).1),filterMap_congr (fun f member => (alike f member).2)]

theorem contentLast {base used info w} (h : Link base used info w.mark) (abreast : Abreast info w)
    (known : w.known = true) (chunk : Chunk) (natural : ∀ f ∈ keyed 0 chunk.delta.toolCalls, 0 ≤ f.1) :
    ∃ base', agree w.mark.row base base' ∧
      contentOf (streamResponseOpenAI2Claude chunk info).1 = placed base' (pass w chunk).1 ∧
      separate base' ((0,0)::used ++ placesOf (pass w chunk).1.fragments) := by
  by_cases first : w.position = 1 ∧ w.ended = false
  · have notDone : info.done = false := abreast.done.trans first.2
    have counted : info.sendResponseCount = 1 := by
      rw [abreast.counted,first.1]
      rfl
    unfold streamResponseOpenAI2Claude pass
    rw [if_neg (by simp [notDone]),if_pos counted,if_neg (by simp [first.2]),if_pos first.1]
    refine ⟨base,fun _ _ => rfl,contentFirst h.origin chunk info,?_⟩
    have places : ∀ place ∈ placesOf (sentFirst (keyed 0 chunk.delta.toolCalls)), place = (0,0) := by
      cases chunk.delta.toolCalls with
      | nil => exact fun place member => by cases member
      | cons _ rest =>
        have rests := placesUnsent (keyed 1 rest)
        intro place member
        simp only [placesOf] at rests
        simpa [keyed,sentFirst,placesOf,rests] using member
    have inside : ∀ place ∈ (0,0)::used ++ placesOf (sentFirst (keyed 0 chunk.delta.toolCalls)), place ∈ (0,0)::used := by
      intro place member
      rcases mem_append.mp member with old | new
      · exact old
      · rw [places place new]
        exact mem_cons_self
    exact fun s ins t int same => linkSeparates h (inside s ins) (inside t int) same
  · by_cases silent : w.ended = true
    · obtain ⟨base',same,_,content,link,_⟩ := pairedSilent h abreast chunk.delta (keyed 0 chunk.delta.toolCalls)
      refine ⟨base',same,?_,?_⟩
      · unfold streamResponseOpenAI2Claude pass
        rw [if_pos (abreast.done.trans silent),if_pos silent]
        exact content
      unfold pass
      rw [if_pos silent]
      exact fun s ins t int => linkSeparates link ins int
    · have later : w.position ≠ 1 := fun isOne => first ⟨isOne,by simpa using silent⟩
      obtain ⟨base',same,_,content,link,_⟩ := pairedLater h abreast later chunk (fun _ => known) natural
      exact ⟨base',same,content,fun s ins t int => linkSeparates link ins int⟩

theorem placesCons (p passages) :
    placesOf (sentFragments (p::passages)) = placesOf p.fragments ++ placesOf (sentFragments passages) := by
  simp [placesOf,sentFragments]

theorem abreastCounted {info w} (h : Abreast info w) (chunk : Chunk) : Abreast
    (received chunk info)
    {w with position := w.position + 1, known := w.known || chunk.usage.isSome} := by
  unfold received
  refine ⟨h.done,?_,?_⟩
  · rw [h.counted]
    rfl
  · rw [isSome_or,h.known,Bool.or_comm]

theorem relayPaired (usage : Usage) (chunks : List Chunk) (h : Link base used info w.mark)
    (abreast : Abreast info w) (begun : 1 ≤ w.position) (natural : ∀ f ∈ fragmentsOf chunks, 0 ≤ f.1) :
    ∃ base', agree w.mark.row base base' ∧ contentOf (relay usage info chunks) = placedAll base' (passages w chunks) ∧
      separate base' ((0,0)::used ++ placesOf (sentFragments (passages w chunks))) := by
  induction chunks generalizing base used info w with
  | nil =>
    refine ⟨base,fun _ _ => rfl,rfl,?_⟩
    intro s ins t int
    simp only [passages,sentFragments,placesOf,flatMap_nil,filterMap_nil,append_nil] at ins int
    exact linkSeparates h ins int
  | cons chunk rest ih =>
    obtain ⟨here,there⟩ : (∀ f ∈ keyed 0 chunk.delta.toolCalls, 0 ≤ f.1) ∧ ∀ f ∈ fragmentsOf rest, 0 ≤ f.1 :=
      forall_mem_append.mp natural
    cases rest with
    | nil =>
      obtain ⟨base',same,content,apart⟩ := @contentLast _ _ {info with usage := some usage} {w with known := true}
        (linkRelabel h _ _ _ _) ⟨abreast.done,abreast.counted,rfl⟩ rfl chunk here
      refine ⟨base',same,?_,?_⟩
      · simp only [relay,handleFinalResponse,passages,placedAll,foldr_cons,foldr_nil,appendNone]
        exact content
      · rw [passages,placesCons]
        simpa [sentFragments,placesOf] using apart
    | cons next rest =>
      obtain ⟨base',same,rows,content,link,abreast'⟩ := @pairedLater _ _ _
        {w with position := w.position + 1, known := w.known || chunk.usage.isSome} (linkRelabel h _ _ _ _)
        (abreastCounted abreast chunk) (by dsimp only; omega) chunk
        (by dsimp only; intro isSome; rw [isSome,Bool.or_true]) here
      have counted : (pass {w with position := w.position + 1, known := w.known || chunk.usage.isSome} chunk).2.position =
          w.position + 1 := by
        unfold pass
        split_ifs <;> rfl
      obtain ⟨base'',same',contents,apart⟩ := ih link abreast' (by omega) there
      refine ⟨base'',fun r bound => (same' r (Nat.le_trans bound rows)).trans (same r bound),?_,?_⟩
      · have moved := placedAgree same' (fun place member => link.bounded place (mem_append_right _ member))
        simp only [relay,passages,placedAll,foldr_cons]
        rw [contentAppend]
        exact congrArg₂ Content.append (content.trans moved) contents
      · rw [passages]
        rw [placesCons,← append_assoc]
        exact apart

theorem freshLink (tokens) : Link (fun _ => 0) [] (newInfo tokens) ⟨0,none⟩ := by
  refine ⟨rfl,rfl,rfl,?_,?_,?_,?_,?_,?_⟩
  · intro isTool
    cases isTool
  · exact fun r below => absurd below (Nat.not_lt_zero _)
  all_goals
    intro _ member
    cases member

theorem handlerPlaced (usage : Usage) (tokens : Int) (chunks : List Chunk) (natural : ∀ f ∈ fragmentsOf chunks, 0 ≤ f.1) :
    ∃ base, contentOf (oaiStreamHandler usage tokens chunks) = placedAll base (walked chunks) ∧
      separate base (placesOf (sentFragments (walked chunks))) := by
  rw [handlerRelays]
  have fresh := freshLink tokens
  unfold walked
  match chunks with
  | [] =>
    refine ⟨fun _ => 0,rfl,?_⟩
    intro s ins
    cases ins
  | [last] =>
    obtain ⟨base,_,content,apart⟩ := @contentLast _ _ {newInfo tokens with usage := some usage} ⟨0,true,false,⟨0,none⟩⟩
      (linkRelabel fresh _ _ _ _) ⟨rfl,rfl,rfl⟩ rfl last (forall_mem_append.mp natural).1
    refine ⟨base,?_,?_⟩
    · simp only [relay,handleFinalResponse,passages,placedAll,foldr_cons,foldr_nil,appendNone]
      exact content
    intro s ins t int
    simp only [passages,sentFragments,flatMap_cons,flatMap_nil,append_nil] at ins int
    exact apart s (mem_append_right _ ins) t (mem_append_right _ int)
  | chunk::next::rest =>
    obtain ⟨base,_,_,content,link,abreast⟩ := @pairedFirst _ _ _ (linkRelabel fresh _ _ _ _)
      (@abreastCounted (newInfo tokens) ⟨0,false,false,⟨0,none⟩⟩ ⟨rfl,rfl,rfl⟩ chunk) rfl rfl rfl chunk
    obtain ⟨base',same,contents,apart⟩ := relayPaired usage (next::rest) link abreast (by simp [pass])
      (forall_mem_append.mp natural).2
    refine ⟨base',?_,?_⟩
    · have moved := placedAgree same (fun place member => link.bounded place (mem_append_right _ member))
      simp only [relay,passages,placedAll,foldr_cons]
      rw [contentAppend]
      exact congrArg₂ Content.append (content.trans moved) contents
    intro s ins t int
    rw [passages,placesCons] at ins int
    refine apart s ?_ t ?_
    · exact mem_cons_of_mem _ ins
    · exact mem_cons_of_mem _ int

end Omnigate.ClaudeStream
