import Omnigate.ClaudeStreamPlaced

/-! Which streams lose nothing: the text and the reasoning of every chunk are sent or empty, and every tool call
has one block of its own that all of its arguments go to. -/
namespace Omnigate.ClaudeStream

open Fragments UsageConvert List

def Fragment.source (f : Fragment) : Int × ToolCall := (f.key,f.call)

structure Sent (f : Fragment) : Prop where
  opened : f.opens = true → ∃ place, f.place = some place
  offset : ∀ place, f.place = some place → place.2 = f.key ∨ place = (0,0) ∧ f.opens = true

structure Keeps (chunk : Chunk) (p : Passed) : Prop where
  delta : p.delta = chunk.delta
  source : p.fragments.map Fragment.source = keyed 0 chunk.delta.toolCalls
  sent : ∀ f ∈ p.fragments, Sent f

theorem unsentSource (fragments : List (Int × ToolCall)) : (unsent fragments).map Fragment.source = fragments := by
  simp [unsent,Fragment.source,Function.comp_def]

theorem unsentSent (member : f ∈ unsent fragments) : Sent f := by
  obtain ⟨_,_,rfl⟩ := mem_map.mp member
  exact ⟨fun opens => (Bool.false_ne_true opens).elim,fun _ isPlace => by cases isPlace⟩

theorem sentFirstKept (fragments : List (Int × ToolCall)) :
    (sentFirst fragments).map Fragment.source = fragments ∧ ∀ f ∈ sentFirst fragments, Sent f := by
  cases fragments with
  | nil => exact ⟨rfl,fun f member => by cases member⟩
  | cons head rest =>
    refine ⟨congrArg (List.cons head) (unsentSource rest),fun f member => ?_⟩
    rcases mem_cons.mp member with rfl | inside
    · exact ⟨fun _ => ⟨_,rfl⟩,fun _ isPlace => Or.inr ⟨(Option.some.inj isPlace).symm,rfl⟩⟩
    · exact unsentSent inside

theorem sentLaterKept (row : Nat) (fragments : List (Int × ToolCall)) :
    (sentLater row fragments).map Fragment.source = fragments ∧ ∀ f ∈ sentLater row fragments, Sent f := by
  refine ⟨by simp [sentLater,Fragment.source,Function.comp_def],fun f member => ?_⟩
  obtain ⟨_,_,rfl⟩ := mem_map.mp member
  exact ⟨fun _ => ⟨_,rfl⟩,fun _ isPlace => Or.inl (by rw [← Option.some.inj isPlace])⟩

theorem passKeeps (w chunk) : Keeps chunk (pass w chunk).1 := by
  unfold pass
  split_ifs with _ _ empty
  · exact ⟨rfl,unsentSource _,fun f => unsentSent⟩
  · exact ⟨rfl,(sentFirstKept _).1,(sentFirstKept _).2⟩
  · refine ⟨rfl,?_,fun f member => by cases member⟩
    have isDelta : chunk.delta = ⟨none,none,none,[]⟩ := by simp [Chunk.delta,empty]
    rw [isDelta]
    rfl
  · exact ⟨rfl,unsentSource _,fun f => unsentSent⟩
  · exact ⟨rfl,(sentLaterKept _ _).1,(sentLaterKept _ _).2⟩

theorem passagesKeep (w chunks) : List.Forall₂ Keeps chunks (passages w chunks) := by
  induction chunks generalizing w with
  | nil => exact .nil
  | cons _ rest ih =>
    cases rest with
    | nil => exact .cons (passKeeps _ _) .nil
    | cons => exact .cons (passKeeps _ _) (ih _)

theorem keptDeltas (h : List.Forall₂ Keeps chunks ps) :
    ps.map Passed.delta = chunks.map Chunk.delta := by
  induction h with
  | nil => rfl
  | cons first _ ih => rw [map_cons,map_cons,first.delta,ih]

theorem keptSource (h : List.Forall₂ Keeps chunks ps) :
    (sentFragments ps).map Fragment.source = fragmentsOf chunks := by
  induction h with
  | nil => rfl
  | cons first _ ih =>
    simp only [sentFragments,fragmentsOf,flatMap_cons,map_append] at ih ⊢
    rw [first.source,ih]

theorem keptSent (h : List.Forall₂ Keeps chunks ps) :
    ∀ f ∈ sentFragments ps, Sent f := by
  induction h with
  | nil => exact fun f member => by cases member
  | cons first _ ih => exact forall_mem_append.mpr ⟨first.sent,ih⟩

theorem placedText (base : Nat → Int) (ps) :
    (placedAll base ps).text = joinedWhere Passed.spoken (fun p => p.delta.getContentString) ps ∧
      (placedAll base ps).thinking = joinedWhere Passed.reasoned (fun p => p.delta.getReasoningContent) ps := by
  induction ps with
  | nil => exact ⟨rfl,rfl⟩
  | cons p _ ih =>
    rw [joinedWhereCons,joinedWhereCons,← ih.1,← ih.2]
    exact ⟨rfl,rfl⟩

theorem placedTools (base : Nat → Int) (ps) :
    (placedAll base ps).starts = (sentFragments ps).filterMap (placedStart base) ∧
      (placedAll base ps).inputs = (sentFragments ps).filterMap (placedInput base) := by
  induction ps with
  | nil => exact ⟨rfl,rfl⟩
  | cons p _ ih =>
    simp only [sentFragments,flatMap_cons,filterMap_append] at ih ⊢
    rw [← ih.1,← ih.2]
    exact ⟨rfl,rfl⟩

theorem textKept (sends : Passed → Bool) (text : Delta → String) (h : List.Forall₂ Keeps chunks ps) :
    joinedWhere sends (fun p => text p.delta) ps = joined (chunks.map (fun chunk => text chunk.delta)) ↔
      ∀ p ∈ ps, sends p = true ∨ text p.delta = "" := by
  have whole : joined (chunks.map (fun chunk => text chunk.delta)) = joinedWhere (fun _ => true) (fun p => text p.delta) ps := by
    have deltas := congrArg (List.map text) (keptDeltas h)
    rw [map_map,map_map] at deltas
    unfold joinedWhere
    rw [filter_true]
    exact congrArg joined deltas.symm
  rw [whole,joinedWhereIff _ (fun _ _ => rfl)]
  constructor
  · intro nothing p member
    cases chosen : sends p with
    | true => exact Or.inl rfl
    | false => exact Or.inr (nothing p member rfl chosen)
  intro nothing p member _ left
  rcases nothing p member with chosen | empty
  · rw [left] at chosen
    cases chosen
  · exact empty

structure Opening (fragments : List Fragment) (id : String) (o : Fragment) : Prop where
  only : (openings fragments).filter (fun o => o.call.id = id) = [o]
  alone : ((openings fragments).filter (fun other => other.place = o.place)).length = 1

def argumentsAt (fragments : List Fragment) (place : Option (Nat × Int)) : String :=
  joinedWhere (fun f => f.place = place) (fun f => f.call.arguments) fragments

def argumentsFor (fragments : List Fragment) (key : Int) : String :=
  joinedWhere (fun f => f.key = key) (fun f => f.call.arguments) fragments

def gathered (fragments : List Fragment) (key : Int) (o : Fragment) : Prop :=
  ∀ f ∈ fragments, f.key = key → f.call.arguments = "" ∨ f.place = o.place

def unmixed (fragments : List Fragment) (key : Int) (o : Fragment) : Prop :=
  ∀ f ∈ fragments, f.place = o.place → f.call.arguments ≠ "" → f.key = key

theorem openingMember {id} (h : Opening fragments id o) :
    o ∈ fragments ∧ o.opens = true ∧ o.call.id = id := by
  have member : o ∈ (openings fragments).filter (fun o => o.call.id = id) := by
    rw [h.only]
    exact mem_cons_self
  obtain ⟨opened,isId⟩ := mem_filter.mp member
  obtain ⟨inside,opens⟩ := mem_filter.mp opened
  exact ⟨inside,opens,of_decide_eq_true isId⟩

theorem openingAlone {id} (h : Opening fragments id o) (member : f ∈ fragments) (opens : f.opens = true)
    (same : f.place = o.place) : f = o := by
  obtain ⟨x,isSingle⟩ := length_eq_one_iff.mp h.alone
  obtain ⟨inside,opened,_⟩ := openingMember h
  have ofF : f ∈ (openings fragments).filter (fun other => other.place = o.place) :=
    mem_filter.mpr ⟨mem_filter.mpr ⟨member,opens⟩,decide_eq_true same⟩
  have ofO : o ∈ (openings fragments).filter (fun other => other.place = o.place) :=
    mem_filter.mpr ⟨mem_filter.mpr ⟨inside,opened⟩,decide_eq_true rfl⟩
  rw [isSingle] at ofF ofO
  rw [mem_singleton.mp ofF,mem_singleton.mp ofO]

theorem carriesIff (fragments key id) :
    carries fragments key id = true ↔ ∃ o, Opening fragments id o ∧ gathered fragments key o := by
  unfold carries
  constructor
  · intro held
    split at held
    · rename_i o only
      obtain ⟨alone,all⟩ := of_decide_eq_true held
      exact ⟨o,⟨only,alone⟩,all⟩
    · cases held
  · rintro ⟨o,opening,all⟩
    rw [opening.only]
    exact decide_eq_true ⟨opening.alone,all⟩

def startOf (base : Nat → Int) (o : Fragment) : ToolStart := ⟨block base (o.place.getD (0,0)),o.call.id,o.call.name⟩

theorem startsOpenings (base : Nat → Int) (sent : ∀ f ∈ fragments, Sent f) :
    fragments.filterMap (placedStart base) = (openings fragments).map (startOf base) := by
  induction fragments with
  | nil => rfl
  | cons f _ ih =>
    have tail := ih (fun g member => sent g (mem_cons_of_mem _ member))
    unfold openings at tail ⊢
    cases opens : f.opens with
    | false =>
      rw [filter_cons_of_neg (by simp [opens]),← tail]
      exact filterMap_cons_none (by simp [placedStart,opens])
    | true =>
      obtain ⟨_,isPlace⟩ := (sent f mem_cons_self).opened opens
      rw [filter_cons_of_pos opens,map_cons,← tail]
      exact filterMap_cons_some (by simp [placedStart,opens,isPlace,startOf])

theorem inputsAt (base : Nat → Int) (place : Nat × Int) (apart : ∀ f ∈ fragments, ∀ other, f.place = some other → block base other = block base place → other = place) :
    joinedWhere (fun d => d.1 = block base place) Prod.snd (fragments.filterMap (placedInput base)) =
      argumentsAt fragments (some place) := by
  unfold argumentsAt
  induction fragments with
  | nil => rfl
  | cons f _ ih =>
    have tail := ih (fun g member => apart g (mem_cons_of_mem _ member))
    rw [joinedWhereCons,← tail]
    by_cases empty : f.call.arguments = ""
    · rw [filterMap_cons_none (by simp [placedInput,empty])]
      simp [empty]
    cases isPlace : f.place with
    | none =>
      rw [filterMap_cons_none (by simp [placedInput,isPlace])]
      simp
    | some other =>
      have input : placedInput base f = some (block base other,f.call.arguments) := by simp [placedInput,empty,isPlace]
      have same : block base other = block base place ↔ other = place :=
        ⟨apart f mem_cons_self other isPlace,fun h => by rw [h]⟩
      rw [filterMap_cons_some input,joinedWhereCons]
      simp only [same,Option.some.injEq]

theorem gatheredIff (alone : unmixed fragments key o) :
    argumentsAt fragments o.place = argumentsFor fragments key ↔ gathered fragments key o := by
  have both : joinedWhere (fun f => f.place = o.place ∧ f.key = key) (fun f : Fragment => f.call.arguments) fragments =
      argumentsAt fragments o.place := by
    refine (joinedWhereIff _ (by simp +contextual) _).mpr (fun f member there apart => ?_)
    by_contra speaks
    have isKey := alone f member (of_decide_eq_true there) speaks
    exact of_decide_eq_false apart ⟨of_decide_eq_true there,isKey⟩
  rw [← both]
  unfold argumentsFor
  rw [joinedWhereIff _ (by simp +contextual)]
  constructor
  · intro nothing f member isKey
    by_cases there : f.place = o.place
    · exact Or.inr there
    · exact Or.inl (nothing f member (decide_eq_true isKey) (decide_eq_false (fun both => there both.1)))
  · intro all f member isKey apart
    rcases all f member (of_decide_eq_true isKey) with empty | there
    · exact empty
    · exact absurd ⟨there,of_decide_eq_true isKey⟩ (of_decide_eq_false apart)

section Calls

variable {sources : List (Int × ToolCall)} {fragments : List Fragment}

theorem openingOwn (conforms : Conforms sources) (source : fragments.map Fragment.source = sources) (wanted : g ∈ sources) (member : o ∈ fragments) (isId : o.call.id = idOf sources g.1) :
    o.key = g.1 ∧ o.call.name = nameOf sources g.1 := by
  have inside : (o.key,o.call) ∈ sources := by
    rw [← source]
    exact mem_map.mpr ⟨o,member,rfl⟩
  rcases conforms.repeated _ inside with bare | named
  · have nonempty := (conforms.named g wanted).1
    rw [← isId] at nonempty
    exact absurd bare.1 nonempty
  have same := conforms.distinct _ inside g wanted (named.1.symm.trans isId)
  rw [same] at named
  exact ⟨same,named.2⟩

theorem unmixedOffset (sent : ∀ f ∈ fragments, Sent f) {id} (opening : Opening fragments id o) (own : o.key = key)
    (isPlace : o.place = some place) (offset : place.2 = key) : unmixed fragments key o := by
  intro f member there _
  rcases (sent f member).offset place (there.trans isPlace) with isKey | ⟨_,opens⟩
  · rw [← isKey,offset]
  · rw [openingAlone opening member opens there,own]

/- Only the call that opened the first place of all can meet others there: fragments of call 0 that went to a place
not their own. -/
theorem unmixedAll (conforms : Conforms sources) (source : fragments.map Fragment.source = sources)
    (sent : ∀ f ∈ fragments, Sent f) {complete : Int → Fragment → Prop}
    (every : ∀ g ∈ sources, ∃ o, Opening fragments (idOf sources g.1) o ∧ complete g.1 o)
    (settled : ∀ key o, unmixed fragments key o → complete key o → gathered fragments key o)
    (wanted : g ∈ sources) (opening : Opening fragments (idOf sources g.1) o) :
    unmixed fragments g.1 o := by
  obtain ⟨inside,opens,isId⟩ := openingMember opening
  have own := (openingOwn conforms source wanted inside isId).1
  obtain ⟨place,isPlace⟩ := (sent o inside).opened opens
  by_cases offset : place.2 = g.1
  · exact unmixedOffset sent opening own isPlace offset
  intro f member there speaks
  have origin : place = (0,0) := by
    rcases (sent o inside).offset place isPlace with isKey | first
    · exact absurd (isKey.trans own) offset
    · exact first.1
  rcases (sent f member).offset place (there.trans isPlace) with isKey | ⟨_,opensToo⟩
  · have wantedToo : f.source ∈ sources := by
      rw [← source]
      exact mem_map.mpr ⟨f,member,rfl⟩
    obtain ⟨o',opening',done⟩ := every _ wantedToo
    obtain ⟨inside',opens',isId'⟩ := openingMember opening'
    have own' : o'.key = f.key := (openingOwn conforms source wantedToo inside' isId').1
    obtain ⟨place',isPlace'⟩ := (sent o' inside').opened opens'
    by_cases shared : place' = place
    · have same := openingAlone opening inside' opens' (by rw [isPlace',isPlace,shared])
      rw [← own',same,own]
    have offset' : place'.2 = f.key := by
      rcases (sent o' inside').offset place' isPlace' with isKey' | first
      · exact isKey'.trans own'
      · exact absurd (first.1.trans origin.symm) shared
    have apart := unmixedOffset sent opening' own' isPlace' offset'
    rcases settled _ _ apart done f member rfl with empty | elsewhere
    · exact absurd empty speaks
    · rw [there,isPlace,isPlace'] at elsewhere
      exact absurd (Option.some.inj elsewhere).symm shared
  · rw [openingAlone opening member opensToo there,own]

variable {base : Nat → Int} {events : List ClaudeResponse}

theorem deliveredIff (conforms : Conforms sources) (source : fragments.map Fragment.source = sources)
    (sent : ∀ f ∈ fragments, Sent f) (apart : separate base (placesOf fragments))
    (starts : toolStarts events = fragments.filterMap (placedStart base))
    (inputs : inputDeltas events = fragments.filterMap (placedInput base)) (wanted : g ∈ sources) :
    delivered events (idOf sources g.1) (nameOf sources g.1) (argumentsOf sources g.1) = true ↔
      ∃ o, Opening fragments (idOf sources g.1) o ∧ argumentsAt fragments o.place = argumentsFor fragments g.1 := by
  have arguments : argumentsOf sources g.1 = argumentsFor fragments g.1 := by
    rw [← source]
    exact joinedWhereMap _ _ Fragment.source fragments
  have filtered : (toolStarts events).filter (fun start => start.id = idOf sources g.1) =
      ((openings fragments).filter (fun o => o.call.id = idOf sources g.1)).map (startOf base) := by
    rw [starts,startsOpenings base sent,filter_map]
    rfl
  -- with its place known, an opening is alone in its block exactly when it is alone in its place
  have known : ∀ o ∈ openings fragments, ∃ place, o.place = some place ∧ place ∈ placesOf fragments := by
    intro o member
    obtain ⟨inside,opens⟩ := mem_filter.mp member
    obtain ⟨place,isPlace⟩ := (sent o inside).opened opens
    exact ⟨place,isPlace,mem_filterMap.mpr ⟨o,inside,isPlace⟩⟩
  have counts : ∀ o ∈ openings fragments,
      ((toolStarts events).filter (fun other => other.index = (startOf base o).index)).length =
        ((openings fragments).filter (fun other => other.place = o.place)).length := by
    intro o member
    obtain ⟨place,isPlace,placed⟩ := known o member
    rw [starts,startsOpenings base sent,filter_map,length_map]
    refine congrArg List.length (filter_congr (fun other inside => ?_))
    obtain ⟨place',isPlace',placed'⟩ := known other inside
    simp only [Function.comp_apply,startOf,isPlace,isPlace',Option.getD_some,Option.some.injEq,decide_eq_decide]
    exact ⟨fun same => apart place' placed' place placed same,fun same => by rw [same]⟩
  have argued : ∀ o ∈ openings fragments, inputAt events (startOf base o).index = argumentsAt fragments o.place := by
    intro o member
    obtain ⟨place,isPlace,placed⟩ := known o member
    unfold inputAt
    rw [inputs,isPlace,startOf,isPlace]
    exact inputsAt base place (fun f inside other isOther same =>
      apart other (mem_filterMap.mpr ⟨f,inside,isOther⟩) place placed same)
  unfold delivered
  rw [filtered,arguments]
  constructor
  · intro held
    split at held
    · rename_i start isStart
      obtain ⟨o,only,rfl⟩ := map_eq_singleton_iff.mp isStart
      obtain ⟨_,alone,same⟩ := of_decide_eq_true held
      have member : o ∈ openings fragments := (mem_filter.mp (by rw [only]; exact mem_cons_self)).1
      rw [counts o member] at alone
      rw [argued o member] at same
      exact ⟨o,⟨only,alone⟩,same⟩
    · cases held
  · rintro ⟨o,opening,same⟩
    obtain ⟨inside,opens,isId⟩ := openingMember opening
    have member : o ∈ openings fragments := mem_filter.mpr ⟨inside,opens⟩
    rw [opening.only]
    refine decide_eq_true ⟨(openingOwn conforms source wanted inside isId).2,?_,?_⟩
    · rw [counts o member]
      exact opening.alone
    · rw [argued o member]
      exact same

end Calls

theorem callsIff (usage : Usage) (tokens : Int) (conforms : Conforms (fragmentsOf chunks)) :
    (∀ f ∈ fragmentsOf chunks, delivered (oaiStreamHandler usage tokens chunks) (idOf (fragmentsOf chunks) f.1)
        (nameOf (fragmentsOf chunks) f.1) (argumentsOf (fragmentsOf chunks) f.1) = true) ↔
      ∀ f ∈ fragmentsOf chunks, carries (sentFragments (walked chunks)) f.1 (idOf (fragmentsOf chunks) f.1) = true := by
  have kept := passagesKeep ⟨0,false,false,⟨0,none⟩⟩ chunks
  have source := keptSource kept
  have sent := keptSent kept
  obtain ⟨base,content,apart⟩ := handlerPlaced usage tokens chunks conforms.natural
  obtain ⟨starts,inputs⟩ := placedTools base (walked chunks)
  rw [← content] at starts inputs
  have each := fun g (wanted : g ∈ fragmentsOf chunks) => deliveredIff conforms source sent apart starts inputs wanted
  constructor
  · intro all
    have every := fun g wanted => (each g wanted).mp (all g wanted)
    intro g wanted
    obtain ⟨o,opening,same⟩ := every g wanted
    have alone := unmixedAll conforms source sent every (fun _ _ apart => (gatheredIff apart).mp) wanted opening
    exact (carriesIff _ _ _).mpr ⟨o,opening,(gatheredIff alone).mp same⟩
  · intro all
    have every := fun g wanted => (carriesIff _ _ _).mp (all g wanted)
    intro g wanted
    obtain ⟨o,opening,same⟩ := every g wanted
    have alone := unmixedAll conforms source sent every (fun _ _ _ => id) wanted opening
    exact (each g wanted).mpr ⟨o,opening,(gatheredIff alone).mpr same⟩

theorem losslessIff (usage : Usage) (tokens : Int) {chunks : List Chunk} (conforms : Conforms (fragmentsOf chunks)) :
    lossless chunks (oaiStreamHandler usage tokens chunks) = true ↔ carried chunks = true := by
  have kept := passagesKeep ⟨0,false,false,⟨0,none⟩⟩ chunks
  have texts := textKept Passed.spoken Delta.getContentString kept
  have thoughts := textKept Passed.reasoned Delta.getReasoningContent kept
  obtain ⟨base,content,_⟩ := handlerPlaced usage tokens chunks conforms.natural
  obtain ⟨isText,isThinking⟩ := placedText base (walked chunks)
  rw [← content] at isText isThinking
  unfold lossless carried
  simp only [decide_eq_true_eq]
  rw [show textOf (oaiStreamHandler usage tokens chunks) = _ from isText,
    show thinkingOf (oaiStreamHandler usage tokens chunks) = _ from isThinking,callsIff usage tokens conforms]
  constructor
  · rintro ⟨text,thinking,calls⟩
    exact ⟨fun p member => ⟨texts.mp text p member,thoughts.mp thinking p member⟩,calls⟩
  · rintro ⟨sent,calls⟩
    exact ⟨texts.mpr (fun p member => (sent p member).1),thoughts.mpr (fun p member => (sent p member).2),calls⟩

def deltaChunk (content reasoning : Option String) (toolCalls : List ToolCall) (finishReason : Option String)
    (usage : Option Usage) : Chunk :=
  ⟨"chatcmpl","gpt",[⟨⟨content,reasoning,none,toolCalls⟩,finishReason⟩],usage⟩

def oneKindAtATime : List Chunk :=
  [deltaChunk none (some "Hm.") [] none none,deltaChunk (some "Let me look.") none [] none none,
    deltaChunk none none [⟨some 0,"call_0","lookup",""⟩,⟨some 1,"call_1","lookup","\x7b"⟩] none none,
    deltaChunk none none [⟨some 0,"","","\x7b\x7d"⟩,⟨some 1,"","","\x7d"⟩] none none,
    deltaChunk none none [] (some "tool_calls") none]

theorem oneKindAtATimeLossless : lossless oneKindAtATime (oaiStreamHandler someUsage 7 oneKindAtATime) = true :=
  (losslessIff someUsage 7 ⟨by decide +kernel,by decide +kernel,by decide +kernel,by decide +kernel⟩).mpr
    (by decide +kernel)

def textBesideReasoning : List Chunk :=
  [deltaChunk none none [] none none,deltaChunk (some "Hi") (some "Hm.") [] none none,
    deltaChunk none none [] (some "stop") (some someUsage)]

def twoCallsFirst : List Chunk :=
  [deltaChunk none none [⟨some 0,"call_0","lookup","\x7b\x7d"⟩,⟨some 1,"call_1","lookup","\x7b\x7d"⟩] none none,
    deltaChunk none none [] none none,deltaChunk none none [] (some "tool_calls") (some someUsage)]

def textWithFinish : List Chunk :=
  [deltaChunk (some "Hi") none [] none none,deltaChunk (some ",") none [] none none,
    deltaChunk (some "you") none [] (some "stop") none,usageChunk]

def argumentsAfterText : List Chunk :=
  [deltaChunk none none [⟨some 0,"call_0","lookup",""⟩] none none,deltaChunk (some "Hi") none [] none none,
    deltaChunk none none [⟨some 0,"","","\x7b\x7d"⟩] none none,
    deltaChunk none none [] (some "tool_calls") (some someUsage)]

theorem sharedChunksLose : (Conforms (fragmentsOf textBesideReasoning) ∧
      lossless textBesideReasoning (oaiStreamHandler someUsage 7 textBesideReasoning) = false) ∧
    (Conforms (fragmentsOf twoCallsFirst) ∧
      lossless twoCallsFirst (oaiStreamHandler someUsage 7 twoCallsFirst) = false) ∧
    (Conforms (fragmentsOf textWithFinish) ∧
      lossless textWithFinish (oaiStreamHandler someUsage 7 textWithFinish) = false) ∧
    (Conforms (fragmentsOf argumentsAfterText) ∧
      lossless argumentsAfterText (oaiStreamHandler someUsage 7 argumentsAfterText) = false) := by
  refine ⟨⟨⟨?_,?_,?_,?_⟩,?_⟩,⟨⟨?_,?_,?_,?_⟩,?_⟩,⟨⟨?_,?_,?_,?_⟩,?_⟩,⟨⟨?_,?_,?_,?_⟩,?_⟩⟩
  all_goals decide +kernel

end Omnigate.ClaudeStream
