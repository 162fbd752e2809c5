import Mathlib
import Omnigate.Table

/-! Requests of other formats as chat requests. Ids of Gemini calls are made up while a content is converted; a Claude
message is taken apart by the kinds of its blocks. -/
namespace Omnigate.ChatRequest

open List

structure ToolCall where
  (id name arguments : String)
  deriving DecidableEq, Repr

inductive Media where
  | text (text : String)
  | image (url detail mimeType : String)
  deriving DecidableEq, Repr

inductive Content where
  | absent
  | string (text : String)
  | media (parts : List Media)
  deriving DecidableEq, Repr

structure Message where
  role : String
  content : Content := .absent
  toolCalls : List ToolCall := []
  (toolCallId name : String := "")
  deriving DecidableEq, Repr

def Message.parseContent (m : Message) : List Media :=
  match m.content with
  | .absent => []
  | .string text => [.text text]
  | .media parts => parts

def Message.kept (m : Message) : List Message := if m.parseContent ≠ [] ∨ m.toolCalls ≠ [] then [m] else []

structure FunctionCall where
  (functionName arguments : String)
  deriving DecidableEq, Repr

structure FunctionResponse where
  (name response : String)
  deriving DecidableEq, Repr

structure FileRef where
  (mimeType data : String)
  deriving DecidableEq, Repr

structure GeminiPart where
  text : String := ""
  (inlineData fileData : Option FileRef := none)
  functionCall : Option FunctionCall := none
  functionResponse : Option FunctionResponse := none
  deriving DecidableEq, Repr

structure GeminiContent where
  role : String
  parts : List GeminiPart
  deriving DecidableEq, Repr

def convertGeminiRoleToOpenAI (role : String) : String :=
  if role = "model" then "assistant" else if role = "function" then "function" else "user"

def callId (n : Nat) : String := "call_" ++ toString n

/- What the loop over the parts of a content has gathered; `answers` are the responses behind the tool messages. -/
structure Gathered where
  mediaContents : List Media := []
  toolCalls : List ToolCall := []
  tools : List Message := []
  answers : List FunctionResponse := []

def gather (g : Gathered) (part : GeminiPart) : Gathered :=
  if part.text ≠ "" then {g with mediaContents := g.mediaContents ++ [.text part.text]}
  else match part.inlineData,part.fileData,part.functionCall,part.functionResponse with
    | some d,_,_,_ => {g with mediaContents :=
        g.mediaContents ++ [.image ("data:" ++ d.mimeType ++ ";base64," ++ d.data) "auto" d.mimeType]}
    | none,some d,_,_ => {g with mediaContents := g.mediaContents ++ [.image d.data "auto" d.mimeType]}
    | none,none,some call,_ => {g with toolCalls :=
        g.toolCalls ++ [⟨callId (g.toolCalls.length + 1),call.functionName,call.arguments⟩]}
    | none,none,none,some r => {g with
        tools := g.tools ++ [{role := "tool", toolCallId := callId g.toolCalls.length, content := .string r.response}]
        answers := g.answers ++ [r]}
    | none,none,none,none => g

def gathered (c : GeminiContent) : Gathered := c.parts.foldl gather {}

def geminiMessage (c : GeminiContent) : Message :=
  let g := gathered c
  let role := convertGeminiRoleToOpenAI c.role
  if g.toolCalls ≠ [] then {role := role, toolCalls := g.toolCalls}
  else match g.mediaContents with
    | [] => {role := role}
    | [.text text] => {role := role, content := .string text}
    | parts => {role := role, content := .media parts}

def convertContent (c : GeminiContent) : List Message := (gathered c).tools ++ (geminiMessage c).kept

def geminiToOpenAIChat (contents : List GeminiContent) : List Message := contents.flatMap convertContent

/- `last` are the calls of the preceding model content, `does` what is asked of a content against them. -/
def Against (does : List ToolCall → Gathered → Prop) (last : List ToolCall) : List GeminiContent → Prop
  | [] => True
  | c::rest => does last (gathered c) ∧ Against does (if c.role = "model" then (gathered c).toolCalls else last) rest

def Matches (last : List ToolCall) (g : Gathered) : Prop :=
  g.answers.map FunctionResponse.name <+: last.map ToolCall.name

def Ties (last : List ToolCall) (g : Gathered) : Prop := g.tools.map Message.toolCallId <+: last.map ToolCall.id

def Linked (contents : List GeminiContent) : Prop :=
  ((geminiToOpenAIChat contents).flatMap Message.toolCalls |>.map ToolCall.id).Nodup ∧
    Against Ties [] contents

structure Numbered (g : Gathered) : Prop where
  ids : g.toolCalls.map ToolCall.id = (List.range g.toolCalls.length).map (fun i => callId (i + 1))
  plain : ∀ m ∈ g.tools, m.toolCalls = []
  pairs : g.tools.length = g.answers.length
  low : ∀ m ∈ g.tools, ∃ n ≤ g.toolCalls.length, m.toolCallId = callId n

theorem gatherNumbered (part) (h : Numbered g) : Numbered (gather g part) := by
  unfold gather
  split
  · exact {h with}
  split
  · exact {h with}
  · exact {h with}
  · refine ⟨?_,h.plain,h.pairs,fun m member => ?_⟩
    · simp only [map_append,h.ids,length_append,length_singleton,range_succ]
      rfl
    · obtain ⟨n,le,same⟩ := h.low m member
      exact ⟨n,le.trans (by simp),same⟩
  · exact ⟨h.ids,Table.allAdded h.plain rfl,by simp [h.pairs],Table.allAdded h.low ⟨_,le_refl _,rfl⟩⟩
  · exact h

theorem gatheredNumbered (c) : Numbered (gathered c) := by
  have all : ∀ (parts : List GeminiPart) g, Numbered g → Numbered (parts.foldl gather g) := by
    intro parts
    induction parts with
    | nil => exact fun _ h => h
    | cons part _ ih => exact fun g h => ih _ (gatherNumbered part h)
  exact all c.parts {} ⟨rfl,by simp,rfl,by simp⟩

theorem callIdInj (h : callId m = callId n) : m = n :=
  Nat.repr_inj.mp ((String.append_right_inj "call_").mp h)

theorem convertedCalls (c) : (convertContent c).flatMap Message.toolCalls = (gathered c).toolCalls := by
  have none_ : (gathered c).tools.flatMap Message.toolCalls = [] :=
    flatMap_eq_nil_iff.mpr (gatheredNumbered c).plain
  have own : (geminiMessage c).toolCalls = (gathered c).toolCalls := by
    unfold geminiMessage
    dsimp only
    split
    · rfl
    rename_i nothing
    rw [not_not.mp nothing]
    split <;> rfl
  rw [convertContent,flatMap_append,none_,nil_append,Message.kept,own]
  split
  · rw [flatMap_singleton,own]
  · rename_i nothing
    exact (not_not.mp (not_or.mp nothing).2).symm

theorem firstId (some_ : (gathered c).toolCalls ≠ []) : callId 1 ∈ (gathered c).toolCalls.map ToolCall.id := by
  rw [(gatheredNumbered c).ids]
  exact mem_map.mpr ⟨0,mem_range.mpr (length_pos_of_ne_nil some_),rfl⟩

theorem idsNodupIff (contents) : ((geminiToOpenAIChat contents).flatMap Message.toolCalls |>.map ToolCall.id).Nodup ↔
      contents.Pairwise (fun a b => (gathered a).toolCalls = [] ∨ (gathered b).toolCalls = []) := by
  rw [geminiToOpenAIChat,flatMap_assoc]
  simp only [convertedCalls,map_flatMap]
  rw [nodup_flatMap]
  have each : ∀ c ∈ contents, ((gathered c).toolCalls.map ToolCall.id).Nodup := by
    intro c _
    rw [(gatheredNumbered c).ids]
    exact nodup_range.map (fun a b same => Nat.succ_injective (callIdInj same))
  rw [and_iff_right each]
  refine List.Pairwise.iff (fun a b => ?_)
  unfold Function.onFun
  constructor
  · intro disjoint
    by_contra both
    obtain ⟨left,right⟩ := not_or.mp both
    exact disjoint (firstId left) (firstId right)
  · rintro (none_ | none_) <;> simp [none_]

/- A response's id counts the calls before it in its own content, and there are none: the calls are in an earlier one. -/
theorem noAnswers (answered : Against Matches last contents) (linked : Against Ties last contents)
    (single : contents.Pairwise (fun a b => (gathered a).toolCalls = [] ∨ (gathered b).toolCalls = []))
    (ids : last ≠ [] → ∃ rest, last.map ToolCall.id = callId 1::rest)
    (busy : last ≠ [] → ∀ c ∈ contents, (gathered c).toolCalls = []) : ∀ c ∈ contents, (gathered c).answers = [] := by
  induction contents generalizing last with
  | nil => simp
  | cons c rest ih =>
    obtain ⟨apart,single⟩ := pairwise_cons.mp single
    have here : (gathered c).answers = [] := by
      by_contra some_
      have named : last ≠ [] := by
        rintro rfl
        exact some_ (map_eq_nil_iff.mp (prefix_nil.mp answered.1))
      obtain ⟨m,tools,isTools⟩ : ∃ m tools, (gathered c).tools = m::tools := by
        have same := (gatheredNumbered c).pairs
        cases isTools : (gathered c).tools with
        | nil => rw [isTools] at same; exact absurd (length_eq_zero_iff.mp same.symm) some_
        | cons m tools => exact ⟨m,tools,rfl⟩
      obtain ⟨n,low,isId⟩ := (gatheredNumbered c).low m (by simp [isTools])
      rw [busy named c (by simp)] at low
      obtain ⟨_,first⟩ := ids named
      have ties := linked.1
      rw [Ties,isTools,first,map_cons,cons_prefix_cons,isId] at ties
      have := callIdInj ties.1
      simp only [length_nil] at low
      omega
    have later : ∀ b ∈ rest, (gathered b).answers = [] := by
      refine ih answered.2 linked.2 single ?_ ?_
      · split
        · intro some_
          have first := (gatheredNumbered c).ids
          rw [← Nat.sub_add_cancel (length_pos_of_ne_nil some_),range_succ_eq_map] at first
          exact ⟨_,first⟩
        · exact ids
      split
      · exact fun some_ b member => (apart b member).resolve_left some_
      · exact fun some_ b member => busy some_ b (mem_cons_of_mem _ member)
    exact forall_mem_cons.mpr ⟨here,later⟩

theorem againstAll {does : List ToolCall → Gathered → Prop} (all : ∀ last, ∀ c ∈ contents, does last (gathered c)) (last) :
    Against does last contents := by
  induction contents generalizing last with
  | nil => trivial
  | cons c _ ih =>
    exact ⟨all last c (by simp),ih (fun last b member => all last b (mem_cons_of_mem _ member)) _⟩

/- The links hold exactly where there is nothing to link, and calls in one content only. -/
theorem geminiLinkedIff {contents} (answered : Against Matches [] contents) : Linked contents ↔
    (∀ c ∈ contents, (gathered c).answers = []) ∧
      contents.Pairwise (fun a b => (gathered a).toolCalls = [] ∨ (gathered b).toolCalls = []) := by
  unfold Linked
  rw [idsNodupIff]
  constructor
  · rintro ⟨single,linked⟩
    exact ⟨noAnswers answered linked single (fun some_ => absurd rfl some_) (fun some_ => absurd rfl some_),single⟩
  · rintro ⟨none_,single⟩
    refine ⟨single,againstAll (fun _ c member => ?_) []⟩
    have same := (gatheredNumbered c).pairs
    rw [none_ c member] at same
    rw [Ties,length_eq_zero_iff.mp same]
    exact nil_prefix

def askWeather : GeminiContent := ⟨"model",[{functionCall := some ⟨"weather","\x7b\x7d"⟩}]⟩

def weatherAnswered : GeminiContent := ⟨"user",[{functionResponse := some ⟨"weather","\x7b\x7d"⟩}]⟩

theorem callWithoutAnswer : Linked [⟨"user",[{text := "hi"}]⟩,askWeather] :=
  (geminiLinkedIff (by simp [Against,Matches,gathered,gather,askWeather])).mpr (by simp [gathered,gather,askWeather])

theorem answerUnlinked : Against Matches [] [askWeather,weatherAnswered] ∧
    geminiToOpenAIChat [askWeather,weatherAnswered] =
      [{role := "assistant", toolCalls := [⟨"call_1","weather","\x7b\x7d"⟩]},
        {role := "tool", toolCallId := "call_0", content := .string "\x7b\x7d"}] ∧ ¬ Linked [askWeather,weatherAnswered] :=
  ⟨⟨ nil_prefix,prefix_rfl,trivial⟩,by decide +kernel,fun linked => absurd linked.2.2.1 (by unfold Ties; decide +kernel)⟩

inductive ClaudeBlock where
  | text (text : String)
  | image (mediaType data : String)
  | toolUse (id name input : String)
  | toolResult (toolUseId name content : String)
  | other
  deriving DecidableEq, Repr

inductive ClaudeContent where
  | string (text : String)
  | blocks (blocks : List ClaudeBlock)
  deriving DecidableEq, Repr

structure ClaudeMessage where
  role : String
  content : ClaudeContent
  deriving DecidableEq, Repr

def mediaBlock : ClaudeBlock → Option Media
  | .text text => some (.text text)
  | .image mediaType data => some (.image ("data:" ++ mediaType ++ ";base64," ++ data) "" "")
  | _ => none

def callBlock : ClaudeBlock → Option ToolCall
  | .toolUse id name input => some ⟨id,name,input⟩
  | _ => none

/- A result without a name is named by the call with its id. -/
def resultBlock (searchToolName : String → String) : ClaudeBlock → Option Message
  | .toolResult id name content => some {role := "tool", toolCallId := id, content := .string content,
                                         name := if name = "" then searchToolName id else name}
  | _ => none

def ClaudeMessage.blocks (m : ClaudeMessage) : List ClaudeBlock :=
  match m.content with
  | .string text => [.text text]
  | .blocks blocks => blocks

def ClaudeMessage.media (m : ClaudeMessage) : List Media := m.blocks.filterMap mediaBlock

def ClaudeMessage.calls (m : ClaudeMessage) : List ToolCall := m.blocks.filterMap callBlock

def ClaudeMessage.results (search : String → String) (m : ClaudeMessage) : List Message :=
  m.blocks.filterMap (resultBlock search)

def claudeMessage (m : ClaudeMessage) : Message :=
  match m.content with
  | .string text => {role := m.role, content := .string text}
  | .blocks _ =>
    if m.calls ≠ [] then {role := m.role, toolCalls := m.calls}
    else {role := m.role, content := if m.media ≠ [] then .media m.media else .absent}

def claudeToOpenAIChat (search : String → String) (messages : List ClaudeMessage) : List Message :=
  messages.flatMap (fun m => m.results search ++ (claudeMessage m).kept)

/- Every text and image, call and result is there once and in order, and results that follow the message with their
calls still do. -/
structure Preserved (search : String → String) (messages : List ClaudeMessage) (out : List Message) : Prop where
  media : (out.filter (fun m => m.role ≠ "tool")).flatMap Message.parseContent = messages.flatMap ClaudeMessage.media
  calls : out.flatMap Message.toolCalls = messages.flatMap ClaudeMessage.calls
  results : out.filter (fun m => m.role = "tool") = messages.flatMap (ClaudeMessage.results search)
  turns : ∀ before a u after, messages = before ++ a::u::after → a.calls ≠ [] → ∃ earlier later m,
    out = earlier ++ m::(u.results search ++ later) ∧ m.role = a.role ∧ m.toolCalls = a.calls

theorem claudeParts (m) : (claudeMessage m).kept.flatMap Message.toolCalls = m.calls ∧
    (claudeMessage m).kept.flatMap Message.parseContent = (if m.calls = [] then m.media else []) ∧
    (m.calls ≠ [] → (claudeMessage m).kept = [claudeMessage m] ∧ (claudeMessage m).toolCalls = m.calls) ∧
    ∀ k ∈ (claudeMessage m).kept, k.role = m.role := by
  obtain ⟨role,content⟩ := m
  cases content with
  | string => simp [claudeMessage,Message.kept,Message.parseContent,ClaudeMessage.calls,ClaudeMessage.media,
      ClaudeMessage.blocks,callBlock,mediaBlock]
  | blocks blocks =>
    simp only [claudeMessage]
    split
    · rename_i some_
      simp [Message.kept,Message.parseContent,some_]
    · rename_i none_
      rw [not_not] at none_
      by_cases empty : ClaudeMessage.media ⟨role,.blocks blocks⟩ = [] <;>
        simp [Message.kept,Message.parseContent,none_,empty]

theorem resultRole {m : ClaudeMessage} (member : k ∈ m.results search) : k.role = "tool" ∧ k.toolCalls = [] := by
  obtain ⟨b,_,same⟩ := mem_filterMap.mp member
  cases b <;> cases same
  exact ⟨rfl,rfl⟩

theorem claudeApart (role : m.role ≠ "tool") :
    (m.results search ++ (claudeMessage m).kept).filter (fun k => k.role = "tool") = m.results search ∧
    (m.results search ++ (claudeMessage m).kept).filter (fun k => k.role ≠ "tool") = (claudeMessage m).kept := by
  have own := (claudeParts m).2.2.2
  simp only [filter_append]
  rw [filter_eq_self.mpr fun k member => decide_eq_true (resultRole member).1,
    filter_eq_nil_iff.mpr fun k member => by simp [own k member,role],
    filter_eq_nil_iff.mpr fun k (member : k ∈ m.results search) => by simp [(resultRole member).1],
    filter_eq_self.mpr fun k member => by simp [own k member,role],append_nil,nil_append]
  exact ⟨rfl,rfl⟩

theorem mediaLost {messages : List ClaudeMessage}
    (all : messages.flatMap (fun m => if m.calls = [] then m.media else []) = messages.flatMap ClaudeMessage.media) :
    ∀ m ∈ messages, m.calls = [] ∨ m.media = [] := by
  have shorter : ∀ rest : List ClaudeMessage, (rest.flatMap (fun m => if m.calls = [] then m.media else [])).length ≤
      (rest.flatMap ClaudeMessage.media).length := by
    intro rest
    induction rest with
    | nil => exact le_refl _
    | cons =>
      simp only [flatMap_cons,length_append]
      split
      · omega
      · simp only [length_nil]; omega
  induction messages with
  | nil => simp
  | cons m rest ih =>
    simp only [flatMap_cons] at all
    by_cases none_ : m.calls = []
    · rw [if_pos none_] at all
      exact forall_mem_cons.mpr ⟨.inl none_,ih (append_cancel_left all)⟩
    have sizes := congrArg List.length all
    have less := shorter rest
    simp only [if_neg none_,nil_append,length_append] at sizes
    have empty : m.media = [] := length_eq_zero_iff.mp (by omega)
    rw [if_neg none_,empty] at all
    exact forall_mem_cons.mpr ⟨.inr empty,ih all⟩

def callAlone : List ClaudeMessage :=
  [⟨"user",.string "Weather?"⟩,⟨"assistant",.blocks [.toolUse "t1" "weather" "null"]⟩,
   ⟨"user",.blocks [.toolResult "t1" "" "sunny"]⟩]

end Omnigate.ChatRequest
