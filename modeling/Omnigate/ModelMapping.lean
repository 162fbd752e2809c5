import Omnigate.Orbit
import Omnigate.Text

/-! The upstream model name of each attempt of a relayed request. An attempt maps the origin name by the mapping of
its channel; a compact Responses request and a Gemini request without thinking also rewrite the origin name, from
which the next attempt starts. -/
namespace Omnigate.ModelMapping

open Orbit Text List

def compactModelSuffix : String := "-openai-compact"

def withCompactModelSuffix (modelName : String) : String :=
  if hasSuffix modelName compactModelSuffix then modelName else modelName ++ compactModelSuffix

/- The model_mapping of a channel: empty, no JSON object of strings, or one. -/
inductive Mapping where
  | absent
  | invalid
  | table (modelMap : List (String × String))
  deriving DecidableEq, Repr

/- A Gemini chat request with thinking budget 0 under the thinking adapter asks which models have a billing config. -/
inductive Mode where
  | plain
  | responsesCompact
  | geminiNoThinking (hasModelBillingConfig : String → Bool)

structure RelayInfo where
  originModelName : String
  upstreamModelName : String := ""
  isModelMapped : Bool := false
  deriving DecidableEq, Repr

/- original_model in the context is the origin name at every attempt: GenRelayInfo reads it, and getChannel sets it
again. -/
def initChannelMeta (info : RelayInfo) : RelayInfo :=
  {info with upstreamModelName := info.originModelName, isModelMapped := false}

inductive Walk where
  | unmapped
  | ended (currentModel : String) (isModelMapped : Bool)
  | cycle
  deriving DecidableEq, Repr

def walk (modelMap : List (String × String)) (originModelName : String) : Nat → List String → String → Bool → Option Walk
  | 0,_,_,_ => none
  | fuel+1,visitedModels,currentModel,isModelMapped =>
    match modelMap.lookup currentModel with
    | none => some (.ended currentModel isModelMapped)
    | some mappedModel =>
      if mappedModel = "" then some (.ended currentModel isModelMapped)
      else if mappedModel ∈ visitedModels then
        if mappedModel = currentModel then
          if currentModel = originModelName then some .unmapped else some (.ended currentModel true)
        else some .cycle
      else walk modelMap originModelName fuel (mappedModel::visitedModels) mappedModel true

def mappingModelName (mode : Mode) (originModelName : String) : String :=
  match mode with
  | .responsesCompact => trimSuffix originModelName compactModelSuffix
  | _ => originModelName

def restoreCompact (mode : Mode) (mappingModelName : String) (info : RelayInfo) : RelayInfo :=
  match mode with
  | .responsesCompact =>
    let finalUpstreamModelName :=
      if info.isModelMapped ∧ info.upstreamModelName ≠ "" then info.upstreamModelName else mappingModelName
    {info with
      upstreamModelName := finalUpstreamModelName
      originModelName := withCompactModelSuffix finalUpstreamModelName}
  | _ => info

def modelMappedHelper (mode : Mode) (mapping : Mapping) (info : RelayInfo) : Option (Except String RelayInfo) :=
  let name := mappingModelName mode info.originModelName
  match mapping with
  | .absent => some (.ok (restoreCompact mode name info))
  | .invalid => some (.error "unmarshal_model_mapping_failed")
  | .table modelMap =>
    (walk modelMap info.originModelName (modelMap.length + 1) [name] name info.isModelMapped).map fun
      | .unmapped => .ok {info with isModelMapped := false}
      | .ended currentModel isModelMapped => .ok (restoreCompact mode name {info with
          isModelMapped := isModelMapped
          upstreamModelName := if isModelMapped then currentModel else info.upstreamModelName})
      | .cycle => .error "model_mapping_contains_cycle"

def noThinking (mode : Mode) (info : RelayInfo) : RelayInfo :=
  match mode with
  | .geminiNoThinking hasModelBillingConfig =>
    let noThinkingModelName := info.originModelName ++ "-nothinking"
    if ¬contains info.originModelName "-nothinking" ∧ hasModelBillingConfig noThinkingModelName then
      {info with originModelName := noThinkingModelName, upstreamModelName := noThinkingModelName}
    else info
  | _ => info

def getModelRequest (mode : Mode) (model : String) : String :=
  match mode with
  | .responsesCompact => if model = "" then model else withCompactModelSuffix model
  | _ => model

def attempt (mode : Mode) (mapping : Mapping) (info : RelayInfo) : Option (Except String String × RelayInfo) :=
  (modelMappedHelper mode mapping (initChannelMeta info)).map fun
    | .error e => (.error e,initChannelMeta info)
    | .ok mapped => (.ok (noThinking mode mapped).upstreamModelName,noThinking mode mapped)

def relay (mode : Mode) : RelayInfo → List Mapping → Option (List (Except String String))
  | _,[] => some []
  | info,mapping::rest => do
    let (outcome,next) ← attempt mode mapping info
    let outcomes ← relay mode next rest
    some (outcome::outcomes)

def relayRequest (mode : Mode) (model : String) (mappings : List Mapping) : Option (List (Except String String)) :=
  relay mode {originModelName := getModelRequest mode model} mappings

def follow (modelMap : List (String × String)) (name : String) : String :=
  match modelMap.lookup name with
  | some mapped => if mapped = "" then name else mapped
  | none => name

def Mapping.follow : Mapping → String → String
  | .table modelMap => ModelMapping.follow modelMap
  | _ => id

theorem followValue (moves : follow modelMap name ≠ name) :
    follow modelMap name ∈ modelMap.map Prod.snd ∧ follow modelMap name ≠ "" := by
  unfold follow at moves ⊢
  split at moves
  · rename_i mapped found
    split at moves
    · exact absurd rfl moves
    rename_i named
    rw [if_neg named]
    obtain ⟨_,_,parts,_⟩ := lookup_eq_some_iff.mp found
    exact ⟨mem_map.mpr ⟨(name,mapped),by simp [parts],rfl⟩,named⟩
  · exact absurd rfl moves

def Reached (f : String → String) (origin name : String) : Walk → Prop
  | .unmapped => Ends f name origin
  | .ended currentModel isModelMapped =>
    Ends f name currentModel ∧ (isModelMapped = false → currentModel = name) ∧ (isModelMapped → currentModel ≠ "")
  | .cycle => Cycles f name

theorem walkReaches {modelMap origin name fuel i met current mapped} (trail : Trail (follow modelMap) name i met current)
    (values : ∀ y ∈ met, y = name ∨ y ∈ modelMap.map Prod.snd) (enough : modelMap.length + 1 ≤ fuel + i)
    (unmoved : mapped = false → current = name) (moved : mapped → current ≠ "") :
    ∃ r, walk modelMap origin fuel met current mapped = some r ∧ Reached (follow modelMap) origin name r := by
  induction fuel generalizing i met current mapped with
  | zero =>
    -- the trail would hold more names than the table has
    have held : met ⊆ name::modelMap.map Prod.snd := fun y member => mem_cons.mpr (values y member)
    have short := (subperm_of_subset trail.once held).length_le
    rw [trail.length] at short
    simp at short
    omega
  | succ fuel ih =>
    have ends : follow modelMap current = current → Ends (follow modelMap) name current := fun stays =>
      ⟨⟨i,trail.here⟩,stays⟩
    have same : ∀ m, modelMap.lookup current = some m → m ≠ "" → follow modelMap current = m := by
      intro m found named
      simp [follow,found,named]
    have stop : ∀ stays : follow modelMap current = current, Reached (follow modelMap) origin name (.ended current mapped) :=
      fun stays => ⟨ends stays,unmoved,moved⟩
    unfold walk
    split
    · rename_i found
      exact ⟨_,rfl,stop (by simp [follow,found])⟩
    rename_i m found
    split
    · rename_i empty
      exact ⟨_,rfl,stop (by simp [follow,found,empty])⟩
    rename_i named
    have next := same m found named
    split
    · rename_i again
      split
      · rename_i loop
        have stays : follow modelMap current = current := next.trans loop
        split
        · rename_i own
          exact ⟨_,rfl,own ▸ ends stays⟩
        · exact ⟨_,rfl,ends stays,fun no => (by cases no),fun _ => loop ▸ named⟩
      · rename_i other
        exact ⟨_,rfl,trailCycles trail (next.symm ▸ again) (fun stays => other (next.symm.trans stays))⟩
    rename_i fresh
    have moves : follow modelMap current ≠ current := by
      intro stays
      have member : current ∈ met := (trail.all current).mpr ⟨i,le_refl i,trail.here⟩
      rw [← next,stays] at fresh
      exact fresh member
    subst next
    refine ih (trailNext trail fresh) ?_ (by omega) (fun no => (by cases no)) (fun _ => named)
    intro y member
    rcases mem_cons.mp member with rfl | old
    · exact .inr (followValue moves).1
    · exact values y old

/- An attempt that depends on its own channel only: the end of the chain, or an error where it cycles. -/
def Expected (name : String) (mapping : Mapping) (outcome : Except String String) : Prop :=
  if mapping = .invalid then outcome = .error "unmarshal_model_mapping_failed"
  else (∀ upstream, outcome = .ok upstream ↔ Ends mapping.follow name upstream) ∧
    ((∃ e, outcome = .error e) ↔ Cycles mapping.follow name)

theorem expectedOk (valid : mapping ≠ .invalid)
    (ends : Ends mapping.follow name upstream) : Expected name mapping (.ok upstream) := by
  rw [Expected,if_neg valid]
  refine ⟨fun _ => ⟨?_,fun ends' => congrArg _ (endsUnique ends ends')⟩,?_,fun cycles => absurd cycles (endsNotCycles ends)⟩
  · intro same
    cases same
    exact ends
  · rintro ⟨e,wrong⟩
    cases wrong

theorem expectedError (valid : mapping ≠ .invalid) (e)
    (cycles : Cycles mapping.follow name) : Expected name mapping (.error e) := by
  rw [Expected,if_neg valid]
  refine ⟨fun _ => ⟨fun wrong => (by cases wrong),fun ends => absurd cycles (endsNotCycles ends)⟩,fun _ => cycles,fun _ => ⟨e,rfl⟩⟩

variable {mode : Mode} {name current : String} {mapped : Bool} {info : RelayInfo} {mapping : Mapping}

theorem restoreUpstream (start : info.upstreamModelName = info.originModelName)
    (unmoved : mapped = false → current = mappingModelName mode info.originModelName) (moved : mapped → current ≠ "") :
    (restoreCompact mode (mappingModelName mode info.originModelName) {info with
      isModelMapped := mapped
      upstreamModelName := if mapped then current else info.upstreamModelName}).upstreamModelName = current := by
  cases mapped with
  | true => cases mode <;> simp [restoreCompact,moved rfl]
  | false => cases mode <;> simp [restoreCompact,unmoved rfl,start,mappingModelName]

def nextName (mode : Mode) (name upstream : String) : String :=
  match mode with
  | .responsesCompact => mappingModelName mode (withCompactModelSuffix upstream)
  | _ => name

def Renames (mode : Mode) (name : String) : Prop :=
  match mode with
  | .geminiNoThinking hasModelBillingConfig =>
    ¬contains name "-nothinking" ∧ hasModelBillingConfig (name ++ "-nothinking")
  | _ => False

theorem noThinkingKept (kept : ¬Renames mode (mappingModelName mode info.originModelName)) : noThinking mode info = info := by
  cases mode with
  | plain | responsesCompact => rfl
  | geminiNoThinking => exact if_neg kept

inductive Fits (mode : Mode) (name : String) (mapping : Mapping) : Except String RelayInfo → Prop
  | failed (e : String) (expected : Expected name mapping (.error e)) : Fits mode name mapping (.error e)
  | used (after : RelayInfo) (expected : Expected name mapping (.ok after.upstreamModelName))
      (next : mappingModelName mode after.originModelName = name ∨
        mappingModelName mode after.originModelName = nextName mode name after.upstreamModelName) :
      Fits mode name mapping (.ok after)

theorem helperFits (mode mapping info) :
    ∃ r, modelMappedHelper mode mapping (initChannelMeta info) = some r ∧
      Fits mode (mappingModelName mode info.originModelName) mapping r := by
  have start : (initChannelMeta info).upstreamModelName = (initChannelMeta info).originModelName := rfl
  cases mapping with
  | absent =>
    have same := @restoreUpstream mode _ false _ start (fun _ => rfl) (fun no => (by cases no))
    exact ⟨_,rfl,.used _ (expectedOk (fun wrong => (by cases wrong)) ⟨⟨0,same.symm⟩,rfl⟩) (.inr (by cases mode <;> rfl))⟩
  | invalid => exact ⟨_,rfl,.failed _ (by rw [Expected,if_pos rfl])⟩
  | table modelMap =>
    obtain ⟨r,walked,reached⟩ := @walkReaches modelMap info.originModelName _ (modelMap.length + 1) 0 _ _ false
      (trailStart (follow modelMap) (mappingModelName mode info.originModelName)) (by simp) (by omega) (fun _ => rfl)
      (fun no => (by cases no))
    have valid : Mapping.table modelMap ≠ .invalid := fun wrong => by cases wrong
    refine ⟨_,congrArg (Option.map _) walked,?_⟩
    cases r with
    | unmapped => exact .used _ (expectedOk valid reached) (.inl rfl)
    | ended _ mapped =>
      obtain ⟨ends,unmoved,moved⟩ := reached
      have same := @restoreUpstream mode _ mapped _ start unmoved moved
      exact .used _ (expectedOk valid (same.symm ▸ ends)) (.inr (by cases mode <;> rfl))
    | cycle => exact .failed _ (expectedError valid _ reached)

/- What keeps an attempt from disturbing the next one: a chain that ends leads back to the name it started from. -/
def Undisturbed (mode : Mode) (name : String) (mapping : Mapping) : Prop :=
  mapping = .invalid ∨ ∀ upstream, Ends mapping.follow name upstream → nextName mode name upstream = name

theorem attemptExpected (kept : ¬Renames mode (mappingModelName mode info.originModelName)) :
    ∃ outcome next, attempt mode mapping info = some (outcome,next) ∧
      Expected (mappingModelName mode info.originModelName) mapping outcome ∧
      (Undisturbed mode (mappingModelName mode info.originModelName) mapping →
        mappingModelName mode next.originModelName = mappingModelName mode info.originModelName) := by
  obtain ⟨r,helped,fits⟩ := helperFits mode mapping info
  unfold attempt
  rw [helped]
  cases fits with
  | failed e expected => exact ⟨_,_,rfl,expected,fun _ => rfl⟩
  | used after expected next =>
    have same : noThinking mode after = after := by
      refine noThinkingKept ?_
      rcases next with same | same
      · rwa [same]
      cases mode with
      | plain | responsesCompact => exact id
      | geminiNoThinking => rwa [same]
    refine ⟨_,_,rfl,same.symm ▸ expected,fun undisturbed => ?_⟩
    rw [same]
    rcases next with same | moved
    · exact same
    rw [moved]
    rcases undisturbed with invalid | back
    · rw [Expected,if_pos invalid] at expected
      cases expected
    have valid : mapping ≠ .invalid := by
      intro wrong
      rw [Expected,if_pos wrong] at expected
      cases expected
    rw [Expected,if_neg valid] at expected
    exact back _ ((expected.1 _).mp rfl)

theorem relayExpected (mappings) (kept : ¬Renames mode name)
    (starts : mappingModelName mode info.originModelName = name)
    (undisturbed : ∀ mapping ∈ mappings.dropLast, Undisturbed mode name mapping) :
    ∃ outcomes, relay mode info mappings = some outcomes ∧ List.Forall₂ (Expected name) mappings outcomes := by
  induction mappings generalizing info with
  | nil => exact ⟨[],rfl,.nil⟩
  | cons mapping rest ih =>
    subst starts
    obtain ⟨outcome,_,tried,expected,back⟩ := @attemptExpected mode info mapping kept
    cases rest with
    | nil => exact ⟨[outcome],by simp [relay,tried],.cons expected .nil⟩
    | cons =>
      obtain ⟨outcomes,later,fits⟩ := ih (back (undisturbed mapping (mem_cons_self)))
        (fun m member => undisturbed m (mem_cons_of_mem _ member))
      exact ⟨outcome::outcomes,by rw [relay,tried]; simp [later],.cons expected fits⟩

theorem requestName (mode model) :
    mappingModelName mode (getModelRequest mode model) = mappingModelName mode model := by
  cases mode with
  | plain | geminiNoThinking => rfl
  | responsesCompact =>
    show trimSuffix (if model = "" then model else withCompactModelSuffix model) compactModelSuffix =
      trimSuffix model compactModelSuffix
    unfold withCompactModelSuffix
    split
    · rfl
    split
    · rfl
    · rename_i plain
      rw [(trimSuffixAppend model compactModelSuffix).2,trimSuffix,if_neg plain]

theorem mappingIndependent (mode : Mode) (model : String) (mappings : List Mapping)
    (kept : ¬Renames mode (mappingModelName mode model))
    (undisturbed : ∀ mapping ∈ mappings.dropLast, Undisturbed mode (mappingModelName mode model) mapping) :
    ∃ outcomes, relayRequest mode model mappings = some outcomes ∧
      List.Forall₂ (Expected (mappingModelName mode model)) mappings outcomes :=
  relayExpected mappings kept (requestName mode model) undisturbed

theorem unmappedThenMapped :
    relayRequest .responsesCompact "gpt-5" [.absent,.table [("gpt-5","gpt-5-mini")]] = some [.ok "gpt-5",.ok "gpt-5-mini"] ∧
      ∃ outcomes, relayRequest .responsesCompact "gpt-5" [.absent,.table [("gpt-5","gpt-5-mini")]] = some outcomes ∧
        List.Forall₂ (Expected "gpt-5") [.absent,.table [("gpt-5","gpt-5-mini")]] outcomes := by
  refine ⟨by decide +kernel,mappingIndependent .responsesCompact "gpt-5" _ id ?_⟩
  intro mapping member
  have only : mapping = .absent := by simpa using member
  subst only
  refine .inr fun _ ends => ?_
  rw [endsUnique ends ⟨⟨0,rfl⟩,rfl⟩]
  decide +kernel

theorem earlierMappingKept :
    relayRequest .responsesCompact "gpt-5" [.table [("gpt-5","gpt-5-azure")],.table [("gpt-5","gpt-5-mini")]] =
        some [.ok "gpt-5-azure",.ok "gpt-5-azure"] ∧
      ¬Expected "gpt-5" (.table [("gpt-5","gpt-5-mini")]) (.ok "gpt-5-azure") ∧
      relayRequest (.geminiNoThinking fun _ => true) "gemini" [.absent] = some [.ok "gemini-nothinking"] ∧
      ¬Expected "gemini" .absent (.ok "gemini-nothinking") := by
  have other : ∀ {name mapping up wrong}, mapping ≠ Mapping.invalid → Ends mapping.follow name up → up ≠ wrong →
      ¬Expected name mapping (.ok wrong) := by
    intro name mapping up wrong valid ends differs expected
    rw [Expected,if_neg valid] at expected
    exact differs (endsUnique ends ((expected.1 _).mp rfl))
  refine ⟨by decide +kernel,?_,by decide +kernel,?_⟩
  · exact other (by decide) ⟨⟨1,rfl⟩,rfl⟩ (show "gpt-5-mini" ≠ "gpt-5-azure" by decide)
  · exact other (by decide) ⟨⟨0,rfl⟩,rfl⟩ (by decide)

end Omnigate.ModelMapping
