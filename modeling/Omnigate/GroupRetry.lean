import Omnigate.Machine
import Omnigate.TextQuota

/-! The retry loop of a relayed text request: the channel of the distributor, the price before the first attempt, and
the selection of another channel, possibly in the next auto group, before every retry. The settings stay as they are;
which channel of a group is picked at which priority is the choice of each turn. -/
namespace Omnigate.GroupRetry

open Machine TextQuota Option

structure Request where
  (modelName userGroup tokenGroup : String)
  autoGroupsEnabled : Bool
  autoGroups : List String
  crossGroupRetry : Bool
  retryTimes : Nat
  compact : Bool
  deriving DecidableEq, Repr

structure Context where
  autoGroup : Option String := none
  autoGroupIndex : Option Nat := none
  deriving DecidableEq, Repr

structure RetryParam where
  retry : Nat := 0
  resetNextTry : Bool := false
  deriving DecidableEq, Repr

def RetryParam.increaseRetry (p : RetryParam) : RetryParam :=
  if p.resetNextTry then {p with resetNextTry := false} else {p with retry := p.retry + 1}

abbrev Pick := String → Nat → Except String (Option Nat)

def autoSelect (r : Request) (pick : Pick) (start : Nat) :
    Nat → List String → Context → RetryParam → Context × RetryParam × Option (Nat × String)
  | _,[],ctx,param => (ctx,param,none)
  | i,autoGroup::rest,ctx,param =>
    let priorityRetry := if i > start then 0 else param.retry
    match pick autoGroup priorityRetry with
    | .ok (some channel) =>
        if r.crossGroupRetry ∧ priorityRetry ≥ r.retryTimes then
          (⟨some autoGroup,some (i+1)⟩,⟨0,true⟩,some (channel,autoGroup))
        else (⟨some autoGroup,some i⟩,param,some (channel,autoGroup))
    | _ => autoSelect r pick start (i+1) rest {ctx with autoGroupIndex := some (i+1)} {param with retry := 0}

def cacheGetRandomSatisfiedChannel (r : Request) (pick : Pick) (ctx : Context) (param : RetryParam) :
    Context × RetryParam × Except String (Option Nat) × String :=
  if r.tokenGroup = "auto" then
    if ¬r.autoGroupsEnabled then (ctx,param,.error "auto groups is not enabled",r.tokenGroup)
    else
      let start := ctx.autoGroupIndex.getD 0
      match autoSelect r pick start start (r.autoGroups.drop start) ctx param with
      | (ctx,param,some (channel,group)) => (ctx,param,.ok (some channel),group)
      | (ctx,param,none) => (ctx,param,.ok none,r.tokenGroup)
  else (ctx,param,pick r.tokenGroup param.retry,r.tokenGroup)

inductive Phase where
  | trying
  | settled (served : Served) (result : Settled)
  | failed (message : String)

structure State where
  ctx : Context
  param : RetryParam := {}
  info : RelayInfo
  channelMeta : Bool := false
  channel : Nat
  group : String
  phase : Phase := .trying

/- What the distributor finds: a channel the token names, one kept for the client if it is enabled for a group, and
the selection at priority 0. -/
structure Arrival where
  specificChannel : Option Nat := none
  preferred : Option (Nat × (String → Bool)) := none
  pick : Pick

def preferredChannel (r : Request) (arrival : Arrival) : Option (Context × Nat × String) :=
  arrival.preferred.bind fun (channel,enabledForGroup) =>
    if r.tokenGroup = "auto" then
      (r.autoGroups.find? enabledForGroup).map fun group => ({autoGroup := some group},channel,group)
    else if enabledForGroup r.tokenGroup then some ({},channel,r.tokenGroup)
    else none

def distribute (r : Request) (arrival : Arrival) : Option (Context × Nat × String) :=
  match arrival.specificChannel with
  | some channel => some ({},channel,r.tokenGroup)
  | none =>
    match preferredChannel r arrival with
    | some found => some found
    | none =>
      match cacheGetRandomSatisfiedChannel r arrival.pick {} {} with
      | (ctx,_,.ok (some channel),group) => some (ctx,channel,group)
      | _ => none

def start (b : PriceBook) (r : Request) (arrival : Arrival) (promptTokens : Int) (tokenMeta : TokenCountMeta)
    (trusted : Bool) : Option State :=
  match distribute r arrival with
  | none => none
  | some (ctx,channel,group) =>
    let info : RelayInfo :=
      {originModelName := r.modelName, userGroup := r.userGroup, usingGroup := r.tokenGroup
       estimatePromptTokens := promptTokens}
    match modelPriceHelper b ctx.autoGroup info promptTokens tokenMeta with
    | .error _ => none
    | .ok priced =>
      let preConsumed := if priced.priceData.freeModel ∨ trusted then 0 else priced.priceData.quotaToPreConsume
      let estimate := (priced.tieredBillingSnapshot.map (·.estimatedQuotaBeforeGroup)).getD 0
      let held : Component := ⟨.tokens,estimate,priced.priceData.groupRatioInfo.groupRatio⟩
      some {ctx := ctx, info := {priced with finalPreConsumedQuota := preConsumed, heldEstimate := held}
            channel := channel, group := group}

/- The facts about a failed attempt that decide on a retry; the last is the decision by status code. -/
structure Failure where
  message : String
  (affinityFailed channelError skipRetry specificChannel : Bool := false)
  retryByCode : Bool := true
  deriving DecidableEq, Repr

def shouldRetry (f : Failure) (retryTimes : Int) : Bool :=
  if f.affinityFailed then false
  else if f.channelError then true
  else if f.skipRetry then false
  else if retryTimes ≤ 0 then false
  else if f.specificChannel then false
  else f.retryByCode

inductive Outcome where
  | served (served : Served)
  | failed (failure : Failure)

structure Turn where
  pick : Pick
  (setupError bodyError : Option String := none)
  outcome : Outcome

def getChannel (b : PriceBook) (r : Request) (turn : Turn) (st : State) : State × Option String :=
  if ¬st.channelMeta then (st,none)
  else
    match cacheGetRandomSatisfiedChannel r turn.pick st.ctx st.param with
    | (ctx,param,found,selectGroup) =>
      let (groupRatioInfo,info) := handleGroupRatio b ctx.autoGroup st.info
      let info := {info with priceData := {info.priceData with groupRatioInfo := groupRatioInfo}}
      let next := {st with ctx := ctx, param := param, info := info}
      match found with
      | .error e =>
          (next,some ("获取分组 " ++ selectGroup ++ " 下模型 " ++ r.modelName ++ " 的可用渠道失败（retry）: " ++ e))
      | .ok none =>
          (next,some ("分组 " ++ selectGroup ++ " 下模型 " ++ r.modelName ++ " 的可用渠道不存在（retry）"))
      | .ok (some channel) =>
        match turn.setupError with
        | some e => (next,some e)
        | none => ({next with channel := channel, group := selectGroup},none)

/- A compact Responses request is priced once more before it is settled. -/
def settle (b : PriceBook) (t : ToolPrices) (r : Request) (served : Served) (st : State) : State :=
  if r.compact then
    match modelPriceHelper b st.ctx.autoGroup st.info st.info.estimatePromptTokens {} with
    | .error e => {st with phase := .failed e}
    | .ok info => {st with info := info, phase := .settled served (postTextConsumeQuota t info served)}
  else {st with phase := .settled served (postTextConsumeQuota t st.info served)}

def retry (r : Request) (failure : Failure) (st : State) : State :=
  let param := st.param.increaseRetry
  if shouldRetry failure (r.retryTimes - st.param.retry) ∧ param.retry ≤ r.retryTimes then
    {st with param := param, channelMeta := true}
  else {st with phase := .failed failure.message}

def step (b : PriceBook) (t : ToolPrices) (r : Request) (st : State) (turn : Turn) : Option State :=
  match st.phase with
  | .trying =>
    match getChannel b r turn st with
    | (next,some e) => some {next with phase := .failed e}
    | (next,none) =>
      match turn.bodyError with
      | some e => some {next with phase := .failed e}
      | none =>
        match turn.outcome with
        | .served served => some (settle b t r served next)
        | .failed failure => some (retry r failure next)
  | _ => none

theorem autoSelectGroup {start}
    (h : autoSelect r pick start i groups ctx param = (ctx',param',some (channel,group))) :
    ctx'.autoGroup = some group := by
  induction groups generalizing i ctx param with
  | nil => simp [autoSelect] at h
  | cons autoGroup _ ih =>
    unfold autoSelect at h
    dsimp only at h
    generalize (if i > start then 0 else param.retry) = priorityRetry at h
    split at h
    · split at h <;> cases h <;> rfl
    · exact ih h

theorem selectedGroup (plain : r.tokenGroup ≠ "auto" → ctx.autoGroup = none)
    (h : cacheGetRandomSatisfiedChannel r pick ctx param = (ctx',param',.ok (some channel),group)) :
    ctx'.autoGroup.getD r.tokenGroup = group ∧ (r.tokenGroup ≠ "auto" → ctx'.autoGroup = none) ∧
      (ctx'.autoGroup = none → ctx.autoGroup = none) := by
  unfold cacheGetRandomSatisfiedChannel at h
  split at h
  · rename_i auto
    split at h
    · cases h
    dsimp only at h
    split at h
    · rename_i found
      cases h
      have isGroup := autoSelectGroup found
      simp [isGroup,auto]
    · cases h
  · rename_i notAuto
    simp only [Prod.mk.injEq] at h
    obtain ⟨rfl,_,_,rfl⟩ := h
    simp [plain notAuto]

theorem preferredGroup (h : preferredChannel r arrival = some (ctx,channel,group)) :
    ctx.autoGroup.getD r.tokenGroup = group ∧ (r.tokenGroup ≠ "auto" → ctx.autoGroup = none) := by
  obtain ⟨_,_,found⟩ := bind_eq_some_iff.mp h
  dsimp only at found
  split at found
  · rename_i auto
    obtain ⟨_,_,same⟩ := map_eq_some_iff.mp found
    cases same
    exact ⟨rfl,fun notAuto => absurd auto notAuto⟩
  · split at found <;> cases found
    exact ⟨rfl,fun _ => rfl⟩

theorem distributedGroup (h : distribute r arrival = some (ctx,channel,group)) :
    ctx.autoGroup.getD r.tokenGroup = group ∧ (r.tokenGroup ≠ "auto" → ctx.autoGroup = none) := by
  unfold distribute at h
  split at h
  · cases h
    exact ⟨rfl,fun _ => rfl⟩
  split at h
  · rename_i found
    cases h
    exact preferredGroup found
  split at h <;> cases h
  rename_i found
  obtain ⟨same,none,_⟩ := selectedGroup (fun _ => rfl) found
  exact ⟨same,none⟩

structure Priced (b : PriceBook) (r : Request) (first st : State) : Prop where
  user : st.info.userGroup = r.userGroup
  selected : st.ctx.autoGroup.getD r.tokenGroup = st.group
  plain : r.tokenGroup ≠ "auto" → st.ctx.autoGroup = none
  usingGroup : st.info.usingGroup = st.group
  preConsumed : st.info.finalPreConsumedQuota = first.info.finalPreConsumedQuota
  held : st.info.heldEstimate.groupRatio = ratioOf b r.userGroup first.group
  refreshed : st.info.priceData.groupRatioInfo.groupRatio = ratioOf b r.userGroup st.group
  frozen : if b.tieredExpr then ∃ snap, st.info.tieredBillingSnapshot = some snap ∧
      snap.groupRatio = ratioOf b r.userGroup first.group ∧ b.billingExpr = some snap.expr
    else st.info.tieredBillingSnapshot = none

theorem startPriced
    (h : start b r arrival promptTokens tokenMeta trusted = some st) : st.phase = .trying ∧ Priced b r st st := by
  unfold start at h
  split at h
  · cases h
  rename_i _ _ _ found
  dsimp only at h
  split at h
  · cases h
  rename_i _ pricing
  cases h
  obtain ⟨same,plain⟩ := distributedGroup found
  obtain ⟨refreshed,usingGroup,user,_,_,frozen⟩ := modelPriceHelperSpec pricing
  rw [same] at refreshed usingGroup frozen
  exact ⟨rfl,⟨user,same,plain,usingGroup,rfl,refreshed,refreshed,frozen⟩⟩

theorem Priced.readGroup (priced : Priced b r first st) :
    st.ctx.autoGroup.getD st.info.usingGroup = st.group := by
  rw [priced.usingGroup]
  cases isAuto : st.ctx.autoGroup with
  | none => rfl
  | some =>
    have selected := priced.selected
    rw [isAuto] at selected
    exact selected

theorem getChannelPriced (priced : Priced b r first st)
    (h : getChannel b r turn st = (next,none)) : Priced b r first next ∧ next.phase = st.phase := by
  unfold getChannel at h
  split at h
  · cases h
    exact ⟨priced,rfl⟩
  rcases selection : cacheGetRandomSatisfiedChannel r turn.pick st.ctx st.param with ⟨ctx,param,_,group⟩
  obtain ⟨ratio,info⟩ := handleGroupRatioSpec b ctx.autoGroup st.info
  rw [selection] at h
  dsimp only at h
  split at h
  · cases h
  · cases h
  split at h
  · cases h
  cases h
  obtain ⟨same,plain,kept⟩ := selectedGroup priced.plain selection
  -- an absent auto_group means a token with a plain group, which the request still uses
  have sameUsing : ctx.autoGroup.getD st.info.usingGroup = group := by
    cases isAuto : ctx.autoGroup with
    | some => rw [isAuto] at same; exact same
    | none =>
      rw [isAuto] at same
      have before := priced.selected
      rw [kept isAuto] at before
      exact priced.usingGroup.trans (before.symm.trans same)
  rw [sameUsing,priced.user] at ratio
  rw [info,sameUsing]
  exact ⟨⟨priced.user,same,plain,rfl,priced.preConsumed,priced.held,ratio,priced.frozen⟩,rfl⟩

def keepsEstimate (b : PriceBook) (served : Served) (first : State) : Prop :=
  ∃ usage expr, served.usage = some usage ∧ b.billingExpr = some expr ∧
    estimateCharged expr (tieredParams expr served usage) first.info.finalPreConsumedQuota = true

/- The settled request has one ratio: it is not priced by an expression, or has no usage, or both groups have the same
ratio, or it is priced again before settlement. -/
def oneRatio (b : PriceBook) (r : Request) (served : Served) (first : State) (group : String) : Prop :=
  b.tieredExpr = false ∨ served.usage = none ∨ ratioOf b r.userGroup first.group = ratioOf b r.userGroup group ∨
    (r.compact = true ∧ ¬keepsEstimate b served first)

def Sound (b : PriceBook) (r : Request) (first st : State) : Prop :=
  match st.phase with
  | .trying => Priced b r first st
  | .failed _ => True
  | .settled served result =>
      (∀ c ∈ result.components, c.groupRatio = ratioOf b r.userGroup st.group) ↔ oneRatio b r served first st.group

theorem settlePlain {b t r served first st} (priced : Priced b r first st) (notCompact : ¬r.compact = true) :
    (∀ c ∈ (postTextConsumeQuota t st.info served).components, c.groupRatio = ratioOf b r.userGroup st.group) ↔
      oneRatio b r served first st.group := by
  rw [settledRatios t st.info served _ priced.refreshed,priced.held]
  have frozen := priced.frozen
  split at frozen
  · rename_i tiered
    obtain ⟨_,isSnap,snapRatio,_⟩ := frozen
    cases isUsage : served.usage with
    | none => simp [oneRatio,isUsage]
    | some => simp [oneRatio,isUsage,isSnap,snapRatio,tiered,notCompact]
  · rename_i plain
    simp [frozen,oneRatio,plain]

theorem settleCompact {b t r served first st info} (priced : Priced b r first st) (compact : r.compact = true)
    (pricing : modelPriceHelper b st.ctx.autoGroup st.info st.info.estimatePromptTokens {} = .ok info) :
    (∀ c ∈ (postTextConsumeQuota t info served).components, c.groupRatio = ratioOf b r.userGroup st.group) ↔
      oneRatio b r served first st.group := by
  obtain ⟨refreshed,_,_,samePre,sameHeld,frozen⟩ := modelPriceHelperSpec pricing
  rw [priced.readGroup,priced.user] at refreshed frozen
  rw [settledRatios t info served _ refreshed,samePre,sameHeld,priced.held,priced.preConsumed]
  split at frozen
  · rename_i tiered
    obtain ⟨snap,isSnap,snapRatio,isExpr⟩ := frozen
    cases isUsage : served.usage with
    | none => simp [oneRatio,isUsage]
    | some usage =>
      by_cases charged : estimateCharged snap.expr (tieredParams snap.expr served usage)
          first.info.finalPreConsumedQuota = true
      · simp [oneRatio,keepsEstimate,isUsage,isSnap,isExpr,tiered,compact,charged]
      · simp [oneRatio,keepsEstimate,isUsage,isSnap,isExpr,snapRatio,compact,charged]
  · rename_i plain
    have absent := priced.frozen
    rw [if_neg plain] at absent
    simp [frozen,absent,oneRatio,plain]

theorem settleSound (priced : Priced b r first st) :
    Sound b r first (settle b t r served st) := by
  unfold settle
  split
  · rename_i compact
    split
    · trivial
    rename_i info pricing
    have sound := @settleCompact b t r served first st info priced compact pricing
    exact sound
  · rename_i notCompact
    have sound := @settlePlain b t r served first st priced notCompact
    exact sound

theorem retrySound {failure} (priced : Priced b r first st) (trying : st.phase = .trying) :
    Sound b r first (retry r failure st) := by
  unfold retry
  dsimp only
  split
  · rw [trying]
    exact {priced with}
  · trivial

theorem stepSound {b} (sound : Sound b r first st)
    (h : step b t r st turn = some next) : Sound b r first next := by
  unfold step at h
  split at h
  · rename_i trying
    have priced : Priced b r first st := by simpa [Sound,trying] using sound
    split at h
    · cases h
      trivial
    rename_i _ channel
    obtain ⟨chosenPriced,samePhase⟩ := getChannelPriced priced channel
    split at h
    · cases h
      trivial
    split at h <;> cases h
    · exact settleSound chosenPriced
    · exact retrySound chosenPriced (samePhase.trans trying)
  · cases h

theorem oneGroupRatioIff {b t r arrival promptTokens tokenMeta trusted first turns out served result}
    (started : start b r arrival promptTokens tokenMeta trusted = some first)
    (ran : run (step b t r) first turns = some out) (done : out.phase = .settled served result) :
    (∀ c ∈ result.components, c.groupRatio = ratioOf b r.userGroup out.group) ↔
      oneRatio b r served first out.group := by
  obtain ⟨trying,priced⟩ := startPriced started
  have firstSound : Sound b r first first := by simpa [Sound,trying] using priced
  have sound := runAlways (fun _ _ _ sound moved => stepSound sound moved) firstSound ran
  simpa [Sound,done] using sound

def ratioBook : PriceBook :=
  {modelPrice := none, modelRatio := (1,true,"gpt"), completionRatio := 1, cacheRatio := 1, createCacheRatio := 1
   imageRatio := 1, tieredExpr := false, billingExpr := some ⟨fun params => .ok (params.p * 3),[]⟩
   requestInputError := none, preConsumedQuota := 500, quotaPerUnit := 500000, enableFreeModelPreConsume := false
   acceptUnsetRatioModel := false, isAdmin := false, formatFloat := fun _ => ""
   groupRatio := fun name => if name = "vip" then some 2 else some 1, groupGroupRatio := fun _ _ => none}

def tieredBook : PriceBook := {ratioBook with tieredExpr := true}

def toolPrices : ToolPrices := ⟨10,10,10,1,0,none,500000⟩

def autoRequest : Request := ⟨"gpt","user","auto",true,["default","vip"],true,1,false⟩

def onePriority : Pick := fun group priority =>
  .ok (if priority = 0 then some (if group = "vip" then 2 else 1) else none)

def searched : Served := {usage := some {promptTokens := 1000, totalTokens := 1000}, claudeWebSearchRequests := 1}

def movedTurns : List Turn :=
  [⟨onePriority,none,none,.failed {message := "bad gateway"}⟩,⟨onePriority,none,none,.served searched⟩]

def movedRun (b : PriceBook) : Option (State × State) :=
  (start b autoRequest ⟨none,none,onePriority⟩ 1000 {} false).bind fun first =>
    (run (step b toolPrices autoRequest) first movedTurns).map fun out => (first,out)

structure Observed where
  (before after : String)
  components : List Component
  quota : Int
  deriving DecidableEq

def observed (b : PriceBook) : Option Observed :=
  (movedRun b).bind fun (first,out) =>
    match out.phase with
    | .settled _ result => some ⟨first.group,out.group,result.components,result.quota⟩
    | _ => none

theorem observedRun (h : observed b = some seen) :
    ∃ first out served result, start b autoRequest ⟨none,none,onePriority⟩ 1000 {} false = some first ∧
        run (step b toolPrices autoRequest) first movedTurns = some out ∧ out.phase = .settled served result ∧
        first.group = seen.before ∧ out.group = seen.after ∧ result.components = seen.components ∧
        result.quota = seen.quota := by
  obtain ⟨⟨first,out⟩,moved,facts⟩ := bind_eq_some_iff.mp h
  obtain ⟨_,started,later⟩ := bind_eq_some_iff.mp moved
  obtain ⟨_,ran,same⟩ := map_eq_some_iff.mp later
  cases same
  dsimp only at facts
  cases done : out.phase with
  | settled served result =>
    rw [done] at facts
    cases facts
    exact ⟨first,out,served,result,started,ran,done,rfl,rfl,rfl,rfl⟩
  | trying | failed => rw [done] at facts; cases facts

theorem ratioPricedAfterMove :
    ∃ first out served result, start ratioBook autoRequest ⟨none,none,onePriority⟩ 1000 {} false = some first ∧
        run (step ratioBook toolPrices autoRequest) first movedTurns = some out ∧
        out.phase = .settled served result ∧ first.group = "default" ∧ out.group = "vip" ∧
        result.components = [⟨.tokens,1000,2⟩,⟨.claudeWebSearch,5000,2⟩] ∧ result.quota = 12000 ∧
        ∀ c ∈ result.components, c.groupRatio = ratioOf ratioBook autoRequest.userGroup out.group := by
  have runs : observed ratioBook =
      some ⟨"default","vip",[⟨.tokens,1000,2⟩,⟨.claudeWebSearch,5000,2⟩],12000⟩ := by
    decide +kernel
  obtain ⟨first,out,served,result,started,ran,done,fromGroup,toGroup,components,quota⟩ := observedRun runs
  exact ⟨first,out,served,result,started,ran,done,fromGroup,toGroup,components,quota,
    (oneGroupRatioIff started ran done).mpr (Or.inl rfl)⟩

theorem twoRatiosInOneCharge :
    ∃ first out served result, start tieredBook autoRequest ⟨none,none,onePriority⟩ 1000 {} false = some first ∧
        run (step tieredBook toolPrices autoRequest) first movedTurns = some out ∧
        out.phase = .settled served result ∧ out.group = "vip" ∧
        ratioOf tieredBook autoRequest.userGroup out.group = 2 ∧
        result.components = [⟨.tokens,1500,1⟩,⟨.claudeWebSearch,5000,2⟩] ∧ result.quota = 11500 := by
  have runs : observed tieredBook =
      some ⟨"default","vip",[⟨.tokens,1500,1⟩,⟨.claudeWebSearch,5000,2⟩],11500⟩ := by
    decide +kernel
  obtain ⟨first,out,served,result,started,ran,done,_,toGroup,components,quota⟩ := observedRun runs
  have ratio : ratioOf tieredBook autoRequest.userGroup out.group = 2 := by
    rw [toGroup]
    decide +kernel
  exact ⟨first,out,served,result,started,ran,done,toGroup,ratio,components,quota⟩

end Omnigate.GroupRetry
