import Omnigate.BillingDirect
import Omnigate.BillingRun
import Omnigate.QuotaMath

/-! A realtime session over two websockets. The readers of client and upstream count tokens and charge a turn when a
response is done; the handler charges what is left when it wakes up, and the session is settled for the summed usage.
Each message is one step; the readers may go on while the handler finishes. Token counts come with the message. -/
namespace Omnigate.Realtime

open Machine Accounts BillingSession BillingConservation BillingDirect QuotaMath Table Option
open SubscriptionStore SubscriptionLedger SubscriptionHold
open BillingRun (plainSetting plainOpening noFaults caller accounts accountsBounded)

structure TokenDetails where
  (textTokens audioTokens : Int)
  deriving DecidableEq, Repr

structure RealtimeUsage where
  (totalTokens inputTokens outputTokens cachedTokens : Int)
  (input output : TokenDetails)
  deriving DecidableEq, Repr

def noUsage : RealtimeUsage := ⟨0,0,0,0,⟨0,0⟩,⟨0,0⟩⟩

def addDetails (a b : TokenDetails) : TokenDetails := ⟨a.textTokens + b.textTokens,a.audioTokens + b.audioTokens⟩

def addUsage (a b : RealtimeUsage) : RealtimeUsage :=
  ⟨a.totalTokens + b.totalTokens,a.inputTokens + b.inputTokens,a.outputTokens + b.outputTokens,
    a.cachedTokens + b.cachedTokens,addDetails a.input b.input,addDetails a.output b.output⟩

def inputUsage (textToken audioToken : Int) : RealtimeUsage :=
  ⟨textToken + audioToken,textToken + audioToken,0,0,⟨textToken,audioToken⟩,⟨0,0⟩⟩

def outputUsage (textToken audioToken : Int) : RealtimeUsage :=
  ⟨textToken + audioToken,0,textToken + audioToken,0,⟨0,0⟩,⟨textToken,audioToken⟩⟩

structure Ratios where
  (completionRatio audioRatio audioCompletionRatio : String → ℚ)

structure QuotaInfo where
  (inputDetails outputDetails : TokenDetails)
  modelName : String
  usePrice : Bool
  (modelPrice modelRatio groupRatio : ℚ)

def calculateAudioQuota (quotaPerUnit : ℚ) (r : Ratios) (info : QuotaInfo) : Int × Option QuotaClamp :=
  if info.usePrice then quotaFromDecimalChecked (info.modelPrice * quotaPerUnit * info.groupRatio)
  else
    let ratio := info.groupRatio * info.modelRatio
    let tokens := info.inputDetails.textTokens + info.outputDetails.textTokens * r.completionRatio info.modelName +
      info.inputDetails.audioTokens * r.audioRatio info.modelName +
      info.outputDetails.audioTokens * r.audioRatio info.modelName * r.audioCompletionRatio info.modelName
    let quota := tokens * ratio
    quotaFromDecimalChecked (if ratio ≠ 0 ∧ quota ≤ 0 then 1 else quota)

/- What stays the same during a session: the models, the group of the user and the price data. Nothing ever sets
`usePrice`, which the turns look at. -/
structure Line where
  (originModelName upstreamModelName userGroup : String)
  (usePrice priceUsePrice : Bool)
  (priceModelRatio priceGroupRatio quotaPerUnit : ℚ)
  formatQuota : Int → String

structure Turn where
  userQuota : Except String Int
  token : Except String (Bool × Int)
  ratios : Ratios
  (modelRatio groupRatio : String → ℚ)
  groupGroupRatio : String → String → Option ℚ
  (autoGroup funding : Option String)
  sub : List (Option String)
  tokenUpdate : Option String

def turnGroup (t : Turn) (usingGroup : String) : String := t.autoGroup.getD usingGroup

def turnQuota (line : Line) (t : Turn) (usingGroup : String) (usage : RealtimeUsage) : Int :=
  let group := turnGroup t usingGroup
  let groupRatio := (t.groupGroupRatio line.userGroup group).getD (t.groupRatio group)
  (calculateAudioQuota line.quotaPerUnit t.ratios
    ⟨usage.input,usage.output,line.originModelName,line.usePrice,0,t.modelRatio line.originModelName,groupRatio⟩).1

def admits (line : Line) (t : Turn) (quota : Int) : Except String Unit :=
  match t.userQuota,t.token with
  | .error e,_ => .error e
  | _,.error e => .error e
  | .ok userQuota,.ok (unlimited,remain) =>
    if userQuota < quota then
      .error ("user quota is not enough, user quota: " ++ line.formatQuota userQuota ++ ", need quota: " ++
        line.formatQuota quota)
    else if ¬unlimited ∧ remain < quota then
      .error ("token quota is not enough, token remain quota: " ++ line.formatQuota remain ++ ", need quota: " ++
        line.formatQuota quota)
    else .ok ()

def readsFail (t : Turn) : Bool := t.userQuota.toOption.isNone ∨ t.token.toOption.isNone

inductive Phase where
  | relaying | flushingUsage | flushingLocal | settling | closed
  deriving DecidableEq, Repr

structure State where
  (usage localUsage sumUsage : RealtimeUsage)
  (clientReads targetReads : Bool)
  phase : Phase
  usingGroup : String
  billing : Option Session
  info : RelayInfo
  world : World
  bill : Option (RealtimeUsage × Ratios)

def preWssConsumeQuota (line : Line) (t : Turn) (usage : RealtimeUsage) (s : State) : Except String Unit × State :=
  if line.usePrice then (.ok (),s)
  else
    let grouped := if readsFail t then s else {s with usingGroup := turnGroup t s.usingGroup}
    let quota := turnQuota line t s.usingGroup usage
    match admits line t quota with
    | .error e => (.error e,grouped)
    | .ok _ => match postConsumeQuota s.info quota t.funding t.sub t.tokenUpdate s.world with
      | (result,info,world) =>
        (result,{grouped with info := info, billing := shareInfo info s.billing, world := world})

/- The sum grows whether or not the charge goes through. -/
def preConsumeUsage (line : Line) (t : Turn) (usage : RealtimeUsage) (s : State) : Except String Unit × State :=
  preWssConsumeQuota line t usage {s with sumUsage := addUsage s.sumUsage usage}

inductive TargetMessage where
  | responseDone (usage : RealtimeUsage) (t : Turn)
  | responseDoneUncounted (tokens : Except String (Int × Int)) (t : Turn)
  | sessionUpdated
  | other (tokens : Except String (Int × Int))

inductive Event where
  | client (tokens : Except String (Int × Int)) (written : Bool)
  | clientClosed
  | target (message : TargetMessage) (written : Bool)
  | targetClosed
  | wake
  | flushUsage (t : Turn)
  | flushLocal (t : Turn)
  | settle (ratios : Ratios) (f : Faults)

def clientMessage (tokens : Except String (Int × Int)) (written : Bool) (s : State) : State :=
  match tokens with
  | .error _ => {s with clientReads := false}
  | .ok (textToken,audioToken) =>
    {s with localUsage := addUsage s.localUsage (inputUsage textToken audioToken), clientReads := written}

/- The upstream reader ends on its first error. A turn that could not be charged keeps its usage, which the handler
charges again. -/
def targetMessage (line : Line) (message : TargetMessage) (s : State) : Except String Unit × State :=
  match message with
  | .responseDone usage t =>
    let counted := {s with usage := addUsage s.usage usage}
    match preConsumeUsage line t counted.usage counted with
    | (.error e,charged) => (.error e,charged)
    | (.ok _,charged) => (.ok (),{charged with usage := noUsage, localUsage := noUsage})
  | .responseDoneUncounted tokens t => match tokens with
    | .error e => (.error e,s)
    | .ok (textToken,audioToken) =>
      let counted := {s with localUsage := addUsage s.localUsage (inputUsage textToken audioToken)}
      match preConsumeUsage line t counted.localUsage counted with
      | (.error e,charged) => (.error e,charged)
      | (.ok _,charged) => (.ok (),{charged with localUsage := noUsage})
  | .sessionUpdated => (.ok (),s)
  | .other tokens => match tokens with
    | .error e => (.error e,s)
    | .ok (textToken,audioToken) =>
      (.ok (),{s with localUsage := addUsage s.localUsage (outputUsage textToken audioToken)})

def finalQuota (line : Line) (r : Ratios) (usage : RealtimeUsage) : Int :=
  if usage.totalTokens = 0 then 0
  else (calculateAudioQuota line.quotaPerUnit r ⟨usage.input,usage.output,line.upstreamModelName,
    line.priceUsePrice,0,line.priceModelRatio,line.priceGroupRatio⟩).1

def postWssConsumeQuota (line : Line) (r : Ratios) (f : Faults) (s : State) : State :=
  match settleBilling f (finalQuota line r s.sumUsage) s.billing s.info s.world with
  | (_,billing,info,world) =>
    {s with billing := billing, info := info, world := world, bill := some (s.sumUsage,r), phase := .closed}

def step (line : Line) (s : State) : Event → Option State
  | .client tokens written => if s.clientReads then some (clientMessage tokens written s) else none
  | .clientClosed => if s.clientReads then some {s with clientReads := false} else none
  | .target message written =>
    if s.targetReads then match targetMessage line message s with
      | (.error _,after) => some {after with targetReads := false}
      | (.ok _,after) => some {after with targetReads := written}
    else none
  | .targetClosed => if s.targetReads then some {s with targetReads := false} else none
  | .wake => if s.phase = .relaying then some {s with phase := .flushingUsage} else none
  | .flushUsage t =>
    if s.phase = .flushingUsage then
      if s.usage.totalTokens = 0 then some {s with phase := .flushingLocal}
      else some {(preConsumeUsage line t s.usage s).2 with phase := .flushingLocal}
    else none
  | .flushLocal t =>
    if s.phase = .flushingLocal then
      if s.localUsage.totalTokens = 0 then some {s with phase := .settling}
      else some {(preConsumeUsage line t s.localUsage s).2 with phase := .settling}
    else none
  | .settle ratios f => if s.phase = .settling then some (postWssConsumeQuota line ratios f s) else none

def connect (cfg : Setting) (o : Opening) (walletFaults subFaults : Faults) (free : Bool)
    (quotaClamp : Option String) (quota : Int) (usingGroup : String) (info : RelayInfo) (w : World) :
    Except ApiError State :=
  let state := fun billing info world =>
    State.mk noUsage noUsage noUsage true true .relaying usingGroup billing info world none
  if free then .ok (state none info w)
  else match preConsumeBilling cfg o walletFaults subFaults info quotaClamp quota w with
    | (.error e,_) => .error e
    | (.ok session,after) => .ok (state (some session) session.relayInfo after)

def dueCharge (line : Line) (t : Turn) (usage : RealtimeUsage) (s : State) : Int :=
  if line.usePrice then 0
  else
    let quota := turnQuota line t s.usingGroup usage
    match admits line t quota with
    | .error _ => 0
    | .ok _ => if fundingTakes s.info quota t.funding t.sub s.world then quota else 0

theorem audioQuotaNonneg (byRatio : info.usePrice = false) :
    0 ≤ (calculateAudioQuota quotaPerUnit r info).1 := by
  unfold calculateAudioQuota
  simp only [byRatio,Bool.false_eq_true,if_false]
  apply quotaFromDecimalNonneg
  split
  · norm_num
  rename_i positive
  by_cases zero : info.groupRatio * info.modelRatio = 0
  · simp [zero]
  · by_contra negative
    exact positive ⟨zero,(not_le.mp negative).le⟩

theorem dueNonneg (line t usage s) : 0 ≤ dueCharge line t usage s := by
  unfold dueCharge
  split
  · exact Int.le_refl 0
  rename_i byRatio
  dsimp only
  split
  · exact Int.le_refl 0
  split
  · exact audioQuotaNonneg (by simpa using byRatio)
  · exact Int.le_refl 0

structure Moves (w0 : World) (amount : Int) (s n : State) : Prop where
  live : Live n.billing n.info n.world
  taken : takenBy w0 n.billing n.world = takenBy w0 s.billing s.world + amount
  held : heldBy n.billing n.info = heldBy s.billing s.info
  bill : n.bill = s.bill
  phase : n.phase = s.phase
  flags : ∀ session, n.billing = some session → ∃ before, s.billing = some before ∧
    session.funding = before.funding ∧ session.settled = before.settled ∧ session.fundingSettled = before.fundingSettled

abbrev State.money (s : State) := (s.billing,s.info,s.world,s.bill)

theorem movesTo (moves : Moves w0 amount s n) (same : m.money = n.money) (phase : m.phase = n.phase) :
    Moves w0 amount s m := by
  simp only [Prod.mk.injEq] at same
  obtain ⟨billing,info,world,bill⟩ := same
  refine ⟨by rw [billing,info,world]; exact moves.live,by rw [billing,world]; exact moves.taken,
    by rw [billing,info]; exact moves.held,bill.trans moves.bill,phase.trans moves.phase,?_⟩
  intro session some'
  exact moves.flags session (billing.symm.trans some')

theorem movesSame (live : Live s.billing s.info s.world) (same : n.money = s.money) (phase : n.phase = s.phase) :
    Moves w0 0 s n :=
  movesTo ⟨live,(add_zero _).symm,rfl,rfl,rfl,fun session stored => ⟨session,stored,rfl,rfl,rfl⟩⟩ same phase

theorem preWssMoves {line t usage w0 s} (live : Live s.billing s.info s.world) :
    Moves w0 (dueCharge line t usage s) s (preWssConsumeQuota line t usage s).2 := by
  unfold preWssConsumeQuota dueCharge
  split
  · exact movesSame live rfl rfl
  rename_i byRatio
  dsimp only
  have grouped : ∀ n : State, n = (if readsFail t then s else {s with usingGroup := turnGroup t s.usingGroup}) →
      n.money = s.money ∧ n.phase = s.phase := by
    intro n is
    subst is
    split <;> exact ⟨rfl,rfl⟩
  obtain ⟨same,phase⟩ := grouped _ rfl
  split
  · exact movesSame live same phase
  rcases paid : postConsumeQuota s.info (turnQuota line t s.usingGroup usage) t.funding t.sub t.tokenUpdate s.world
    with ⟨result,info',after⟩
  have nonneg : 0 ≤ turnQuota line t s.usingGroup usage := audioQuotaNonneg (by simpa using byRatio)
  obtain ⟨live',held,taken⟩ := @directMoves w0 s.world after s.billing s.info info' _ t.funding t.sub t.tokenUpdate
    result live nonneg paid
  refine ⟨live',taken,held,congrArg (·.2.2.2) same,phase,fun _ some' => ?_⟩
  obtain ⟨before,stored,rfl⟩ := map_eq_some_iff.mp some'
  exact ⟨before,stored,rfl,rfl,rfl⟩

theorem preConsumeUsageMoves {line t usage w0 s} (live : Live s.billing s.info s.world) :
    Moves w0 (dueCharge line t usage s) s (preConsumeUsage line t usage s).2 := by
  have summed : Live ({s with sumUsage := addUsage s.sumUsage usage} : State).billing s.info s.world := live
  have moves := @preWssMoves line t usage w0 {s with sumUsage := addUsage s.sumUsage usage} summed
  exact {moves with}

def messageCharge (line : Line) (message : TargetMessage) (s : State) : Int :=
  match message with
  | .responseDone usage t => dueCharge line t (addUsage s.usage usage) s
  | .responseDoneUncounted (.ok (textToken,audioToken)) t =>
    dueCharge line t (addUsage s.localUsage (inputUsage textToken audioToken)) s
  | _ => 0

def charged (line : Line) (s : State) : Event → Int
  | .target message _ => messageCharge line message s
  | .flushUsage t => if s.usage.totalTokens = 0 then 0 else dueCharge line t s.usage s
  | .flushLocal t => if s.localUsage.totalTokens = 0 then 0 else dueCharge line t s.localUsage s
  | _ => 0

theorem recountedMoves {line t usage w0 s} (live : Live s.billing s.info s.world)
    (counted localCounted) : Moves w0 (dueCharge line t usage s) s
      (preConsumeUsage line t usage {s with usage := counted, localUsage := localCounted}).2 := by
  have moves := @preConsumeUsageMoves line t usage w0 {s with usage := counted, localUsage := localCounted} live
  exact {moves with}

theorem targetMoves {line message w0 s} (live : Live s.billing s.info s.world) :
    Moves w0 (messageCharge line message s) s (targetMessage line message s).2 := by
  cases message with
  | responseDone usage t =>
    have moves := @recountedMoves line t (addUsage s.usage usage) w0 s live (addUsage s.usage usage) s.localUsage
    simp only [targetMessage]
    split
    · rename_i e after consumed
      rw [consumed] at moves
      exact moves
    rename_i after consumed
    rw [consumed] at moves
    exact movesTo moves rfl rfl
  | responseDoneUncounted tokens t =>
    cases tokens with
    | error => exact movesSame live rfl rfl
    | ok tokens =>
      obtain ⟨textToken,audioToken⟩ := tokens
      have moves := @recountedMoves line t (addUsage s.localUsage (inputUsage textToken audioToken)) w0 s live s.usage
        (addUsage s.localUsage (inputUsage textToken audioToken))
      simp only [targetMessage]
      split
      · rename_i e after consumed
        rw [consumed] at moves
        exact moves
      rename_i after consumed
      rw [consumed] at moves
      exact movesTo moves rfl rfl
  | sessionUpdated => exact movesSame live rfl rfl
  | other tokens => cases tokens <;> exact movesSame live rfl rfl

def sufficient (line : Line) (s : State) : Event → Bool
  | .settle r f => settlementTakes f (finalQuota line r s.sumUsage) s.billing s.info s.world
  | _ => true

structure Inv (w0 : World) (s : State) : Prop where
  live : Live s.billing s.info s.world
  anchored : ∀ session, s.billing = some session → Anchored w0 session
  unsettled : s.bill = none → ∀ session, s.billing = some session →
    session.settled = false ∧ session.fundingSettled = false
  stage : s.phase ≠ .closed → s.bill = none

def excess (line : Line) (w0 : World) (s : State) : Int :=
  takenBy w0 s.billing s.world - match s.bill with
    | none => heldBy s.billing s.info
    | some (usage,r) => finalQuota line r usage

theorem keepMoves (inv : Inv w0 s) (moves : Moves w0 amount s n)
    (same : m.money = n.money) (phase : m.phase ≠ .closed → s.phase ≠ .closed) :
    Inv w0 m ∧ excess line w0 m = excess line w0 s + amount := by
  simp only [Prod.mk.injEq] at same
  obtain ⟨billing,info,world,bill⟩ := same
  have same : m.bill = s.bill := bill.trans moves.bill
  refine ⟨⟨by rw [billing,info,world]; exact moves.live,?_,?_,?_⟩,?_⟩
  · intro session some'
    obtain ⟨before,stored,funding,_⟩ := moves.flags session (billing.symm.trans some')
    intro sub hf
    exact inv.anchored before stored sub (funding.symm.trans hf)
  · intro none' session some'
    obtain ⟨before,stored,_,settled,committed⟩ := moves.flags session (billing.symm.trans some')
    rw [settled,committed]
    exact inv.unsettled (same.symm.trans none') before stored
  · intro running
    exact same.trans (inv.stage (phase running))
  · unfold excess
    rw [billing,info,world,same,moves.taken,moves.held]
    omega

theorem settlementKeeps (inv : Inv w0 s) (running : s.phase = .settling) (enough : sufficient line s (.settle r f)) :
    Inv w0 (postWssConsumeQuota line r f s) ∧ excess line w0 (postWssConsumeQuota line r f s) = excess line w0 s := by
  have unbilled : s.bill = none := inv.stage (by rw [running]; simp)
  rcases settled : settleBilling f (finalQuota line r s.sumUsage) s.billing s.info s.world with ⟨result,billing,info,world⟩
  obtain ⟨live,taken⟩ := @settlementMoves f (finalQuota line r s.sumUsage) w0 s.world s.billing s.info result billing info
    world inv.live (inv.unsettled unbilled) enough settled
  unfold postWssConsumeQuota
  rw [settled]
  refine ⟨⟨live,?_,fun wrong => (nomatch wrong),fun wrong => absurd rfl wrong⟩,?_⟩
  · intro _ some'
    obtain ⟨before,stored,funding⟩ := settlementFunding settled some'
    exact fun sub hf => inv.anchored before stored sub (funding.symm.trans hf)
  · unfold excess
    simp only [unbilled,taken]
    omega

theorem flushKeeps (inv : Inv w0 s) (running : s.phase ≠ .closed)
    (h : (if usage.totalTokens = 0 then some {s with phase := phase}
      else some {(preConsumeUsage line t usage s).2 with phase := phase}) = some n) :
    Inv w0 n ∧ excess line w0 n = excess line w0 s + if usage.totalTokens = 0 then 0 else dueCharge line t usage s := by
  split at h
  · rename_i nothing
    cases h
    rw [if_pos nothing]
    exact keepMoves inv (movesSame inv.live rfl rfl) rfl (fun _ => running)
  · rename_i left
    cases h
    rw [if_neg left]
    exact keepMoves inv (preConsumeUsageMoves inv.live) rfl (fun _ => running)

theorem stepKeeps (inv : Inv w0 s) (enough : sufficient line s e) (h : step line s e = some n) :
    Inv w0 n ∧ excess line w0 n = excess line w0 s + charged line s e := by
  have still : Moves w0 0 s s := movesSame inv.live rfl rfl
  cases e with
  | client =>
    simp only [step] at h
    split at h <;> cases h
    unfold clientMessage
    split <;> exact keepMoves inv still rfl id
  | clientClosed | targetClosed =>
    simp only [step] at h
    split at h <;> cases h
    exact keepMoves inv still rfl id
  | target message =>
    simp only [step] at h
    split at h
    · have moves := @targetMoves line message w0 s inv.live
      have phase := moves.phase
      rcases told : targetMessage line message s with ⟨r,_⟩
      rw [told] at h moves phase
      cases r with
      | error | ok =>
        cases h
        exact keepMoves inv moves rfl (fun running closed => running (phase.trans closed))
    · cases h
  | wake =>
    simp only [step] at h
    split at h
    · rename_i relaying
      cases h
      exact keepMoves inv still rfl (fun _ closed => by rw [relaying] at closed; cases closed)
    · cases h
  | flushUsage | flushLocal =>
    simp only [step] at h
    split at h
    · rename_i flushing
      exact flushKeeps inv (by rw [flushing]; simp) h
    · cases h
  | settle =>
    simp only [step] at h
    split at h
    · rename_i settling
      cases h
      simp only [charged,add_zero]
      exact settlementKeeps inv settling enough
    · cases h

theorem chargedNonneg (line s e) : 0 ≤ charged line s e := by
  cases e with
  | target message =>
    cases message with
    | responseDone => exact dueNonneg _ _ _ _
    | responseDoneUncounted tokens =>
      cases tokens with
      | error => exact Int.le_refl 0
      | ok => exact dueNonneg _ _ _ _
    | sessionUpdated | other => exact Int.le_refl 0
  | flushUsage | flushLocal =>
    simp only [charged]
    split
    · exact Int.le_refl 0
    · exact dueNonneg _ _ _ _
  | client | clientClosed | targetClosed | wake | settle => exact Int.le_refl 0

theorem tallyNonneg (line s es) : 0 ≤ tally (step line) (charged line) s es := by
  induction es generalizing s with
  | nil => exact Int.le_refl 0
  | cons e _ ih =>
    have first := chargedNonneg line s e
    simp only [tally]
    split
    · omega
    rename_i n _
    have later := ih n
    omega

theorem begunLive (same : SameFunds w0 base) (begins : Begun base session w) :
    Live (some session) session.relayInfo w ∧ Anchored w0 session ∧ netFunding w0 session w = session.preConsumedQuota := by
  refine ⟨.session session rfl rfl begins.source (fun sub hf => ?_),fun sub hf => ?_,?_⟩
  · have books := begins.opened.books.funding
    simp only [FundingBooks,hf] at books
    obtain ⟨row,hit,fit,_⟩ := books.row
    exact ⟨books.synced,row,hit,fit⟩
  · have anchored := begins.anchored sub hf
    rwa [same.subs] at anchored
  · rw [netFundingFrame same.wallet.symm rfl (sameFundsRefl _)]
    exact booksHeld begins.opened.books

theorem connectStarts {line cfg o walletFaults subFaults free clamp quota usingGroup info w0 s}
    (wallet : info.billingSource = none) (nothing : info.finalPreConsumedQuota = 0)
    (ledger : Ledger (Unknown info.requestId) w0.subs)
    (unseen : lookup SubscriptionPreConsumeRecord.requestId info.requestId (o.seen w0.subs) = none)
    (h : connect cfg o walletFaults subFaults free clamp quota usingGroup info w0 = .ok s) :
    Inv w0 s ∧ excess line w0 s = 0 := by
  unfold connect at h
  split at h
  · cases h
    refine ⟨⟨.own rfl (by rw [wallet]; simp),fun _ wrong => (nomatch wrong),fun _ _ wrong => (nomatch wrong),
      fun _ => rfl⟩,?_⟩
    simp [excess,takenBy,heldBy,nothing]
  rcases asked : preConsumeBilling cfg o walletFaults subFaults info clamp quota w0 with ⟨r,_⟩
  rw [asked] at h
  cases billingCases asked rfl ledger unseen with
  | refused failed =>
    obtain ⟨e,rfl⟩ := failed
    cases h
  | begun _ _ ok same _ begins =>
    subst ok
    cases h
    obtain ⟨live,anchored,held⟩ := begunLive same begins
    refine ⟨⟨live,fun session' this => ?_,fun _ session' this => ?_,fun _ => rfl⟩,?_⟩
    · cases this; exact anchored
    · cases this; exact ⟨begins.opened.unsettled,begins.opened.uncommitted⟩
    · simp [excess,takenBy,heldBy,held]

theorem chargedOnceIff {line cfg o walletFaults subFaults free clamp quota usingGroup info w0 s es n usage r}
    (wallet : info.billingSource = none) (nothing : info.finalPreConsumedQuota = 0)
    (rows : ∀ sub ∈ w0.subs.subs, Bounded sub) (nextKey : 0 < w0.subs.nextId)
    (unknown : w0.subs.record info.requestId = none)
    (unseen : lookup SubscriptionPreConsumeRecord.requestId info.requestId (o.seen w0.subs) = none)
    (connected : connect cfg o walletFaults subFaults free clamp quota usingGroup info w0 = .ok s)
    (enough : Along (step line) (fun s e => sufficient line s e) s es) (h : run (step line) s es = some n)
    (billed : n.bill = some (usage,r)) :
    (∀ session, n.billing = some session → Anchored w0 session) ∧
    ∀ slack, |takenBy w0 n.billing n.world - finalQuota line r usage| ≤ slack ↔
      tally (step line) (charged line) s es ≤ slack := by
  obtain ⟨start,zero⟩ := @connectStarts line cfg o walletFaults subFaults free clamp quota usingGroup info w0 s
    wallet nothing ⟨rows,unknown,nextKey⟩ unseen connected
  have keep : ∀ s e n, Inv w0 s → sufficient line s e → step line s e = some n →
      Inv w0 n ∧ excess line w0 n = excess line w0 s + charged line s e := fun _ _ _ => stepKeeps
  have last : Inv w0 n := runInvariant (fun s e n inv ok moved => (keep s e n inv ok moved).1) start enough h
  have total := runTally keep start enough h
  have nonneg := tallyNonneg line s es
  rw [zero,zero_add] at total
  refine ⟨last.anchored,fun slack => ?_⟩
  simp only [excess,billed] at total
  rw [total,abs_of_nonneg nonneg]

def plainLine : Line := ⟨"gpt-realtime","gpt-realtime","default",false,false,1,1,500000,fun quota => toString quota⟩

def plainRatios : Ratios := ⟨fun _ => 1,fun _ => 1,fun _ => 1⟩

def plainTurn (groupRatio : ℚ) : Turn :=
  ⟨.ok 1000,.ok (false,500),plainRatios,fun _ => 1,fun _ => groupRatio,fun _ _ => none,none,none,[],none⟩

def textUsage (tokens : Int) : RealtimeUsage := ⟨tokens,tokens,0,0,⟨tokens,0⟩,⟨0,0⟩⟩

def talk (groupRatio : ℚ) : List Event :=
  [.target (.responseDone (textUsage 10) (plainTurn groupRatio)) true,.clientClosed,.wake,
    .flushUsage (plainTurn groupRatio),.flushLocal (plainTurn groupRatio),.settle plainRatios noFaults]

def connection (billingPreference : String) : Except ApiError State :=
  connect plainSetting plainOpening noFaults noFaults false none 5 "default" (caller "req-2" billingPreference) accounts

def talked (billingPreference : String) (groupRatio : ℚ) : Option (State × State) :=
  match connection billingPreference with
  | .error _ => none
  | .ok s => (run (step plainLine) s (talk groupRatio)).map (fun n => (s,n))

theorem talkedRuns (h : talked billingPreference groupRatio = some (s,n)) :
    connection billingPreference = .ok s ∧ run (step plainLine) s (talk groupRatio) = some n := by
  unfold talked at h
  split at h
  · cases h
  rename_i _ connected
  obtain ⟨_,ran,same⟩ := map_eq_some_iff.mp h
  cases same
  exact ⟨connected,ran⟩

theorem chargedOnceInFreeGroup :
    ∃ s n r, connection "subscription_only" = .ok s ∧ run (step plainLine) s (talk 0) = some n ∧
      n.bill = some (textUsage 10,r) ∧ finalQuota plainLine r (textUsage 10) = 10 ∧
      |takenBy accounts n.billing n.world - 10| ≤ 0 := by
  have runs : (talked "subscription_only" 0).map (fun out =>
      (out.2.bill.map (fun bill => (bill.1,finalQuota plainLine bill.2 bill.1)),
        checkAlong (step plainLine) (sufficient plainLine) out.1 (talk 0),
        tally (step plainLine) (charged plainLine) out.1 (talk 0))) =
      some (some (textUsage 10,10),true,0) := by decide +kernel
  obtain ⟨⟨s,n⟩,started,facts⟩ := map_eq_some_iff.mp runs
  simp only [Prod.mk.injEq] at facts
  obtain ⟨billed,enough,_⟩ := facts
  obtain ⟨connected,ran⟩ := talkedRuns started
  obtain ⟨⟨_,r⟩,bill,same⟩ := map_eq_some_iff.mp billed
  simp only [Prod.mk.injEq] at same
  obtain ⟨rfl,amount⟩ := same
  have once := (chargedOnceIff rfl rfl accountsBounded (by decide) (by decide) (by decide) connected
    (alongChecked enough) ran bill).2 0
  rw [amount] at once
  exact ⟨s,n,r,connected,ran,bill,amount,once.mpr (by omega)⟩

theorem turnIsChargedTwice :
    ∃ s n r, connection "wallet_only" = .ok s ∧ run (step plainLine) s (talk 1) = some n ∧
      n.bill = some (textUsage 10,r) ∧ finalQuota plainLine r (textUsage 10) = 10 ∧
      takenBy accounts n.billing n.world = 20 := by
  have runs : (talked "wallet_only" 1).map (fun out =>
      (out.2.bill.map (fun bill => (bill.1,finalQuota plainLine bill.2 bill.1)),
        takenBy accounts out.2.billing out.2.world)) = some (some (textUsage 10,10),20) := by decide +kernel
  obtain ⟨⟨s,n⟩,started,facts⟩ := map_eq_some_iff.mp runs
  simp only [Prod.mk.injEq] at facts
  obtain ⟨billed,total⟩ := facts
  obtain ⟨connected,ran⟩ := talkedRuns started
  obtain ⟨⟨_,r⟩,bill,same⟩ := map_eq_some_iff.mp billed
  simp only [Prod.mk.injEq] at same
  obtain ⟨rfl,amount⟩ := same
  exact ⟨s,n,r,connected,ran,bill,amount,total⟩

end Omnigate.Realtime
