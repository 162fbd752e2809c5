import Omnigate.BillingDirect
import Omnigate.BillingRun
import Omnigate.TaskPrice
import Omnigate.TaskWallet

/-! A task submission: attempts over channels until one is accepted, the quota held once before the first priced
request, the settlement of the final quota and the inserted row. Choice of channel, request and upstream's answer are
given with each attempt. Nobody else touches the accounts while the submission runs. -/
namespace Omnigate.TaskSubmission

open Accounts BillingSession BillingConservation BillingDirect QuotaMath SubscriptionLedger SubscriptionHold Table
open SubscriptionStore SubscriptionConsume Transaction TaskRow TaskBilling TaskPrice
open SubscriptionRun (usedOf)
open BillingRun (plainSetting plainOpening noFaults caller accounts accountsBounded)
open TaskWallet (payer payerSubscription)

structure TaskError where
  (code message : String)
  statusCode : Nat
  localError : Bool
  deriving DecidableEq

def errorCodeText : ErrorCode → String
  | .insufficientUserQuota => "insufficient_user_quota"
  | .preConsumeTokenQuotaFailed => "pre_consume_token_quota_failed"
  | .updateDataError => "update_data_error"
  | .queryDataError => "query_data_error"
  | .modelPriceError => "model_price_error"

def taskErrorFromAPIError (e : ApiError) : TaskError := ⟨errorCodeText e.errorCode,e.message,e.statusCode,false⟩

structure Accepted where
  adjusted : List (String × ℚ)
  data : List UInt8

/- One attempt. `blocked` is a failure to get a channel or the body, which ends the loop; `rejected` one of platform,
request or mapping; `upstream` covers sending the request and reading the answer. -/
structure Attempt where
  (blocked rejected : Option TaskError)
  modelName : String
  groupRatio : ℚ
  book : PriceBook
  estimated : List (String × ℚ)
  opening : Opening
  (walletFaults subFaults : Faults)
  upstream : Except TaskError Accepted
  skipRetry : Bool

structure Config where
  setting : Setting
  retryTimes : Nat
  specificChannel : Bool

structure Submission where
  info : RelayInfo
  billing : Option Session
  quotaClamp : Option QuotaClamp
  priceData : PriceData
  world : World

structure TaskSubmitResult where
  quota : Int
  modelName : String
  book : PriceBook
  taskData : List UInt8

def noteTaskQuotaClamp (clamp : Option QuotaClamp) (s : Submission) : Submission :=
  {s with quotaClamp := s.quotaClamp.or clamp}

def preConsumeOnce (cfg : Config) (a : Attempt) (s : Submission) : Option TaskError × Submission :=
  if s.billing.isNone ∧ ¬s.priceData.freeModel then
    let info := {s.info with forcePreConsume := true}
    match preConsumeBilling cfg.setting a.opening a.walletFaults a.subFaults info
        (s.quotaClamp.map (clampText a.book.formatFloat)) s.priceData.quota s.world with
    | (.error e,after) => (some (taskErrorFromAPIError e),{s with info := info, world := after})
    | (.ok session,after) => (none,{s with info := session.relayInfo, billing := some session, world := after})
  else (none,s)

def relayTaskSubmit (cfg : Config) (a : Attempt) (s : Submission) : Except TaskError TaskSubmitResult × Submission :=
  match a.rejected with
  | some e => (.error e,s)
  | none => match modelPriceHelperPerCall a.book a.modelName a.groupRatio with
    | .error e => (.error ⟨"model_price_error",e,400,false⟩,s)
    | .ok priceData =>
      let (estimated,clamp) := estimateQuota a.book a.modelName a.estimated priceData
      match preConsumeOnce cfg a (noteTaskQuotaClamp clamp {s with priceData := estimated}) with
      | (some e,held) => (.error e,held)
      | (none,held) => match a.upstream with
        | .error e => (.error e,held)
        | .ok accepted =>
          let (final,clamp') := adjustOnSubmit accepted.adjusted held.priceData
          (.ok ⟨final.quota,a.modelName,a.book,accepted.data⟩,noteTaskQuotaClamp clamp' {held with priceData := final})

def shouldRetryTaskRelay (cfg : Config) (a : Attempt) (taskErr : TaskError) (retryTimes : Int) : Bool :=
  if a.skipRetry then false
  else if retryTimes ≤ 0 then false
  else if cfg.specificChannel then false
  else if taskErr.statusCode = 429 then true
  else if taskErr.statusCode = 307 then true
  else if taskErr.statusCode / 100 = 5 then ¬(taskErr.statusCode = 504 ∨ taskErr.statusCode = 524)
  else if taskErr.statusCode = 400 then false
  else if taskErr.statusCode = 408 then false
  else if taskErr.localError then false
  else taskErr.statusCode / 100 ≠ 2

def relayAttempts (cfg : Config) (attempts : Nat → Attempt) :
    Nat → Nat → Submission → Except TaskError TaskSubmitResult × Submission
  | left,retry,s =>
    match (attempts retry).blocked with
    | some e => (.error e,s)
    | none => match relayTaskSubmit cfg (attempts retry) s with
      | (.ok result,held) => (.ok result,held)
      | (.error e,held) =>
        if shouldRetryTaskRelay cfg (attempts retry) e left then match left with
          | 0 => (.error e,held)
          | left+1 => relayAttempts cfg attempts left (retry + 1) held
        else (.error e,held)

structure Ticket where
  (publicTaskID usingGroup : String)
  (tokenId now : Int)

def initTask (t : Ticket) (modelName : String) : Task where
  updatedAt := t.now
  taskID := t.publicTaskID
  group := t.usingGroup
  quota := 0
  status := .notStart
  failReason := ""
  submitTime := t.now
  startTime := 0
  finishTime := 0
  progress := "0%"
  originModelName := modelName
  privateData := ⟨"",none,0,0,none⟩
  data := []

def submittedTask (t : Ticket) (result : TaskSubmitResult) (s : Submission) : Task :=
  { initTask t result.modelName with
    quota := result.quota
    data := result.taskData
    privateData := {
      resultURL := ""
      billingSource := s.info.billingSource
      subscriptionId := s.info.subscriptionId
      tokenId := t.tokenId
      billingContext := some {
        otherRatios := s.priceData.otherRatios
        originModelName := result.modelName
        perCallBilling := result.modelName ∈ result.book.taskPricePatches ∨ s.priceData.usePrice } } }

structure Closing where
  f : Faults
  insert : Option String

/- A settlement that fails is only logged, and the row is inserted all the same. -/
def relayTask (cfg : Config) (attempts : Nat → Attempt) (t : Ticket) (c : Closing) (s : Submission) :
    Option Task × Submission :=
  match relayAttempts cfg attempts cfg.retryTimes 0 s with
  | (.error _,held) => match held.billing with
    | none => (none,held)
    | some session =>
      let (session',after) := refund c.f session held.world
      (none,{held with billing := some session', info := session'.relayInfo, world := after})
  | (.ok result,held) =>
    let (_,billing,info,after) := settleBilling c.f result.quota held.billing held.info held.world
    let settled := {held with billing := billing, info := info, world := after}
    (if c.insert.isNone then some (submittedTask t result settled) else none,settled)

inductive Sound (w0 : World) (requestId : String) (s : Submission) : Prop
  | unheld (none' : s.billing = none) (same : SameFunds w0 s.world) (named : s.info.requestId = requestId)
      (nothing : s.info.finalPreConsumedQuota = 0)
  | held (session : Session) (base : World) (some' : s.billing = some session) (same : SameFunds w0 base)
      (begins : Begun base session s.world) (synced : s.info = session.relayInfo)

theorem soundFrame (sound : Sound w0 requestId s) (info : n.info = s.info)
    (billing : n.billing = s.billing) (world : n.world = s.world) : Sound w0 requestId n := by
  cases sound with
  | unheld none' same named nothing =>
    exact .unheld (billing.trans none') (by rw [world]; exact same) (by rw [info]; exact named)
      (by rw [info]; exact nothing)
  | held session base some' same begins synced =>
    exact .held session base (billing.trans some') same (by rw [world]; exact begins) (info.trans synced)

theorem preConsumeOnceSound (ledger : Ledger (Unknown requestId) w0.subs)
    (unseen : lookup SubscriptionPreConsumeRecord.requestId requestId (a.opening.seen w0.subs) = none)
    (sound : Sound w0 requestId s) (h : preConsumeOnce cfg a s = (e,n)) :
    Sound w0 requestId n ∧ n.priceData = s.priceData ∧
      (e = none → n.billing = none → s.priceData.freeModel = true) := by
  unfold preConsumeOnce at h
  split at h
  · rename_i due
    cases sound with
    | held session base some' => simp [some'] at due
    | unheld none' same named nothing =>
      rw [← same.subs] at ledger unseen
      dsimp only at h
      rcases asked : preConsumeBilling cfg.setting a.opening a.walletFaults a.subFaults
        {s.info with forcePreConsume := true} (s.quotaClamp.map (clampText a.book.formatFloat))
        s.priceData.quota s.world with ⟨r,after⟩
      rw [asked] at h
      cases billingCases asked named ledger unseen with
      | refused failed left =>
        obtain ⟨_,rfl⟩ := failed
        cases h
        exact ⟨.unheld none' (sameFundsTrans same left) named nothing,rfl,fun wrong => nomatch wrong⟩
      | begun session base ok left _ begins =>
        subst ok
        cases h
        exact ⟨.held session base rfl (sameFundsTrans same left) begins rfl,rfl,fun _ wrong => nomatch wrong⟩
  · rename_i settled
    cases h
    refine ⟨sound,rfl,fun _ none' => ?_⟩
    by_contra paid
    exact settled ⟨by simp [none'],paid⟩

theorem submitSound (ledger : Ledger (Unknown requestId) w0.subs)
    (unseen : lookup SubscriptionPreConsumeRecord.requestId requestId (a.opening.seen w0.subs) = none)
    (sound : Sound w0 requestId s) (h : relayTaskSubmit cfg a s = (r,n)) :
    Sound w0 requestId n ∧ (∀ result, r = .ok result → n.billing = none → result.quota = 0) := by
  unfold relayTaskSubmit at h
  split at h
  · cases h; exact ⟨sound,fun _ wrong => nomatch wrong⟩
  split at h
  · cases h; exact ⟨sound,fun _ wrong => nomatch wrong⟩
  rename_i priceData priced
  dsimp only at h
  have start : Sound w0 requestId (noteTaskQuotaClamp (estimateQuota a.book a.modelName a.estimated priceData).2
      {s with priceData := (estimateQuota a.book a.modelName a.estimated priceData).1}) :=
    soundFrame sound rfl rfl rfl
  rcases consumed : preConsumeOnce cfg a (noteTaskQuotaClamp (estimateQuota a.book a.modelName a.estimated priceData).2
      {s with priceData := (estimateQuota a.book a.modelName a.estimated priceData).1}) with ⟨e,held⟩
  obtain ⟨kept,same,free⟩ := preConsumeOnceSound ledger unseen start consumed
  rw [consumed] at h
  cases e with
  | some => cases h; exact ⟨kept,fun _ wrong => nomatch wrong⟩
  | none =>
    dsimp only at h
    split at h
    · cases h; exact ⟨kept,fun _ wrong => nomatch wrong⟩
    cases h
    refine ⟨soundFrame kept rfl rfl rfl,fun result ok none' => ?_⟩
    cases ok
    have estimatedFree := free rfl none'
    have plainFree : priceData.freeModel = true := estimateKeeps.symm.trans estimatedFree
    have nothing := freeModelQuota priced plainFree
    have held0 : held.priceData.quota = 0 := by
      rw [same]
      exact estimateFree nothing
    exact adjustFree held0

theorem attemptCases (h : relayAttempts cfg attempts left retry s = (r,n)) :
    ((∃ e, r = .error e) ∧ n = s) ∨ ∃ r' held, relayTaskSubmit cfg (attempts retry) s = (r',held) ∧
      (r = r' ∧ n = held ∨ ∃ fewer, left = fewer + 1 ∧ relayAttempts cfg attempts fewer (retry + 1) held = (r,n)) := by
  unfold relayAttempts at h
  split at h
  · cases h
    exact .inl ⟨⟨_,rfl⟩,rfl⟩
  rcases tried : relayTaskSubmit cfg (attempts retry) s with ⟨r',held⟩
  rw [tried] at h
  refine .inr ⟨r',held,rfl,?_⟩
  cases r' with
  | ok =>
    cases h
    exact .inl ⟨rfl,rfl⟩
  | error =>
    dsimp only at h
    split at h
    · cases left with
      | zero =>
        cases h
        exact .inl ⟨rfl,rfl⟩
      | succ fewer => exact .inr ⟨fewer,rfl,h⟩
    · cases h
      exact .inl ⟨rfl,rfl⟩

theorem attemptsSound (ledger : Ledger (Unknown requestId) w0.subs)
    (unseen : ∀ i, lookup SubscriptionPreConsumeRecord.requestId requestId ((attempts i).opening.seen w0.subs) = none)
    (sound : Sound w0 requestId s) (h : relayAttempts cfg attempts left retry s = (r,n)) :
    Sound w0 requestId n ∧ (∀ result, r = .ok result → n.billing = none → result.quota = 0) := by
  induction left generalizing retry s with
  | zero =>
    rcases attemptCases h with ⟨⟨e,rfl⟩,rfl⟩ | ⟨r',held,tried,⟨rfl,rfl⟩ | ⟨fewer,more,_⟩⟩
    · exact ⟨sound,fun _ wrong => nomatch wrong⟩
    · exact submitSound ledger (unseen retry) sound tried
    · cases more
  | succ left ih =>
    rcases attemptCases h with ⟨⟨e,rfl⟩,rfl⟩ | ⟨r',held,tried,⟨rfl,rfl⟩ | ⟨fewer,more,rest⟩⟩
    · exact ⟨sound,fun _ wrong => nomatch wrong⟩
    · exact submitSound ledger (unseen retry) sound tried
    · cases more
      exact ih (submitSound ledger (unseen retry) sound tried).1 rest

def heldQuota (s : Submission) : Int := heldBy s.billing s.info

def takesDifference (f : Faults) (quota : Int) (s : Submission) : Bool :=
  match s.billing with
  | some session =>
    quota = session.preConsumedQuota ∨ takes f (quota - session.preConsumedQuota) session.funding s.world
  | none => quota = s.info.finalPreConsumedQuota

def usedAt (w : World) (id : Int) : Int := (usedOf w.subs id).getD 0

def taken (w0 : World) (s : Submission) : Int := takenBy w0 s.billing s.world

def givenBack (task : Task) (w w' : World) : Int :=
  if taskIsSubscription task then
    usedAt w task.privateData.subscriptionId - usedAt w' task.privateData.subscriptionId
  else w'.wallet - w.wallet

theorem untakenNet (books : Books w0 s w) (moves : actualQuota - s.preConsumedQuota ≠ 0)
    (refused : ¬takes f (actualQuota - s.preConsumedQuota) s.funding w)
    (h : fundingSettle f (actualQuota - s.preConsumedQuota) s.funding w = (r,w')) :
    netFunding w0 s w' = s.preConsumedQuota ∨ (actualQuota < 0 ∧ actualQuota < netFunding w0 s w') := by
  have before := booksHeld books
  have funding := books.funding
  unfold FundingBooks at funding
  rcases fundingSettleCases books moves h with ⟨_,rfl⟩ | ⟨rfl,_,net⟩
  · exact .inl before
  unfold fundingSettle at h
  rw [if_neg moves] at h
  rw [net]
  cases hf : s.funding with
  | wallet =>
    rw [hf] at h refused
    have through := settleWalletIff.mp (congrArg Prod.fst h)
    simp only [takes,decide_eq_true_eq] at refused
    exact absurd through refused
  | subscription sub =>
    rw [hf] at h funding refused
    obtain ⟨row,hit,fit,_⟩ := funding.row
    have base := funding.base
    have keyed : 0 < sub.subscriptionId := by rw [← subKey hit]; exact fit.keyed
    simp only [takes,hit,decide_eq_true_eq] at refused
    rcases postSubscriptionCases h with ⟨⟨e,wrong⟩,_⟩ | ⟨_,_,_,post⟩
    · cases wrong
    have within := (postMoves moves hit post).2
    by_cases low : 0 ≤ row.amountUsed + (actualQuota - s.preConsumedQuota)
    · rw [clampOf low] at within
      have pass := (postConsumePasses keyed moves hit (by rw [clampOf low]; omega)).mp (congrArg Prod.fst post)
      exact absurd ⟨pass,low,within⟩ refused
    · right
      simp only [charge]
      omega

theorem settleNet {f w0 w actualQuota s} (opened : Opened w0 s w) :
    let r := settle f actualQuota s w
    let full := actualQuota = s.preConsumedQuota ∨ takes f (actualQuota - s.preConsumedQuota) s.funding w
    (full → netFunding w0 r.2.1 r.2.2 = actualQuota) ∧
    (¬full → netFunding w0 r.2.1 r.2.2 = s.preConsumedQuota ∨
      (actualQuota < 0 ∧ actualQuota < netFunding w0 r.2.1 r.2.2)) := by
  have before := booksHeld opened.books
  unfold settle
  simp only [opened.unsettled,opened.uncommitted,Bool.false_eq_true,if_false]
  by_cases exact' : actualQuota - s.preConsumedQuota = 0
  · rw [if_pos exact']
    have same : actualQuota = s.preConsumedQuota := by omega
    exact ⟨fun _ => before.trans same.symm,fun other => absurd (.inl same) other⟩
  rw [if_neg exact']
  have differs : actualQuota ≠ s.preConsumedQuota := by omega
  rcases moved : fundingSettle f (actualQuota - s.preConsumedQuota) s.funding w with ⟨r,after⟩
  simp only [differs,false_or]
  constructor
  · intro full
    obtain ⟨_,moved',taken⟩ := @takesMoves f w0 w _ s exact' (booksKeyed opened.books) full
    cases moved.symm.trans moved'
    obtain ⟨funding,same⟩ := settleTokenPartFrame f (actualQuota - s.preConsumedQuota) s after
    rw [netFundingFrame rfl funding same,taken,before]
    omega
  intro refused
  have left := untakenNet opened.books exact' refused moved
  cases r with
  | error => exact left
  | ok =>
    obtain ⟨funding,same⟩ := settleTokenPartFrame f (actualQuota - s.preConsumedQuota) s after
    rw [netFundingFrame rfl funding same]
    exact left

theorem usedNonneg (rows : ∀ sub ∈ w.subs.subs, Bounded sub) (id) : 0 ≤ usedAt w id := by
  unfold usedAt usedOf
  cases hit : w.subs.sub id with
  | none => simp
  | some row => exact (rows row (lookupSound hit).1).nonneg

theorem refundGives (rows : ∀ sub ∈ w.subs.subs, Bounded sub)
    (h : refundTaskQuota g stmt task row w = (true,task',row',w')) :
    givenBack task w w' =
      if taskIsSubscription task then min task.quota (usedAt w task.privateData.subscriptionId) else task.quota := by
  have used := usedNonneg rows task.privateData.subscriptionId
  unfold refundTaskQuota at h
  unfold givenBack
  split at h
  · cases h
    split <;> omega
  rcases adjusted : adjustTask task (-task.quota) g w with ⟨ok,after⟩
  rw [adjusted] at h
  cases ok with
  | false => cases h
  | true =>
    cases h
    unfold adjustTask at adjusted
    rcases moved : taskAdjustFunding task (-task.quota) g w with ⟨r,mid⟩
    rw [moved] at adjusted
    cases r with
    | error => cases adjusted
    | ok =>
      cases adjusted
      have same := adjustTokenFunds task (-task.quota) g mid
      unfold taskAdjustFunding at moved
      split at moved
      · rcases postSubscriptionCases moved with ⟨⟨e,wrong⟩,_⟩ | ⟨_,_,_,post⟩
        · cases wrong
        rcases postConsumeOk post with _ | ⟨found,hit,_,_,tables⟩
        · omega
        have key := subKey hit
        have after : usedAt mid task.privateData.subscriptionId = clampUsed found.amountUsed (-task.quota) := by
          unfold usedAt usedOf
          rw [tables,usedPut (by exact key)]
          rfl
        have before : usedAt w task.privateData.subscriptionId = found.amountUsed := by
          unfold usedAt usedOf
          rw [hit]
          rfl
        have frame : usedAt (taskAdjustTokenQuota task (-task.quota) g mid) task.privateData.subscriptionId =
            usedAt mid task.privateData.subscriptionId := by
          unfold usedAt
          rw [same.subs]
        rw [frame,after,before]
        unfold clampUsed
        split <;> omega
      · rename_i own
        rw [if_neg own,if_neg own,same.wallet]
        rcases settleWalletCases moved with ⟨⟨e,wrong⟩,_⟩ | ⟨_,rfl⟩
        · cases wrong
        · dsimp only
          omega

/- The refund of the row gives back what the submission took: the difference to the final quota was taken in full and
a subscription shows that much as used; or it was not, and the subscription's row is held at zero just where the held
quota began. -/
def refundCovers (f : Faults) (quota : Int) (s : Submission) (task : Task) (w : World) : Prop :=
  if takesDifference f quota s then
    taskIsSubscription task → quota ≤ usedAt w task.privateData.subscriptionId
  else
    taskIsSubscription task ∧ heldQuota s < quota ∧ usedAt w task.privateData.subscriptionId = heldQuota s

theorem sessionCovers {f w0 w quota stmt g session s later row task' row' w2 w3} (opened : Opened w0 session w) (billing : s.billing = some session) (world : s.world = w)
    (owed : later.quota = quota) (rows : ∀ sub ∈ w2.subs.subs, Bounded sub)
    (refunded : refundTaskQuota g stmt later row w2 = (true,task',row',w3)) :
    netFunding w0 (settle f quota session w).2.1 (settle f quota session w).2.2 - givenBack later w2 w3 = 0 ↔
      refundCovers f quota s later w2 := by
  obtain ⟨full,part⟩ := @settleNet f w0 w quota session opened
  have nonneg := opened.books.nonneg
  rw [refundGives rows refunded,owed]
  simp only [refundCovers,takesDifference,heldQuota,heldBy,billing,world,decide_eq_true_eq]
  by_cases whole : quota = session.preConsumedQuota ∨ takes f (quota - session.preConsumedQuota) session.funding w
  · have net := full whole
    rw [if_pos whole,net]
    cases taskIsSubscription later with
    | true => simp only [if_true,forall_true_left]; omega
    | false => simp
  have net := part whole
  rw [if_neg whole]
  cases taskIsSubscription later with
  | true => simp only [if_true,true_and]; omega
  | false =>
    simp only [Bool.false_eq_true,if_false,false_and,iff_false]
    omega

theorem failedTaskFreeIff {cfg attempts ticket c s result held task out later row task' row' stmt g w2 w3}
    (unbilled : s.billing = none) (nothing : s.info.finalPreConsumedQuota = 0)
    (rows : ∀ sub ∈ s.world.subs.subs, Bounded sub) (nextKey : 0 < s.world.subs.nextId)
    (unknown : s.world.subs.record s.info.requestId = none)
    (unseen : ∀ i, lookup SubscriptionPreConsumeRecord.requestId s.info.requestId
      ((attempts i).opening.seen s.world.subs) = none)
    (looped : relayAttempts cfg attempts cfg.retryTimes 0 s = (.ok result,held))
    (submitted : relayTask cfg attempts ticket c s = (some task,out))
    (owed : later.quota = task.quota) (source : payer later = payer task)
    (rows' : ∀ sub ∈ w2.subs.subs, Bounded sub)
    (refunded : refundTaskQuota g stmt later row w2 = (true,task',row',w3)) :
    (∀ session, out.billing = some session → Anchored s.world session ∧
      (taskIsSubscription later ↔ sourceOf session.funding = .subscription)) ∧
    (taken s.world out - givenBack later w2 w3 = 0 ↔ refundCovers c.f result.quota held later w2) := by
  obtain ⟨sound,free⟩ := attemptsSound ⟨rows,unknown,nextKey⟩ unseen
    (.unheld unbilled (sameFundsRefl _) rfl nothing : Sound s.world s.info.requestId s) looped
  unfold relayTask at submitted
  rw [looped] at submitted
  have inserted : task = submittedTask ticket result out := by
    simp only [Prod.mk.injEq] at submitted
    obtain ⟨made,rfl⟩ := submitted
    split at made <;> cases made
    rfl
  have quota : later.quota = result.quota := by rw [owed,inserted]; rfl
  have pays := payerSubscription source
  have left := congrArg Prod.snd submitted
  cases sound with
  | unheld none' same _ zero =>
    -- a free model: nothing held, nothing owed
    have gratis : result.quota = 0 := free result rfl none'
    simp only [settleBilling,none',gratis,zero,sub_zero,if_true] at left
    subst left
    refine ⟨fun session wrong => (by cases wrong),?_⟩
    rw [refundGives rows' refunded,quota]
    have used := usedNonneg rows' later.privateData.subscriptionId
    simp only [refundCovers,takesDifference,taken,takenBy,none',gratis,zero,decide_true,if_true,same.wallet,min_eq_left used]
    simp [used]
  | held session base some' same begins synced =>
    simp only [settleBilling,some'] at left
    subst left
    have named := @settleInfo c.f result.quota session held.world
    have funding := @settleFunding c.f result.quota session held.world
    refine ⟨fun _ this => ?_,?_⟩
    · cases this
      refine ⟨fun sub hf => ?_,?_⟩
      · have anchored := begins.anchored sub (funding.symm.trans hf)
        rwa [same.subs] at anchored
      rw [pays,inserted,funding]
      simp only [taskIsSubscription,submittedTask,named.1,named.2,begins.source,Option.some.injEq,decide_eq_true_eq]
      constructor
      · exact fun both => both.1
      intro subscribed
      refine ⟨subscribed,?_⟩
      cases hf : session.funding with
      | wallet => rw [hf] at subscribed; cases subscribed
      | subscription =>
        have books := begins.opened.books.funding
        simp only [FundingBooks,hf] at books
        obtain ⟨row,hit,fit,_⟩ := books.row
        rw [books.synced,← subKey hit]
        exact fit.keyed
    · have covers := @sessionCovers c.f base held.world result.quota stmt g session held later row task' row' w2 w3
        begins.opened some' rfl quota rows' refunded
      rw [← covers]
      simp only [taken,takenBy]
      rw [netFundingFrame same.wallet.symm rfl (sameFundsRefl _)]

def plainBook : PriceBook :=
  ⟨fun _ => some 5,fun _ => none,fun _ => (0,false,""),10,false,false,false,[],fun _ => ""⟩

def longer : Attempt :=
  ⟨none,none,"video",1,plainBook,[],plainOpening,noFaults,noFaults,.ok ⟨[("seconds",8 / 5)],[]⟩,false⟩

def unavailable : Attempt := { longer with upstream := .error ⟨"fail_to_fetch_task","",503,false⟩ }

def twice (i : Nat) : Attempt := if i = 0 then unavailable else longer

def plainSubmit : Config := ⟨plainSetting,1,false⟩

def ticket : Ticket := ⟨"task_1","default",3,2000⟩

def request (billingPreference : String) : Submission := ⟨caller "req-2" billingPreference,none,none,noPrice,accounts⟩

def settled (billingPreference : String) : Option Task × Submission :=
  relayTask plainSubmit twice ticket ⟨noFaults,none⟩ (request billingPreference)

def allPaid : Funds := ⟨none,[],some "key",none⟩

def failed (task : Task) : Task := { task with status := .failure, progress := "100%", failReason := "upstream" }

def refundRow (task : Task) (w : World) : Bool × Task × Task × World :=
  refundTaskQuota allPaid ⟨3000,none,true⟩ (failed task) (failed task) w

theorem failedTaskFreeAfterRetry :
    ∃ task out w3, settled "wallet_only" = (some task,out) ∧ (refundRow task out.world).1 = true ∧
      (refundRow task out.world).2.2.2 = w3 ∧ taken accounts out = 80 ∧
      taken accounts out - givenBack (failed task) out.world w3 = 0 := by
  have runs : (settled "wallet_only").1.map (fun task =>
      let out := (settled "wallet_only").2
      ((refundRow task out.world).1,taken accounts out,taskIsSubscription (failed task),
        decide (out.world.subs = accounts.subs))) = some (true,80,false,true) := by decide +kernel
  have whole : (match relayAttempts plainSubmit twice 1 0 (request "wallet_only") with
      | (.ok result,held) => takesDifference noFaults result.quota held
      | (.error _,_) => false) = true := by decide +kernel
  obtain ⟨task,made,facts⟩ := Option.map_eq_some_iff.mp runs
  simp only [Prod.mk.injEq,decide_eq_true_eq] at facts
  obtain ⟨ok,amount,own,tables⟩ := facts
  rcases looped : relayAttempts plainSubmit twice 1 0 (request "wallet_only") with ⟨r,held⟩
  rw [looped] at whole
  cases r with
  | error => cases whole
  | ok result =>
    have submitted : settled "wallet_only" = (some task,(settled "wallet_only").2) := Prod.ext made rfl
    have rows : ∀ sub ∈ (settled "wallet_only").2.world.subs.subs, Bounded sub := by
      rw [tables]
      exact accountsBounded
    have unseen : ∀ i, lookup SubscriptionPreConsumeRecord.requestId "req-2"
        ((twice i).opening.seen accounts.subs) = none := by
      intro i
      unfold twice
      split <;> decide
    have covers : refundCovers noFaults result.quota held (failed task) (settled "wallet_only").2.world := by
      unfold refundCovers
      rw [if_pos whole,own]
      intro wrong
      cases wrong
    have owed : (failed task).quota = task.quota := rfl
    have source : payer (failed task) = payer task := rfl
    rcases refund : refundRow task (settled "wallet_only").2.world with ⟨_,_,_,w3⟩
    rw [refund] at ok
    subst ok
    exact ⟨task,_,w3,submitted,by rw [refund],by rw [refund],amount,(failedTaskFreeIff rfl rfl accountsBounded
      (by decide) (by decide) unseen looped submitted owed source rows refund).2.mpr covers⟩

theorem refusedDifferenceIsPaidOut :
    ∃ task out w3, settled "subscription_only" = (some task,out) ∧ (refundRow task out.world).1 = true ∧
      (refundRow task out.world).2.2.2 = w3 ∧ taken accounts out = 50 ∧
      givenBack (failed task) out.world w3 = 80 ∧ usedOf accounts.subs 1 = some 40 ∧ usedOf w3.subs 1 = some 10 := by
  have runs : (settled "subscription_only").1.map (fun task =>
      let out := (settled "subscription_only").2
      let refunded := refundRow task out.world
      (refunded.1,taken accounts out,givenBack (failed task) out.world refunded.2.2.2,
        usedOf accounts.subs 1,usedOf refunded.2.2.2.subs 1)) =
      some (true,50,80,some 40,some 10) := by decide +kernel
  obtain ⟨task,made,facts⟩ := Option.map_eq_some_iff.mp runs
  simp only [Prod.mk.injEq] at facts
  exact ⟨task,_,_,Prod.ext made rfl,facts.1,rfl,facts.2⟩

end Omnigate.TaskSubmission
