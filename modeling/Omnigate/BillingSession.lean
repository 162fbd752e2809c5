import Omnigate.Accounts

/-! The billing session of one request: pre-consumption from token and funding source, further reservations,
settlement and refund. The session's mutex makes each call one step; the goroutine of a refund is part of the call. -/
namespace Omnigate.BillingSession

open Accounts SubscriptionPlan SubscriptionStore SubscriptionConsume SubscriptionRefund Text

inductive ErrorCode where
  | insufficientUserQuota | preConsumeTokenQuotaFailed | updateDataError | queryDataError | modelPriceError
  deriving DecidableEq, Repr

structure ApiError where
  message : String
  errorCode : ErrorCode
  statusCode : Nat
  deriving DecidableEq, Repr

structure Setting where
  cal : Calendar
  formatQuota : Int → String
  trustQuota : Int

structure SubscriptionFunding where
  requestId : String
  (userId amount subscriptionId preConsumed amountTotal amountUsedAfter : Int)
  deriving DecidableEq, Repr

inductive Funding where
  | wallet (consumed : Int)
  | subscription (sub : SubscriptionFunding)
  deriving DecidableEq, Repr

structure Session where
  relayInfo : RelayInfo
  funding : Funding
  (preConsumedQuota tokenConsumed extraReserved : Int)
  (trusted fundingSettled settled refunded : Bool)
  deriving DecidableEq, Repr

/- How the statements of one call end: the debits first, then the credits (a rollback, a negative difference, a
refund). -/
structure Faults where
  tokenRead : Except String Int
  (token funding : Option String)
  sub : List (Option String)
  (tokenBack fundingBack : Option String)
  (subBack extraBack : List (Option String))
  scripts : List Attempt

structure Opening where
  (now tokenQuota : Int)
  userQuota : Except String Int
  (hasActive allowOverflow : Except String Bool)
  seen : Db → List SubscriptionPreConsumeRecord
  plans : UserSubscription → Except String Plan

def sourceOf : Funding → BillingSource
  | .wallet _ => .wallet
  | .subscription _ => .subscription

def fundingPreConsume (cfg : Setting) (o : Opening) (f : Faults) (amount : Int) (funding : Funding)
    (w : World) : Except String Funding × World :=
  match funding with
  | .wallet consumed =>
    if amount ≤ 0 then (.ok (.wallet consumed),w)
    else match decreaseUserQuota amount f.funding w with
      | (.error e,after) => (.error e,after)
      | (.ok _,after) => (.ok (.wallet amount),after)
  | .subscription sub =>
    match preConsumeUserSubscription cfg.cal sub.requestId sub.userId sub.amount o.now o.seen o.plans f.sub w.subs with
    | (.error e,subs) => (.error e,{w with subs := subs})
    | (.ok res,subs) =>
      (.ok (.subscription {sub with
        subscriptionId := res.userSubscriptionId, preConsumed := res.preConsumed,
        amountTotal := res.amountTotal, amountUsedAfter := res.amountUsedAfter }),{w with subs := subs})

def fundingSettle (f : Faults) (delta : Int) (funding : Funding) (w : World) : Except String Unit × World :=
  if delta = 0 then (.ok (),w)
  else match funding with
    | .wallet _ => settleWallet delta (if 0 < delta then f.funding else f.fundingBack) w
    | .subscription sub =>
      postConsumeSubscription sub.subscriptionId delta (if 0 < delta then f.sub else f.subBack) w

def fundingRefund (f : Faults) (funding : Funding) (w : World) : Except String Unit × World :=
  match funding with
  | .wallet consumed => if consumed ≤ 0 then (.ok (),w) else increaseUserQuota consumed f.fundingBack w
  | .subscription sub =>
    if sub.preConsumed ≤ 0 then (.ok (),w)
    else
      let r := refundWithRetry sub.requestId f.scripts w.subs
      (r.1,{w with subs := r.2})

def shouldTrust (cfg : Setting) (o : Opening) (s : Session) : Bool :=
  if s.relayInfo.forcePreConsume then false
  else if cfg.trustQuota ≤ 0 then false
  else if ¬s.relayInfo.tokenUnlimited ∧ o.tokenQuota ≤ cfg.trustQuota then false
  else match s.funding with
    | .wallet _ => cfg.trustQuota < s.relayInfo.userQuota
    | .subscription _ => false

def syncRelayInfo (s : Session) : Session :=
  let info := {s.relayInfo with
    finalPreConsumedQuota := s.preConsumedQuota, billingSource := some (sourceOf s.funding) }
  match s.funding with
  | .subscription sub =>
    { s with relayInfo := {info with
        subscriptionId := sub.subscriptionId
        subscriptionPreConsumed := sub.preConsumed + s.extraReserved
        subscriptionPostDelta := 0
        subscriptionAmountTotal := sub.amountTotal
        subscriptionAmountUsedAfterPreConsume := sub.amountUsedAfter + s.extraReserved } }
  | .wallet _ => {s with relayInfo := {info with subscriptionId := 0, subscriptionPreConsumed := 0}}

def notConfigured (message : String) : ApiError :=
  ⟨"订阅额度不足或未配置订阅: " ++ message,.insufficientUserQuota,403⟩

def fundingError (message : String) : ApiError :=
  if contains message noActiveSubscription ∨ contains message "subscription quota insufficient" then
    notConfigured message
  else ⟨message,.updateDataError,500⟩

def preConsumeToken (cfg : Setting) (f : Faults) (quota : Int) (s : Session) (w : World) :
    Except String Session × World :=
  if quota ≤ 0 then (.ok s,w)
  else match preConsumeTokenQuota cfg.formatQuota s.relayInfo quota f.tokenRead f.token w with
    | (.error e,after) => (.error e,after)
    | (.ok _,after) => (.ok {s with tokenConsumed := quota},after)

def rollbackToken (f : Faults) (s : Session) (w : World) : World :=
  if 0 < s.tokenConsumed ∧ ¬s.relayInfo.isPlayground then (increaseTokenQuota s.tokenConsumed f.tokenBack w).2
  else w

def preConsume (cfg : Setting) (o : Opening) (f : Faults) (quota : Int) (s : Session) (w : World) :
    Except ApiError Session × World :=
  let trusted := shouldTrust cfg o s
  let effectiveQuota := if trusted then 0 else quota
  match preConsumeToken cfg f effectiveQuota {s with trusted := trusted} w with
  | (.error e,after) => (.error ⟨e,.preConsumeTokenQuotaFailed,403⟩,after)
  | (.ok s',after) =>
    match fundingPreConsume cfg o f effectiveQuota s'.funding after with
    | (.error e,later) => (.error (fundingError e),rollbackToken f s' later)
    | (.ok funding,later) =>
      (.ok (syncRelayInfo {s' with funding := funding, preConsumedQuota := effectiveQuota}),later)

def postDelta (delta : Int) (s : Session) : RelayInfo :=
  match s.funding with
  | .subscription _ => {s.relayInfo with subscriptionPostDelta := s.relayInfo.subscriptionPostDelta + delta}
  | .wallet _ => s.relayInfo

/- Once the funding source is committed the session is settled even if the token could not be adjusted: no refund may
give the funds back. -/
def settleTokenPart (f : Faults) (delta : Int) (s : Session) (w : World) : Except String Unit × Session × World :=
  let done := {s with fundingSettled := true, settled := true, relayInfo := postDelta delta s}
  if s.relayInfo.isPlayground then (.ok (),done,w)
  else match settleToken delta (if 0 < delta then f.token else f.tokenBack) w with
    | (result,after) => (result,done,after)

def settle (f : Faults) (actualQuota : Int) (s : Session) (w : World) : Except String Unit × Session × World :=
  if s.settled then (.ok (),s,w)
  else
    let delta := actualQuota - s.preConsumedQuota
    if delta = 0 then (.ok (),{s with settled := true},w)
    else if s.fundingSettled then settleTokenPart f delta s w
    else match fundingSettle f delta s.funding w with
      | (.error e,after) => (.error e,s,after)
      | (.ok _,after) => settleTokenPart f delta s after

def needsRefundLocked (s : Session) : Bool :=
  if s.settled ∨ s.refunded ∨ s.fundingSettled then false
  else if 0 < s.tokenConsumed then true
  else match s.funding with
    | .subscription sub => 0 < sub.preConsumed
    | .wallet _ => false

def refundExtra (f : Faults) (s : Session) (w : World) : World :=
  match s.funding with
  | .subscription _ =>
    if 0 < s.extraReserved ∧ 0 < s.relayInfo.subscriptionId then
      (postConsumeSubscription s.relayInfo.subscriptionId (-s.extraReserved) f.extraBack w).2
    else w
  | .wallet _ => w

def refund (f : Faults) (s : Session) (w : World) : Session × World :=
  if s.settled ∨ s.refunded ∨ ¬needsRefundLocked s then (s,w)
  else ({s with refunded := true},rollbackToken f s (refundExtra f s (fundingRefund f s.funding w).2))

def reserveFunding (f : Faults) (delta : Int) (funding : Funding) (w : World) : Except ApiError Funding × World :=
  match funding with
  | .wallet consumed => match decreaseUserQuota delta f.funding w with
    | (.error e,after) => (.error ⟨e,.updateDataError,500⟩,after)
    | (.ok _,after) => (.ok (.wallet (consumed + delta)),after)
  | .subscription sub => match postConsumeSubscription sub.subscriptionId delta f.sub w with
    | (.error e,after) => (.error (notConfigured e),after)
    | (.ok _,after) => (.ok funding,after)

def rollbackFundingReserve (f : Faults) (delta : Int) (funding : Funding) (w : World) : Funding × World :=
  match funding with
  | .wallet consumed => match increaseUserQuota delta f.fundingBack w with
    | (.error _,after) => (funding,after)
    | (.ok _,after) => (.wallet (consumed - delta),after)
  | .subscription sub => (funding,(postConsumeSubscription sub.subscriptionId (-delta) f.subBack w).2)

def reserveToken (cfg : Setting) (f : Faults) (delta : Int) (info : RelayInfo) (w : World) :
    Except ApiError Unit × World :=
  if delta ≤ 0 ∨ info.isPlayground then (.ok (),w)
  else match preConsumeTokenQuota cfg.formatQuota info delta f.tokenRead f.token w with
    | (.error e,after) => (.error ⟨e,.preConsumeTokenQuotaFailed,403⟩,after)
    | (.ok _,after) => (.ok (),after)

def reserved (s : Session) (funding : Funding) (delta : Int) : Session :=
  {s with
    funding := funding, preConsumedQuota := s.preConsumedQuota + delta,
    tokenConsumed := s.tokenConsumed + delta, extraReserved := s.extraReserved + delta }

def reserve (cfg : Setting) (f : Faults) (targetQuota : Int) (s : Session) (w : World) :
    Except ApiError Unit × Session × World :=
  if s.settled ∨ s.refunded ∨ s.trusted ∨ targetQuota ≤ s.preConsumedQuota then (.ok (),s,w)
  else
    let delta := targetQuota - s.preConsumedQuota
    match reserveFunding f delta s.funding w with
    | (.error e,after) => (.error e,s,after)
    | (.ok funding,after) => match reserveToken cfg f delta s.relayInfo after with
      | (.error e,later) =>
        let (back,last) := rollbackFundingReserve f delta funding later
        (.error e,{s with funding := back},last)
      | (.ok _,later) => (.ok (),syncRelayInfo (reserved s funding delta),later)

def freshSession (info : RelayInfo) (funding : Funding) : Session :=
  ⟨info,funding,0,0,0,false,false,false,false⟩

def tryWallet (cfg : Setting) (o : Opening) (f : Faults) (info : RelayInfo) (preConsumedQuota : Int)
    (w : World) : Except ApiError Session × World :=
  match o.userQuota with
  | .error e => (.error ⟨e,.queryDataError,500⟩,w)
  | .ok userQuota =>
    if userQuota ≤ 0 then
      (.error ⟨"用户额度不足, 剩余额度: " ++ cfg.formatQuota userQuota,.insufficientUserQuota,403⟩,w)
    else if userQuota - preConsumedQuota < 0 then
      (.error ⟨"预扣费额度失败, 用户剩余额度: " ++ cfg.formatQuota userQuota ++ ", 需要预扣费额度: " ++
        cfg.formatQuota preConsumedQuota,.insufficientUserQuota,403⟩,w)
    else preConsume cfg o f preConsumedQuota
      (freshSession {info with userQuota := userQuota} (.wallet 0)) w

def trySubscription (cfg : Setting) (o : Opening) (f : Faults) (info : RelayInfo) (preConsumedQuota : Int)
    (w : World) : Except ApiError Session × World :=
  let subConsume := if preConsumedQuota ≤ 0 then 1 else preConsumedQuota
  preConsume cfg o f subConsume
    (freshSession info (.subscription ⟨info.requestId,info.userId,subConsume,0,0,0,0⟩)) w

inductive BillingPreference where
  | subscriptionFirst | walletFirst | subscriptionOnly | walletOnly
  deriving DecidableEq, Repr

def normalizeBillingPreference (pref : String) : BillingPreference :=
  if trimSpace pref = "wallet_first" then .walletFirst
  else if trimSpace pref = "subscription_only" then .subscriptionOnly
  else if trimSpace pref = "wallet_only" then .walletOnly
  else .subscriptionFirst

def newBillingSession (cfg : Setting) (o : Opening) (walletFaults subFaults : Faults) (info : RelayInfo)
    (preConsumedQuota : Int) (w : World) : Except ApiError Session × World :=
  match normalizeBillingPreference info.billingPreference with
  | .subscriptionOnly => trySubscription cfg o subFaults info preConsumedQuota w
  | .walletOnly => tryWallet cfg o walletFaults info preConsumedQuota w
  | .walletFirst => match tryWallet cfg o walletFaults info preConsumedQuota w with
    | (.ok session,after) => (.ok session,after)
    | (.error e,after) =>
      if e.errorCode = .insufficientUserQuota then trySubscription cfg o subFaults info preConsumedQuota after
      else (.error e,after)
  | .subscriptionFirst => match o.hasActive with
    | .error e => (.error ⟨e,.queryDataError,500⟩,w)
    | .ok false => tryWallet cfg o walletFaults info preConsumedQuota w
    | .ok true => match trySubscription cfg o subFaults info preConsumedQuota w with
      | (.ok session,after) => (.ok session,after)
      | (.error e,after) =>
        if e.errorCode = .insufficientUserQuota then match o.allowOverflow with
          | .error err => (.error ⟨err,.queryDataError,500⟩,after)
          | .ok true => tryWallet cfg o walletFaults info preConsumedQuota after
          | .ok false => (.error e,after)
        else (.error e,after)

def preConsumeBilling (cfg : Setting) (o : Opening) (walletFaults subFaults : Faults) (info : RelayInfo)
    (quotaClamp : Option String) (preConsumedQuota : Int) (w : World) : Except ApiError Session × World :=
  match quotaClamp with
  | some message => (.error ⟨message,.modelPriceError,400⟩,w)
  | none =>
    if preConsumedQuota < 0 then
      (.error ⟨"pre-consume quota cannot be negative: " ++ toString preConsumedQuota,.modelPriceError,400⟩,w)
    else newBillingSession cfg o walletFaults subFaults info preConsumedQuota w

def settleBilling (f : Faults) (actualQuota : Int) (billing : Option Session) (info : RelayInfo) (w : World) :
    Except String Unit × Option Session × RelayInfo × World :=
  match billing with
  | some session => match settle f actualQuota session w with
    | (result,session',after) => (result,some session',session'.relayInfo,after)
  | none =>
    let quotaDelta := actualQuota - info.finalPreConsumedQuota
    if quotaDelta = 0 then (.ok (),none,info,w)
    else match postConsumeQuota info quotaDelta (if 0 < quotaDelta then f.funding else f.fundingBack)
        (if 0 < quotaDelta then f.sub else f.subBack) (if 0 < quotaDelta then f.token else f.tokenBack) w with
      | (result,info',after) => (result,none,info',after)

end Omnigate.BillingSession
