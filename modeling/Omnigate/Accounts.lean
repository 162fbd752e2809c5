import Omnigate.SubscriptionRefund

/-! The accounts a request is charged to: wallet, API token and subscription tables. Wallet and token are the stored
quota with the batched updates still to be written; a value read from a cache is an argument. Each update takes the
error its statement ends with, if it does. -/
namespace Omnigate.Accounts

open SubscriptionStore SubscriptionConsume

structure World where
  (wallet token : Int)
  subs : Db
  deriving DecidableEq

def negativeQuota : String := "quota 不能为负数！"

def update (quota : Int) (fault : Option String) (change : World) (w : World) : Except String Unit × World :=
  if quota < 0 then (.error negativeQuota,w)
  else match fault with
    | some e => (.error e,w)
    | none => (.ok (),change)

def increaseUserQuota (quota : Int) (fault : Option String) (w : World) : Except String Unit × World :=
  update quota fault {w with wallet := w.wallet + quota} w

def decreaseUserQuota (quota : Int) (fault : Option String) (w : World) : Except String Unit × World :=
  update quota fault {w with wallet := w.wallet - quota} w

def increaseTokenQuota (quota : Int) (fault : Option String) (w : World) : Except String Unit × World :=
  update quota fault {w with token := w.token + quota} w

def decreaseTokenQuota (quota : Int) (fault : Option String) (w : World) : Except String Unit × World :=
  update quota fault {w with token := w.token - quota} w

def postConsumeSubscription (id delta : Int) (faults : List (Option String)) (w : World) :
    Except String Unit × World :=
  match postConsumeUserSubscriptionDelta id delta faults w.subs with
  | (result,subs) => (result,{w with subs := subs})

inductive BillingSource where
  | wallet | subscription
  deriving DecidableEq, Repr

structure RelayInfo where
  userId : Int
  requestId : String
  (isPlayground forcePreConsume tokenUnlimited : Bool)
  userQuota : Int
  billingPreference : String
  billingSource : Option BillingSource
  (finalPreConsumedQuota subscriptionId subscriptionPreConsumed subscriptionPostDelta : Int)
  (subscriptionAmountTotal subscriptionAmountUsedAfterPreConsume : Int)
  deriving DecidableEq, Repr

def preConsumeTokenQuota (formatQuota : Int → String) (info : RelayInfo) (quota : Int)
    (read : Except String Int) (fault : Option String) (w : World) : Except String Unit × World :=
  if quota < 0 then (.error negativeQuota,w)
  else if info.isPlayground then (.ok (),w)
  else match read with
    | .error e => (.error e,w)
    | .ok remain =>
      if ¬info.tokenUnlimited ∧ remain < quota then
        (.error ("token quota is not enough, token remain quota: " ++ formatQuota remain ++
          ", need quota: " ++ formatQuota quota),w)
      else decreaseTokenQuota quota fault w

def settleWallet (quota : Int) (fault : Option String) (w : World) : Except String Unit × World :=
  if 0 < quota then decreaseUserQuota quota fault w else increaseUserQuota (-quota) fault w

def settleToken (quota : Int) (fault : Option String) (w : World) : Except String Unit × World :=
  if 0 < quota then decreaseTokenQuota quota fault w else increaseTokenQuota (-quota) fault w

def postConsumeFunding (info : RelayInfo) (quota : Int) (fault : Option String)
    (subFaults : List (Option String)) (w : World) : Except String RelayInfo × World :=
  if info.billingSource = some .subscription then
    if info.subscriptionId = 0 then (.error "subscription id is missing",w)
    else if quota = 0 then (.ok info,w)
    else match postConsumeSubscription info.subscriptionId quota subFaults w with
      | (.error e,after) => (.error e,after)
      | (.ok _,after) => (.ok {info with subscriptionPostDelta := info.subscriptionPostDelta + quota},after)
  else match settleWallet quota fault w with
    | (.error e,after) => (.error e,after)
    | (.ok _,after) => (.ok info,after)

def postConsumeQuota (info : RelayInfo) (quota : Int) (fault : Option String)
    (subFaults : List (Option String)) (tokenFault : Option String) (w : World) :
    Except String Unit × RelayInfo × World :=
  match postConsumeFunding info quota fault subFaults w with
  | (.error e,after) => (.error e,info,after)
  | (.ok info',after) =>
    if info.isPlayground then (.ok (),info',after)
    else match settleToken quota tokenFault after with
      | (result,last) => (result,info',last)

theorem updateCases (h : update quota fault change w = (r,w')) :
    ((∃ e, r = .error e) ∧ w' = w) ∨ (r = .ok () ∧ w' = change ∧ 0 ≤ quota) := by
  unfold update at h
  split at h
  · cases h; exact .inl ⟨⟨_,rfl⟩,rfl⟩
  split at h <;> cases h
  · exact .inl ⟨⟨_,rfl⟩,rfl⟩
  · exact .inr ⟨rfl,rfl,by omega⟩

theorem updateClear (nonneg : 0 ≤ quota) : update quota none change w = (.ok (),change) := by
  simp [update,not_lt.mpr nonneg]

theorem settleCases {quota : Int} {down up} (same : up = down)
    (h : (if 0 < quota then update quota fault down w else update (-quota) fault up w) = (r,w')) :
    ((∃ e, r = .error e) ∧ w' = w) ∨ (r = .ok () ∧ w' = down) := by
  rw [same] at h
  split at h <;> rcases updateCases h with failed | ⟨ok,change,_⟩
  all_goals first | exact .inl failed | exact .inr ⟨ok,change⟩

theorem settleWalletCases (h : settleWallet quota fault w = (r,w')) :
    ((∃ e, r = .error e) ∧ w' = w) ∨ (r = .ok () ∧ w' = {w with wallet := w.wallet - quota}) :=
  settleCases (by rw [sub_eq_add_neg]) h

theorem updateIff (nonneg : 0 ≤ quota) : (update quota fault change w).1 = .ok () ↔ fault = none := by
  unfold update
  rw [if_neg (not_lt.mpr nonneg)]
  cases fault <;> simp

theorem settleWalletIff {quota fault w} : (settleWallet quota fault w).1 = .ok () ↔ fault = none := by
  unfold settleWallet
  split <;> exact updateIff (by omega)

theorem settleTokenCases (h : settleToken quota fault w = (r,w')) :
    ((∃ e, r = .error e) ∧ w' = w) ∨ (r = .ok () ∧ w' = {w with token := w.token - quota}) :=
  settleCases (by rw [sub_eq_add_neg]) h

structure SameFunds (w w' : World) : Prop where
  wallet : w'.wallet = w.wallet
  subs : w'.subs = w.subs

theorem sameFundsRefl (w) : SameFunds w w := ⟨rfl,rfl⟩

theorem sameFundsTrans (first : SameFunds w v) (second : SameFunds v u) : SameFunds w u :=
  ⟨second.wallet.trans first.wallet,second.subs.trans first.subs⟩

theorem settleTokenFunds (quota fault w) :
    SameFunds w (settleToken quota fault w).2 := by
  rcases moved : settleToken quota fault w with ⟨r,_⟩
  rcases settleTokenCases moved with ⟨_,rfl⟩ | ⟨_,rfl⟩
  · exact sameFundsRefl _
  · exact ⟨rfl,rfl⟩

end Omnigate.Accounts
