import Omnigate.BillingSession
import Omnigate.SubscriptionHold

/-! Conservation over the calls of one billing session: what has been taken from funding source and token agrees with
the session's counters until it settles or refunds. Nobody else touches its accounts meanwhile. -/
namespace Omnigate.BillingConservation

open Option

open Machine Accounts BillingSession SubscriptionPlan SubscriptionStore SubscriptionConsume SubscriptionLedger
open SubscriptionRefund hiding refund step
open SubscriptionRun SubscriptionHold Table Text Transaction

def baseUsed (sub : SubscriptionFunding) : Int := sub.amountUsedAfter - sub.preConsumed

def netFunding (w0 : World) (s : Session) (w : World) : Int :=
  match s.funding with
  | .wallet _ => w0.wallet - w.wallet
  | .subscription sub => (usedOf w.subs sub.subscriptionId).getD 0 - baseUsed sub

def Anchored (w0 : World) (s : Session) : Prop :=
  ∀ sub, s.funding = .subscription sub → Found w0.subs.subs sub.subscriptionId (baseUsed sub)

def netToken (w0 w : World) : Int := w0.token - w.token

def charge (funding : Funding) (actualQuota : Int) : Int :=
  match funding with
  | .wallet _ => actualQuota
  | .subscription sub => max actualQuota (-baseUsed sub)

def tokenCharge (s : Session) (quota : Int) : Int := if s.relayInfo.isPlayground then 0 else quota

structure SubBooks (s : Session) (sub : SubscriptionFunding) (db : Db) : Prop where
  synced : s.relayInfo.subscriptionId = sub.subscriptionId
  named : trimSpace sub.requestId ≠ ""
  positive : 0 < sub.preConsumed
  extra : 0 ≤ s.extraReserved
  total : sub.preConsumed + s.extraReserved = s.preConsumedQuota
  base : 0 ≤ baseUsed sub
  record : db.record sub.requestId = some ⟨sub.requestId,sub.userId,sub.subscriptionId,sub.preConsumed,.consumed⟩
  row : ∃ row, db.sub sub.subscriptionId = some row ∧ Bounded row ∧ row.amountUsed = baseUsed sub + s.preConsumedQuota

def FundingBooks (w0 : World) (s : Session) (w : World) : Prop :=
  match s.funding with
  | .wallet consumed => consumed = s.preConsumedQuota ∧ w0.wallet - w.wallet = s.preConsumedQuota
  | .subscription sub => SubBooks s sub w.subs

structure Books (w0 : World) (s : Session) (w : World) : Prop where
  nonneg : 0 ≤ s.preConsumedQuota
  counted : s.tokenConsumed = s.preConsumedQuota
  token : netToken w0 w = tokenCharge s s.preConsumedQuota
  funding : FundingBooks w0 s w

theorem postSubscriptionCases {id} (h : postConsumeSubscription id delta faults w = (r,w')) :
    ((∃ e, r = .error e) ∧ w' = w) ∨ (r = .ok () ∧ w'.wallet = w.wallet ∧ w'.token = w.token ∧
      postConsumeUserSubscriptionDelta id delta faults w.subs = (.ok (),w'.subs)) := by
  unfold postConsumeSubscription at h
  have safe : Safe anyRecords w.subs _ := postConsumeSafe id delta faults w.subs
  rcases post : postConsumeUserSubscriptionDelta id delta faults w.subs with ⟨_,subs⟩
  rw [post] at h safe
  cases h
  cases r with
  | error e =>
    have same : subs = w.subs := safe.failed e rfl
    subst same
    exact .inl ⟨⟨e,rfl⟩,rfl⟩
  | ok => exact .inr ⟨rfl,rfl,rfl,rfl⟩

theorem postMoves {id} (moves : delta ≠ 0) (hit : db.sub id = some row)
    (h : postConsumeUserSubscriptionDelta id delta faults db = (.ok (),after)) :
    after = db.putSub {row with amountUsed := clampUsed row.amountUsed delta} ∧
      (0 < row.amountTotal → clampUsed row.amountUsed delta ≤ row.amountTotal) := by
  rcases postConsumeOk h with ⟨zero,_⟩ | ⟨_,hit',_,within,tables⟩
  · exact absurd zero moves
  · cases some.inj (hit.symm.trans hit')
    exact ⟨tables,within⟩

variable {row : UserSubscription}

theorem usedPut {db : Db} {id} (key : row.id = id) : (db.putSub row).sub id = some row := by
  simp [Db.sub,Db.putSub,lookupSave,key]

def creditsSucceed (f : Faults) : Bool :=
  f.tokenBack = none ∧ f.fundingBack = none ∧ f.subBack = [] ∧ f.extraBack = [] ∧ f.scripts.isEmpty

theorem clampOf (h : 0 ≤ used + delta) : clampUsed used delta = used + delta := by
  simp [clampUsed,not_lt.mpr h]

theorem subKey {db : Db} {id} (hit : db.sub id = some row) : row.id = id :=
  (lookupSound hit).2

variable {s : Session} {sub : SubscriptionFunding}

theorem subBooksGrow {db after : Db} (books : SubBooks s sub db) (grows : 0 < delta)
    (h : postConsumeUserSubscriptionDelta sub.subscriptionId delta faults db = (.ok (),after)) :
    after.record sub.requestId = db.record sub.requestId ∧
      ∃ row, after.sub sub.subscriptionId = some row ∧ Bounded row ∧
        row.amountUsed = baseUsed sub + s.preConsumedQuota + delta := by
  obtain ⟨row,hit,fit,_⟩ := books.row
  obtain ⟨tables,within⟩ := postMoves (by omega) hit h
  have nonneg := fit.nonneg
  have clamp : clampUsed row.amountUsed delta = row.amountUsed + delta := clampOf (by omega)
  subst tables
  have key := subKey hit
  refine ⟨rfl,_,usedPut (by exact key),⟨fit.keyed,?_,within⟩,?_⟩
  · show 0 ≤ clampUsed row.amountUsed delta
    omega
  · show clampUsed row.amountUsed delta = _
    omega

theorem creditRow {db : Db} {id} (hit : db.sub id = some row) (fit : Bounded row)
    (positive : 0 < amount) (enough : amount ≤ row.amountUsed) :
    ∃ after row', postConsumeUserSubscriptionDelta id (-amount) [] db = (.ok (),after) ∧
      after.records = db.records ∧ after.sub id = some row' ∧ Bounded row' ∧
      row'.amountUsed = row.amountUsed - amount := by
  have key := subKey hit
  have keyed := fit.keyed
  have room := refundStays fit.within positive
  have criterion : (postConsumeUserSubscriptionDelta id (-amount) [] db).1 = .ok () ↔
      passes 3 ([] : List (Option String)) := postConsumePasses (by omega) (by omega) hit room
  have through := criterion.mpr (by decide)
  rcases post : postConsumeUserSubscriptionDelta id (-amount) [] db with ⟨_,after⟩
  rw [post] at through
  cases through
  obtain ⟨tables,within⟩ := postMoves (by omega) hit post
  have clamp : clampUsed row.amountUsed (-amount) = row.amountUsed - amount := clampOf (by omega)
  refine ⟨after,_,rfl,by rw [tables]; rfl,by rw [tables]; exact usedPut (by exact key),?_,clamp⟩
  exact ⟨fit.keyed,clampNonneg _ _,within⟩

theorem preConsumeTokenCases {format info quota read fault w r w'}
    (h : preConsumeTokenQuota format info quota read fault w = (r,w')) :
    ((∃ e, r = .error e) ∧ w' = w) ∨
    (r = .ok () ∧ w' = {w with token := w.token - if info.isPlayground then 0 else quota}) := by
  unfold preConsumeTokenQuota at h
  split at h
  · cases h; exact .inl ⟨⟨_,rfl⟩,rfl⟩
  split at h
  · rename_i playground
    cases h
    exact .inr ⟨rfl,by simp [playground]⟩
  rename_i real
  split at h
  · cases h; exact .inl ⟨⟨_,rfl⟩,rfl⟩
  split at h
  · cases h; exact .inl ⟨⟨_,rfl⟩,rfl⟩
  rcases updateCases h with failed | ⟨ok,change,_⟩
  · exact .inl failed
  · exact .inr ⟨ok,by simp [change,real]⟩

theorem reserveTokenCases {cfg} (h : reserveToken cfg f delta info w = (r,w')) :
    ((∃ e, r = .error e) ∧ w' = w) ∨
    (r = .ok () ∧ w' = {w with token := w.token - if delta ≤ 0 ∨ info.isPlayground then 0 else delta}) := by
  unfold reserveToken at h
  split at h
  · rename_i none
    cases h
    exact .inr ⟨rfl,by simp [none]⟩
  rename_i some
  rcases token : preConsumeTokenQuota cfg.formatQuota info delta f.tokenRead f.token w with ⟨result,after⟩
  rw [token] at h
  rcases preConsumeTokenCases token with ⟨⟨e,rfl⟩,same⟩ | ⟨rfl,change⟩
  · cases h
    exact .inl ⟨⟨_,rfl⟩,same⟩
  cases h
  refine .inr ⟨rfl,?_⟩
  rw [change,if_neg some,if_neg (fun playground => some (.inr playground))]

theorem syncFields (s) :
    (syncRelayInfo s).funding = s.funding ∧ (syncRelayInfo s).preConsumedQuota = s.preConsumedQuota ∧
    (syncRelayInfo s).tokenConsumed = s.tokenConsumed ∧ (syncRelayInfo s).extraReserved = s.extraReserved ∧
    (syncRelayInfo s).settled = s.settled ∧ (syncRelayInfo s).refunded = s.refunded ∧
    (syncRelayInfo s).fundingSettled = s.fundingSettled ∧
    (syncRelayInfo s).relayInfo.isPlayground = s.relayInfo.isPlayground := by
  unfold syncRelayInfo
  cases s.funding <;> simp

structure Opened (w0 : World) (s : Session) (w : World) : Prop where
  unsettled : s.settled = false
  unrefunded : s.refunded = false
  uncommitted : s.fundingSettled = false
  books : Books w0 s w

theorem openedSync (flags : s.settled = false ∧ s.refunded = false ∧ s.fundingSettled = false)
    (nonneg : 0 ≤ s.preConsumedQuota) (counted : s.tokenConsumed = s.preConsumedQuota)
    (token : netToken w0 w = tokenCharge s s.preConsumedQuota) (funding : FundingBooks w0 (syncRelayInfo s) w) :
    Opened w0 (syncRelayInfo s) w := by
  obtain ⟨_,f2,f3,_,f5,f6,f7,f8⟩ := syncFields s
  refine ⟨by rw [f5]; exact flags.1,by rw [f6]; exact flags.2.1,by rw [f7]; exact flags.2.2,?_⟩
  refine ⟨by rw [f2]; exact nonneg,by rw [f3,f2]; exact counted,?_,funding⟩
  rw [tokenCharge,f8,f2]
  exact token

theorem tokenGrows (positive : 0 < delta) (token : netToken w0 w = tokenCharge s s.preConsumedQuota) :
    w0.token - (w.token - if delta ≤ 0 ∨ s.relayInfo.isPlayground then 0 else delta) =
      tokenCharge s (s.preConsumedQuota + delta) := by
  unfold netToken at token
  unfold tokenCharge at token ⊢
  cases playground : s.relayInfo.isPlayground <;> simp [playground,not_le.mpr positive] at token ⊢ <;> omega

theorem openedFlags (opened : Opened w0 s w) : s.settled = false ∧ s.refunded = false ∧ s.fundingSettled = false :=
  ⟨opened.unsettled,opened.unrefunded,opened.uncommitted⟩

section
variable (credits : creditsSucceed f) (positive : 0 < delta) (opened : Opened w0 s w)
  (targets : s.preConsumedQuota + delta = target) (busy : ¬(s.settled ∨ s.refunded ∨ s.trusted ∨ target ≤ s.preConsumedQuota))

include credits positive opened targets busy

theorem reserveWallet (hf : s.funding = .wallet consumed) :
    Opened w0 (reserve cfg f target s w).2.1 (reserve cfg f target s w).2.2 := by
  obtain ⟨_,net⟩ : consumed = s.preConsumedQuota ∧ w0.wallet - w.wallet = s.preConsumedQuota := by
    simpa [FundingBooks,hf] using opened.books.funding
  have exact' : target - s.preConsumedQuota = delta := by omega
  have nonneg := opened.books.nonneg
  have counted := opened.books.counted
  unfold reserve
  rw [if_neg busy]
  simp only [exact',reserveFunding,hf]
  rcases debit : decreaseUserQuota delta f.funding w with ⟨result,after⟩
  rcases updateCases debit with ⟨⟨e,rfl⟩,rfl⟩ | ⟨rfl,rfl,_⟩
  · exact opened
  dsimp only
  rcases token : reserveToken cfg f delta s.relayInfo {w with wallet := w.wallet - delta} with ⟨answer,later⟩
  rcases reserveTokenCases token with ⟨⟨e,rfl⟩,rfl⟩ | ⟨rfl,rfl⟩
  · -- the wallet gives back what the refused token reservation had taken
    simp only [creditsSucceed,decide_eq_true_eq] at credits
    have back : increaseUserQuota delta f.fundingBack {w with wallet := w.wallet - delta} = (.ok (),w) := by
      rw [credits.2.1]
      unfold increaseUserQuota
      rw [updateClear (by omega)]
      simp
    simp only [rollbackFundingReserve,back]
    refine ⟨opened.unsettled,opened.unrefunded,opened.uncommitted,nonneg,counted,opened.books.token,?_⟩
    simp only [FundingBooks]
    exact ⟨by omega,net⟩
  · have flags := openedFlags opened
    refine openedSync (s := reserved s (.wallet (consumed + delta)) delta) flags ?_ ?_ ?_ ⟨?_,?_⟩
    · show 0 ≤ s.preConsumedQuota + delta
      omega
    · show s.tokenConsumed + delta = s.preConsumedQuota + delta
      omega
    · exact tokenGrows positive opened.books.token
    · show consumed + delta = s.preConsumedQuota + delta
      omega
    · show w0.wallet - (w.wallet - delta) = s.preConsumedQuota + delta
      omega

theorem reserveSub (hf : s.funding = .subscription sub) :
    Opened w0 (reserve cfg f target s w).2.1 (reserve cfg f target s w).2.2 := by
  have held : SubBooks s sub w.subs := by simpa [FundingBooks,hf] using opened.books.funding
  have exact' : target - s.preConsumedQuota = delta := by omega
  have nonneg := opened.books.nonneg
  have counted := opened.books.counted
  unfold reserve
  rw [if_neg busy]
  simp only [exact',reserveFunding,hf]
  rcases debit : postConsumeSubscription sub.subscriptionId delta f.sub w with ⟨_,after⟩
  rcases postSubscriptionCases debit with ⟨⟨e,rfl⟩,rfl⟩ | ⟨rfl,_,token,post⟩
  · exact opened
  obtain ⟨record,row,hit,fit,_⟩ := subBooksGrow held positive post
  dsimp only
  rcases token' : reserveToken cfg f delta s.relayInfo after with ⟨_,later⟩
  rcases reserveTokenCases token' with ⟨⟨e,rfl⟩,rfl⟩ | ⟨rfl,rfl⟩
  · simp only [creditsSucceed,decide_eq_true_eq] at credits
    have base := held.base
    obtain ⟨back,row',post',records,hit',fit',_⟩ := creditRow hit fit positive (by omega)
    simp only [rollbackFundingReserve,postConsumeSubscription,credits.2.2.1,post']
    refine ⟨opened.unsettled,opened.unrefunded,opened.uncommitted,nonneg,counted,?_,?_⟩
    · rw [token]
      exact opened.books.token
    have kept : back.record sub.requestId = later.subs.record sub.requestId := by simp only [Db.record,records]
    have same : row'.amountUsed = baseUsed sub + s.preConsumedQuota := by omega
    exact ⟨held.synced,held.named,held.positive,held.extra,held.total,held.base,
      kept.trans (record.trans held.record),row',hit',fit',same⟩
  have flags := openedFlags opened
  have extra := held.extra
  have total := held.total
  refine openedSync (s := reserved s (.subscription sub) delta) flags ?_ ?_ ?_
    ⟨rfl,held.named,held.positive,?_,?_,held.base,?_,?_⟩
  · show 0 ≤ s.preConsumedQuota + delta
    omega
  · show s.tokenConsumed + delta = s.preConsumedQuota + delta
    omega
  · rw [token]
    exact tokenGrows positive opened.books.token
  · show 0 ≤ s.extraReserved + delta
    omega
  · show sub.preConsumed + (s.extraReserved + delta) = s.preConsumedQuota + delta
    omega
  · exact record.trans held.record
  · refine ⟨row,hit,fit,?_⟩
    show row.amountUsed = baseUsed sub + (s.preConsumedQuota + delta)
    omega

end

theorem reserveKeeps (credits : creditsSucceed f) (opened : Opened w0 s w) :
    Opened w0 (reserve cfg f target s w).2.1 (reserve cfg f target s w).2.2 := by
  by_cases busy : s.settled ∨ s.refunded ∨ s.trusted ∨ target ≤ s.preConsumedQuota
  · unfold reserve
    rw [if_pos busy]
    exact opened
  have more : s.preConsumedQuota < target := by
    omega
  have positive : 0 < target - s.preConsumedQuota := by omega
  have sum : s.preConsumedQuota + (target - s.preConsumedQuota) = target := by omega
  cases hf : s.funding with
  | wallet => exact reserveWallet credits positive opened sum busy hf
  | subscription => exact reserveSub credits positive opened sum busy hf

structure Charged (w0 : World) (s : Session) (w : World) (actualQuota : Int) : Prop where
  funding : netFunding w0 s w = charge s.funding actualQuota
  token : netToken w0 w = tokenCharge s actualQuota

theorem booksNet (books : Books w0 s w) : netFunding w0 s w = charge s.funding s.preConsumedQuota := by
  have funding := books.funding
  unfold FundingBooks at funding
  unfold netFunding charge
  cases hf : s.funding with
  | wallet =>
    rw [hf] at funding
    exact funding.2
  | subscription =>
    rw [hf] at funding
    obtain ⟨row,hit,_⟩ := funding.row
    have base := funding.base
    have nonneg := books.nonneg
    simp only [usedOf,hit,map_some,getD_some]
    omega

theorem booksHeld (books : Books w0 s w) : netFunding w0 s w = s.preConsumedQuota := by
  have net := booksNet books
  have nonneg := books.nonneg
  have funding := books.funding
  unfold FundingBooks at funding
  rw [net]
  unfold charge
  split
  · rfl
  rename_i _ hf
  rw [hf] at funding
  have base := funding.base
  omega

theorem fundingSettleCases (books : Books w0 s w) (moves : actualQuota - s.preConsumedQuota ≠ 0)
    (h : fundingSettle f (actualQuota - s.preConsumedQuota) s.funding w = (r,w')) :
    ((∃ e, r = .error e) ∧ w' = w) ∨
    (r = .ok () ∧ w'.token = w.token ∧ netFunding w0 s w' = charge s.funding actualQuota) := by
  have funding := books.funding
  unfold FundingBooks at funding
  unfold fundingSettle at h
  rw [if_neg moves] at h
  unfold netFunding charge
  cases hf : s.funding with
  | wallet =>
    rw [hf] at funding h
    rcases settleWalletCases h with failed | ⟨ok,rfl⟩
    · exact .inl failed
    refine .inr ⟨ok,rfl,?_⟩
    show w0.wallet - (w.wallet - (actualQuota - s.preConsumedQuota)) = actualQuota
    omega
  | subscription sub =>
    rw [hf] at funding h
    obtain ⟨row,hit,_⟩ := funding.row
    rcases postSubscriptionCases h with failed | ⟨ok,_,token,post⟩
    · exact .inl failed
    have tables := (postMoves moves hit post).1
    have key := subKey hit
    refine .inr ⟨ok,token,?_⟩
    simp only [tables,usedOf,usedPut (by exact key : ({row with
      amountUsed := clampUsed row.amountUsed (actualQuota - s.preConsumedQuota) } : UserSubscription).id =
        sub.subscriptionId),map_some,getD_some]
    unfold clampUsed
    split <;> omega

theorem postDeltaPlayground (delta s) :
    (postDelta delta s).isPlayground = s.relayInfo.isPlayground := by
  unfold postDelta
  split <;> rfl

theorem settleTokenPartCharges (unrefunded : s.refunded = false)
    (before : netToken w0 w = tokenCharge s s.preConsumedQuota) (token : after.token = w.token)
    (net : netFunding w0 s after = charge s.funding actualQuota) :
    let r := settleTokenPart f (actualQuota - s.preConsumedQuota) s after
    r.2.1.settled ∧ r.2.1.refunded = false ∧ (r.1 = .ok () → Charged w0 r.2.1 r.2.2 actualQuota) := by
  unfold netToken tokenCharge at before
  unfold settleTokenPart
  split
  · rename_i playground
    refine ⟨rfl,unrefunded,fun _ => ⟨net,?_⟩⟩
    unfold netToken tokenCharge
    simp only [postDeltaPlayground,playground,if_true] at before ⊢
    omega
  rename_i real
  rcases moved : settleToken (actualQuota - s.preConsumedQuota)
    (if 0 < actualQuota - s.preConsumedQuota then f.token else f.tokenBack) after with ⟨result,last⟩
  refine ⟨rfl,unrefunded,fun ok => ?_⟩
  rcases settleTokenCases moved with ⟨⟨e,rfl⟩,_⟩ | ⟨_,rfl⟩
  · cases ok
  refine ⟨net,?_⟩
  unfold netToken tokenCharge
  simp only [postDeltaPlayground,if_neg real] at before ⊢
  omega

theorem settleKeeps {f w0 w s actualQuota} (opened : Opened w0 s w) :
    let r := settle f actualQuota s w
    (Opened w0 r.2.1 r.2.2 ∧ r.1 ≠ .ok ()) ∨
      (r.2.1.settled ∧ r.2.1.refunded = false ∧ (r.1 = .ok () → Charged w0 r.2.1 r.2.2 actualQuota)) := by
  unfold settle
  simp only [opened.unsettled,opened.uncommitted,Bool.false_eq_true,if_false]
  split
  · refine .inr ⟨rfl,opened.unrefunded,fun _ => ?_⟩
    have same : actualQuota = s.preConsumedQuota := by omega
    subst same
    have net := booksNet opened.books
    exact ⟨net,opened.books.token⟩
  · rename_i moves
    rcases paid : fundingSettle f (actualQuota - s.preConsumedQuota) s.funding w with ⟨result,after⟩
    rcases fundingSettleCases opened.books moves paid with ⟨⟨e,rfl⟩,rfl⟩ | ⟨rfl,token,net⟩
    · exact .inl ⟨opened,by simp⟩
    · exact .inr (settleTokenPartCharges opened.unrefunded opened.books.token token net)

theorem settleFunding {f actualQuota s w} : (settle f actualQuota s w).2.1.funding = s.funding := by
  have part : ∀ delta w', (settleTokenPart f delta s w').2.1.funding = s.funding := by
    intro delta w'
    unfold settleTokenPart
    split <;> rfl
  unfold settle
  split
  · rfl
  dsimp only
  split
  · rfl
  split
  · exact part _ _
  split
  · rfl
  · exact part _ _

theorem settleInfo {f actualQuota s w} :
    (settle f actualQuota s w).2.1.relayInfo.billingSource = s.relayInfo.billingSource ∧
    (settle f actualQuota s w).2.1.relayInfo.subscriptionId = s.relayInfo.subscriptionId := by
  have delta : ∀ d, (postDelta d s).billingSource = s.relayInfo.billingSource ∧
      (postDelta d s).subscriptionId = s.relayInfo.subscriptionId := by
    intro d
    unfold postDelta
    split <;> exact ⟨rfl,rfl⟩
  have part : ∀ d w', (settleTokenPart f d s w').2.1.relayInfo = postDelta d s := by
    intro d w'
    unfold settleTokenPart
    split <;> rfl
  unfold settle
  split
  · exact ⟨rfl,rfl⟩
  dsimp only
  split
  · exact ⟨rfl,rfl⟩
  split
  · rw [part]; exact delta _
  split
  · exact ⟨rfl,rfl⟩
  · rw [part]; exact delta _

theorem retryClear (record : SubscriptionPreConsumeRecord) (named : trimSpace record.requestId ≠ "")
    (stored : db.record record.requestId = some record) (consumed : record.status = .consumed)
    (positive : 0 < record.preConsumed) (hit : db.sub record.userSubscriptionId = some row) (fit : Bounded row)
    (enough : record.preConsumed ≤ row.amountUsed) :
    ∃ after row', refundWithRetry record.requestId [] db = (.ok (),after) ∧
      after.sub record.userSubscriptionId = some row' ∧ Bounded row' ∧
      row'.amountUsed = row.amountUsed - record.preConsumed := by
  obtain ⟨mid,row',credit,_,hit',fit',used⟩ := creditRow hit fit positive enough
  have adjust : refundAdjust record.requestId none [] db = (.ok (.saveRecord record),mid) := by
    simp [refundAdjust,named,stored,consumed,not_le.mpr positive,credit]
  refine ⟨mid.putRecord (marked record),row',?_,hit',fit',used⟩
  unfold refundWithRetry retry maxAttempts
  simp only [List.headD_nil,refundAlone,noFaults,refundSubscriptionPreConsume,adjust,refundFinish]
  rfl

structure Cleared (w0 : World) (s : Session) (w : World) : Prop where
  funding : netFunding w0 s w = 0
  token : netToken w0 w = 0

theorem rollbackTokenClear (w) (credits : f.tokenBack = none) (nonneg : 0 ≤ s.tokenConsumed) :
    rollbackToken f s w = {w with token := w.token + tokenCharge s s.tokenConsumed} := by
  unfold rollbackToken tokenCharge
  cases s.relayInfo.isPlayground with
  | true => simp
  | false =>
    by_cases some : 0 < s.tokenConsumed
    · simp only [some,Bool.false_eq_true,not_false_eq_true,and_self,if_true,credits,increaseTokenQuota]
      rw [updateClear nonneg]
      simp
    · have none : s.tokenConsumed = 0 := by omega
      simp [none]

theorem fundingRefundSub (scripts : f.scripts = []) (held : SubBooks s sub w.subs) :
    ∃ mid row, fundingRefund f (.subscription sub) w = (.ok (),{w with subs := mid}) ∧
      mid.sub sub.subscriptionId = some row ∧ Bounded row ∧ row.amountUsed = baseUsed sub + s.extraReserved := by
  obtain ⟨row,hit,fit,_⟩ := held.row
  have base := held.base
  have total := held.total
  have extra := held.extra
  have enough : sub.preConsumed ≤ row.amountUsed := by omega
  have positive := held.positive
  obtain ⟨mid,row',retried,hit',fit',used'⟩ :=
    retryClear ⟨sub.requestId,sub.userId,sub.subscriptionId,sub.preConsumed,.consumed⟩
      held.named held.record rfl positive hit fit enough
  dsimp only at retried hit' used'
  rw [← scripts] at retried
  have left : row'.amountUsed = baseUsed sub + s.extraReserved := by omega
  exact ⟨mid,row',by simp only [fundingRefund,not_le.mpr positive,if_false,retried],hit',fit',left⟩

theorem refundExtraSub {f : Faults} (extraBack : f.extraBack = []) (hf : s.funding = .subscription sub)
    (synced : s.relayInfo.subscriptionId = sub.subscriptionId) (extra : 0 ≤ s.extraReserved)
    (base : 0 ≤ baseUsed sub) (hit : w.subs.sub sub.subscriptionId = some row) (fit : Bounded row)
    (used : row.amountUsed = baseUsed sub + s.extraReserved) :
    (refundExtra f s w).token = w.token ∧ usedOf (refundExtra f s w).subs sub.subscriptionId = some (baseUsed sub) := by
  have keyed : 0 < sub.subscriptionId := by rw [← subKey hit]; exact fit.keyed
  unfold refundExtra
  simp only [hf,synced,keyed,and_true]
  by_cases more : 0 < s.extraReserved
  · obtain ⟨_,_,post,_,hit',_⟩ := creditRow hit fit more (by omega)
    simp only [more,if_true,postConsumeSubscription,extraBack,post,usedOf,hit',map_some,Option.some.injEq,true_and]
    omega
  · simp only [more,if_false,usedOf,hit,map_some,Option.some.injEq,true_and]
    omega

theorem refundSubClears (credits : creditsSucceed f) (hf : s.funding = .subscription sub)
    (held : SubBooks s sub w.subs) :
    (refundExtra f s (fundingRefund f (.subscription sub) w).2).token = w.token ∧
      usedOf (refundExtra f s (fundingRefund f (.subscription sub) w).2).subs sub.subscriptionId =
        some (baseUsed sub) := by
  simp only [creditsSucceed,decide_eq_true_eq,List.isEmpty_iff] at credits
  obtain ⟨_,_,_,extraBack,scripts⟩ := credits
  obtain ⟨_,_,refunded,hit,fit,used⟩ := fundingRefundSub scripts held
  rw [refunded]
  exact refundExtraSub extraBack hf held.synced held.extra held.base hit fit used

theorem refundKeeps (credits : creditsSucceed f) (opened : Opened w0 s w) :
    refund f s w = (s,w) ∨ ((refund f s w).1.refunded ∧ (refund f s w).1.settled = false ∧
        Cleared w0 (refund f s w).1 (refund f s w).2) := by
  have books := opened.books
  have funding := books.funding
  have nonneg := books.nonneg
  have counted := books.counted
  have token := books.token
  have clear := credits
  simp only [creditsSucceed,decide_eq_true_eq] at clear
  unfold refund
  split
  · exact .inl rfl
  rename_i due
  refine .inr ⟨rfl,opened.unsettled,?_⟩
  rw [rollbackTokenClear _ clear.1 (by omega)]
  unfold netToken at token
  cases hf : s.funding with
  | wallet consumed =>
    simp only [FundingBooks,hf] at funding
    have paid : 0 < consumed := by
      have needs : needsRefundLocked s := by simpa [opened.unsettled,opened.unrefunded] using due
      simp only [needsRefundLocked,opened.unsettled,opened.unrefunded,opened.uncommitted,hf] at needs
      by_contra none
      have zero : ¬0 < s.tokenConsumed := by omega
      simp [zero] at needs
    have back : increaseUserQuota consumed f.fundingBack w = (.ok (),{w with wallet := w.wallet + consumed}) := by
      rw [clear.2.1]
      exact updateClear (by omega)
    refine ⟨?_,?_⟩
    · simp only [netFunding,hf,refundExtra,fundingRefund,not_le.mpr paid,if_false,back]
      omega
    · simp only [netToken,refundExtra,hf,fundingRefund,not_le.mpr paid,if_false,back,counted]
      omega
  | subscription =>
    simp only [FundingBooks,hf] at funding
    obtain ⟨sameToken,used⟩ := refundSubClears credits hf funding
    refine ⟨?_,?_⟩
    · simp only [netFunding,used,getD_some]
      omega
    · simp only [netToken,sameToken,counted]
      omega

theorem preConsumeTokenPart {cfg} (h : preConsumeToken cfg f quota s w = (r,w'))
    (unspent : s.tokenConsumed = 0) (nonneg : 0 ≤ quota) :
    ((∃ e, r = .error e) ∧ w' = w) ∨
    (r = .ok {s with tokenConsumed := quota} ∧ w' = {w with token := w.token - tokenCharge s quota}) := by
  unfold preConsumeToken at h
  split at h
  · cases h
    have zero : quota = 0 := by omega
    refine .inr ⟨?_,?_⟩
    · rw [zero,← unspent]
    · simp [zero,tokenCharge]
  · rcases token : preConsumeTokenQuota cfg.formatQuota s.relayInfo quota f.tokenRead f.token w with ⟨result,after⟩
    rw [token] at h
    rcases preConsumeTokenCases token with ⟨⟨e,rfl⟩,rfl⟩ | ⟨rfl,rfl⟩
    · cases h; exact .inl ⟨⟨e,rfl⟩,rfl⟩
    · cases h; exact .inr ⟨rfl,rfl⟩

theorem fundingPreConsumeError (h : fundingPreConsume cfg o f amount funding w = (.error e,w')) : w' = w := by
  unfold fundingPreConsume at h
  cases funding with
  | wallet =>
    dsimp only at h
    split at h; · cases h
    rcases debit : decreaseUserQuota amount f.funding w with ⟨result,_⟩
    rw [debit] at h
    rcases updateCases debit with ⟨⟨err,rfl⟩,rfl⟩ | ⟨rfl,_⟩
    · cases h; rfl
    · cases h
  | subscription sub =>
    dsimp only at h
    have safe : Safe anyRecords w.subs _ := preConsumeSafe anyGrows cfg.cal sub.requestId sub.userId sub.amount
      o.now o.seen o.plans f.sub w.subs
    rcases held : preConsumeUserSubscription cfg.cal sub.requestId sub.userId sub.amount o.now o.seen o.plans
      f.sub w.subs with ⟨result,subs⟩
    rw [held] at h safe
    cases result with
    | ok => cases h
    | error =>
      cases h
      have same : subs = w.subs := safe.failed e rfl
      rw [same]

theorem rollbackTokenFunds (f s w) : SameFunds w (rollbackToken f s w) := by
  unfold rollbackToken
  split
  · rcases back : increaseTokenQuota s.tokenConsumed f.tokenBack w with ⟨result,after⟩
    rcases updateCases back with ⟨_,rfl⟩ | ⟨_,rfl,_⟩
    · exact sameFundsRefl _
    · exact ⟨rfl,rfl⟩
  · exact sameFundsRefl _

def effectiveQuota (cfg : Setting) (o : Opening) (s : Session) (quota : Int) : Int :=
  if shouldTrust cfg o s then 0 else quota

theorem effectiveNonneg (cfg o s) (nonneg : 0 ≤ quota) :
    0 ≤ effectiveQuota cfg o s quota := by
  unfold effectiveQuota
  split <;> omega

theorem preConsumeCases (unspent : s.tokenConsumed = 0) (nonneg : 0 ≤ quota)
    (h : preConsume cfg o f quota s w = (r,w')) :
    ((∃ e, r = .error e) ∧ SameFunds w w' ∧ (f.tokenBack = none → w' = w)) ∨
    ∃ funding, r = .ok (syncRelayInfo {s with
        trusted := shouldTrust cfg o s, tokenConsumed := effectiveQuota cfg o s quota,
        funding := funding, preConsumedQuota := effectiveQuota cfg o s quota }) ∧
      fundingPreConsume cfg o f (effectiveQuota cfg o s quota) s.funding
        {w with token := w.token - tokenCharge s (effectiveQuota cfg o s quota)} = (.ok funding,w') := by
  have effective := effectiveNonneg cfg o s nonneg
  unfold preConsume at h
  dsimp only at h
  rcases token : preConsumeToken cfg f (effectiveQuota cfg o s quota)
    {s with trusted := shouldTrust cfg o s} w with ⟨result,after⟩
  rw [show (if shouldTrust cfg o s = true then 0 else quota) = effectiveQuota cfg o s quota from rfl,token] at h
  rcases preConsumeTokenPart token unspent effective with ⟨⟨err,rfl⟩,rfl⟩ | ⟨rfl,rfl⟩
  · cases h; exact .inl ⟨⟨_,rfl⟩,sameFundsRefl _,fun _ => rfl⟩
  dsimp only at h
  split at h
  · rename_i err later refused
    cases h
    rw [fundingPreConsumeError refused]
    have same := rollbackTokenFunds f {s with
      trusted := shouldTrust cfg o s, tokenConsumed := effectiveQuota cfg o s quota }
    refine .inl ⟨⟨_,rfl⟩,⟨(same _).wallet,(same _).subs⟩,fun credits => ?_⟩
    rw [rollbackTokenClear _ credits effective]
    simp [tokenCharge]
  · rename_i funding later accepted
    cases h
    exact .inr ⟨funding,rfl,accepted⟩

theorem fundingPreConsumeWallet (nonneg : 0 ≤ amount)
    (h : fundingPreConsume cfg o f amount (.wallet 0) w = (.ok funding,w')) :
    funding = .wallet amount ∧ w' = {w with wallet := w.wallet - amount} := by
  unfold fundingPreConsume at h
  dsimp only at h
  split at h
  · cases h
    have zero : amount = 0 := by omega
    simp [zero]
  rcases debit : decreaseUserQuota amount f.funding w with ⟨result,after⟩
  rw [debit] at h
  rcases updateCases debit with ⟨⟨e,rfl⟩,_⟩ | ⟨rfl,rfl,_⟩
  · cases h
  · cases h; exact ⟨rfl,rfl⟩

structure Begun (w0 : World) (s : Session) (w : World) : Prop where
  opened : Opened w0 s w
  anchored : Anchored w0 s
  source : s.relayInfo.billingSource = some (sourceOf s.funding)

theorem begunSync (opened : Opened w0 (syncRelayInfo s) w) (anchored : Anchored w0 s) :
    Begun w0 (syncRelayInfo s) w := by
  refine ⟨opened,fun sub hf => ?_,?_⟩
  · rw [(syncFields s).1] at hf
    exact anchored sub hf
  · rw [(syncFields s).1]
    unfold syncRelayInfo
    cases s.funding <;> rfl

theorem walletOpens (nonneg : 0 ≤ quota)
    (h : preConsume cfg o f quota (freshSession info (.wallet 0)) w = (.ok s',w')) : Begun w s' w' := by
  obtain ⟨_,ok,accepted⟩ := (preConsumeCases rfl nonneg h).resolve_left (fun refused => by cases refused.1.choose_spec)
  cases ok
  have effective := effectiveNonneg cfg o (freshSession info (.wallet 0)) nonneg
  generalize effectiveQuota cfg o (freshSession info (.wallet 0)) quota = amount at accepted effective
  obtain ⟨rfl,rfl⟩ := fundingPreConsumeWallet effective accepted
  refine begunSync (openedSync ⟨rfl,rfl,rfl⟩ effective rfl ?_ ⟨rfl,?_⟩) (fun _ other => nomatch other)
  · simp [netToken,tokenCharge,freshSession]
  · exact sub_sub_cancel _ _

theorem subOpens (positive : 0 < quota) (ledger : Ledger (Unknown info.requestId) w.subs)
    (unseen : lookup SubscriptionPreConsumeRecord.requestId info.requestId (o.seen w.subs) = none)
    (h : preConsume cfg o f quota
      (freshSession info (.subscription ⟨info.requestId,info.userId,quota,0,0,0,0⟩)) w = (.ok s',w')) :
    Begun w s' w' := by
  obtain ⟨_,ok,accepted⟩ := (preConsumeCases rfl positive.le h).resolve_left (fun refused => by cases refused.1.choose_spec)
  cases ok
  have untrusted : effectiveQuota cfg o
      (freshSession info (.subscription ⟨info.requestId,info.userId,quota,0,0,0,0⟩)) quota = quota := by
    simp [effectiveQuota,shouldTrust,freshSession]
  rw [untrusted] at accepted
  rw [untrusted]
  simp only [freshSession,fundingPreConsume] at accepted
  rcases held : preConsumeUserSubscription cfg.cal info.requestId info.userId quota o.now o.seen o.plans f.sub w.subs
    with ⟨result,subs⟩
  rw [held] at accepted
  cases result with
  | error => cases accepted
  | ok res =>
    cases accepted
    obtain ⟨_,named,hold⟩ := preConsumeHolds ledger unseen held
    have taken := hold.taken
    have after := hold.after
    have before := hold.before
    obtain ⟨row,hit,fit,_⟩ := hold.row
    have base : res.amountUsedAfter - res.preConsumed = res.amountUsedBefore := by omega
    refine begunSync (openedSync ⟨rfl,rfl,rfl⟩ (by show 0 ≤ quota; omega) rfl ?_
      ⟨rfl,named,?_,?_,?_,?_,?_,row,hit,fit,?_⟩) (fun sub same => ?_)
    · exact sub_sub_cancel _ _
    · show 0 < res.preConsumed
      omega
    · exact Int.le_refl 0
    · show res.preConsumed + 0 = quota
      omega
    · show 0 ≤ res.amountUsedAfter - res.preConsumed
      omega
    · rw [taken]
      exact hold.record
    · show row.amountUsed = res.amountUsedAfter - res.preConsumed + quota
      omega
    cases same
    show Found w.subs.subs res.userSubscriptionId (res.amountUsedAfter - res.preConsumed)
    rw [base]
    exact hold.found

def Tried (clear : Prop) (w : World) (r : Except ApiError Session) (w' : World) : Prop :=
  ((∃ e, r = .error e) ∧ SameFunds w w' ∧ (clear → w' = w)) ∨ ∃ s, r = .ok s ∧ Begun w s w'

theorem tryWalletCases (nonneg : 0 ≤ quota) (h : tryWallet cfg o f info quota w = (r,w')) :
    Tried (f.tokenBack = none) w r w' := by
  unfold tryWallet at h
  split at h
  · cases h; exact .inl ⟨⟨_,rfl⟩,sameFundsRefl _,fun _ => rfl⟩
  split at h
  · cases h; exact .inl ⟨⟨_,rfl⟩,sameFundsRefl _,fun _ => rfl⟩
  split at h
  · cases h; exact .inl ⟨⟨_,rfl⟩,sameFundsRefl _,fun _ => rfl⟩
  rcases preConsumeCases rfl nonneg h with refused | ⟨_,rfl,_⟩
  · exact .inl refused
  · exact .inr ⟨_,rfl,walletOpens nonneg h⟩

theorem trySubscriptionCases (ledger : Ledger (Unknown info.requestId) w.subs)
    (unseen : lookup SubscriptionPreConsumeRecord.requestId info.requestId (o.seen w.subs) = none)
    (h : trySubscription cfg o f info quota w = (r,w')) : Tried (f.tokenBack = none) w r w' := by
  have positive : 0 < if quota ≤ 0 then 1 else quota := by split <;> omega
  rcases preConsumeCases rfl positive.le h with refused | ⟨_,rfl,_⟩
  · exact .inl refused
  · exact .inr ⟨_,rfl,subOpens positive ledger unseen h⟩

inductive Opens (clear : Prop) (w : World) (r : Except ApiError Session) (w' : World) : Prop
  | refused (failed : ∃ e, r = .error e) (same : SameFunds w w')
  | begun (s : Session) (base : World) (ok : r = .ok s) (same : SameFunds w base) (exact' : clear → base = w)
      (begins : Begun base s w')

theorem opensAtOnce (h : Tried tokenBack w r w') : Opens clear w r w' := by
  rcases h with ⟨failed,same,_⟩ | ⟨s,ok,begins⟩
  · exact .refused failed same
  · exact .begun s w ok (sameFundsRefl _) (fun _ => rfl) begins

theorem opensNext (left : SameFunds w mid) (exact' : clear → mid = w) (h : Opens clear mid r w') :
    Opens clear w r w' := by
  cases h with
  | refused failed same => exact .refused failed (sameFundsTrans left same)
  | begun s base ok same exactly begins =>
    exact .begun s base ok (sameFundsTrans left same) (fun yes => (exactly yes).trans (exact' yes)) begins

theorem sessionCases (nonneg : 0 ≤ quota) (ledger : Ledger (Unknown info.requestId) w.subs)
    (unseen : lookup SubscriptionPreConsumeRecord.requestId info.requestId (o.seen w.subs) = none)
    (h : newBillingSession cfg o walletFaults subFaults info quota w = (r,w')) :
    Opens (walletFaults.tokenBack = none ∧ subFaults.tokenBack = none) w r w' := by
  unfold newBillingSession at h
  split at h
  · exact opensAtOnce (trySubscriptionCases ledger unseen h)
  · exact opensAtOnce (tryWalletCases nonneg h)
  · rcases first : tryWallet cfg o walletFaults info quota w with ⟨result,after⟩
    rw [first] at h
    have tried := tryWalletCases nonneg first
    rcases tried with ⟨⟨e,rfl⟩,same,clear⟩ | ⟨s,rfl,begins⟩
    · dsimp only at h
      split at h
      · rw [← same.subs] at ledger unseen
        exact opensNext same (fun both => clear both.1) (opensAtOnce (trySubscriptionCases ledger unseen h))
      · cases h; exact .refused ⟨e,rfl⟩ same
    · cases h; exact .begun s w rfl (sameFundsRefl _) (fun _ => rfl) begins
  split at h
  · cases h; exact .refused ⟨_,rfl⟩ (sameFundsRefl _)
  · exact opensAtOnce (tryWalletCases nonneg h)
  rcases first : trySubscription cfg o subFaults info quota w with ⟨result,after⟩
  rw [first] at h
  rcases trySubscriptionCases ledger unseen first with ⟨⟨e,rfl⟩,same,clear⟩ | ⟨s,rfl,begins⟩
  · dsimp only at h
    split at h
    · split at h
      · cases h; exact .refused ⟨_,rfl⟩ same
      · exact opensNext same (fun both => clear both.2) (opensAtOnce (tryWalletCases nonneg h))
      · cases h; exact .refused ⟨e,rfl⟩ same
    · cases h; exact .refused ⟨e,rfl⟩ same
  · cases h; exact .begun s w rfl (sameFundsRefl _) (fun _ => rfl) begins

theorem sessionOpens (walletCredits : walletFaults.tokenBack = none)
    (subCredits : subFaults.tokenBack = none) (nonneg : 0 ≤ quota) (ledger : Ledger (Unknown info.requestId) w.subs)
    (unseen : lookup SubscriptionPreConsumeRecord.requestId info.requestId (o.seen w.subs) = none)
    (h : newBillingSession cfg o walletFaults subFaults info quota w = (.ok s,w')) :
    Opened w s w' ∧ Anchored w s := by
  cases sessionCases nonneg ledger unseen h with
  | refused failed =>
    obtain ⟨e,wrong⟩ := failed
    cases wrong
  | begun _ _ ok _ exact' begins =>
    cases ok
    cases exact' ⟨walletCredits,subCredits⟩
    exact ⟨begins.opened,begins.anchored⟩

theorem billingCases (h : preConsumeBilling cfg o walletFaults subFaults info clamp quota w = (r,w'))
    (named : info.requestId = requestId) (ledger : Ledger (Unknown requestId) w.subs)
    (unseen : lookup SubscriptionPreConsumeRecord.requestId requestId (o.seen w.subs) = none) :
    Opens (walletFaults.tokenBack = none ∧ subFaults.tokenBack = none) w r w' := by
  subst named
  unfold preConsumeBilling at h
  split at h
  · cases h; exact .refused ⟨_,rfl⟩ (sameFundsRefl _)
  split at h
  · cases h; exact .refused ⟨_,rfl⟩ (sameFundsRefl _)
  · rename_i nonneg
    exact sessionCases (not_lt.mp nonneg) ledger unseen h

end Omnigate.BillingConservation
