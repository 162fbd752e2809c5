import Omnigate.BillingConservation

/-! Charges beside an open session: a request may take from its funding source directly, before or after the session
settles, and what the two took adds up. -/
namespace Omnigate.BillingDirect

open Option

open Accounts BillingSession BillingConservation SubscriptionPlan SubscriptionStore SubscriptionConsume
open SubscriptionLedger Table Transaction
open SubscriptionRun (usedOf)

def takes (f : Faults) (delta : Int) (funding : Funding) (w : World) : Bool :=
  match funding with
  | .wallet _ => (if 0 < delta then f.funding else f.fundingBack) = none
  | .subscription sub => match w.subs.sub sub.subscriptionId with
    | none => false
    | some row => passes 3 (if 0 < delta then f.sub else f.subBack) ∧ 0 ≤ row.amountUsed + delta ∧
        (0 < row.amountTotal → row.amountUsed + delta ≤ row.amountTotal)

theorem usedSet {db : Db} {row : UserSubscription} {id} (key : row.id = id) :
    usedOf (db.putSub {row with amountUsed := used}) id = some used := by
  unfold usedOf
  rw [usedPut (by exact key)]
  rfl

theorem postTakes {id}
    (hit : w.subs.sub id = some row) (keyed : 0 < row.id) (moves : delta ≠ 0) (low : 0 ≤ row.amountUsed + delta)
    (room : 0 < row.amountTotal → row.amountUsed + delta ≤ row.amountTotal) (pass : passes 3 faults) :
    postConsumeSubscription id delta faults w =
      (.ok (),{w with subs := w.subs.putSub {row with amountUsed := row.amountUsed + delta}}) := by
  have key := subKey hit
  have clamp := clampOf low
  have criterion := (postConsumePasses (by omega) moves hit (by rw [clamp]; omega)).mpr pass
  rcases post : postConsumeUserSubscriptionDelta id delta faults w.subs with ⟨r,_⟩
  rw [post] at criterion
  cases criterion
  have tables := (postMoves moves hit post).1
  rw [clamp] at tables
  unfold postConsumeSubscription
  rw [post,tables]

theorem takesMoves {f w0 w delta} {s : Session} (moves : delta ≠ 0)
    (keyed : ∀ sub row, s.funding = .subscription sub → w.subs.sub sub.subscriptionId = some row → 0 < row.id)
    (h : takes f delta s.funding w) :
    ∃ w', fundingSettle f delta s.funding w = (.ok (),w') ∧ netFunding w0 s w' = netFunding w0 s w + delta := by
  unfold fundingSettle netFunding
  rw [if_neg moves]
  cases hf : s.funding with
  | wallet =>
    simp only [takes,hf,decide_eq_true_eq] at h
    rcases moved : settleWallet delta (if 0 < delta then f.funding else f.fundingBack) w with ⟨r,_⟩
    have through := (@settleWalletIff delta (if 0 < delta then f.funding else f.fundingBack) w).mpr h
    rw [moved] at through
    rcases settleWalletCases moved with ⟨⟨e,rfl⟩,_⟩ | ⟨rfl,rfl⟩
    · cases through
    refine ⟨_,rfl,?_⟩
    dsimp only
    omega
  | subscription sub =>
    simp only [takes,hf] at h
    split at h
    · cases h
    rename_i row hit
    simp only [decide_eq_true_eq] at h
    obtain ⟨pass,low,room⟩ := h
    have taken := postTakes hit (keyed sub row hf hit) moves low room pass
    refine ⟨_,taken,?_⟩
    dsimp only
    rw [usedSet (subKey hit)]
    simp only [usedOf,hit,map_some,getD_some]
    omega

theorem booksKeyed (books : Books w0 s w) (sub : SubscriptionFunding) (row : UserSubscription)
    (hf : s.funding = .subscription sub) (hit : w.subs.sub sub.subscriptionId = some row) : 0 < row.id := by
  have funding := books.funding
  simp only [FundingBooks,hf] at funding
  obtain ⟨_,hit',fit,_⟩ := funding.row
  cases some.inj (hit.symm.trans hit')
  exact fit.keyed

theorem netFundingFrame (base : w1.wallet = w0.wallet)
    (funding : s'.funding = s.funding) (same : SameFunds w w') : netFunding w1 s' w' = netFunding w0 s w := by
  unfold netFunding
  rw [funding,base,same.wallet,same.subs]

theorem settleTokenPartFrame (f delta s w) :
    (settleTokenPart f delta s w).2.1.funding = s.funding ∧ SameFunds w (settleTokenPart f delta s w).2.2 := by
  unfold settleTokenPart
  split
  · exact ⟨rfl,sameFundsRefl _⟩
  · exact ⟨rfl,settleTokenFunds _ _ _⟩

def takenBy (w0 : World) (billing : Option Session) (w : World) : Int :=
  match billing with
  | some s => netFunding w0 s w
  | none => w0.wallet - w.wallet

def heldBy (billing : Option Session) (info : RelayInfo) : Int :=
  match billing with
  | some s => s.preConsumedQuota
  | none => info.finalPreConsumedQuota

inductive Live (billing : Option Session) (info : RelayInfo) (w : World) : Prop
  | own (none' : billing = none) (wallet : info.billingSource ≠ some .subscription)
  | session (s : Session) (some' : billing = some s) (synced : s.relayInfo = info)
      (source : info.billingSource = some (sourceOf s.funding))
      (row : ∀ sub, s.funding = .subscription sub → info.subscriptionId = sub.subscriptionId ∧
        ∃ row, w.subs.sub sub.subscriptionId = some row ∧ Bounded row)

def shareInfo (info : RelayInfo) (billing : Option Session) : Option Session :=
  billing.map (fun s => {s with relayInfo := info})

def fundingTakes (info : RelayInfo) (quota : Int) (fault : Option String) (subFaults : List (Option String))
    (w : World) : Bool :=
  if info.billingSource = some .subscription then match w.subs.sub info.subscriptionId with
    | none => false
    | some row => passes 3 subFaults ∧ (0 < row.amountTotal → row.amountUsed + quota ≤ row.amountTotal)
  else fault = none

theorem postDirect {w0 : World} {s : Session} {sub row w w' quota faults} {r : Except String Unit} (hf : s.funding = .subscription sub)
    (hit : w.subs.sub sub.subscriptionId = some row) (fit : Bounded row) (positive : 0 < quota)
    (h : postConsumeSubscription sub.subscriptionId quota faults w = (r,w')) :
    (r = .ok () ↔ passes 3 faults ∧ (0 < row.amountTotal → row.amountUsed + quota ≤ row.amountTotal)) ∧
    netFunding w0 s w' = netFunding w0 s w + (if r = .ok () then quota else 0) ∧
    ∃ row', w'.subs.sub sub.subscriptionId = some row' ∧ Bounded row' := by
  have nonneg := fit.nonneg
  have keyed := fit.keyed
  have key := subKey hit
  have low : 0 ≤ row.amountUsed + quota := by omega
  by_cases open' : passes 3 faults ∧ (0 < row.amountTotal → row.amountUsed + quota ≤ row.amountTotal)
  · rw [postTakes hit keyed (by omega) low open'.2 open'.1] at h
    cases h
    refine ⟨⟨fun _ => open',fun _ => rfl⟩,?_,_,usedPut (by exact key),⟨fit.keyed,low,open'.2⟩⟩
    simp only [netFunding,hf,if_true]
    rw [usedSet key]
    simp only [usedOf,hit,map_some,getD_some]
    omega
  have failed : r ≠ .ok () := by
    rintro rfl
    rcases postSubscriptionCases h with ⟨⟨e,wrong⟩,_⟩ | ⟨_,_,_,post⟩
    · cases wrong
    have within := (postMoves (by omega) hit post).2
    rw [clampOf low] at within
    have pass := (postConsumePasses (by omega) (by omega) hit (by rw [clampOf low]; omega)).mp (congrArg Prod.fst post)
    exact open' ⟨pass,within⟩
  rcases postSubscriptionCases h with ⟨_,rfl⟩ | ⟨ok,_⟩
  · exact ⟨⟨fun ok => absurd ok failed,fun yes => absurd yes open'⟩,by simp [failed],row,hit,fit⟩
  · exact absurd ok failed

theorem takenFrame (same : SameFunds w w') :
    takenBy w0 (shareInfo info billing) w' = takenBy w0 billing w := by
  cases billing with
  | none => simp only [takenBy,shareInfo,map_none,same.wallet]
  | some => simp only [takenBy,shareInfo,map_some,netFunding,same.wallet,same.subs]

theorem liveFrame (live : Live billing info w)
    (source : info'.billingSource = info.billingSource) (id : info'.subscriptionId = info.subscriptionId)
    (same : SameFunds w w') : Live (shareInfo info' billing) info' w' := by
  cases live with
  | own none' wallet => exact .own (by rw [none']; rfl) (by rw [source]; exact wallet)
  | session s some' _ source' row =>
    subst some'
    refine .session _ rfl rfl (source.trans source') (fun sub hf => ?_)
    obtain ⟨named,stored⟩ := row sub hf
    exact ⟨id.trans named,by rw [same.subs]; exact stored⟩

def infoAfter (r : Except String RelayInfo) (info : RelayInfo) : RelayInfo :=
  match r with
  | .ok info' => info'
  | .error _ => info

theorem walletDirect (own : info.billingSource ≠ some .subscription)
    (h : postConsumeFunding info quota fault subFaults w = (r,w')) :
    infoAfter r info = info ∧ w'.subs = w.subs ∧
      w'.wallet = w.wallet - (if fundingTakes info quota fault subFaults w then quota else 0) := by
  unfold postConsumeFunding at h
  rw [if_neg own] at h
  rcases moved : settleWallet quota fault w with ⟨r',_⟩
  have through := @settleWalletIff quota fault w
  rw [moved] at h through
  have takes : fundingTakes info quota fault subFaults w = true ↔ r' = .ok () := by
    simp only [fundingTakes,if_neg own,decide_eq_true_eq]
    exact through.symm
  simp only [takes]
  rcases settleWalletCases moved with ⟨⟨e,rfl⟩,rfl⟩ | ⟨rfl,rfl⟩
  · cases h
    exact ⟨rfl,rfl,by simp⟩
  · cases h
    exact ⟨rfl,rfl,by simp⟩

theorem subDirect {info quota fault subFaults r w0 w w' s sub row} (hf : s.funding = .subscription sub) (paid : info.billingSource = some .subscription)
    (named : info.subscriptionId = sub.subscriptionId) (hit : w.subs.sub sub.subscriptionId = some row)
    (fit : Bounded row) (nonneg : 0 ≤ quota) (h : postConsumeFunding info quota fault subFaults w = (r,w')) :
    (infoAfter r info).billingSource = info.billingSource ∧ (infoAfter r info).subscriptionId = info.subscriptionId ∧
      netFunding w0 s w' = netFunding w0 s w + (if fundingTakes info quota fault subFaults w then quota else 0) ∧
      ∃ row', w'.subs.sub sub.subscriptionId = some row' ∧ Bounded row' := by
  have keyed : info.subscriptionId ≠ 0 := by
    have positive := fit.keyed
    rw [subKey hit] at positive
    omega
  unfold postConsumeFunding at h
  rw [if_pos paid,if_neg keyed] at h
  split at h
  · rename_i zero
    cases h
    exact ⟨rfl,rfl,by simp [zero],row,hit,fit⟩
  rw [named] at h
  rcases moved : postConsumeSubscription sub.subscriptionId quota subFaults w with ⟨r',after⟩
  obtain ⟨through,net,stored⟩ := @postDirect w0 s sub row w after quota subFaults r' hf hit fit (by omega) moved
  have takes : fundingTakes info quota fault subFaults w = true ↔ r' = .ok () := by
    simp only [fundingTakes,if_pos paid,named,hit,decide_eq_true_eq]
    exact through.symm
  simp only [takes]
  rw [moved] at h
  cases r' with
  | error =>
    cases h
    exact ⟨rfl,rfl,net,stored⟩
  | ok =>
    cases h
    exact ⟨rfl,named.symm,net,stored⟩

theorem fundingMoves {w0 w w' billing info quota fault subFaults r} (live : Live billing info w) (nonneg : 0 ≤ quota)
    (h : postConsumeFunding info quota fault subFaults w = (r,w')) :
    Live (shareInfo (infoAfter r info) billing) (infoAfter r info) w' ∧
      heldBy (shareInfo (infoAfter r info) billing) (infoAfter r info) = heldBy billing info ∧
      takenBy w0 (shareInfo (infoAfter r info) billing) w' =
        takenBy w0 billing w + (if fundingTakes info quota fault subFaults w then quota else 0) := by
  cases live with
  | own none' wallet =>
    subst none'
    obtain ⟨same,_,moved⟩ := walletDirect wallet h
    rw [same]
    refine ⟨.own rfl wallet,rfl,?_⟩
    simp only [takenBy,shareInfo,map_none,moved]
    omega
  | session s some' _ source row =>
    subst some'
    cases hf : s.funding with
    | wallet =>
      obtain ⟨same,_,moved⟩ := walletDirect (by simp [source,sourceOf,hf]) h
      rw [same]
      refine ⟨.session _ rfl rfl source (fun sub other => by rw [hf] at other; cases other),rfl,?_⟩
      simp only [takenBy,shareInfo,map_some,netFunding,hf,moved]
      omega
    | subscription sub =>
      obtain ⟨named,stored,hit,fit⟩ := row sub hf
      obtain ⟨source',id,net,stored'⟩ := @subDirect info quota fault subFaults r w0 w w' s sub stored hf
        (by simp [source,sourceOf,hf]) named hit fit nonneg h
      refine ⟨.session _ rfl rfl (source'.trans source) (fun _ other => ?_),rfl,net⟩
      cases hf.symm.trans other
      exact ⟨id.trans named,stored'⟩

theorem directMoves {w0 w w' billing info info' quota fault subFaults tokenFault r} (live : Live billing info w) (nonneg : 0 ≤ quota)
    (h : postConsumeQuota info quota fault subFaults tokenFault w = (r,info',w')) :
    Live (shareInfo info' billing) info' w' ∧ heldBy (shareInfo info' billing) info' = heldBy billing info ∧
      takenBy w0 (shareInfo info' billing) w' =
        takenBy w0 billing w + (if fundingTakes info quota fault subFaults w then quota else 0) := by
  unfold postConsumeQuota at h
  rcases moved : postConsumeFunding info quota fault subFaults w with ⟨r',after⟩
  have funding := @fundingMoves w0 w after billing info quota fault subFaults r' live nonneg moved
  rw [moved] at h
  cases r' with
  | error =>
    cases h
    exact funding
  | ok =>
    dsimp only at h
    split at h
    · cases h
      exact funding
    rcases settleToken quota tokenFault after with _
    have same := settleTokenFunds quota tokenFault after
    cases h
    have frame : takenBy w0 (shareInfo info' (shareInfo info' billing)) _ = _ := takenFrame same
    have kept := liveFrame funding.1 rfl rfl same
    have twice : shareInfo info' (shareInfo info' billing) = shareInfo info' billing := by
      cases billing <;> rfl
    simp only [infoAfter] at funding kept
    rw [twice] at frame kept
    exact ⟨kept,funding.2.1,frame.trans funding.2.2⟩

theorem walletMoves (own : info.billingSource ≠ some .subscription)
    (h : postConsumeQuota info quota fault subFaults tokenFault w = (r,info',w')) :
    info' = info ∧ w'.wallet = w.wallet - (if fault = none then quota else 0) := by
  unfold postConsumeQuota at h
  rcases moved : postConsumeFunding info quota fault subFaults w with ⟨r',after⟩
  obtain ⟨same,_,wallet⟩ := walletDirect own moved
  simp only [fundingTakes,if_neg own,decide_eq_true_eq] at wallet
  rw [moved] at h
  cases r' with
  | error =>
    cases h
    exact ⟨rfl,wallet⟩
  | ok =>
    simp only [infoAfter] at same
    subst same
    dsimp only at h
    split at h
    · cases h
      exact ⟨rfl,wallet⟩
    have token := (settleTokenFunds quota tokenFault after).wallet
    cases h
    exact ⟨rfl,token.trans wallet⟩

def settlementTakes (f : Faults) (quota : Int) (billing : Option Session) (info : RelayInfo) (w : World) : Bool :=
  match billing with
  | some s => quota = s.preConsumedQuota ∨ takes f (quota - s.preConsumedQuota) s.funding w
  | none =>
    quota = info.finalPreConsumedQuota ∨
      (if 0 < quota - info.finalPreConsumedQuota then f.funding else f.fundingBack) = none

theorem fundingSettleRow (hit : w.subs.sub sub.subscriptionId = some row) (fit : Bounded row)
    (h : fundingSettle f delta (.subscription sub) w = (.ok (),w')) :
    ∃ row', w'.subs.sub sub.subscriptionId = some row' ∧ Bounded row' := by
  unfold fundingSettle at h
  split at h
  · cases h
    exact ⟨row,hit,fit⟩
  rename_i moves
  rcases postSubscriptionCases h with ⟨⟨e,wrong⟩,_⟩ | ⟨_,_,_,post⟩
  · cases wrong
  obtain ⟨tables,within⟩ := postMoves moves hit post
  have key := subKey hit
  rw [tables]
  exact ⟨_,usedPut (by exact key),fit.keyed,clampNonneg _ _,within⟩

theorem settleMoves {f quota w0 w info s} (live : Live (some s) info w) (unsettled : s.settled = false)
    (uncommitted : s.fundingSettled = false) (h : settlementTakes f quota (some s) info w) :
    let r := settle f quota s w
    Live (some r.2.1) r.2.1.relayInfo r.2.2 ∧
      netFunding w0 r.2.1 r.2.2 = netFunding w0 s w + (quota - s.preConsumedQuota) := by
  cases live with
  | own none' => cases none'
  | session _ some' synced source row =>
    cases some'
    simp only [settlementTakes,decide_eq_true_eq] at h
    have named := @settleInfo f quota s w
    have funding := @settleFunding f quota s w
    rw [← synced] at source
    have source' : (settle f quota s w).2.1.relayInfo.billingSource =
        some (sourceOf (settle f quota s w).2.1.funding) := by rw [named.1,funding,source]
    -- the row of a subscription stays stored and within its total
    have rows : (∀ sub, s.funding = .subscription sub →
        ∃ row, (settle f quota s w).2.2.subs.sub sub.subscriptionId = some row ∧ Bounded row) →
        Live (some (settle f quota s w).2.1) (settle f quota s w).2.1.relayInfo (settle f quota s w).2.2 := by
      intro stored
      refine .session _ rfl rfl source' (fun sub hf => ?_)
      rw [funding] at hf
      have id := (row sub hf).1
      rw [← synced,← named.2] at id
      exact ⟨id,stored sub hf⟩
    by_cases exact' : quota - s.preConsumedQuota = 0
    · have same : (settle f quota s w).2.2 = w := by simp [settle,unsettled,exact']
      refine ⟨rows (fun sub hf => by rw [same]; exact (row sub hf).2),?_⟩
      rw [netFundingFrame rfl funding ⟨congrArg World.wallet same,congrArg World.subs same⟩,exact',add_zero]
    have taken : takes f (quota - s.preConsumedQuota) s.funding w := by
      rcases h with same | taken
      · omega
      · exact taken
    obtain ⟨after,moved,net⟩ := @takesMoves f w0 w _ s exact' (fun sub stored hf hit => by
      obtain ⟨_,row',hit',fit⟩ := row sub hf
      cases some.inj (hit.symm.trans hit')
      exact fit.keyed) taken
    obtain ⟨funding',same⟩ := settleTokenPartFrame f (quota - s.preConsumedQuota) s after
    have whole : settle f quota s w = settleTokenPart f (quota - s.preConsumedQuota) s after := by
      simp [settle,unsettled,uncommitted,exact',moved]
    rw [whole] at rows ⊢
    refine ⟨rows (fun sub hf => ?_),by rw [netFundingFrame rfl funding' same,net]⟩
    obtain ⟨_,row',hit,fit⟩ := row sub hf
    rw [hf] at moved
    rw [same.subs]
    exact fundingSettleRow hit fit moved

theorem settlementMoves {f quota w0 w billing info r billing' info' w'} (live : Live billing info w)
    (unsettled : ∀ s, billing = some s → s.settled = false ∧ s.fundingSettled = false)
    (takes' : settlementTakes f quota billing info w)
    (h : settleBilling f quota billing info w = (r,billing',info',w')) :
    Live billing' info' w' ∧ takenBy w0 billing' w' = takenBy w0 billing w + (quota - heldBy billing info) := by
  cases billing with
  | some s =>
    obtain ⟨fresh,uncommitted⟩ := unsettled s rfl
    have moved := @settleMoves f quota w0 w info s live fresh uncommitted takes'
    cases h
    exact moved
  | none =>
    cases live with
    | session s some' => cases some'
    | own _ wallet =>
      simp only [settlementTakes,decide_eq_true_eq] at takes'
      simp only [settleBilling] at h
      split at h
      · cases h
        refine ⟨.own rfl wallet,?_⟩
        simp only [heldBy]
        omega
      rcases paid : postConsumeQuota info (quota - info.finalPreConsumedQuota)
        (if 0 < quota - info.finalPreConsumedQuota then f.funding else f.fundingBack)
        (if 0 < quota - info.finalPreConsumedQuota then f.sub else f.subBack)
        (if 0 < quota - info.finalPreConsumedQuota then f.token else f.tokenBack) w with ⟨result,info'',after⟩
      rw [paid] at h
      cases h
      obtain ⟨same,moved⟩ := walletMoves wallet paid
      have clear : (if 0 < quota - info.finalPreConsumedQuota then f.funding else f.fundingBack) = none := by
        rcases takes' with _ | clear
        · omega
        · exact clear
      rw [if_pos clear] at moved
      refine ⟨.own rfl (by rw [same]; exact wallet),?_⟩
      simp only [takenBy,heldBy,moved]
      omega

theorem settlementFunding
    (h : settleBilling f quota billing info w = (r,billing',info',w')) (some' : billing' = some s) :
    ∃ before, billing = some before ∧ s.funding = before.funding := by
  cases billing with
  | none =>
    simp only [settleBilling] at h
    split at h <;> cases h <;> cases some'
  | some before =>
    have funding := @settleFunding f quota before w
    rcases settled : settle f quota before w with _
    rw [settled] at funding
    simp only [settleBilling,settled] at h
    cases h
    cases some'
    exact ⟨before,rfl,funding⟩

end Omnigate.BillingDirect
