import Omnigate.BillingConservation

/-! The calls on one billing session in any order. A session is open, settled or refunded; in the last two nothing
moves any more, and what was taken is the settled quota, or nothing. -/
namespace Omnigate.BillingRun

open Option

open Machine Accounts BillingSession BillingConservation SubscriptionPlan SubscriptionStore SubscriptionLedger
open SubscriptionRun (errorOf hourlyPlan usedOf)
open SubscriptionRefund (heldTables)
open SubscriptionHold Table

structure Desk where
  session : Session
  world : World
  settledWith : Option Int

inductive Op where
  | reserve (targetQuota : Int) (f : Faults)
  | settle (actualQuota : Int) (f : Faults)
  | refund (f : Faults)

def Op.faults : Op → Faults
  | .reserve _ f | .settle _ f | .refund f => f

def step (cfg : Setting) (d : Desk) : Op → Option Desk
  | .reserve targetQuota f =>
    let r := reserve cfg f targetQuota d.session d.world
    some ⟨r.2.1,r.2.2,d.settledWith⟩
  | .settle actualQuota f =>
    let r := settle f actualQuota d.session d.world
    let first := d.session.settled = false ∧ errorOf r.1 = none
    some ⟨r.2.1,r.2.2,if first then some actualQuota else d.settledWith⟩
  | .refund f =>
    let r := refund f d.session d.world
    some ⟨r.1,r.2,d.settledWith⟩

def Allowed (d : Desk) (op : Op) : Prop :=
  creditsSucceed op.faults ∧ ∀ actualQuota f, op = .settle actualQuota f → d.session.refunded = false

inductive Phase (w0 : World) (d : Desk) : Prop
  | opened (unsettled : d.settledWith = none) (books : Opened w0 d.session d.world)
  | settled (final : d.session.settled) (kept : d.session.refunded = false)
      (charged : ∀ actualQuota, d.settledWith = some actualQuota → Charged w0 d.session d.world actualQuota)
  | refunded (final : d.session.refunded) (unsettled : d.settledWith = none)
      (cleared : Cleared w0 d.session d.world)

theorem settledStays (final : d.session.settled) (h : step cfg d op = some d') : d' = d := by
  cases op with
  | reserve =>
    simp only [step,reserve,final,true_or,if_true,Option.some.injEq] at h
    exact h.symm
  | settle =>
    simp only [step,settle,final,if_true,Bool.true_eq_false,false_and,if_false,Option.some.injEq] at h
    exact h.symm
  | refund =>
    simp only [step,refund,final,true_or,if_true,Option.some.injEq] at h
    exact h.symm

theorem refundedStays (final : d.session.refunded) (allowed : Allowed d op) (h : step cfg d op = some d') : d' = d := by
  cases op with
  | reserve =>
    simp only [step,reserve,final,true_or,or_true,if_true,Option.some.injEq] at h
    exact h.symm
  | settle actual f =>
    have open' := allowed.2 actual f rfl
    rw [open'] at final
    cases final
  | refund =>
    simp only [step,refund,final,true_or,or_true,if_true,Option.some.injEq] at h
    exact h.symm

theorem errorNone {r : Except String Unit} : errorOf r = none ↔ r = .ok () := by
  cases r <;> simp [errorOf]

theorem openSettles (unsettled : d.settledWith = none)
    (books : Opened w0 d.session d.world) (h : step cfg d (.settle actualQuota f) = some d') : Phase w0 d' := by
  have outcome := @settleKeeps f w0 d.world d.session actualQuota books
  simp only [step,books.unsettled,true_and,Option.some.injEq,errorNone] at h
  subst h
  rcases outcome with ⟨still,failed⟩ | ⟨final,kept,charged⟩
  · exact .opened (by simp only [if_neg failed,unsettled]) still
  refine .settled final kept (fun a remembered => ?_)
  simp only [unsettled] at remembered
  split at remembered
  · rename_i ok
    cases remembered
    exact charged ok
  · cases remembered

theorem phaseKept (phase : Phase w0 d) (allowed : Allowed d op) (h : step cfg d op = some d') : Phase w0 d' := by
  cases phase with
  | opened unsettled books =>
    cases op with
    | reserve =>
      cases h
      exact .opened unsettled (reserveKeeps allowed.1 books)
    | settle => exact openSettles unsettled books h
    | refund f =>
      cases h
      have credits : creditsSucceed f := allowed.1
      rcases refundKeeps credits books with same | ⟨final,_,cleared⟩
      · exact .opened unsettled (by rw [same]; exact books)
      · exact .refunded final unsettled cleared
  | settled final kept charged =>
    cases settledStays final h
    exact .settled final kept charged
  | refunded final unsettled cleared =>
    cases refundedStays final allowed h
    exact .refunded final unsettled cleared

theorem reserveFundingSub (h : reserveFunding f delta funding w = (.ok r,w'))
    (hf : r = .subscription sub) : funding = .subscription sub := by
  unfold reserveFunding at h
  split at h
  · split at h <;> cases h
    cases hf
  · split at h <;> cases h
    exact hf

theorem rollbackFundingSub
    (h : (rollbackFundingReserve f delta funding w).1 = .subscription sub) : funding = .subscription sub := by
  unfold rollbackFundingReserve at h
  split at h
  · split at h <;> cases h
  · exact h

theorem reserveSubscription
    (h : (reserve cfg f target s w).2.1.funding = .subscription sub) : s.funding = .subscription sub := by
  unfold reserve at h
  split at h
  · exact h
  dsimp only at h
  split at h
  · exact h
  rename_i funding _ taken
  split at h
  · exact reserveFundingSub taken (rollbackFundingSub h)
  · rw [(syncFields _).1] at h
    exact reserveFundingSub taken h

theorem refundFunding : (refund f s w).1.funding = s.funding := by
  unfold refund
  split <;> rfl

theorem anchorKept (anchored : Anchored w0 d.session) (h : step cfg d op = some d') :
    Anchored w0 d'.session := by
  intro sub hf
  cases op with
  | reserve =>
    cases h
    exact anchored sub (reserveSubscription hf)
  | settle =>
    cases h
    rw [settleFunding] at hf
    exact anchored sub hf
  | refund =>
    cases h
    rw [refundFunding] at hf
    exact anchored sub hf

theorem sessionsConserve {cfg o walletFaults subFaults info quota w0 s0 w1 ops d} (nonneg : 0 ≤ quota)
    (rows : ∀ sub ∈ w0.subs.subs, Bounded sub) (nextKey : 0 < w0.subs.nextId)
    (unknown : w0.subs.record info.requestId = none)
    (unseen : lookup SubscriptionPreConsumeRecord.requestId info.requestId (o.seen w0.subs) = none)
    (walletCredits : creditsSucceed walletFaults) (subCredits : creditsSucceed subFaults)
    (opened : newBillingSession cfg o walletFaults subFaults info quota w0 = (.ok s0,w1))
    (allowed : Along (step cfg) Allowed ⟨s0,w1,none⟩ ops) (h : run (step cfg) ⟨s0,w1,none⟩ ops = some d) :
    Anchored w0 d.session ∧
    (∀ actualQuota, d.settledWith = some actualQuota → d.session.settled ∧
      netFunding w0 d.session d.world = charge d.session.funding actualQuota ∧
      netToken w0 d.world = tokenCharge d.session actualQuota) ∧
    (d.session.refunded → netFunding w0 d.session d.world = 0 ∧ netToken w0 d.world = 0) ∧
    (d.session.settled ∨ d.session.refunded → ∀ op d', Allowed d op → step cfg d op = some d' → d' = d) := by
  have credit : ∀ {f : Faults}, creditsSucceed f → f.tokenBack = none := by
    intro f clear
    simp only [creditsSucceed,decide_eq_true_eq] at clear
    exact clear.1
  obtain ⟨books,anchored⟩ := sessionOpens (credit walletCredits) (credit subCredits) nonneg
    ⟨rows,unknown,nextKey⟩ unseen opened
  have phase : Phase w0 d := runInvariant (fun _ _ _ => phaseKept) (.opened rfl books) allowed h
  have keep : ∀ d op d', Anchored w0 d.session → step cfg d op = some d' → Anchored w0 d'.session :=
    fun _ _ _ => anchorKept
  refine ⟨runAlways keep anchored h,?_,?_,?_⟩
  · intro actualQuota remembered
    cases phase with
    | opened unsettled | refunded _ unsettled => simp [unsettled] at remembered
    | settled final _ charged =>
      have net := charged actualQuota remembered
      exact ⟨final,net.funding,net.token⟩
  · intro refunded
    cases phase with
    | opened _ books => simp [books.unrefunded] at refunded
    | settled _ kept => simp [kept] at refunded
    | refunded _ _ cleared => exact ⟨cleared.funding,cleared.token⟩
  · intro over' op d' ok moved
    rcases over' with final | final
    · exact settledStays final moved
    · exact refundedStays final ok moved

def plainSetting : Setting := ⟨utc,fun quota => toString quota,0⟩

def plainOpening : Opening :=
  ⟨2000,500,.ok 1000,.ok true,.ok false,Db.records,fun _ => .ok hourlyPlan⟩

def noFaults : Faults := ⟨.ok 500,none,none,[],none,none,[],[],[]⟩

def tokenDown : Faults := { noFaults with token := some "connection reset" }

def caller (requestId billingPreference : String) : RelayInfo :=
  ⟨7,requestId,false,false,false,1000,billingPreference,none,0,0,0,0,0,0⟩

def accounts : World := ⟨1000,500,heldTables⟩

def opening (requestId billingPreference : String) (quota : Int) : Except ApiError Session × World :=
  newBillingSession plainSetting plainOpening noFaults noFaults (caller requestId billingPreference) quota accounts

def begun (requestId billingPreference : String) (quota : Int) : Option Desk :=
  match opening requestId billingPreference quota with
  | (.ok session,world) => some ⟨session,world,none⟩
  | (.error _,_) => none

theorem begunOpens (h : begun requestId billingPreference quota = some d) :
    opening requestId billingPreference quota = (.ok d.session,d.world) ∧ d = ⟨d.session,d.world,none⟩ := by
  unfold begun at h
  split at h <;> cases h
  rename_i opened
  exact ⟨opened,rfl⟩

theorem accountsBounded : ∀ sub ∈ accounts.subs.subs, Bounded sub := by
  intro sub member
  cases List.mem_singleton.mp member
  exact ⟨by decide,by decide,by decide⟩

theorem sessionsConserveOnSubscription :
    ∃ s0 w1 d, opening "req-2" "subscription_only" 5 = (.ok s0,w1) ∧
      run (step plainSetting) ⟨s0,w1,none⟩ [.reserve 12 noFaults,.settle 15 noFaults] = some d ∧
      d.settledWith = some 15 ∧ netFunding accounts d.session d.world = charge d.session.funding 15 ∧
      netToken accounts d.world = tokenCharge d.session 15 := by
  have runs : ((begun "req-2" "subscription_only" 5).bind (fun d =>
      (run (step plainSetting) d [.reserve 12 noFaults,.settle 15 noFaults]).map Desk.settledWith)) =
      some (some 15) := by decide +kernel
  have kept : ((begun "req-2" "subscription_only" 5).bind (fun d =>
      (step plainSetting d (.reserve 12 noFaults)).map (fun n => n.session.refunded))) = some false := by
    decide +kernel
  obtain ⟨d0,start,rest⟩ := bind_eq_some_iff.mp runs
  obtain ⟨d,moved,remembered⟩ := map_eq_some_iff.mp rest
  obtain ⟨opened,whole⟩ := begunOpens start
  rw [start,bind_some] at kept
  rw [whole] at moved kept
  have allowed : Along (step plainSetting) Allowed ⟨d0.session,d0.world,none⟩
      [.reserve 12 noFaults,.settle 15 noFaults] := by
    refine ⟨⟨by decide,fun _ _ other => nomatch other⟩,fun n moved => ⟨⟨by decide,fun _ _ _ => ?_⟩,fun _ _ => trivial⟩⟩
    rw [moved] at kept
    exact some.inj kept
  have net := (sessionsConserve (by decide) accountsBounded (by decide) (by decide) (by decide) (by decide)
    (by decide) opened allowed moved).2.1 15 remembered
  exact ⟨_,_,d,opened,moved,remembered,net.2⟩

instance decideOpened {x : Except ApiError Session × World} {p : Session → World → Prop} [∀ s w, Decidable (p s w)] :
    Decidable (∃ s w, x = (.ok s,w) ∧ p s w) :=
  match x with
  | (.ok s,w) => decidable_of_iff (p s w) (by simp)
  | (.error _,_) => isFalse (by simp)

theorem settlementsShortOfQuota :
    (∃ s0 w1, opening "req-2" "wallet_only" 5 = (.ok s0,w1) ∧
      (let first := settle tokenDown 8 s0 w1
       let second := settle noFaults 8 first.2.1 first.2.2
       first.1 = .error "connection reset" ∧ second.1 = .ok () ∧ second.2.1.relayInfo.isPlayground = false ∧
        netFunding accounts second.2.1 second.2.2 = 8 ∧ netToken accounts second.2.2 = 5)) ∧
    (∃ s0 w1, opening "req-2" "subscription_only" 5 = (.ok s0,w1) ∧
      (let only := settle noFaults (-50) s0 w1
       only.1 = .ok () ∧ netFunding accounts only.2.1 only.2.2 = -40)) ∧
    (∃ s0 w1, opening "req-2" "wallet_only" (-5) = (.ok s0,w1) ∧
      (let only := settle noFaults 8 s0 w1
       only.1 = .ok () ∧ netFunding accounts only.2.1 only.2.2 = 13)) ∧
    (∃ s0 w1, opening "req-1" "subscription_only" 5 = (.ok s0,w1) ∧
      (let only := settle noFaults 8 s0 w1
       only.1 = .ok () ∧ usedOf accounts.subs 1 = some 40 ∧ usedOf only.2.2.subs 1 = some 43)) := by decide +kernel

end Omnigate.BillingRun
