import Omnigate.TaskWorkers

/-! The wallet of a task that is not paid by a subscription moves by exactly the refunds
and settlement differences that its funding source accepted. Only the task's own workers
touch the wallet here. -/
namespace Omnigate.TaskWallet

open Accounts Machine TaskBilling TaskPolling TaskRow TaskWorkers Option
open Pool hiding step State

def payer (task : Task) : Option BillingSource × Int :=
  (task.privateData.billingSource,task.privateData.subscriptionId)

theorem payerSubscription (same : payer task = payer other) :
    taskIsSubscription task = taskIsSubscription other := by
  simp only [payer,Prod.mk.injEq] at same
  simp [taskIsSubscription,same.1,same.2]

theorem adjustWallet (own : taskIsSubscription task = false)
    (h : adjustTask task delta f w = (ok,after)) : after.wallet = w.wallet - if ok then delta else 0 := by
  unfold adjustTask taskAdjustFunding at h
  rw [own] at h
  rcases moved : settleWallet delta f.wallet w with ⟨r,_⟩
  rw [moved] at h
  rcases settleWalletCases moved with ⟨⟨e,rfl⟩,rfl⟩ | ⟨rfl,rfl⟩
  · cases h
    simp
  cases h
  rw [(adjustTokenFunds _ _ _ _).wallet]
  simp

theorem videoPayer (site now answer task) :
    payer (updateVideoSingleTask site now answer task).task = payer task := by
  unfold updateVideoSingleTask
  split
  · rfl
  split
  · rfl
  rename_i result _
  dsimp only
  split
  · rfl
  rename_i updated applied
  have progress : payer (reportedProgress result updated) = payer updated := by
    unfold reportedProgress
    split
    · rfl
    · split <;> rfl
  unfold applyStatus at applied
  split at applied <;> cases applied <;> exact progress

theorem answeredPayer (cfg job env task) :
    payer (answered cfg job env task).task = payer task := by
  cases job with
  | video => exact videoPayer _ _ _ _
  | suno =>
    show payer (updateSunoTask env.item task).task = payer task
    unfold updateSunoTask
    split <;> rfl
  | timeout =>
    show payer (timeOut cfg.site env.stmt.now task).task = payer task
    unfold timeOut
    split <;> rfl
  | fetch =>
    show payer (tryRealtimeFetch cfg.site env.answer task).task = payer task
    unfold tryRealtimeFetch
    split <;> rfl
  | reconcile | bulk => rfl

def copyOf : Worker → Option Task
  | .ready _ | .done => none
  | .hold _ task | .refunding _ task | .marking _ task | .restoring task | .settling task _
  | .adjusting task _ | .recording task => some task

def PaidBy (by' : Option BillingSource × Int) (worker : Worker) : Prop :=
  ∀ task, copyOf worker = some task → payer task = by'

structure Followed (row : Task) (world : World) (s : Board) : Prop where
  payer : payer s.row = payer row
  wallet : taskIsSubscription row = false → s.world.wallet = world.wallet + s.credited - s.adjusted

theorem restPaid (h : payer task = by') : PaidBy by' (rest job task) := by
  intro _ held
  cases job <;> cases held <;> exact h

theorem rowPayer (h : Followed row world s) (payer' : payer s'.row = payer s.row)
    (same : s'.world = s.world) (credited : s'.credited = s.credited) (adjusted : s'.adjusted = s.adjusted) :
    Followed row world s' :=
  ⟨payer'.trans h.payer,fun own => by rw [same,credited,adjusted]; exact h.wallet own⟩

theorem updateQuotaPayer (stmt task row) : payer (updateQuota stmt task row).2 = payer row := by
  unfold updateQuota
  split <;> rfl

theorem replaceQuotaPayer (stmt expected quota row) :
    payer (replaceQuota stmt expected quota row).2 = payer row := by
  unfold replaceQuota
  split
  · rfl
  · split <;> rfl

theorem claimPayer (stmt quota row) :
    payer (claimQuotaForRefund stmt quota row).2 = payer row := by
  unfold claimQuotaForRefund
  split
  · rfl
  · exact replaceQuotaPayer _ _ _ _

theorem restorePayer (stmt quota row) :
    payer (restoreQuotaAfterFailedRefund stmt quota row).2 = payer row := by
  unfold restoreQuotaAfterFailedRefund
  split
  · rfl
  · exact replaceQuotaPayer _ _ _ _

theorem writeFollowed (writes : job.writes) (followed : Followed row world s)
    (held : payer task = payer row) (h : act cfg s (.hold job task) env = some (s',w)) :
    Followed row world s' ∧ PaidBy (payer row) w := by
  have kept := (answeredPayer cfg job env task).trans held
  obtain ⟨_,persisted,rfl⟩ := actHold writes h
  generalize answered cfg job env task = o at kept persisted
  have billed : ∀ info, PaidBy (payer row) (bill job o info) := by
    intro info
    unfold bill
    split
    · intro copy same; cases same; exact kept
    split
    · intro copy same; cases same; exact kept
    · exact restPaid kept
  rcases persistCases persisted with ⟨rfl,_,⟨_,rfl⟩ | rfl⟩ | ⟨_,_,_,rfl,rfl | ⟨_,rfl⟩⟩
  · exact ⟨rowPayer followed rfl rfl rfl rfl,billed _⟩
  · exact ⟨rowPayer followed rfl rfl rfl rfl,restPaid kept⟩
  · exact ⟨rowPayer followed (kept.trans followed.payer.symm) rfl rfl rfl,billed _⟩
  · exact ⟨rowPayer followed (kept.trans followed.payer.symm) rfl rfl rfl,restPaid kept⟩

theorem adjustFollowed (followed : Followed row world s) (held : payer task = payer row)
    (h : adjustTask task delta f s.world = (ok,after)) (own : taskIsSubscription row = false) :
    after.wallet = world.wallet + s.credited - s.adjusted - if ok then delta else 0 := by
  rw [adjustWallet ((payerSubscription held).trans own) h,followed.wallet own]

theorem actFollowed (followed : Followed row world s) (paid : PaidBy (payer row) p)
    (h : act cfg s p env = some (s',w)) : Followed row world s' ∧ PaidBy (payer row) w := by
  have none : ∀ job, PaidBy (payer row) (.ready job) ∧ PaidBy (payer row) .done :=
    fun job => ⟨fun _ held => (nomatch held),fun _ held => (nomatch held)⟩
  cases p with
  | ready job =>
    cases h
    refine ⟨followed,?_⟩
    split
    · intro copy held
      cases held
      exact followed.payer
    · exact (none job).2
  | hold job task =>
    have held := paid task rfl
    cases job with
    | reconcile =>
      have kept := claimPayer env.stmt task.quota s.row
      obtain ⟨rfl,rfl | rfl⟩ := claimingCases h
      · exact ⟨rowPayer followed kept rfl rfl rfl,fun copy same => by cases same; exact held⟩
      · exact ⟨rowPayer followed kept rfl rfl rfl,(none .video).2⟩
    | bulk =>
      cases h
      refine ⟨rowPayer followed ?_ rfl rfl rfl,(none .video).2⟩
      unfold taskBulkUpdateByID
      split <;> rfl
    | video | suno | timeout | fetch => exact writeFollowed rfl followed held h
  | refunding job task =>
    have held := paid task rfl
    rcases refundingCases h with ⟨_,rfl,rfl⟩ | ⟨world,adjusted,rfl,rfl⟩ | ⟨world,adjusted,rfl,rfl⟩
    · exact ⟨followed,restPaid held⟩
    · refine ⟨⟨followed.payer,fun own => ?_⟩,fun copy same => by cases same; exact held⟩
      have moved := adjustFollowed followed held adjusted own
      simp only [if_true] at moved
      dsimp only
      omega
    refine ⟨⟨followed.payer,fun own => ?_⟩,?_⟩
    · have moved := adjustFollowed followed held adjusted own
      simp only [Bool.false_eq_true,if_false,sub_zero] at moved
      exact moved
    split
    · intro copy same; cases same; exact held
    · exact restPaid held
  | marking job task =>
    cases h
    exact ⟨rowPayer followed (updateQuotaPayer _ _ _) rfl rfl rfl,restPaid (paid task rfl)⟩
  | restoring =>
    cases h
    exact ⟨rowPayer followed (restorePayer _ _ _) rfl rfl rfl,(none .video).2⟩
  | settling task =>
    have held : ∀ next, copyOf next = some task → PaidBy (payer row) next := by
      intro next same copy here
      rw [same] at here
      cases here
      exact paid _ rfl
    obtain ⟨_,rfl,⟨_,rfl⟩ | ⟨_,_,rfl⟩⟩ := settlingCases h <;> exact ⟨rowPayer followed rfl rfl rfl rfl,held _ rfl⟩
  | adjusting task =>
    have held := paid task rfl
    rcases adjustingCases h with ⟨world,adjusted,rfl,rfl⟩ | ⟨world,adjusted,rfl,rfl⟩
    all_goals
      refine ⟨⟨followed.payer,fun own => ?_⟩,fun copy same => by cases same; exact held⟩
      have moved := adjustFollowed followed held adjusted own
    · simp only [if_true] at moved
      dsimp only
      omega
    · simp only [Bool.false_eq_true,if_false,sub_zero] at moved
      exact moved
  | recording =>
    cases h
    exact ⟨rowPayer followed (updateQuotaPayer _ _ _) rfl rfl rfl,fun copy same => by cases same; exact paid _ rfl⟩
  | done => cases h

theorem walletFollows (h : run (step cfg) (start row world) moves = some out) (own : taskIsSubscription row = false) :
    out.shared.world.wallet = world.wallet + out.shared.credited - out.shared.adjusted := by
  have fresh : ∀ p, begins p → PaidBy (payer row) p := by
    intro p begun _ held
    cases p with
    | ready => cases held
    | _ => cases begun
  have keep : ∀ s move n, (Followed row world s.shared ∧ ∀ p ∈ s.procs, PaidBy (payer row) p) →
      step cfg s move = some n → Followed row world n.shared ∧ ∀ p ∈ n.procs, PaidBy (payer row) p :=
    fun s move n both moved => stepSeparate fresh (fun _ _ _ _ _ => actFollowed) both.1 both.2 moved
  have first : Followed row world (start row world).shared := ⟨rfl,fun _ => by simp [start]⟩
  have all := runAlways keep ⟨first,fun p member => by cases member⟩ h
  exact all.1.wallet own

end Omnigate.TaskWallet
