import Omnigate.TaskCopies
import Omnigate.TaskWallet

/-! Refunds of a failed task. The winner of the terminal write refunds at once; a sweep refunds what is left, and
takes the stored quota first so that no other sweep does. At any time at most one worker owns the refund. -/
namespace Omnigate.TaskRefund

open List

open Accounts Machine TaskBilling TaskCopies TaskPolling TaskRow TaskTerminal TaskWallet TaskWorkers
open Pool hiding step State

def busy : Worker → Bool
  | .refunding _ _ | .marking _ _ | .restoring _ => true
  | _ => false

def primary : Worker → Bool
  | .refunding job _ | .marking job _ => job ≠ .reconcile
  | _ => false

inductive Free (q : Int) (s : Board) : Prop
  | running (live : ¬terminal s.row.status) (quota : s.row.quota = q) (credited : s.credited = 0)
  | succeeded (status : s.row.status = .success) (credited : s.credited = 0)
  | owing (status : s.row.status = .failure) (quota : s.row.quota = q) (credited : s.credited = 0)
  | refunded (status : s.row.status = .failure) (quota : s.row.quota = 0) (credited : s.credited = q)
  | legacy (status : s.row.status = .failure) (quota : s.row.quota = 0) (credited : s.credited = 0)
      (timeout : s.legacyTimeout)

inductive Own (q : Int) (s : Board) : Worker → Prop
  | paying {job task} (direct : job ≠ .reconcile) (copy : task.quota = q) (status : s.row.status = .failure)
      (quota : s.row.quota = q) (credited : s.credited = 0) : Own q s (.refunding job task)
  | paid {job task} (direct : job ≠ .reconcile) (copy : task.quota = 0) (status : s.row.status = .failure)
      (quota : s.row.quota = q) (credited : s.credited = q) : Own q s (.marking job task)
  | claimed {task} (copy : task.quota = q) (status : s.row.status = .failure)
      (quota : s.row.quota = 0) (credited : s.credited = 0) : Own q s (.refunding .reconcile task)
  | swept {task} (copy : task.quota = 0) (status : s.row.status = .failure)
      (quota : s.row.quota = 0) (credited : s.credited = q) : Own q s (.marking .reconcile task)
  | returning {task} (copy : task.quota = q) (status : s.row.status = .failure)
      (quota : s.row.quota = 0) (credited : s.credited = 0) : Own q s (.restoring task)

structure Same (s s' : Board) : Prop where
  status : s'.row.status = s.row.status
  quota : s'.row.quota = s.row.quota
  credited : s'.credited = s.credited
  timeout : s.legacyTimeout → s'.legacyTimeout

theorem freeSame (same : Same s s') (h : Free q s) : Free q s' := by
  cases h with
  | running live quota credited =>
    exact .running (by rw [same.status]; exact live) (same.quota.trans quota) (same.credited.trans credited)
  | succeeded status credited => exact .succeeded (same.status.trans status) (same.credited.trans credited)
  | owing status quota credited =>
    exact .owing (same.status.trans status) (same.quota.trans quota) (same.credited.trans credited)
  | refunded status quota credited =>
    exact .refunded (same.status.trans status) (same.quota.trans quota) (same.credited.trans credited)
  | legacy status quota credited timeout =>
    exact .legacy (same.status.trans status) (same.quota.trans quota) (same.credited.trans credited)
      (same.timeout timeout)

theorem ownFrame (status : s'.row.status = .failure) (quota : s'.row.quota = s.row.quota)
    (credited : s'.credited = s.credited) (h : Own q s w) : Own q s' w := by
  cases h with
  | paying direct copy _ marker paid => exact .paying direct copy status (quota.trans marker) (credited.trans paid)
  | paid direct copy _ marker paid => exact .paid direct copy status (quota.trans marker) (credited.trans paid)
  | claimed copy _ marker paid => exact .claimed copy status (quota.trans marker) (credited.trans paid)
  | swept copy _ marker paid => exact .swept copy status (quota.trans marker) (credited.trans paid)
  | returning copy _ marker paid => exact .returning copy status (quota.trans marker) (credited.trans paid)

/- The steps of the refund accounting. The primary refund is over before the row is listed for reconciliation, quota
write-backs succeed, a poller does not come back to a finished copy, the bulk failure does not hit a task that has
succeeded, and no client fetches. -/
def permits (procs : List Worker) (s : Board) (worker : Worker) (env : Env) : Bool :=
  match worker with
  | .ready .reconcile => procs.all (fun r => !primary r)
  | .hold (.bulk _) _ => s.row.status ≠ .success
  | .hold .reconcile _ => true
  | .hold .fetch _ => false
  | .hold _ task => ¬terminal task.status
  | .marking _ _ | .restoring _ | .recording _ => env.stmt.fault = none
  | _ => true

def Allowed (s : State) : Move Worker Env → Bool
  | .start _ => true
  | .act i env => match s.procs[i]? with
    | some worker => permits s.procs s.shared worker env
    | none => true

theorem permitsCareful (h : permits procs s worker env) : careful s worker env := by
  cases worker with
  | hold job task =>
    cases job with
    | reconcile => simp [careful,breaks,Job.writes,polls]
    | bulk => simp_all [permits,careful,breaks,polls]
    | fetch => cases h
    | video | suno | timeout =>
      simp only [permits,decide_eq_true_eq] at h
      have steady : ¬(terminal s.row.status ∧ task.status = s.row.status) :=
        fun both => h (by rw [both.2]; exact both.1)
      simp only [careful,Bool.and_eq_true,Bool.not_eq_true',breaks,decide_eq_false_iff_not]
      refine ⟨fun broken => steady ⟨broken.2.2.1,broken.2.2.2.1⟩,?_⟩
      simpa [polls] using h
  | _ => rfl

theorem restIdle (job task) : busy (rest job task) = false := by
  cases job <;> rfl

inductive Effect (q : Int) (s s' : Board) (w : Worker) : Prop
  | quiet (same : Same s s') (idle : busy w = false)
  | moved (live : ¬terminal s.row.status) (idle : busy w = false) (status : s'.row.status ≠ .failure)
      (quota : s'.row.quota = q) (credited : s'.credited = s.credited)
  | failed (live : ¬terminal s.row.status) (status : s'.row.status = .failure) (credited : s'.credited = s.credited)
      (next : busy w = false ∧ (s'.row.quota = q ∨ s'.row.quota = 0 ∧ s'.legacyTimeout) ∨
        ∃ job task, w = .refunding job task ∧ job ≠ .reconcile ∧ task.quota = q ∧ s'.row.quota = q)
  | claims (task : Task) (next : w = .refunding .reconcile task) (copy : task.quota = q) (present : q ≠ 0)
      (before : s.row.quota = q) (status : s.row.status = .failure ∧ s'.row.status = .failure)
      (quota : s'.row.quota = 0) (credited : s'.credited = s.credited)
  | bulk (unfinished : s.row.status ≠ .success) (status : s'.row.status = .failure) (idle : busy w = false)
      (quota : s'.row.quota = s.row.quota) (credited : s'.credited = s.credited)
      (timeout : s.legacyTimeout → s'.legacyTimeout)
  | recorded (status : s.row.status = .success ∧ s'.row.status = .success) (idle : busy w = false)
      (credited : s'.credited = s.credited)

theorem writeEffect (writes : job.writes) (known : job ≠ .fetch) (live : ¬terminal task.status) (copy : task.quota = q)
    (h : act cfg s (.hold job task) env = some (s',w)) : Effect q s s' w := by
  have fits := answeredFits cfg env task writes
  have report : job = .timeout → (answered cfg job env task).write ≠ .skip ∧
      (answered cfg job env task).task.status = .failure := by
    intro timeout
    subst timeout
    have differs : TaskStatus.failure ≠ task.status := fun eq => live (by rw [← eq]; rfl)
    have write := fits.differs .failure rfl differs
    exact ⟨write,fits.written write⟩
  obtain ⟨next,persisted,rfl⟩ := actHold writes h
  generalize answered cfg job env task = o at fits report persisted
  rcases persistCases persisted with ⟨rfl,_,next⟩ | ⟨write,clear,same,rfl,next⟩
  · have idle : busy w = false := by
      rcases next with ⟨open',billed⟩ | rested
      · have noSettle : ¬o.settle := fun settle => open' (fits.settles live settle).2.1
        have noRefund : ¬o.refund := fun refund => open' (fits.refunds live refund).1
        rw [billed,bill,if_neg noSettle,if_neg noRefund,restIdle]
      · rw [rested,restIdle]
    exact .quiet ⟨rfl,rfl,rfl,fun old => by simp [old]⟩ idle
  have liveRow : ¬terminal s.row.status := by rw [same]; exact live
  by_cases failed : o.task.status = .failure
  · have billed : w = bill job o (reportOf env.answer) := by
      rcases next with billed | ⟨kept,_⟩
      · exact billed
      · exact absurd (by rw [← kept,failed]; rfl) live
    have noSettle : ¬o.settle := by
      intro settle
      have success := (fits.settles live settle).2.2
      rw [failed] at success
      cases success
    rw [bill,if_neg noSettle] at billed
    by_cases refund : o.refund
    · have quota : o.task.quota = q := (fits.refunds live refund).2.2.trans copy
      have direct : job ≠ .reconcile := fun eq => by rw [eq] at writes; cases writes
      rw [if_pos refund] at billed
      exact .failed liveRow failed rfl (.inr ⟨job,o.task,billed,direct,quota,quota⟩)
    rw [if_neg refund] at billed
    refine .failed liveRow failed rfl (.inl ⟨by rw [billed,restIdle],?_⟩)
    rcases fits.quota with kept | ⟨timeout,legacy,cleared⟩
    · exact .inl (kept.trans copy)
    · have closed : closes job task env s := by simp [closes,timeout,legacy,same,clear]
      exact .inr ⟨cleared,by simp [closed]⟩
  · have noRefund : ¬o.refund := fun refund => failed (fits.refunds live refund).2.1
    have idle : busy w = false := by
      rcases next with billed | ⟨_,rested⟩
      · rw [billed,bill,if_neg noRefund]
        split
        · rfl
        · exact restIdle _ _
      · rw [rested,restIdle]
    have quota : o.task.quota = q := by
      rcases fits.quota with kept | ⟨timeout,_⟩
      · exact kept.trans copy
      · exact absurd (report timeout).2 failed
    exact .moved liveRow idle failed quota rfl

theorem claimEffect (copy : task.quota = q) (status : s.row.status = .failure)
    (h : act cfg s (.hold .reconcile task) env = some (s',w)) : Effect q s s' w := by
  unfold act claimQuotaForRefund replaceQuota at h
  dsimp only at h
  by_cases zero : task.quota = 0
  · rw [if_pos zero] at h
    cases h
    exact .quiet ⟨rfl,rfl,rfl,id⟩ rfl
  rw [if_neg zero] at h
  cases fault : env.stmt.fault with
  | some =>
    rw [fault] at h
    cases h
    exact .quiet ⟨rfl,rfl,rfl,id⟩ rfl
  | none =>
    rw [fault] at h
    by_cases present : s.row.quota = task.quota
    · rw [if_pos present] at h
      cases h
      exact .claims task rfl copy (by omega) (present.trans copy) ⟨status,status⟩ rfl rfl
    · rw [if_neg present] at h
      cases h
      exact .quiet ⟨rfl,rfl,rfl,id⟩ rfl

theorem settleEffect (status : s.row.status = .success)
    (settles : (∃ task info, p = .settling task info) ∨ (∃ task actual, p = .adjusting task actual) ∨
      ∃ task, p = .recording task)
    (h : act cfg s p env = some (s',w)) : Effect q s s' w := by
  rcases settles with ⟨task,info,rfl⟩ | ⟨task,actual,rfl⟩ | ⟨task,rfl⟩
  · obtain ⟨_,rfl,⟨_,rfl⟩ | ⟨_,_,rfl⟩⟩ := settlingCases h <;> exact .quiet ⟨rfl,rfl,rfl,id⟩ rfl
  · rcases adjustingCases h with ⟨_,_,rfl,rfl⟩ | ⟨_,_,rfl,rfl⟩ <;> exact .quiet ⟨rfl,rfl,rfl,id⟩ rfl
  cases h
  refine .recorded ⟨status,?_⟩ rfl rfl
  exact (updateQuotaStatus _ _ _).trans status

theorem idleEffect (idle : busy p = false) (copy : Copy q s p)
    (listed : ∀ task, p = .hold .reconcile task → task.quota = q) (permitted : permits procs s p env) (h : act cfg s p env = some (s',w)) : Effect q s s' w := by
  cases p with
  | ready =>
    cases h
    refine .quiet ⟨rfl,rfl,rfl,id⟩ ?_
    split <;> rfl
  | hold job task =>
    cases job with
    | reconcile => exact claimEffect (listed task rfl) copy h
    | fetch => cases permitted
    | bulk =>
      have unfinished : s.row.status ≠ .success := by simpa [permits] using permitted
      cases h
      unfold taskBulkUpdateByID
      cases env.stmt.fault with
      | some => exact .quiet ⟨rfl,rfl,rfl,id⟩ rfl
      | none => exact .bulk unfinished rfl rfl rfl rfl id
    | video | suno | timeout =>
      simp only [permits,decide_eq_true_eq] at permitted
      exact writeEffect rfl (by simp) permitted (copy permitted) h
  | settling task info => exact settleEffect copy.1 (.inl ⟨task,info,rfl⟩) h
  | adjusting task actual => exact settleEffect copy.1 (.inr (.inl ⟨task,actual,rfl⟩)) h
  | recording task => exact settleEffect copy.1 (.inr (.inr ⟨task,rfl⟩)) h
  | refunding | marking | restoring => cases idle
  | done => cases h

theorem effectTaken (free : Free q s) (effect : Effect q s s' w) :
    busy w = false ∧ Free q s' ∨ busy w = true ∧ Own q s' w := by
  cases effect with
  | quiet same idle => exact .inl ⟨idle,freeSame same free⟩
  | moved live idle status quota credited =>
    cases free with
    | running _ _ paid =>
      refine .inl ⟨idle,?_⟩
      by_cases success : s'.row.status = .success
      · exact .succeeded success (credited.trans paid)
      · exact .running (by simp [terminal,success,status]) quota (credited.trans paid)
    | succeeded ends | owing ends | refunded ends | legacy ends => rw [ends] at live; exact absurd rfl live
  | failed live status credited next =>
    cases free with
    | running _ _ paid =>
      rcases next with ⟨idle,kept | ⟨cleared,timeout⟩⟩ | ⟨_,task,rfl,direct,copy,quota⟩
      · exact .inl ⟨idle,.owing status kept (credited.trans paid)⟩
      · exact .inl ⟨idle,.legacy status cleared (credited.trans paid) timeout⟩
      · exact .inr ⟨rfl,.paying direct copy status quota (credited.trans paid)⟩
    | succeeded ends | owing ends | refunded ends | legacy ends => rw [ends] at live; exact absurd rfl live
  | claims task next copy _ _ status quota credited =>
    subst next
    refine .inr ⟨rfl,.claimed copy status.2 quota ?_⟩
    cases free with
    | running _ _ paid | succeeded _ paid | owing _ _ paid | legacy _ _ paid => exact credited.trans paid
    | refunded => omega
  | bulk unfinished status idle quota credited timeout =>
    refine .inl ⟨idle,?_⟩
    cases free with
    | running _ marker paid | owing _ marker paid => exact .owing status (quota.trans marker) (credited.trans paid)
    | succeeded ends => exact absurd ends unfinished
    | refunded _ marker paid => exact .refunded status (quota.trans marker) (credited.trans paid)
    | legacy _ marker paid closed => exact .legacy status (quota.trans marker) (credited.trans paid) (timeout closed)
  | recorded status idle credited =>
    refine .inl ⟨idle,.succeeded status.2 ?_⟩
    cases free with
    | running _ _ paid | succeeded _ paid | owing _ _ paid | legacy _ _ paid => exact credited.trans paid
    | refunded ends =>
      rw [status.1] at ends
      cases ends

theorem effectLeft (own : Own q s r) (effect : Effect q s s' w)
    (swept : (∃ task, w = .refunding .reconcile task) → primary r = false) : busy w = false ∧ Own q s' r := by
  have failed : s.row.status = .failure := by cases own <;> assumption
  cases effect with
  | quiet same idle => exact ⟨idle,ownFrame (same.status.trans failed) same.quota same.credited own⟩
  | moved live | failed live => rw [failed] at live; exact absurd rfl live
  | claims task next =>
    have sweep := swept ⟨task,next⟩
    cases own with
    | paying direct | paid direct => simp [primary,direct] at sweep
    | claimed | swept | returning => omega
  | bulk _ status idle quota credited => exact ⟨idle,ownFrame status quota credited own⟩
  | recorded status => rw [status.1] at failed; cases failed

theorem restoringRow (clear : stmt.fault = none) (empty : row.quota = 0) :
    (restoreQuotaAfterFailedRefund stmt quota row).2.quota = quota := by
  unfold restoreQuotaAfterFailedRefund replaceQuota
  split
  · rename_i zero
    exact empty.trans zero.symm
  · simp [clear]

theorem ownKept (own : Own q s p) (permitted : permits procs s p env)
    (h : act cfg s p env = some (s',w)) : busy w = false ∧ Free q s' ∨ busy w = true ∧ Own q s' w := by
  cases own with
  | paying direct copy status quota credited =>
    rcases refundingCases h with ⟨_,rfl,rfl⟩ | ⟨world,_,rfl,rfl⟩ | ⟨world,_,rfl,rfl⟩
    · exact .inl ⟨restIdle _ _,.owing status quota credited⟩
    · exact .inr ⟨rfl,.paid direct rfl status quota (by show _ + _ = _; omega)⟩
    · rw [if_neg direct]
      exact .inl ⟨restIdle _ _,.owing status quota credited⟩
  | claimed copy status quota credited =>
    rcases refundingCases h with ⟨_,rfl,rfl⟩ | ⟨world,_,rfl,rfl⟩ | ⟨world,_,rfl,rfl⟩
    · exact .inl ⟨rfl,.owing status (by omega) credited⟩
    · exact .inr ⟨rfl,.swept rfl status quota (by show _ + _ = _; omega)⟩
    · exact .inr ⟨rfl,.returning copy status quota credited⟩
  | paid direct copy status quota credited | swept copy status quota credited =>
    simp only [permits,decide_eq_true_eq] at permitted
    cases h
    simp only [updateQuota,permitted]
    exact .inl ⟨restIdle _ _,.refunded status copy credited⟩
  | returning copy status quota credited =>
    simp only [permits,decide_eq_true_eq] at permitted
    cases h
    refine .inl ⟨rfl,.owing ((restoreStatus _ _ _).trans status) ?_ credited⟩
    exact (restoringRow permitted quota).trans copy

def sweeping : Worker → Bool
  | .hold .reconcile _ => true
  | _ => false

structure Inv (q : Int) (s : State) : Prop where
  sound : Sound q s
  owned : Owned busy (Free q) (Own q) s
  listed : ∀ p ∈ s.procs, ∀ task, p = .hold .reconcile task → task.quota = q
  apart : ∀ p ∈ s.procs, ∀ r ∈ s.procs, sweeping p → primary r = false

theorem sweptQuota (owned : Owned busy (Free q) (Own q) s) (failed : s.shared.row.status = .failure)
    (present : s.shared.row.quota ≠ 0) : s.shared.row.quota = q := by
  cases owned with
  | free _ free =>
    cases free with
    | running live => rw [failed] at live; exact absurd rfl live
    | succeeded ends => rw [failed] at ends; cases ends
    | owing _ quota => exact quota
    | refunded _ quota | legacy _ quota => exact absurd quota present
  | held _ p _ _ _ own =>
    cases own with
    | paying _ _ _ quota | paid _ _ _ quota => exact quota
    | claimed _ _ quota | swept _ _ quota | returning _ _ quota => exact absurd quota present

theorem primaryNext (copy : Copy q s p)
    (listed : ∀ task, p = .hold .reconcile task → task.quota = q) (permitted : permits procs s p env)
    (h : act cfg s p env = some (s',w)) (direct : primary w) : primary p ∨ ¬terminal s.row.status := by
  have works : busy w := by
    cases w <;> first | rfl | cases direct
  by_cases idle : busy p
  · cases p with
    | refunding =>
      rcases refundingCases h with ⟨_,rfl,rfl⟩ | ⟨world,_,rfl,rfl⟩ | ⟨world,_,rfl,rfl⟩
      · rw [restIdle] at works; cases works
      · exact .inl direct
      split at works
      · rename_i sweep
        rw [if_pos sweep] at direct
        cases direct
      · rw [restIdle] at works; cases works
    | marking =>
      cases h
      rw [restIdle] at works
      cases works
    | restoring => cases h; cases works
    | _ => cases idle
  · cases idleEffect (by simpa using idle) copy listed permitted h with
    | failed live => exact .inr live
    | claims task next => rw [next] at direct; cases direct
    | quiet _ rest | moved _ rest | bulk _ _ rest | recorded _ rest => rw [rest] at works; cases works

theorem restSweeping (job task) : sweeping (rest job task) = false := by
  cases job <;> rfl

theorem sweepingReconciles (h : sweeping w) : reconciling w := by
  unfold sweeping at h
  split at h
  · rfl
  · cases h

theorem sweepNext (h : act cfg s p env = some (s',w)) (sweep : sweeping w) :
    p = .ready .reconcile := by
  cases p with
  | ready job =>
    cases h
    split at sweep
    · cases job <;> first | rfl | cases sweep
    · cases sweep
  | hold job =>
    cases job with
    | reconcile =>
      rcases (claimingCases h).2 with rfl | rfl <;> cases sweep
    | bulk => cases h; cases sweep
    | video | suno | timeout | fetch =>
      have selected := sweepingReconciles sweep
      rw [writesReconciling rfl h] at selected
      cases selected
  | refunding =>
    rcases refundingCases h with ⟨_,rfl,rfl⟩ | ⟨world,_,rfl,rfl⟩ | ⟨world,_,rfl,rfl⟩
    · rw [restSweeping] at sweep; cases sweep
    · cases sweep
    split at sweep
    · cases sweep
    · rw [restSweeping] at sweep; cases sweep
  | marking =>
    cases h
    rw [restSweeping] at sweep
    cases sweep
  | restoring | recording => cases h; cases sweep
  | settling =>
    obtain ⟨_,_,⟨_,rfl⟩ | ⟨_,_,rfl⟩⟩ := settlingCases h <;> cases sweep
  | adjusting => rcases adjustingCases h with ⟨_,_,_,rfl⟩ | ⟨_,_,_,rfl⟩ <;> cases sweep
  | done => cases h

theorem sweepFailed (sweep : sweeping p) (copy : Copy q s p) : s.row.status = .failure := by
  unfold sweeping at sweep
  split at sweep
  · exact copy
  · cases sweep

theorem sweepDirect (sweep : sweeping p) : primary p = false := by
  unfold sweeping at sweep
  split at sweep
  · rfl
  · cases sweep

theorem claimNext (idle : busy p = false)
    (h : act cfg s p env = some (s',.refunding .reconcile task)) : sweeping p := by
  cases p with
  | hold job =>
    cases job with
    | reconcile => rfl
    | bulk => cases h
    | video | suno | timeout | fetch =>
      have selected := writesReconciling rfl h
      cases selected
  | ready =>
    have moved := congrArg Prod.snd (Option.some.inj h)
    split at moved <;> cases moved
  | settling =>
    obtain ⟨_,_,⟨_,same⟩ | ⟨_,_,same⟩⟩ := settlingCases h <;> cases same
  | adjusting => rcases adjustingCases h with ⟨_,_,_,same⟩ | ⟨_,_,_,same⟩ <;> cases same
  | recording | done => cases h
  | refunding | marking | restoring => cases idle

theorem allowedCareful (h : Allowed s move) : stepCareful s move := by
  cases move with
  | start => rfl
  | act i =>
    cases found : s.procs[i]? with
    | none => simp [stepCareful,found]
    | some =>
      simp only [Allowed,found] at h
      simp only [stepCareful,found]
      exact permitsCareful h

theorem startInv (inv : Inv q s) (sound : Sound q ⟨s.shared,s.procs ++ [p]⟩) (begun : begins p) :
    Inv q ⟨s.shared,s.procs ++ [p]⟩ := by
  cases p with
  | ready =>
    exact ⟨sound,startOwned inv.owned rfl,Table.allAdded inv.listed (fun task same => by cases same),
      Table.allAdded (fun r old => Table.allAdded (inv.apart r old) (fun _ => rfl)) (fun r' _ sweep => by cases sweep)⟩
  | _ => cases begun

theorem listedNext (inv : Inv q s) (allowed : permits s.procs s.shared p env)
    (moved : act cfg s.shared p env = some (board,w)) (same : w = .hold .reconcile task) : task.quota = q := by
  subst same
  obtain rfl := sweepNext moved rfl
  simp only [permits,all_eq_true,Bool.not_eq_true'] at allowed
  have loaded := congrArg Prod.snd (Option.some.inj moved)
  split at loaded
  · rename_i chosen
    cases loaded
    simp only [eligible,unrefundedFailed,decide_eq_true_eq] at chosen
    exact sweptQuota inv.owned chosen.2.1 chosen.2.2.1
  · cases loaded

theorem invKept (inv : Inv q s) (allowed : Allowed s move) (h : step cfg s move = some n) :
    Inv q n := by
  have sound := soundKept inv.sound (allowedCareful allowed) h
  cases move with
  | start =>
    obtain ⟨begun,rfl⟩ := stepStart h
    exact startInv inv sound begun
  | act =>
    obtain ⟨p,_,w,found,moved,rfl⟩ := stepAct h
    simp only [Allowed,found] at allowed
    have present := mem_of_getElem? found
    have copy := inv.sound.copies p present
    have listed := inv.listed p present
    refine ⟨sound,?_,?_,?_⟩
    · refine actOwned inv.owned found ?_ ?_ ?_
      · exact fun free idle => effectTaken free (idleEffect idle copy listed allowed moved)
      · intro r member own _ idle
        refine effectLeft own (idleEffect idle copy listed allowed moved) (fun claim => ?_)
        obtain ⟨task,rfl⟩ := claim
        exact inv.apart p present r member (claimNext idle moved)
      · exact fun own _ => ownKept own allowed moved
    · exact Table.allSet inv.listed (fun task same => listedNext inv allowed moved same)
    intro r member r' member' sweep
    rcases mem_or_eq_of_mem_set member with old | rfl
    · rcases mem_or_eq_of_mem_set member' with old' | rfl
      · exact inv.apart r old r' old' sweep
      by_contra direct
      rcases primaryNext copy listed allowed moved (by simpa using direct) with before | live
      · rw [inv.apart r old p present sweep] at before
        cases before
      · rw [sweepFailed sweep (inv.sound.copies r old)] at live
        exact live rfl
    · obtain rfl := sweepNext moved sweep
      simp only [permits,all_eq_true,Bool.not_eq_true'] at allowed
      rcases mem_or_eq_of_mem_set member' with old' | rfl
      · exact allowed r' old'
      · exact sweepDirect sweep

def claiming : Worker → Bool
  | .refunding .reconcile _ | .restoring _ => true
  | _ => false

theorem ownedCredit (owned : Owned busy (Free q) (Own q) s) : s.shared.credited = 0 ∨ s.shared.credited = q := by
  cases owned with
  | free _ free =>
    cases free with
    | running _ _ paid | succeeded _ paid | owing _ _ paid | legacy _ _ paid => exact .inl paid
    | refunded _ _ paid => exact .inr paid
  | held _ _ _ _ _ own =>
    cases own with
    | paying _ _ _ _ paid | claimed _ _ _ paid | returning _ _ _ paid => exact .inl paid
    | paid _ _ _ _ paid | swept _ _ _ paid => exact .inr paid

theorem ownedMarker (owned : Owned busy (Free q) (Own q) s) (failed : s.shared.row.status = .failure)
    (current : s.shared.legacyTimeout = false) (unclaimed : ∀ p ∈ s.procs, claiming p = false) :
    s.shared.row.quota = q ∧ s.shared.credited = 0 ∨ s.shared.credited = q := by
  cases owned with
  | free _ free =>
    cases free with
    | running live => rw [failed] at live; exact absurd rfl live
    | succeeded ends => rw [failed] at ends; cases ends
    | owing _ quota paid => exact .inl ⟨quota,paid⟩
    | refunded _ _ paid => exact .inr paid
    | legacy _ _ _ closed => rw [current] at closed; cases closed
  | held _ p found _ _ own =>
    have open' := unclaimed p (mem_of_getElem? found)
    cases own with
    | paying _ _ _ quota paid => exact .inl ⟨quota,paid⟩
    | paid _ _ _ _ paid | swept _ _ _ paid => exact .inr paid
    | claimed | returning => cases open'

theorem refundedAtMostOnce {cfg row world moves out} (live : ¬terminal row.status) (charged : 0 ≤ row.quota)
    (allowed : Along (step cfg) (fun s m => Allowed s m) (start row world) moves)
    (h : run (step cfg) (start row world) moves = some out) :
    0 ≤ out.shared.credited ∧ out.shared.credited ≤ row.quota ∧
    (out.shared.row.status = .failure → out.shared.legacyTimeout = false →
      (∀ p ∈ out.procs, claiming p = false) → out.shared.row.quota = 0 → out.shared.credited = row.quota) ∧
    (out.shared.row.status = .failure → out.shared.legacyTimeout = false →
      (∀ p ∈ out.procs, claiming p = false) → out.shared.credited ≠ row.quota →
      out.shared.row.quota ≠ 0 ∧ (isLegacy out.shared.row = false →
        unrefundedFailed out.shared.row.updatedAt out.shared.row)) ∧
    (taskIsSubscription row = false →
      out.shared.world.wallet = world.wallet + out.shared.credited - out.shared.adjusted) := by
  have first : Inv row.quota (start row world) := by
    refine ⟨soundStart,.free ?_ (.running live rfl rfl),?_,?_⟩ <;> intro p member <;> cases member
  have inv : Inv row.quota out := runInvariant (fun _ _ _ => invKept) first allowed h
  have credit := ownedCredit inv.owned
  refine ⟨by omega,by omega,?_,?_,walletFollows h⟩
  · intro failed current unclaimed _
    have marker := ownedMarker inv.owned failed current unclaimed
    omega
  intro failed current unclaimed _
  have marker := ownedMarker inv.owned failed current unclaimed
  have present : out.shared.row.quota ≠ 0 := by omega
  refine ⟨present,fun recent => ?_⟩
  simp only [isLegacy,decide_eq_false_iff_not,not_and,not_lt] at recent
  simp only [unrefundedFailed,decide_eq_true_eq]
  exact ⟨failed,present,le_rfl,by omega⟩

def down (now : Int) : Env := { said now .failure with funds := ⟨some "connection reset",[],none,none⟩ }

def failThenClaim : List (Move Worker Env) :=
  [.start (.ready .video),.act 0 (said 10 .failure),.act 0 (said 20 .failure),.act 0 (down 20),
   .start (.ready .reconcile),.act 1 (said 100 .failure),.act 1 (said 100 .failure)]

def sweepPays : List (Move Worker Env) := [.act 1 (said 100 .failure),.act 1 (said 100 .failure)]

theorem refundedOnceBySweep :
    ∃ out, run (step plainConfig) (start plainRow plainWorld) (failThenClaim ++ sweepPays) = some out ∧
      out.shared.row.status = .failure ∧ out.shared.row.quota = 0 ∧ out.shared.credited = 100 := by
  have runs : (run (step plainConfig) (start plainRow plainWorld) (failThenClaim ++ sweepPays)).map (fun out =>
      (out.shared.row.status,out.shared.row.quota,out.shared.legacyTimeout,
        out.procs.all (fun p => !claiming p))) = some (.failure,0,false,true) := by decide +kernel
  obtain ⟨out,h,facts⟩ := Option.map_eq_some_iff.mp runs
  simp only [Prod.mk.injEq,all_eq_true,Bool.not_eq_true'] at facts
  obtain ⟨failed,empty,current,unclaimed⟩ := facts
  have checked : checkAlong (step plainConfig) Allowed (start plainRow plainWorld) (failThenClaim ++ sweepPays) := by
    decide +kernel
  have once := refundedAtMostOnce (by decide) (by decide) (alongChecked checked) h
  exact ⟨out,h,failed,empty,once.2.2.1 failed current unclaimed empty⟩

theorem claimedRowNotYetRefunded : (∃ out, run (step plainConfig) (start plainRow plainWorld) failThenClaim = some out ∧
      Along (step plainConfig) (fun s m => Allowed s m) (start plainRow plainWorld) failThenClaim ∧
      out.shared.row.status = .failure ∧ out.shared.row.quota = 0 ∧ out.shared.legacyTimeout = false ∧
      out.shared.credited = 0) ∧
    (∃ out, run (step plainConfig) (start {plainRow with submitTime := 1700000000} plainWorld)
        (failThenClaim.take 4) = some out ∧
      out.shared.row.status = .failure ∧ out.shared.row.quota = 100 ∧ out.shared.credited = 0 ∧
      ∀ updatedBefore, unrefundedFailed updatedBefore out.shared.row = false) := by
  have claim : (run (step plainConfig) (start plainRow plainWorld) failThenClaim).map (fun out =>
      (out.shared.row.status,out.shared.row.quota,out.shared.legacyTimeout,out.shared.credited)) =
      some (.failure,0,false,0) := by decide +kernel
  have old : (run (step plainConfig) (start {plainRow with submitTime := 1700000000} plainWorld)
      (failThenClaim.take 4)).map (fun out =>
      (out.shared.row.status,out.shared.row.quota,out.shared.credited,out.shared.row.submitTime)) =
      some (.failure,100,0,1700000000) := by decide +kernel
  have checked : checkAlong (step plainConfig) Allowed (start plainRow plainWorld) failThenClaim := by decide +kernel
  obtain ⟨out,h,facts⟩ := Option.map_eq_some_iff.mp claim
  obtain ⟨out',h',facts'⟩ := Option.map_eq_some_iff.mp old
  simp only [Prod.mk.injEq] at facts facts'
  refine ⟨⟨out,h,alongChecked checked,facts⟩,out',h',facts'.1,facts'.2.1,facts'.2.2.1,fun updatedBefore => ?_⟩
  simp [unrefundedFailed,facts'.2.2.2,taskRefundLegacyCutoff]

end Omnigate.TaskRefund
