import Omnigate.TaskCopies
import Omnigate.TaskWallet

/-! Settlement of a task that succeeds. Of the workers that can move a row to success only the video poller settles
it, and nobody looks at the row for that afterwards. -/
namespace Omnigate.TaskSettlement

open List

open Accounts Machine TaskBilling TaskCopies TaskPolling TaskRow TaskTerminal TaskWallet TaskWorkers
open Pool hiding step State

def busy : Worker → Bool
  | .settling _ _ | .adjusting _ _ => true
  | _ => false

inductive Free (q : Int) (s : Board) : Prop
  | before (status : s.row.status ≠ .success) (none : s.settlements = []) (unadjusted : s.adjusted = 0)
      (clean : s.refused = false)
  | after (status : s.row.status = .success) (computed : Option Int) (once : s.settlements = [computed])
      (net : s.refused = false → s.adjusted = computed.getD q - q)

inductive Own (q : Int) (s : Board) : Worker → Prop
  | settling {task info} (copy : task.quota = q) (status : s.row.status = .success) (none : s.settlements = [])
      (unadjusted : s.adjusted = 0) (clean : s.refused = false) : Own q s (.settling task info)
  | adjusting {task actual} (copy : task.quota = q) (status : s.row.status = .success)
      (once : s.settlements = [some actual]) (unadjusted : s.adjusted = 0) (clean : s.refused = false) :
      Own q s (.adjusting task actual)

def bypasses (s : Board) (worker : Worker) (env : Env) : Bool :=
  match worker with
  | .hold .suno task =>
    env.stmt.fault = none ∧ s.row.status = task.status ∧ task.status ≠ .success ∧
      reported .suno env task = some .success
  | .hold .fetch task =>
    env.stmt.fault = none ∧ s.row.status = task.status ∧ task.status ≠ .success ∧
      reported .fetch env task = some .success
  | _ => false

def Allowed (s : State) (move : Move Worker Env) : Bool :=
  stepCareful s move && match move with
    | .start _ => true
    | .act i env => match s.procs[i]? with
      | some worker => !bypasses s.shared worker env
      | none => true

structure Keeps (s s' : Board) : Prop where
  settlements : s'.settlements = s.settlements
  adjusted : s'.adjusted = s.adjusted
  refused : s'.refused = s.refused

theorem idleKeeps (idle : busy p = false) (h : act cfg s p env = some (s',w)) : Keeps s s' := by
  cases p with
  | ready | marking | restoring | recording => cases h; exact ⟨rfl,rfl,rfl⟩
  | hold job =>
    cases job with
    | reconcile =>
      obtain ⟨rfl,_⟩ := claimingCases h
      exact ⟨rfl,rfl,rfl⟩
    | bulk => cases h; exact ⟨rfl,rfl,rfl⟩
    | video | suno | timeout | fetch =>
      obtain ⟨_,persisted,rfl⟩ := actHold rfl h
      rcases persistCases persisted with ⟨rfl,_⟩ | ⟨_,_,_,rfl,_⟩ <;> exact ⟨rfl,rfl,rfl⟩
  | refunding =>
    rcases refundingCases h with ⟨_,rfl,_⟩ | ⟨_,_,rfl,_⟩ | ⟨_,_,rfl,_⟩ <;> exact ⟨rfl,rfl,rfl⟩
  | settling | adjusting => cases idle
  | done => cases h

theorem restIdle (job task) : busy (rest job task) = false := by
  cases job <;> rfl

def Touches (q : Int) (s s' : Board) (w : Worker) : Prop :=
  busy w = false ∧ (s'.row.status = .success ↔ s.row.status = .success) ∨
  s.row.status ≠ .success ∧ s'.row.status = .success ∧ ∃ task info, w = .settling task info ∧ task.quota = q

theorem pollTouches (poller : polls job) (live : ¬terminal task.status)
    (copy : task.quota = q) (settled : job = .suno → ¬(env.stmt.fault = none ∧ s.row.status = task.status ∧
      task.status ≠ .success ∧ reported .suno env task = some .success))
    (h : act cfg s (.hold job task) env = some (s',w)) : Touches q s s' w := by
  have writes : job.writes := by
    cases job <;> first | rfl | cases poller
  have fits := answeredFits cfg env task writes
  obtain ⟨next,persisted,rfl⟩ := actHold writes h
  have unfinished : task.status ≠ .success := fun same => live (by rw [same]; rfl)
  have report : (answered cfg job env task).write ≠ .skip → (answered cfg job env task).task.status = .success →
      reported job env task = some .success := by
    intro write success
    rw [fits.written write] at success
    cases told : reported job env task with
    | none => rw [told] at success; exact absurd success unfinished
    | some => rw [told] at success; exact congrArg some success
  generalize answered cfg job env task = o at fits persisted report
  have billed : ∀ info, ¬o.settle → busy (bill job o info) = false := by
    intro info unsettled
    rw [bill,if_neg unsettled]
    split
    · rfl
    · exact restIdle _ _
  rcases persistCases persisted with ⟨rfl,_,next⟩ | ⟨write,clear,same,rfl,next⟩
  · refine .inl ⟨?_,Iff.rfl⟩
    rcases next with ⟨open',rfl⟩ | rfl
    · exact billed _ (fun settle => open' (fits.settles live settle).2.1)
    · exact restIdle _ _
  by_cases success : o.task.status = .success
  · have told := report write success
    cases job with
    | video =>
      have settle := fits.succeeded rfl write success
      have quota : o.task.quota = q := by
        rcases fits.quota with kept | ⟨wrong,_⟩
        · exact kept.trans copy
        · cases wrong
      refine .inr ⟨by rw [same]; exact unfinished,success,o.task,reportOf env.answer,?_,quota⟩
      rcases next with rfl | ⟨kept,_⟩
      · rw [bill,if_pos settle]
      · exact absurd (kept.symm.trans success) unfinished
    | suno => exact absurd ⟨clear,same,unfinished,told⟩ (settled rfl)
    | timeout => cases told
    | fetch | reconcile | bulk => cases poller
  · refine .inl ⟨?_,⟨fun wrong => absurd wrong success,fun wrong => absurd (same.symm.trans wrong) unfinished⟩⟩
    rcases next with rfl | ⟨_,rfl⟩
    · exact billed _ (fun settle => success (fits.settles live settle).2.2)
    · exact restIdle _ _

theorem fetchTouches (steady : breaks s (.hold .fetch task) env = false)
    (told : bypasses s (.hold .fetch task) env = false)
    (h : act cfg s (.hold .fetch task) env = some (s',w)) : Touches q s s' w := by
  have idle : busy w = false := by rw [fetchDone h]; rfl
  refine .inl ⟨idle,?_⟩
  by_cases finished : terminal s.row.status
  · rw [(actSteady h finished).mpr steady]
  have open' : s.row.status ≠ .success := fun same => finished (by rw [same]; rfl)
  refine ⟨fun success => ?_,fun wrong => absurd wrong open'⟩
  have fits := fetchFits cfg env task
  obtain ⟨_,persisted,rfl⟩ := actHold rfl h
  rcases persistCases persisted with ⟨rfl,_⟩ | ⟨write,clear,same,rfl,_⟩
  · exact success
  have unfinished : task.status ≠ .success := by rw [← same]; exact open'
  have wrote : (reported .fetch env task).getD task.status = .success := (fits.written write).symm.trans success
  cases report : reported .fetch env task with
  | none => rw [report] at wrote; exact absurd wrote unfinished
  | some st =>
    rw [report] at wrote
    have success' : st = .success := wrote
    rw [success'] at report
    simp [bypasses,clear,same,unfinished,report] at told

theorem refundTouches (refunds : (∃ job task, p = .refunding job task) ∨
    (∃ job task, p = .marking job task) ∨ ∃ task, p = .restoring task)
    (h : act cfg s p env = some (s',w)) : Touches q s s' w := by
  have kept : s'.row.status = s.row.status := by
    refine actElsewhere (fun job task same => ?_) h
    rcases refunds with ⟨_,_,eq⟩ | ⟨_,_,eq⟩ | ⟨_,eq⟩ <;> rw [eq] at same <;> cases same
  refine .inl ⟨?_,by rw [kept]⟩
  rcases refunds with ⟨job,task,rfl⟩ | ⟨job,task,rfl⟩ | ⟨task,rfl⟩
  · rcases refundingCases h with ⟨_,_,rfl⟩ | ⟨_,_,_,rfl⟩ | ⟨_,_,_,rfl⟩
    · exact restIdle _ _
    · rfl
    split
    · rfl
    · exact restIdle _ _
  · cases h; exact restIdle _ _
  · cases h; rfl

theorem idleTouches (idle : busy p = false) (copy : Copy q s p) (cares : careful s p env)
    (told : bypasses s p env = false) (h : act cfg s p env = some (s',w)) : Touches q s s' w := by
  have steady := carefulSteady cares
  cases p with
  | ready =>
    cases h
    refine .inl ⟨?_,Iff.rfl⟩
    split <;> rfl
  | hold job =>
    cases job with
    | video | timeout =>
      have live := carefulLive cares rfl
      exact pollTouches rfl live (copy live) (fun wrong => by cases wrong) h
    | suno =>
      have live := carefulLive cares rfl
      simp only [bypasses,decide_eq_false_iff_not] at told
      exact pollTouches rfl live (copy live) (fun _ => told) h
    | fetch => exact fetchTouches steady told h
    | reconcile =>
      have kept := actReconcile h
      refine .inl ⟨?_,by rw [kept]⟩
      rcases (claimingCases h).2 with rfl | rfl <;> rfl
    | bulk =>
      cases h
      refine .inl ⟨rfl,?_⟩
      simp only [breaks,decide_eq_false_iff_not,not_and] at steady
      unfold taskBulkUpdateByID
      cases fault : env.stmt.fault with
      | some => rfl
      | none => simp [steady fault]
  | refunding job task => exact refundTouches (.inl ⟨job,task,rfl⟩) h
  | marking job task => exact refundTouches (.inr (.inl ⟨job,task,rfl⟩)) h
  | restoring task => exact refundTouches (.inr (.inr ⟨task,rfl⟩)) h
  | recording =>
    cases h
    exact .inl ⟨rfl,by rw [updateQuotaStatus]⟩
  | settling | adjusting => cases idle
  | done => cases h

theorem touchTaken (free : Free q s) (keeps : Keeps s s') (touches : Touches q s s' w) :
    busy w = false ∧ Free q s' ∨ busy w = true ∧ Own q s' w := by
  rcases touches with ⟨idle,same⟩ | ⟨open',success,_,_,rfl,copy⟩
  · refine .inl ⟨idle,?_⟩
    cases free with
    | before status none unadjusted clean =>
      exact .before (fun wrong => status (same.mp wrong)) (keeps.settlements.trans none)
        (keeps.adjusted.trans unadjusted) (keeps.refused.trans clean)
    | after status computed once net =>
      exact .after (same.mpr status) computed (keeps.settlements.trans once)
        (fun clean => keeps.adjusted.trans (net (keeps.refused.symm.trans clean)))
  · cases free with
    | before _ none unadjusted clean =>
      exact .inr ⟨rfl,.settling copy success (keeps.settlements.trans none) (keeps.adjusted.trans unadjusted)
        (keeps.refused.trans clean)⟩
    | after status => exact absurd status open'

theorem touchLeft (own : Own q s r) (keeps : Keeps s s') (touches : Touches q s s' w) :
    busy w = false ∧ Own q s' r := by
  have success : s.row.status = .success := by cases own <;> assumption
  rcases touches with ⟨idle,same⟩ | ⟨open',_⟩
  · refine ⟨idle,?_⟩
    cases own with
    | settling copy _ none unadjusted clean =>
      exact .settling copy (same.mpr success) (keeps.settlements.trans none) (keeps.adjusted.trans unadjusted)
        (keeps.refused.trans clean)
    | adjusting copy _ once unadjusted clean =>
      exact .adjusting copy (same.mpr success) (keeps.settlements.trans once) (keeps.adjusted.trans unadjusted)
        (keeps.refused.trans clean)
  · exact absurd success open'

theorem ownKept (own : Own q s p) (h : act cfg s p env = some (s',w)) :
    busy w = false ∧ Free q s' ∨ busy w = true ∧ Own q s' w := by
  cases own with
  | settling copy status none unadjusted clean =>
    obtain ⟨actual,rfl,⟨same,rfl⟩ | ⟨quota,rfl,rfl⟩⟩ := settlingCases h
    · refine .inl ⟨rfl,.after status actual (by simp [none]) (fun _ => ?_)⟩
      cases actual with
      | none =>
        show s.adjusted = q - q
        omega
      | some quota =>
        have unmoved := same quota rfl
        show s.adjusted = quota - q
        omega
    · exact .inr ⟨rfl,.adjusting copy status (by simp [none]) unadjusted clean⟩
  | @adjusting task actual copy status once unadjusted clean =>
    rcases adjustingCases h with ⟨_,_,rfl,rfl⟩ | ⟨_,_,rfl,rfl⟩
    · refine .inl ⟨rfl,.after status (some actual) once (fun _ => ?_)⟩
      show s.adjusted + (actual - task.quota) = actual - q
      omega
    · exact .inl ⟨rfl,.after status (some actual) once (fun wrong => by cases wrong)⟩

structure Inv (q : Int) (s : State) : Prop where
  sound : Sound q s
  owned : Owned busy (Free q) (Own q) s
  credit : s.shared.credited ≠ 0 → s.shared.row.status = .failure

theorem creditSame (other : ∀ job task, p ≠ .refunding job task)
    (h : act cfg s p env = some (s',w)) : s'.credited = s.credited := by
  cases p with
  | refunding job task => exact absurd rfl (other job task)
  | ready | marking | restoring | recording => cases h; rfl
  | hold job =>
    cases job with
    | reconcile =>
      obtain ⟨rfl,_⟩ := claimingCases h
      rfl
    | bulk => cases h; rfl
    | video | suno | timeout | fetch =>
      obtain ⟨_,persisted,rfl⟩ := actHold rfl h
      rcases persistCases persisted with ⟨rfl,_⟩ | ⟨_,_,_,rfl,_⟩ <;> rfl
  | settling =>
    obtain ⟨_,rfl,_⟩ := settlingCases h
    rfl
  | adjusting => rcases adjustingCases h with ⟨_,_,rfl,_⟩ | ⟨_,_,rfl,_⟩ <;> rfl
  | done => cases h

theorem creditNext (credit : s.credited ≠ 0 → s.row.status = .failure) (copy : Copy q s p)
    (steady : breaks s p env = false) (h : act cfg s p env = some (s',w)) :
    s'.credited ≠ 0 → s'.row.status = .failure := by
  have kept : s.row.status = .failure → s'.row.status = .failure :=
    fun failed => ((actSteady h (by rw [failed]; rfl)).mpr steady).trans failed
  intro paid
  by_cases refunds : ∃ job task, p = .refunding job task
  · obtain ⟨job,task,rfl⟩ := refunds
    exact kept copy.1
  · rw [creditSame (fun job task same => refunds ⟨job,task,same⟩) h] at paid
    exact kept (credit paid)

theorem invKept (inv : Inv q s) (allowed : Allowed s move) (h : step cfg s move = some n) :
    Inv q n := by
  simp only [Allowed,Bool.and_eq_true] at allowed
  have sound := soundKept inv.sound allowed.1 h
  cases move with
  | start p =>
    obtain ⟨begun,rfl⟩ := stepStart h
    cases p with
    | ready => exact ⟨sound,startOwned inv.owned rfl,inv.credit⟩
    | _ => cases begun
  | act =>
    obtain ⟨p,_,w,found,moved,rfl⟩ := stepAct h
    simp only [stepCareful,found,Bool.not_eq_true'] at allowed
    obtain ⟨cares,told⟩ := allowed
    have copy := inv.sound.copies p (mem_of_getElem? found)
    refine ⟨sound,?_,creditNext inv.credit copy (carefulSteady cares) moved⟩
    refine actOwned inv.owned found ?_ ?_ ?_
    · exact fun free idle => touchTaken free (idleKeeps idle moved) (idleTouches idle copy cares told moved)
    · exact fun r _ own _ idle => touchLeft own (idleKeeps idle moved) (idleTouches idle copy cares told moved)
    · exact fun own _ => ownKept own moved

def netCharge (q : Int) (s : Board) : Int := q + s.adjusted - s.credited

def SettledOnce (s : State) : Prop :=
  s.shared.settlements.length = 1 ∧ (∀ task info, Worker.settling task info ∉ s.procs) ∨
  s.shared.settlements = [] ∧ ∃ (i : Nat) (task : Task) (info : TaskInfo), s.procs[i]? = some (Worker.settling task info) ∧
    ∀ (j : Nat) task' info', s.procs[j]? = some (Worker.settling task' info') → j = i

theorem ownedSettled (owned : Owned busy (Free q) (Own q) s) (success : s.shared.row.status = .success) :
    SettledOnce s := by
  cases owned with
  | free idle free =>
    cases free with
    | before status => exact absurd success status
    | after _ _ once =>
      refine .inl ⟨by rw [once]; rfl,fun task info member => ?_⟩
      have wrong := idle _ member
      cases wrong
  | held i p found _ alone own =>
    cases own with
    | @settling task info _ _ none _ _ =>
      exact .inr ⟨none,i,task,info,found,fun j task' _ at' => alone j _ at' rfl⟩
    | @adjusting task actual _ _ once _ _ =>
      refine .inl ⟨by rw [once]; rfl,fun task' info member => ?_⟩
      obtain ⟨j,at'⟩ := mem_iff_getElem?.mp member
      have same := alone j _ at' rfl
      rw [same,found] at at'
      cases at'

theorem successSettledOnce {cfg row world moves out} (live : ¬terminal row.status)
    (allowed : Along (step cfg) (fun s m => Allowed s m) (start row world) moves)
    (h : run (step cfg) (start row world) moves = some out) :
    (out.shared.row.status = .success → SettledOnce out) ∧
    (out.shared.row.status = .success → (∀ p ∈ out.procs, busy p = false) → out.shared.refused = false →
      ∃ computed, out.shared.settlements = [computed] ∧ netCharge row.quota out.shared = computed.getD row.quota) ∧
    (taskIsSubscription row = false →
      world.wallet - out.shared.world.wallet = netCharge row.quota out.shared - row.quota) := by
  have first : Inv row.quota (start row world) := by
    have status : row.status ≠ .success := fun same => live (by rw [same]; rfl)
    exact ⟨soundStart,.free (fun p member => by cases member) (.before status rfl rfl rfl),fun paid => absurd rfl paid⟩
  have inv : Inv row.quota out := runInvariant (fun _ _ _ => invKept) first allowed h
  refine ⟨ownedSettled inv.owned,?_,?_⟩
  · intro success idle clean
    have unpaid : out.shared.credited = 0 := by
      by_contra paid
      have failed := inv.credit paid
      rw [success] at failed
      cases failed
    cases inv.owned with
    | free _ free =>
      cases free with
      | before status => exact absurd success status
      | after _ computed once net =>
        refine ⟨computed,once,?_⟩
        have adjusted := net clean
        unfold netCharge
        omega
    | held i p found works =>
      rw [idle p (mem_of_getElem? found)] at works
      cases works
  · intro own
    have follows := walletFollows h own
    unfold netCharge
    omega

def dearer : Config := {plainConfig with adjustBillingOnComplete := fun _ _ => 130}

def pollAndSettle : List (Move Worker Env) :=
  [.start (.ready .video),.act 0 (said 10 .success),.act 0 (said 20 .success),.act 0 (said 20 .success),
   .act 0 (said 20 .success),.act 0 (said 20 .success)]

theorem successSettledByPoller :
    ∃ out, run (step dearer) (start plainRow plainWorld) pollAndSettle = some out ∧
      out.shared.row.status = .success ∧ SettledOnce out ∧ netCharge 100 out.shared = 130 ∧
      out.shared.world.wallet = 970 := by
  have runs : (run (step dearer) (start plainRow plainWorld) pollAndSettle).map (fun out =>
      (out.shared.row.status,out.shared.refused || out.procs.any busy,out.shared.settlements,
        out.shared.world.wallet)) = some (.success,false,[some 130],970) := by decide +kernel
  obtain ⟨out,h,facts⟩ := Option.map_eq_some_iff.mp runs
  simp only [Prod.mk.injEq,Bool.or_eq_false_iff,any_eq_false,Bool.not_eq_true] at facts
  obtain ⟨success,⟨clean,idle⟩,settled,wallet⟩ := facts
  have checked : checkAlong (step dearer) Allowed (start plainRow plainWorld) pollAndSettle := by decide +kernel
  obtain ⟨once,net,_⟩ := successSettledOnce (by decide) (alongChecked checked) h
  obtain ⟨_,alone,charge⟩ := net success idle clean
  rw [settled] at alone
  cases alone
  exact ⟨out,h,success,once success,charge,wallet⟩

def fetchBeforePoll : List (Move Worker Env) :=
  [.start (.ready .fetch),.act 0 (said 10 .success),.act 0 (said 20 .success),
   .start (.ready .video),.act 1 (said 30 .success)]

theorem fetchedSuccessNeverSettled :
    ∃ out, run (step dearer) (start plainRow plainWorld) fetchBeforePoll = some out ∧
      out.shared.row.status = .success ∧ out.procs = [.done,.done] ∧ out.shared.settlements = [] ∧
      netCharge 100 out.shared = 100 := by decide +kernel

end Omnigate.TaskSettlement
