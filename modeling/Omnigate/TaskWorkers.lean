import Omnigate.Pool
import Omnigate.TaskPolling

/-! Everybody who may touch one task row, on any number of nodes. A worker loads the row into a copy and acts on it;
only its single statements are atomic, and a worker not scheduled again has stopped. A poller keeps its copy after an
answer and may be handed another one for it: upstream may name a task twice, and two rows may share an upstream id. -/
namespace Omnigate.TaskWorkers

open Accounts Machine Pool TaskBilling TaskPolling TaskRow Option

inductive Job where
  | video | suno | timeout | reconcile | fetch
  | bulk (failReason : Option String)
  deriving DecidableEq, Repr

inductive Worker where
  | ready (job : Job)
  | hold (job : Job) (task : Task)
  | refunding (job : Job) (task : Task)
  | marking (job : Job) (task : Task)
  | restoring (task : Task)
  | settling (task : Task) (taskResult : TaskInfo)
  | adjusting (task : Task) (actualQuota : Int)
  | recording (task : Task)
  | done
  deriving DecidableEq

/- The row with the accounts and its history: refunds accepted by the funding source, settlements with the quota each
computed, differences accepted, whether one was refused, and whether the legacy timeout closed it. -/
structure Board where
  row : Task
  world : World
  credited : Int
  settlements : List (Option Int)
  adjusted : Int
  (refused legacyTimeout : Bool)
  deriving DecidableEq

structure Config where
  site : Site
  adjustBillingOnComplete : Task → TaskInfo → Int
  pricing : Pricing

structure Env where
  stmt : Statement
  answer : Answer
  item : SunoItem
  funds : Funds

def refundReconciliationGracePeriod : Int := 30

def eligible (cfg : Config) (now : Int) (row : Task) : Job → Bool
  | .video | .suno | .bulk _ => unFinishSync row
  | .timeout => 0 < cfg.site.taskTimeoutMinutes ∧ timedOutUnfinished (now - cfg.site.taskTimeoutMinutes * 60) row
  | .reconcile => unrefundedFailed (now - refundReconciliationGracePeriod) row
  | .fetch => true

def rest (job : Job) (task : Task) : Worker :=
  match job with
  | .video | .suno => .hold job task
  | _ => .done

def reportOf : Answer → TaskInfo
  | .unreadable => ⟨none,"","","",0⟩
  | .parsed taskResult _ errorBody => (resolveStatus taskResult errorBody).getD taskResult

def bill (job : Job) (outcome : Outcome) (taskResult : TaskInfo) : Worker :=
  if outcome.settle then .settling outcome.task taskResult
  else if outcome.refund then .refunding job outcome.task
  else rest job outcome.task

def persist (job : Job) (loaded : TaskStatus) (outcome : Outcome) (env : Env) (s : Board) : Board × Worker :=
  match outcome.write with
  | .skip => (s,bill job outcome (reportOf env.answer))
  | .plain => match updateWithStatus env.stmt loaded outcome.task s.row with
    | (_,row) => ({s with row := row},bill job outcome (reportOf env.answer))
  | .guarded => match updateWithStatus env.stmt loaded outcome.task s.row with
    | (.ok true,row) => ({s with row := row},bill job outcome (reportOf env.answer))
    | (_,row) => ({s with row := row},rest job outcome.task)

def answered (cfg : Config) (job : Job) (env : Env) (task : Task) : Outcome :=
  match job with
  | .video => updateVideoSingleTask cfg.site env.stmt.now env.answer task
  | .suno => updateSunoTask env.item task
  | .timeout => timeOut cfg.site env.stmt.now task
  | .fetch => tryRealtimeFetch cfg.site env.answer task
  | _ => untouched task

def closes (job : Job) (task : Task) (env : Env) (s : Board) : Bool :=
  job = .timeout ∧ isLegacy task ∧ s.row.status = task.status ∧ env.stmt.fault = none

def act (cfg : Config) (s : Board) (worker : Worker) (env : Env) : Option (Board × Worker) :=
  match worker with
  | .ready job =>
    some (s,if env.stmt.fault = none ∧ eligible cfg env.stmt.now s.row job then .hold job s.row else .done)
  | .hold .reconcile task => match claimQuotaForRefund env.stmt task.quota s.row with
    | (.ok true,row) => some ({s with row := row},.refunding .reconcile task)
    | (_,row) => some ({s with row := row},.done)
  | .hold (.bulk failReason) _ =>
    some ({s with row := (taskBulkUpdateByID env.stmt failReason s.row).2},.done)
  | .hold job task =>
    let outcome := answered cfg job env task
    let (next,worker) := persist job task.status outcome env s
    some ({next with legacyTimeout := s.legacyTimeout ∨ closes job task env s},worker)
  | .refunding job task =>
    if task.quota = 0 then some (s,rest job task)
    else match adjustTask task (-task.quota) env.funds s.world with
      | (true,world) =>
        some ({s with world := world, credited := s.credited + task.quota},.marking job {task with quota := 0})
      | (false,world) =>
        some ({s with world := world},if job = .reconcile then .restoring task else rest job task)
  | .marking job task => some ({s with row := (updateQuota env.stmt task s.row).2},rest job task)
  | .restoring task =>
    some ({s with row := (restoreQuotaAfterFailedRefund env.stmt task.quota s.row).2},.done)
  | .settling task taskResult =>
    let actual := settleTaskBillingOnComplete cfg.adjustBillingOnComplete cfg.pricing task taskResult
    let ran := {s with settlements := s.settlements ++ [actual]}
    match actual with
    | none => some (ran,.hold .video task)
    | some actualQuota =>
      if actualQuota - task.quota = 0 then some (ran,.hold .video task)
      else some (ran,.adjusting task actualQuota)
  | .adjusting task actualQuota =>
    match adjustTask task (actualQuota - task.quota) env.funds s.world with
    | (true,world) =>
      some ({s with world := world, adjusted := s.adjusted + (actualQuota - task.quota)},
        .recording {task with quota := actualQuota})
    | (false,world) => some ({s with world := world, refused := true},.hold .video task)
  | .recording task => some ({s with row := (updateQuota env.stmt task s.row).2},.hold .video task)
  | .done => none

def begins : Worker → Bool
  | .ready _ => true
  | _ => false

abbrev State := Pool.State Board Worker

def step (cfg : Config) : State → Move Worker Env → Option State := Pool.step begins (act cfg)

def start (row : Task) (world : World) : State := ⟨⟨row,world,0,[],0,false,false⟩,[]⟩

def Job.writes : Job → Bool
  | .video | .suno | .timeout | .fetch => true
  | _ => false

def polled : TaskStatus → Bool
  | .submitted | .queued | .inProgress | .success | .failure => true
  | _ => false

def reported (job : Job) (env : Env) (task : Task) : Option TaskStatus :=
  match job with
  | .video => match env.answer with
    | .unreadable => none
    | .parsed taskResult _ errorBody =>
      (resolveStatus taskResult errorBody).bind (fun r => r.status.filter polled)
  | .suno =>
    if ¬taskNeedsUpdate task env.item then none
    else if env.item.failReason ≠ "" then some .failure
    else env.item.status
  | .timeout => some .failure
  | .fetch => match env.answer with
    | .unreadable => none
    | .parsed taskResult _ _ => taskResult.status
  | _ => none

structure Fits (job : Job) (task : Task) (report : Option TaskStatus) (o : Outcome) : Prop where
  written : o.write ≠ .skip → o.task.status = report.getD task.status
  differs : ∀ st, report = some st → st ≠ task.status → o.write ≠ .skip
  quota : o.task.quota = task.quota ∨ job = .timeout ∧ isLegacy task ∧ o.task.quota = 0
  refunds : ¬terminal task.status → o.refund → o.write = .guarded ∧ o.task.status = .failure ∧ o.task.quota = task.quota
  failed : ¬terminal task.status → job ≠ .fetch → o.write ≠ .skip → o.task.status = .failure →
    o.refund ∨ o.task.quota = 0
  settles : ¬terminal task.status → o.settle → job = .video ∧ o.write = .guarded ∧ o.task.status = .success
  succeeded : job = .video → o.write ≠ .skip → o.task.status = .success → o.settle

theorem untouchedFits (quota : task'.quota = task.quota)
    (same : ∀ st, report = some st → st = task.status) : Fits job task report (untouched task') where
  written skip := absurd rfl skip
  differs st reports moved := absurd (same st reports) moved
  quota := .inl quota
  refunds _ wrong := by cases wrong
  failed _ _ skip := absurd rfl skip
  settles _ wrong := by cases wrong
  succeeded _ skip := absurd rfl skip

theorem applyStatusFields (h : applyStatus site now info task = some updated) :
    (∃ st, info.status = some st ∧ polled st) ∧ updated.status = task.status ∧ updated.quota = task.quota := by
  unfold applyStatus at h
  split at h
  case h_6 => cases h
  all_goals
    rename_i reports
    cases h
    exact ⟨⟨_,reports,rfl⟩,rfl,rfl⟩

theorem applyStatusNone (h : applyStatus site now info task = none) :
    info.status.filter polled = none := by
  unfold applyStatus at h
  cases known : info.status with
  | none => rfl
  | some st =>
    cases st <;> simp_all [polled]

theorem reportedProgressFields (info task) :
    (reportedProgress info task).status = task.status ∧ (reportedProgress info task).quota = task.quota := by
  unfold reportedProgress
  split
  · exact ⟨rfl,rfl⟩
  · split <;> exact ⟨rfl,rfl⟩

theorem videoFits (cfg : Config) (env : Env) (task) :
    Fits .video task (reported .video env task)
      (updateVideoSingleTask cfg.site env.stmt.now env.answer task) := by
  unfold updateVideoSingleTask
  cases hanswer : env.answer with
  | unreadable => exact untouchedFits rfl (by simp [reported,hanswer])
  | parsed info data errorBody =>
    dsimp only
    cases resolved : resolveStatus info errorBody with
    | none => exact untouchedFits rfl (by simp [reported,hanswer,resolved])
    | some result =>
      dsimp only
      cases applied : applyStatus cfg.site env.stmt.now result
        {task with data := data, status := statusOf result} with
      | none =>
        have unknown := applyStatusNone applied
        exact untouchedFits rfl (by simp [reported,hanswer,resolved,unknown])
      | some updated =>
        obtain ⟨⟨st,reports,known⟩,status,quota⟩ := applyStatusFields applied
        obtain ⟨status',quota'⟩ := reportedProgressFields result updated
        have report : reported .video env task = some st := by simp [reported,hanswer,resolved,reports,known]
        have becomes : (reportedProgress result updated).status = st := by
          rw [status',status]
          simp [statusOf,reports]
        have keeps : (reportedProgress result updated).quota = task.quota := by rw [quota',quota]
        rw [report]
        dsimp only
        generalize reportedProgress result updated = final at becomes keeps
        have ends : ∀ {last}, ¬terminal task.status → terminal last → final.status = last →
            terminal final.status ∧ task.status ≠ final.status := by
          intro last fresh finished same
          rw [same]
          exact ⟨finished,fun eq => fresh (by rw [eq]; exact finished)⟩
        refine ⟨fun _ => becomes,?_,.inl keeps,?_,?_,?_,?_⟩
        · intro _ same moved
          cases same
          have differ : snapshot task ≠ snapshot final := by
            intro eq
            exact moved (becomes.symm.trans (congrArg TaskSnapshot.status eq).symm)
          split <;> simp
        · intro fresh refund
          simp only [decide_eq_true_eq] at refund
          exact ⟨if_pos (ends fresh (by decide) refund.1),refund.1,keeps⟩
        · intro fresh _ _ failure
          by_cases none : task.quota = 0
          · exact .inr (by rw [keeps,none])
          · exact .inl (decide_eq_true ⟨failure,none⟩)
        · intro fresh settle
          simp only [decide_eq_true_eq] at settle
          exact ⟨rfl,if_pos (ends fresh (by decide) settle),settle⟩
        · intro _ _ success
          exact decide_eq_true success

theorem sunoFits (env task) :
    Fits .suno task (reported .suno env task) (updateSunoTask env.item task) := by
  by_cases idle : ¬taskNeedsUpdate task env.item
  · rw [updateSunoTask,if_pos idle]
    exact untouchedFits rfl (by simp [reported,idle])
  have report : reported .suno env task =
      if env.item.failReason ≠ "" then some .failure else env.item.status := by
    simp only [reported,if_neg idle]
  rw [report,updateSunoTask,if_neg idle]
  dsimp only
  refine ⟨fun _ => ?_,fun _ _ _ => by simp,.inl rfl,?_,?_,?_,?_⟩
  · by_cases failed : env.item.failReason ≠ ""
    · simp [failed]
    simp only [failed,false_or,if_false]
    split
    · rename_i failure
      exact failure.symm
    · rfl
  · intro _ refund
    simp only [decide_eq_true_eq] at refund
    exact ⟨rfl,by simp [refund.1],rfl⟩
  · intro fresh _ _ failure
    by_cases none : task.quota = 0
    · exact .inr none
    have unfailed : task.status ≠ .failure := fun eq => fresh (by rw [eq]; decide)
    have isFailure : env.item.failReason ≠ "" ∨ env.item.status.getD task.status = .failure := by
      by_contra neither
      rw [if_neg neither] at failure
      exact neither (.inr failure)
    exact .inl (by simp [isFailure,unfailed,none])
  · intro _ settle
    cases settle
  · intro wrong
    cases wrong

theorem timeOutFits (cfg : Config) (env : Env) (task) :
    Fits .timeout task (reported .timeout env task) (timeOut cfg.site env.stmt.now task) := by
  unfold timeOut reported
  dsimp only
  split
  · rename_i legacy
    exact ⟨fun _ => rfl,fun _ _ _ => by simp,.inr ⟨rfl,legacy,rfl⟩,fun _ wrong => (by cases wrong),
      fun _ _ _ _ => .inr rfl,fun _ wrong => (by cases wrong),fun wrong => (by cases wrong)⟩
  refine ⟨fun _ => rfl,fun _ _ _ => by simp,.inl rfl,fun _ _ => ⟨rfl,rfl,rfl⟩,?_,fun _ wrong => (by cases wrong),
    fun wrong => (by cases wrong)⟩
  intro _ _ _ _
  by_cases none : task.quota = 0
  · exact .inr none
  · exact .inl (by simp [none])

theorem skipped {p : Prop} [Decidable p] (h : (if p then Write.skip else Write.plain) = .skip) : p := by
  by_contra no
  simp [no] at h

theorem fetchFits (cfg : Config) (env : Env) (task) :
    Fits .fetch task (reported .fetch env task) (tryRealtimeFetch cfg.site env.answer task) := by
  unfold tryRealtimeFetch reported
  cases env.answer with
  | unreadable => exact untouchedFits rfl (by simp)
  | parsed info =>
    dsimp only
    refine ⟨fun _ => rfl,?_,.inl rfl,fun _ wrong => (by cases wrong),fun _ wrong => absurd rfl wrong,
      fun _ wrong => (by cases wrong),fun wrong => (by cases wrong)⟩
    intro _ reports moved skip
    have kept : task.status = info.status.getD task.status := congrArg TaskSnapshot.status (skipped skip)
    rw [reports] at kept
    exact moved kept.symm

theorem answeredFits (cfg) (env task) (writes : job.writes) :
    Fits job task (reported job env task) (answered cfg job env task) := by
  cases job with
  | video => exact videoFits cfg env task
  | suno => exact sunoFits env task
  | timeout => exact timeOutFits cfg env task
  | fetch => exact fetchFits cfg env task
  | reconcile | bulk => cases writes

theorem persistCases (h : persist job loaded outcome env s = (s',w)) :
    (s' = s ∧ ¬(outcome.write ≠ .skip ∧ env.stmt.fault = none ∧ s.row.status = loaded) ∧
      (outcome.write ≠ .guarded ∧ w = bill job outcome (reportOf env.answer) ∨ w = rest job outcome.task)) ∨
    (outcome.write ≠ .skip ∧ env.stmt.fault = none ∧ s.row.status = loaded ∧
      s' = {s with row := {outcome.task with updatedAt := env.stmt.now}} ∧
      (w = bill job outcome (reportOf env.answer) ∨ outcome.task.status = loaded ∧ w = rest job outcome.task)) := by
  unfold persist at h
  split at h
  · rename_i skip
    cases h
    exact .inl ⟨rfl,fun write => write.1 skip,.inl ⟨by simp [skip],rfl⟩⟩
  · rename_i plain
    rcases wrote : updateWithStatus env.stmt loaded outcome.task s.row with ⟨r,row⟩
    rw [wrote] at h
    cases h
    rcases updateWithStatusCases wrote with ⟨rfl,_,refused⟩ | ⟨clear,same,rfl,_⟩
    · exact .inl ⟨rfl,fun write => refused write.2,.inl ⟨by simp [plain],rfl⟩⟩
    · exact .inr ⟨by simp [plain],clear,same,rfl,.inl rfl⟩
  rename_i guarded
  rcases wrote : updateWithStatus env.stmt loaded outcome.task s.row with ⟨r,row⟩
  rw [wrote] at h
  have wroteCases := updateWithStatusCases wrote
  split at h
  · rename_i won
    cases h
    cases won
    rcases wroteCases with ⟨_,lost,_⟩ | ⟨clear,same,rfl,_⟩
    · exact absurd rfl lost
    · exact .inr ⟨by simp [guarded],clear,same,rfl,.inl rfl⟩
  rename_i _ _ lost reported
  cases reported
  cases h
  rcases wroteCases with ⟨rfl,_,refused⟩ | ⟨clear,same,rfl,wins⟩
  · exact .inl ⟨rfl,fun write => refused write.2,.inr rfl⟩
  have kept : outcome.task.status = loaded := by
    by_contra moved
    exact lost (wins moved)
  exact .inr ⟨by simp [guarded],clear,same,rfl,.inr ⟨kept,rfl⟩⟩

theorem actHold (writes : job.writes) (h : act cfg s (.hold job task) env = some (s',w)) :
    ∃ next, persist job task.status (answered cfg job env task) env s = (next,w) ∧
      s' = {next with legacyTimeout := s.legacyTimeout ∨ closes job task env s} := by
  cases job with
  | reconcile | bulk => cases writes
  | video | suno | timeout | fetch =>
    simp only [act,Option.some.injEq,Prod.mk.injEq] at h
    obtain ⟨moved,same⟩ := h
    exact ⟨_,Prod.ext rfl same,moved.symm⟩

theorem claimingCases (h : act cfg s (.hold .reconcile task) env = some (s',w)) :
    s' = {s with row := (claimQuotaForRefund env.stmt task.quota s.row).2} ∧
      (w = .refunding .reconcile task ∨ w = .done) := by
  unfold act at h
  dsimp only at h
  split at h
  all_goals
    rename_i claimed
    cases h
    rw [claimed]
  · exact ⟨rfl,.inl rfl⟩
  · exact ⟨rfl,.inr rfl⟩

theorem refundingCases (h : act cfg s (.refunding job task) env = some (s',w)) :
    (task.quota = 0 ∧ s' = s ∧ w = rest job task) ∨
    (∃ world, adjustTask task (-task.quota) env.funds s.world = (true,world) ∧
      s' = {s with world := world, credited := s.credited + task.quota} ∧
      w = .marking job {task with quota := 0}) ∨
    (∃ world, adjustTask task (-task.quota) env.funds s.world = (false,world) ∧ s' = {s with world := world} ∧
      w = if job = .reconcile then .restoring task else rest job task) := by
  unfold act at h
  dsimp only at h
  split at h
  · rename_i zero
    cases h
    exact .inl ⟨zero,rfl,rfl⟩
  split at h
  all_goals
    rename_i world adjusted
    cases h
  · exact .inr (.inl ⟨world,adjusted,rfl,rfl⟩)
  · exact .inr (.inr ⟨world,adjusted,rfl,rfl⟩)

theorem settlingCases (h : act cfg s (.settling task info) env = some (s',w)) :
    ∃ actual, s' = {s with settlements := s.settlements ++ [actual]} ∧
      ((∀ quota, actual = some quota → quota = task.quota) ∧ w = .hold .video task ∨
        ∃ quota, actual = some quota ∧ w = .adjusting task quota) := by
  unfold act at h
  dsimp only at h
  refine ⟨settleTaskBillingOnComplete cfg.adjustBillingOnComplete cfg.pricing task info,?_⟩
  split at h
  · rename_i computed
    cases h
    exact ⟨rfl,.inl ⟨fun quota same => (nomatch computed.symm.trans same),rfl⟩⟩
  rename_i actual computed
  split at h
  all_goals
    cases h
  · refine ⟨rfl,.inl ⟨fun quota same => ?_,rfl⟩⟩
    cases computed.symm.trans same
    omega
  · exact ⟨rfl,.inr ⟨actual,computed,rfl⟩⟩

theorem adjustingCases (h : act cfg s (.adjusting task actual) env = some (s',w)) :
    (∃ world, adjustTask task (actual - task.quota) env.funds s.world = (true,world) ∧
      s' = {s with world := world, adjusted := s.adjusted + (actual - task.quota)} ∧
      w = .recording {task with quota := actual}) ∨
    (∃ world, adjustTask task (actual - task.quota) env.funds s.world = (false,world) ∧
      s' = {s with world := world, refused := true} ∧ w = .hold .video task) := by
  unfold act at h
  dsimp only at h
  split at h
  all_goals
    rename_i world adjusted
    cases h
  · exact .inl ⟨world,adjusted,rfl,rfl⟩
  · exact .inr ⟨world,adjusted,rfl,rfl⟩

end Omnigate.TaskWorkers
