import Omnigate.TaskWorkers

/-! When a finished task stays as it is. A guarded write protects a terminal row only from writers whose copy is
older; a writer with a terminal copy, and the unguarded bulk update, can still move it. -/
namespace Omnigate.TaskTerminal

open Accounts Machine TaskBilling TaskPolling TaskRow TaskWorkers List Option
open Pool hiding step State

theorem updateQuotaStatus (stmt task row) : (updateQuota stmt task row).2.status = row.status := by
  unfold updateQuota
  split <;> rfl

theorem replaceQuotaStatus (stmt expected quota row) :
    (replaceQuota stmt expected quota row).2.status = row.status := by
  unfold replaceQuota
  split
  · rfl
  · split <;> rfl

theorem claimStatus (stmt quota row) :
    (claimQuotaForRefund stmt quota row).2.status = row.status := by
  unfold claimQuotaForRefund
  split
  · rfl
  · exact replaceQuotaStatus stmt quota 0 row

theorem restoreStatus (stmt quota row) :
    (restoreQuotaAfterFailedRefund stmt quota row).2.status = row.status := by
  unfold restoreQuotaAfterFailedRefund
  split
  · rfl
  · exact replaceQuotaStatus stmt 0 quota row

/- A step that moves a finished row: the bulk update of a task that has succeeded, or a write by a worker whose copy
has the stored terminal status while the answer has another. -/
def breaks (s : Board) (worker : Worker) (env : Env) : Bool :=
  match worker with
  | .hold (.bulk _) _ => env.stmt.fault = none ∧ s.row.status = .success
  | .hold job task =>
    job.writes ∧ env.stmt.fault = none ∧ terminal s.row.status ∧ task.status = s.row.status ∧
      (reported job env task).getD task.status ≠ task.status
  | _ => false

theorem actElsewhere (idle : ∀ job task, p ≠ .hold job task)
    (h : act cfg s p env = some (s',w)) : s'.row.status = s.row.status := by
  cases p with
  | hold job task => exact absurd rfl (idle job task)
  | ready => cases h; rfl
  | refunding => rcases refundingCases h with ⟨_,rfl,_⟩ | ⟨_,_,rfl,_⟩ | ⟨_,_,rfl,_⟩ <;> rfl
  | marking | recording => cases h; exact updateQuotaStatus _ _ _
  | restoring => cases h; exact restoreStatus _ _ _
  | settling =>
    obtain ⟨_,rfl,_⟩ := settlingCases h
    rfl
  | adjusting => rcases adjustingCases h with ⟨_,_,rfl,_⟩ | ⟨_,_,rfl,_⟩ <;> rfl
  | done => cases h

theorem actReconcile (h : act cfg s (.hold .reconcile task) env = some (s',w)) :
    s'.row.status = s.row.status := by
  obtain ⟨rfl,_⟩ := claimingCases h
  exact claimStatus env.stmt task.quota s.row

theorem actWrites (writes : job.writes) (finished : terminal s.row.status)
    (h : act cfg s (.hold job task) env = some (s',w)) :
    s'.row.status = s.row.status ↔ ¬(env.stmt.fault = none ∧ task.status = s.row.status ∧
        (reported job env task).getD task.status ≠ task.status) := by
  have fits := answeredFits cfg env task writes
  obtain ⟨_,persisted,rfl⟩ := actHold writes h
  rcases persistCases persisted with ⟨rfl,unwritten,_⟩ | ⟨write,clear,same,rfl,_⟩
  · refine ⟨fun _ moves => ?_,fun _ => rfl⟩
    obtain ⟨clear,same,differs⟩ := moves
    cases report : reported job env task with
    | none => exact differs (by rw [report]; rfl)
    | some st =>
      rw [report] at differs
      exact unwritten ⟨fits.differs st report differs,clear,same.symm⟩
  · rw [fits.written write,same]
    simp [clear]

theorem actSteady (h : act cfg s p env = some (s',w)) (finished : terminal s.row.status) :
    s'.row.status = s.row.status ↔ breaks s p env = false := by
  by_cases holds : ∃ job task, p = .hold job task
  · obtain ⟨job,task,rfl⟩ := holds
    cases job with
    | reconcile => simp [breaks,Job.writes,actReconcile h]
    | bulk =>
      cases h
      unfold taskBulkUpdateByID breaks
      cases env.stmt.fault with
      | some => simp
      | none =>
        have ends : s.row.status = .success ∨ s.row.status = .failure := by simpa [terminal] using finished
        rcases ends with ends | ends <;> simp [ends]
    | video | suno | timeout | fetch =>
      rw [actWrites rfl finished h]
      simp [breaks,Job.writes,finished]
  · have idle : ∀ job task, p ≠ .hold job task := fun job task eq => holds ⟨job,task,eq⟩
    have quiet : breaks s p env = false := by
      unfold breaks
      split
      · exact absurd rfl (idle _ _)
      · exact absurd rfl (idle _ _)
      · rfl
    simp [actElsewhere idle h,quiet]

def stepBreaks (s : State) : Move Worker Env → Bool
  | .start _ => false
  | .act i env => match s.procs[i]? with
    | some worker => breaks s.shared worker env
    | none => false

theorem stepSteady (h : step cfg s move = some n) (finished : terminal s.shared.row.status) :
    n.shared.row.status = s.shared.row.status ↔ stepBreaks s move = false := by
  cases move with
  | start =>
    obtain ⟨_,rfl⟩ := stepStart h
    simp [stepBreaks]
  | act =>
    obtain ⟨p,_,q,found,moved,rfl⟩ := stepAct h
    simp only [stepBreaks,found]
    exact actSteady moved finished

def reconciling : Worker → Bool
  | .hold .reconcile _ | .refunding .reconcile _ | .marking .reconcile _ | .restoring _ => true
  | _ => false

theorem restReconciling (job task) : reconciling (rest job task) = false := by
  cases job <;> rfl

theorem writesReconciling (writes : job.writes)
    (h : act cfg s (.hold job task) env = some (s',w)) : reconciling w = false := by
  have billed : ∀ outcome info, reconciling (bill job outcome info) = false := by
    intro outcome info
    unfold bill
    split
    · rfl
    split
    · cases job <;> first | rfl | cases writes
    · exact restReconciling _ _
  obtain ⟨_,persisted,_⟩ := actHold writes h
  rcases persistCases persisted with ⟨_,_,⟨_,same⟩ | same⟩ | ⟨_,_,_,_,same | ⟨_,same⟩⟩
  all_goals
    rw [same]
    first | exact billed _ _ | exact restReconciling _ _

theorem actReconciling (h : act cfg s p env = some (s',w)) (selected : reconciling w) :
    reconciling p ∨ s.row.status = .failure := by
  cases p with
  | ready job =>
    cases h
    split at selected
    · rename_i loaded
      cases job <;> try cases selected
      simp only [eligible,unrefundedFailed,decide_eq_true_eq] at loaded
      exact .inr loaded.2.1
    · cases selected
  | hold job =>
    cases job with
    | reconcile => exact .inl rfl
    | bulk => cases h; cases selected
    | video | suno | timeout | fetch =>
      rw [writesReconciling rfl h] at selected
      cases selected
  | refunding job task =>
    by_cases sweep : job = .reconcile
    · exact .inl (by rw [sweep]; rfl)
    have mark : ∀ task, reconciling (.marking job task) = false := by
      intro task
      cases job <;> first | rfl | exact absurd rfl sweep
    rcases refundingCases h with ⟨_,_,rfl⟩ | ⟨_,_,_,rfl⟩ | ⟨_,_,_,rfl⟩
    · rw [restReconciling] at selected
      cases selected
    · rw [mark] at selected
      cases selected
    · rw [if_neg sweep,restReconciling] at selected
      cases selected
  | marking =>
    cases h
    rw [restReconciling] at selected
    cases selected
  | restoring => exact .inl rfl
  | settling =>
    obtain ⟨_,_,⟨_,rfl⟩ | ⟨_,_,rfl⟩⟩ := settlingCases h <;> cases selected
  | adjusting => rcases adjustingCases h with ⟨_,_,_,rfl⟩ | ⟨_,_,_,rfl⟩ <;> cases selected
  | recording => cases h; cases selected
  | done => cases h

def Selected (s : State) : Prop := ∀ w ∈ s.procs, reconciling w → s.shared.row.status = .failure

theorem selectedKept (selected : Selected s) (steady : stepBreaks s move = false)
    (h : step cfg s move = some n) : Selected n := by
  have kept : s.shared.row.status = .failure → n.shared.row.status = .failure := by
    intro failed
    rw [(stepSteady h (by rw [failed]; rfl)).mpr steady,failed]
  intro w member reconciles
  cases move with
  | start =>
    obtain ⟨begins,rfl⟩ := stepStart h
    rcases mem_append.mp member with old | new
    · exact selected w old reconciles
    cases mem_singleton.mp new
    cases w with
    | ready => cases reconciles
    | _ => cases begins
  | act =>
    obtain ⟨p,_,q,found,moved,rfl⟩ := stepAct h
    rcases mem_or_eq_of_mem_set member with old | rfl
    · exact kept (selected w old reconciles)
    rcases actReconciling moved reconciles with before | failed
    · exact kept (selected p (mem_of_getElem? found) before)
    · exact kept failed

theorem breaksFinished (h : breaks s worker env) : terminal s.row.status := by
  unfold breaks at h
  split at h
  · simp only [decide_eq_true_eq] at h
    rw [h.2]
    rfl
  · simp only [decide_eq_true_eq] at h
    exact h.2.2.1
  · cases h

theorem stepBreaksFinished (h : stepBreaks s move) : terminal s.shared.row.status := by
  unfold stepBreaks at h
  split at h
  · cases h
  split at h
  · exact breaksFinished h
  · cases h

/- Once a state of the run is terminal its status stays; and a task that has succeeded is in no reconciliation sweep.
-/
def Absorbing (cfg : Config) (first : State) (moves : List (Move Worker Env)) : Prop :=
  ∀ xs ys zs mid later, moves = xs ++ (ys ++ zs) → run (step cfg) first xs = some mid →
    run (step cfg) mid ys = some later → terminal mid.shared.row.status →
    later.shared.row.status = mid.shared.row.status ∧
      (mid.shared.row.status = .success → ∀ w ∈ later.procs, reconciling w = false)

theorem runSteady (steady : Along (step cfg) (fun s m => stepBreaks s m = false) s moves)
    (finished : terminal s.shared.row.status) (h : run (step cfg) s moves = some out) :
    out.shared.row.status = s.shared.row.status := by
  induction moves generalizing s with
  | nil => cases h; rfl
  | cons _ _ ih =>
    obtain ⟨n,moved,later⟩ := runCons h
    have kept := (stepSteady moved finished).mpr steady.1
    rw [ih (steady.2 n moved) (by rw [kept]; exact finished) later,kept]

theorem finishedStaysIff {cfg row world moves out} (h : run (step cfg) (start row world) moves = some out) :
    Absorbing cfg (start row world) moves ↔
      Along (step cfg) (fun s m => stepBreaks s m = false) (start row world) moves := by
  constructor
  · intro absorbing
    refine alongSteps h (fun xs move ys mid n split left moved => ?_)
    by_contra broken
    have finished := stepBreaksFinished (by simpa using broken)
    have one : run (step cfg) mid [move] = some n := by simp [run,moved]
    have stays := (absorbing xs [move] ys mid n split left one finished).1
    exact broken ((stepSteady moved finished).mp stays)
  intro steady xs ys _ mid _ split left right finished
  rw [split] at steady
  obtain ⟨before,after⟩ := alongAppend steady left
  obtain ⟨between,_⟩ := alongAppend after right
  have stays := runSteady between finished right
  refine ⟨stays,fun success w member => ?_⟩
  have none : Selected (start row world) := fun w none => by cases none
  have first := runInvariant (fun _ _ _ => selectedKept) none before left
  have last := runInvariant (fun _ _ _ => selectedKept) first between right
  by_contra reconciles
  have failed := last w member (by simpa using reconciles)
  rw [stays,success] at failed
  cases failed

def plainConfig : Config :=
  ⟨⟨"",60⟩,fun _ _ => 0,⟨fun _ => (0,false),.error "record not found",fun _ => 1,fun _ => none⟩⟩

def plainRow : Task :=
  ⟨0,"task_1","default",100,.inProgress,"",1800000000,0,0,"30%","veo",⟨"",some .wallet,0,0,none⟩,[]⟩

def plainWorld : World := ⟨1000,0,⟨[],[],[],1⟩⟩

def quietItem : SunoItem := ⟨none,"",0,0,0,[]⟩

def said (now : Int) (status : TaskStatus) : Env :=
  ⟨⟨now,none,true⟩,.parsed ⟨some status,"","","100%",0⟩ [] .unrecognized,quietItem,⟨none,[],none,none⟩⟩

def pollThenFetch : List (Move Worker Env) :=
  [.start (.ready .video),.act 0 (said 10 .success),.act 0 (said 20 .success),.act 0 (said 20 .success),
   .start (.ready .fetch),.act 1 (said 30 .failure)]

theorem finishedStaysInPolling : (run (step plainConfig) (start plainRow plainWorld) pollThenFetch).isSome ∧
      Absorbing plainConfig (start plainRow plainWorld) pollThenFetch := by
  have runs : (run (step plainConfig) (start plainRow plainWorld) pollThenFetch).isSome := by decide +kernel
  obtain ⟨_,h⟩ := isSome_iff_exists.mp runs
  have steady : Along (step plainConfig) (fun s m => stepBreaks s m = false)
      (start plainRow plainWorld) pollThenFetch := by
    have checked : checkAlong (step plainConfig) (fun s m => !stepBreaks s m)
      (start plainRow plainWorld) pollThenFetch := by decide +kernel
    simpa using alongChecked checked
  exact ⟨runs,(finishedStaysIff h).mpr steady⟩

def fetchThenSweep : List (Move Worker Env) :=
  [.act 1 (said 30 .failure),.start (.ready .reconcile),.act 2 (said 100 .failure),.act 2 (said 100 .failure),
   .act 2 (said 100 .failure)]

theorem fetchedFailureRefundsSuccess :
    ∃ mid later, run (step plainConfig) (start plainRow plainWorld) pollThenFetch = some mid ∧
      mid.shared.row.status = .success ∧ run (step plainConfig) mid fetchThenSweep = some later ∧
      later.shared.row.status = .failure ∧ later.shared.credited = 100 ∧ later.shared.world.wallet = 1100 := by decide +kernel

end Omnigate.TaskTerminal
