import Omnigate.SystemTaskLease

/-! Recoverability of system tasks. The unique active key keeps one pending or running row of a type whatever happens.
A claim that pauses until its lock has expired sets a task running whose lock is gone, and no expiry finds it. -/
namespace Omnigate.SystemTasks

open Machine Table List

/- The condition on a statement, when it is made. A takeover is for a task still pending; a claim sets its task
running while its own lock on it is unexpired; a renewal sets no expiry that has passed. `ReleaseSystemTaskLock` is
called by claims and endings only. -/
def InTime (clock : Int) (s : Tables) : Process → Prop
  | .stale _ _ task _ => ∃ row ∈ s.tasks, row.taskID = task.taskID ∧ row.status = .pending
  | .marked claim _ _ => ∀ row ∈ s.tasks, claimable claim.id claim.taskType row →
      ∃ lock ∈ s.locks, lock.taskType = row.taskType ∧ lock.taskID = row.taskID ∧ lock.lockedBy = claim.runner ∧
        clock ≤ lock.lockedUntil
  | .renewing _ _ lockUntil _ => clock ≤ lockUntil
  | .called (.releaseSystemTaskLock _ _) => False
  | _ => True

def MovesInTime (runners : Runners) : Pool.Move Process Choice → Prop
  | .start _ => True
  | .act i choice => ∀ p, runners.procs[i]? = some p → InTime (runners.shared.clock + choice.elapsed) runners.shared p

def Locked (s : Tables) : Prop := ∀ row ∈ s.tasks, row.status = .running →
  ∃ lock ∈ s.locks, lock.taskType = row.taskType ∧ lock.taskID = row.taskID ∧ lock.lockedBy = row.lockedBy

theorem pendingAlone (orderly : Orderly s) (member : row ∈ s.tasks)
    (inside : other ∈ s.tasks) (waits : row.status = .pending) (kind : other.taskType = row.taskType) :
    other.status ≠ .running := by
  intro runs
  have left : row.activeKey = some row.taskType := by
    have tidy := orderly.tidy row member
    unfold Tidy at tidy
    rw [waits] at tidy
    exact tidy
  have right : other.activeKey = some row.taskType := by
    have tidy := orderly.tidy other inside
    unfold Tidy at tidy
    rw [runs,kind] at tidy
    exact tidy
  rw [← orderly.single row member other inside _ left right,waits] at runs
  cases runs

theorem takeoverFree (orderly : Orderly s) (pursued : Pursued s claim task)
    (waits : ∃ row ∈ s.tasks, row.taskID = task.taskID ∧ row.status = .pending) (inside : other ∈ s.tasks) (runs : other.status = .running) :
    other.taskType ≠ claim.taskType ∧ other.taskID ≠ task.taskID := by
  obtain ⟨row,member,name,pending⟩ := waits
  obtain ⟨_,member',_,name',kind'⟩ := pursued.named
  have same := inj_on_of_nodup_map orderly.names member' member (name'.trans name.symm)
  subst same
  constructor
  · intro kind
    exact pendingAlone orderly member inside pending (kind.trans kind'.symm) runs
  intro sameName
  rw [inj_on_of_nodup_map orderly.names inside member (sameName.trans name.symm),pending] at runs
  cases runs

theorem runningBack (change : Change p s n) (member : row' ∈ n.tasks) (runs : row'.status = .running) :
    (∃ row ∈ s.tasks, row.status = .running ∧ row.taskID = row'.taskID ∧ row.taskType = row'.taskType ∧
      row.lockedBy = row'.lockedBy) ∨
    ∃ claim now task row, p = .marked claim now task ∧ row ∈ s.tasks ∧ claimable claim.id claim.taskType row ∧
      row' = startRow claim.runner now row ∧ n.locks = s.locks := by
  have same : ∀ {row}, row ∈ s.tasks → row.status = .running → ∃ old ∈ s.tasks, old.status = .running ∧
      old.taskID = row.taskID ∧ old.taskType = row.taskType ∧ old.lockedBy = row.lockedBy :=
    fun {row} inside runs => ⟨row,inside,runs,rfl,rfl,rfl⟩
  cases change with
  | quiet tasks | insert _ _ _ _ _ tasks | take _ _ _ _ _ tasks
  | renew _ _ _ _ _ tasks | delete _ _ _ tasks | sweep _ _ _ _ tasks => exact .inl (same (tasks ▸ member) runs)
  | create row _ waits _ _ _ tasks =>
    rw [tasks] at member
    rcases addedMem member with old | rfl
    · exact .inl (same old runs)
    · rw [waits] at runs
      cases runs
  | expire taskID now _ tasks =>
    rw [tasks] at member
    rcases updateMem member with ⟨row,inside,_,rfl⟩ | ⟨inside,_⟩
    · cases runs
    · exact .inl (same inside runs)
  | start claim now task acting tasks locks =>
    rw [tasks] at member
    rcases updateMem member with ⟨row,inside,hit,rfl⟩ | ⟨inside,_⟩
    · exact .inr ⟨claim,now,task,row,acting,inside,hit,rfl,locks⟩
    · exact .inl (same inside runs)
  | write taskID lockedBy _ now _ tasks =>
    rw [tasks] at member
    rcases updateMem member with ⟨row,inside,_,rfl⟩ | ⟨inside,_⟩
    · exact .inl ⟨row,inside,runs,rfl,rfl,rfl⟩
    · exact .inl (same inside runs)
  | finish taskID lockedBy ending _ _ now _ _ tasks =>
    rw [tasks] at member
    rcases updateMem member with ⟨row,inside,_,rfl⟩ | ⟨inside,_⟩
    · cases ending <;> cases runs
    · exact .inl (same inside runs)

section

variable (orderly : Orderly s) (fits : ∀ claim task, p.pursues = some (claim,task) → Pursued s claim task) (timely : Timely s p) (inTime : InTime s.clock s p) (change : Change p s n)

include orderly fits timely inTime change

theorem lockKept (member : row ∈ s.tasks)
    (runs : row.status = .running) (inside : lock ∈ s.locks) (kind : lock.taskType = row.taskType)
    (name : lock.taskID = row.taskID) (holder : lock.lockedBy = row.lockedBy) :
    ∃ lock' ∈ n.locks, lock'.taskType = row.taskType ∧ lock'.taskID = row.taskID ∧ lock'.lockedBy = row.lockedBy := by
  cases change with
  | quiet _ locks | create _ _ _ _ _ _ _ locks | expire _ _ _ _ locks => exact ⟨lock,locks ▸ inside,kind,name,holder⟩
  | insert _ _ _ _ _ _ locks => exact ⟨lock,locks ▸ mem_append_left _ inside,kind,name,holder⟩
  | take claim now task _ acting _ locks =>
    subst acting
    have other := takeoverFree orderly (fits claim task rfl) inTime member runs
    have missed : takenOver claim.taskType now lock = false := by simp [takenOver,kind,other.1]
    refine ⟨lock,?_,kind,name,holder⟩
    rw [locks]
    exact mem_map.mpr ⟨lock,inside,by simp [missed]⟩
  | start _ _ _ _ _ locks | write _ _ _ _ _ _ locks | finish _ _ _ _ _ _ _ _ _ locks =>
    exact ⟨lock,locks ▸ inside,kind,name,holder⟩
  | renew taskID lockedBy lockUntil now _ _ locks =>
    refine ⟨if leased taskID lockedBy now lock then renewRow lockUntil now lock else lock,?_,?_⟩
    · rw [locks]
      exact mem_map_of_mem inside
    · split <;> exact ⟨kind,name,holder⟩
  | delete taskID lockedBy acting _ locks =>
    refine ⟨lock,?_,kind,name,holder⟩
    rw [locks]
    refine mem_filter.mpr ⟨inside,?_⟩
    by_contra hit
    simp only [released,Bool.not_eq_true,Bool.not_eq_false',Bool.and_eq_true,decide_eq_true_eq] at hit
    rcases acting with rfl | rfl | ⟨claim,task,_,rfl,rfl,rfl⟩
    · obtain ⟨_,member',name',over_⟩ := timely
      rw [inj_on_of_nodup_map orderly.names member member' (name.symm.trans (hit.1.trans name'.symm))] at runs
      rw [runs] at over_
      cases over_
    · exact inTime
    · exact (fits claim task rfl).unclaimed row member (name.symm.trans hit.1) (by rw [runs]; exact (by cases ·))
        (holder.symm.trans hit.2)
  | sweep now _ _ acting _ locks =>
    subst acting
    refine ⟨lock,?_,kind,name,holder⟩
    rw [locks]
    refine mem_filter.mpr ⟨inside,?_⟩
    by_contra hit
    simp only [swept,Bool.not_eq_true,Bool.not_eq_false',Bool.and_eq_true,decide_eq_true_eq] at hit
    have later := timely.2 row member (name.symm.trans hit.1.1.2) runs lock inside hit.1.1.2
    omega

theorem lockedKept (locked : Locked s) : Locked n := by
  intro _ member runs
  rcases runningBack change member runs with ⟨row,inside,ran,name,kind,holder⟩ | ⟨claim,_,task,row,rfl,inside,hit,rfl,locks⟩
  · obtain ⟨lock,held,lockKind,lockName,lockHolder⟩ := locked row inside ran
    rw [← name,← kind,← holder]
    exact lockKept orderly fits timely inTime change inside ran held lockKind lockName lockHolder
  · obtain ⟨lock,held,kind,name,holder,_⟩ := inTime row inside hit
    exact ⟨lock,locks ▸ held,kind,name,holder⟩

end

theorem endedKept (change : Change p s n) (ended : ∃ row ∈ s.tasks, row.taskID = taskID ∧ row.status.active = false) :
    ∃ row ∈ n.tasks, row.taskID = taskID ∧ row.status.active = false := by
  obtain ⟨row,member,name,over_⟩ := ended
  obtain ⟨row',inside,later⟩ := rowsAhead (changeRows change) member
  exact ⟨row',inside,later.taskID.trans name,later.ended over_⟩

section

variable (orderly : Orderly s) (locked : Locked s) (fits : ∀ claim task, p.pursues = some (claim,task) → Pursued s claim task) (inTime : InTime s.clock s p) (change : Change p s n)

include orderly locked fits inTime change

theorem lateKept (early : now ≤ s.clock)
    (late : ∀ row ∈ s.tasks, row.taskID = taskID → row.status = .running →
      ∀ held ∈ s.locks, held.taskID = taskID → now ≤ held.lockedUntil) :
    ∀ row ∈ n.tasks, row.taskID = taskID → row.status = .running →
      ∀ held ∈ n.locks, held.taskID = taskID → now ≤ held.lockedUntil := by
  intro _ member name runs held inside carries
  rcases runningBack change member runs with ⟨row,old,ran,rowName,_⟩ | ⟨claim,now',task,row,rfl,old,hit,rfl,locks⟩
  · have before := late row old (rowName.trans name) ran
    cases change with
    | quiet _ locks | create _ _ _ _ _ _ _ locks | expire _ _ _ _ locks => exact before held (locks ▸ inside) carries
    | insert claim now' task acting free _ locks =>
      subst acting
      rw [locks] at inside
      rcases mem_append.mp inside with stays | new
      · exact before held stays carries
      -- the running task has a lock of its type, so the insert would have met it
      rw [mem_singleton.mp new] at carries
      obtain ⟨named,namedIn,_,namedName,namedKind⟩ := (fits claim task rfl).named
      obtain ⟨lock,there,kind,_⟩ := locked row old ran
      rw [inj_on_of_nodup_map orderly.names old namedIn
        ((rowName.trans name).trans (carries.symm.trans namedName.symm))] at kind
      exact absurd (kind.trans namedKind) (free lock there)
    | take claim now' task _ acting _ locks =>
      subst acting
      rw [locks] at inside
      obtain ⟨lock,there,rfl⟩ := mem_map.mp inside
      split at carries
      · have other := takeoverFree orderly (fits claim task rfl) inTime old ran
        exact absurd ((rowName.trans name).trans carries.symm) other.2
      rename_i missed
      rw [if_neg missed]
      exact before lock there carries
    | start _ _ _ _ _ locks | write _ _ _ _ _ _ locks | finish _ _ _ _ _ _ _ _ _ locks =>
      exact before held (locks ▸ inside) carries
    | renew _ _ _ now' acting _ locks =>
      subst acting
      rw [locks] at inside
      obtain ⟨lock,there,rfl⟩ := mem_map.mp inside
      split
      · exact le_trans early inTime
      rename_i missed
      rw [if_neg missed] at carries
      exact before lock there carries
    | delete _ _ _ _ locks | sweep _ _ _ _ _ locks => exact before held (mem_filter.mp (locks ▸ inside)).1 carries
  · -- the lock that the claim holds on the task it has just set running
    obtain ⟨lock,there,kind,_,_,until_⟩ := inTime row old hit
    obtain ⟨_,ownerIn,ownerName,ownerKind⟩ := orderly.owned held (locks ▸ inside)
    have same := inj_on_of_nodup_map orderly.names ownerIn old (ownerName.trans (carries.trans name.symm))
    have one := inj_on_of_nodup_map orderly.kinds (locks ▸ inside) there (ownerKind.symm.trans (by rw [same,kind]))
    rw [one]
    exact le_trans early until_

theorem timelyKept (clock : n.clock = s.clock) (timely : Timely s r) :
    Timely n r := by
  cases r with
  | listing | expiring => exact clock.symm.le.trans' timely
  | sweeping =>
    exact ⟨clock.symm.le.trans' timely.1,lateKept orderly locked fits inTime change timely.1 timely.2⟩
  | releasing => exact endedKept change timely
  | _ => trivial

end

structure Guarded (runners : Runners) : Prop extends Sound runners where
  locked : Locked runners.shared
  timely : ∀ p ∈ runners.procs, Timely runners.shared p

theorem stepGuarded (guarded : Guarded runners) (inTime : MovesInTime runners move)
    (h : runnerStep runners move = some n) : Guarded n := by
  have sound := stepSound guarded.toSound h
  cases move with
  | start p =>
    obtain ⟨begins,rfl⟩ := Pool.stepStart h
    refine ⟨sound,guarded.locked,allAdded guarded.timely ?_⟩
    cases p with
    | called => trivial
    | _ => cases begins
  | act i choice =>
    obtain ⟨p,s,q,found,moved,rfl⟩ := Pool.stepAct h
    let s' : Tables := {runners.shared with clock := runners.shared.clock + choice.elapsed}
    have elapsed : ∀ r, Timely runners.shared r → Timely s' r := by
      intro r timely
      have later : runners.shared.clock ≤ s'.clock := by simp [s']
      cases r with
      | listing | expiring => exact le_trans timely later
      | sweeping => exact ⟨le_trans timely.1 later,timely.2⟩
      | releasing => exact timely
      | _ => trivial
    have member := mem_of_getElem? found
    have here := elapsed p (guarded.timely p member)
    have orderly : Orderly s' := {guarded.orderly with}
    have fits : ∀ claim task, p.pursues = some (claim,task) → Pursued s' claim task :=
      fun claim task pursues => {guarded.fits p member claim task pursues with}
    have locked : Locked s' := guarded.locked
    have punctual : InTime s'.clock s' p := by
      have given := inTime p found
      cases p with
      | called call => cases call <;> exact given
      | stale | marked | renewing => exact given
      | _ => trivial
    obtain ⟨change,_,clock,after⟩ := advanceSpec moved
    exact ⟨sound,lockedKept orderly fits here punctual change locked,allSet
      (fun r old => timelyKept orderly locked fits punctual change clock (elapsed r (guarded.timely r old))) (after here)⟩

theorem runGuarded (orderly : Orderly s) (idle : s.claiming = []) (locked : Locked s)
    (inTime : Along runnerStep MovesInTime ⟨s,[]⟩ moves) (h : run runnerStep ⟨s,[]⟩ moves = some out) : Guarded out := by
  refine runInvariant (fun _ _ _ guarded inTime moved => stepGuarded guarded inTime moved) ⟨idleSound orderly idle,locked,?_⟩
    inTime h
  intro p member
  cases member

def expireLocks (now : Int) : List SystemTaskLock → Tables → Tables
  | [],s => s
  | lock::rest,s => expireLocks now rest (sweepLock lock now (markSystemTaskLeaseExpired lock.taskID s))

theorem actPrompt (found : runners.procs[i]? = some p) (moved : advance runners.shared false p = some (s,q))
    (later : run runnerStep ⟨s,runners.procs.set i q⟩ moves = some out) :
    run runnerStep runners (.act i prompt::moves) = some out := by
  have same : act runners.shared p prompt = some (s,q) := by
    simpa [act,prompt] using moved
  exact Pool.runAct found same later

theorem expiryRuns {i : Nat} (found : runners.procs[i]? = some (.expiring now locks)) :
    ∃ moves out, run runnerStep runners moves = some out ∧ out.shared = expireLocks now locks runners.shared := by
  induction locks generalizing runners with
  | nil => exact ⟨[.act i prompt],_,actPrompt found rfl rfl,rfl⟩
  | cons lock rest ih =>
    have bound := (List.getElem?_eq_some_iff.mp found).1
    let marking : Runners :=
      ⟨markSystemTaskLeaseExpired lock.taskID runners.shared,runners.procs.set i (.sweeping now lock rest)⟩
    let sweeping : Runners := ⟨sweepLock lock now marking.shared,marking.procs.set i (.expiring now rest)⟩
    have marked : marking.procs[i]? = some (.sweeping now lock rest) := List.getElem?_set_self bound
    have swept : sweeping.procs[i]? = some (.expiring now rest) :=
      List.getElem?_set_self (List.getElem?_eq_some_iff.mp marked).1
    obtain ⟨moves,out,ran,same⟩ := ih swept
    exact ⟨.act i prompt::.act i prompt::moves,out,actPrompt found rfl (actPrompt marked rfl ran),same⟩

theorem expireLocksTasks (now locks s) :
    (expireLocks now locks s).tasks = s.tasks.map (fun row =>
      if row.status = .running ∧ row.taskID ∈ locks.map SystemTaskLock.taskID then expireRow s.clock row else row) := by
  induction locks generalizing s with
  | nil => simp [expireLocks]
  | cons lock _ ih =>
    rw [expireLocks,ih]
    simp only [sweepLock,markSystemTaskLeaseExpired,updateWhere,map_map]
    refine map_congr_left (fun row _ => ?_)
    by_cases runs : row.status = .running <;> by_cases name : row.taskID = lock.taskID <;>
      simp [expirable,expireRow,runs,name]

theorem expireLocksLocks (now locks s) :
    (expireLocks now locks s).locks = s.locks.filter (fun row => locks.all (fun lock => !swept lock now row)) := by
  induction locks generalizing s with
  | nil => exact (filter_eq_self.mpr (fun _ _ => rfl)).symm
  | cons lock _ ih =>
    rw [expireLocks,ih]
    simp only [sweepLock,markSystemTaskLeaseExpired,filter_filter,all_cons]
    refine filter_congr (fun row _ => ?_)
    exact Bool.and_comm _ _

theorem expiryFrees (orderly : Orderly s) (member : row ∈ s.tasks) (runs : row.status = .running)
    (inside : lock ∈ s.locks) (kind : lock.taskType = row.taskType) (name : lock.taskID = row.taskID)
    (expired : lock.lockedUntil < now) :
    let n := expireLocks now (s.locks.filter (fun row => row.lockedUntil < now)) s
    (∃ row' ∈ n.tasks, row'.taskID = row.taskID ∧ row'.status = .failed) ∧
      (∀ row' ∈ n.tasks, row'.activeKey ≠ some row.taskType) ∧ ∀ lock' ∈ n.locks, lock'.taskType ≠ row.taskType := by
  have listed : lock ∈ s.locks.filter (fun row => row.lockedUntil < now) :=
    mem_filter.mpr ⟨inside,decide_eq_true expired⟩
  have hit : row.status = .running ∧ row.taskID ∈ (s.locks.filter (fun row => row.lockedUntil < now)).map SystemTaskLock.taskID :=
    ⟨runs,name ▸ mem_map_of_mem listed⟩
  refine ⟨?_,?_,?_⟩
  · refine ⟨expireRow s.clock row,?_,rfl,rfl⟩
    rw [expireLocksTasks]
    exact mem_map.mpr ⟨row,member,if_pos hit⟩
  · intro row' stays active
    rw [expireLocksTasks] at stays
    obtain ⟨old,there,rfl⟩ := mem_map.mp stays
    split at active
    · cases active
    rename_i missed
    have mine : row.activeKey = some row.taskType := by
      have tidy := orderly.tidy row member
      unfold Tidy at tidy
      rw [runs] at tidy
      exact tidy
    rw [orderly.single old there row member _ active mine] at missed
    exact missed hit
  · intro lock' stays same
    rw [expireLocksLocks] at stays
    obtain ⟨there,kept⟩ := mem_filter.mp stays
    rw [inj_on_of_nodup_map orderly.kinds there inside (same.trans kind.symm)] at kept
    have missed := all_eq_true.mp kept lock listed
    simp [swept,expired] at missed

theorem guardedRecovers (guarded : Guarded runners) (member : row ∈ runners.shared.tasks)
    (runs : row.status = .running) : ∃ moves n, run runnerStep runners moves = some n ∧
      (∃ row' ∈ n.shared.tasks, row'.taskID = row.taskID ∧ row'.status = .failed) ∧
      (∀ row' ∈ n.shared.tasks, row'.activeKey ≠ some row.taskType) ∧
      ∀ lock ∈ n.shared.locks, lock.taskType ≠ row.taskType := by
  obtain ⟨lock,inside,kind,name,_⟩ := guarded.locked row member runs
  -- wait until the lock has expired
  let elapsed := (lock.lockedUntil + 1 - runners.shared.clock).toNat
  let s : Tables := {runners.shared with clock := runners.shared.clock + elapsed}
  have expired : lock.lockedUntil < s.clock := by
    simp only [s,elapsed]
    omega
  let stale := s.locks.filter (fun row => row.lockedUntil < s.clock)
  let i := runners.procs.length
  have last : ∀ p : Process, (runners.procs ++ [p])[i]? = some p := by simp [i]
  have next : ∀ p q : Process, (runners.procs ++ [p]).set i q = runners.procs ++ [q] := by simp [i]
  let waiting : Runners := ⟨s,runners.procs ++ [.expiring s.clock stale]⟩
  have begun : waiting.procs[i]? = some (.expiring s.clock stale) := last _
  obtain ⟨moves,n,ran,same⟩ := expiryRuns begun
  have orderly : Orderly s := {guarded.orderly with}
  have frees := expiryFrees orderly member runs inside kind name expired
  refine ⟨.start (.called .expireStaleSystemTaskLocks)::.act i ⟨elapsed,false⟩::.act i prompt::moves,n,?_,same ▸ frees⟩
  refine Pool.runStart rfl (Pool.runAct (last _) rfl ?_)
  rw [next]
  refine actPrompt (last _) rfl ?_
  rw [next]
  exact ran

theorem systemTaskRecoverable {s : Tables} (orderly : Orderly s) (idle : s.claiming = []) {moves out}
    (h : run runnerStep ⟨s,[]⟩ moves = some out) :
    (∀ row ∈ out.shared.tasks, row.activeKey = if row.status.active then some row.taskType else none) ∧
    (∀ a ∈ out.shared.tasks, ∀ b ∈ out.shared.tasks, a.status.active → b.status.active → a.taskType = b.taskType → a = b) ∧
    (Locked s → Along runnerStep MovesInTime ⟨s,[]⟩ moves → Locked out.shared ∧
      ∀ row ∈ out.shared.tasks, row.status = .running → ∃ later n, run runnerStep out later = some n ∧
        (∃ row' ∈ n.shared.tasks, row'.taskID = row.taskID ∧ row'.status = .failed) ∧
        (∀ row' ∈ n.shared.tasks, row'.activeKey ≠ some row.taskType) ∧
        ∀ lock ∈ n.shared.locks, lock.taskType ≠ row.taskType) := by
  have sound := runSound orderly idle h
  refine ⟨sound.orderly.tidy,?_,?_⟩
  · intro a left b right first second kind
    have keyOf : ∀ row ∈ out.shared.tasks, row.status.active → row.activeKey = some row.taskType := by
      intro row member active
      have tidy := sound.orderly.tidy row member
      unfold Tidy at tidy
      rwa [if_pos active] at tidy
    exact sound.orderly.single a left b right _ (keyOf a left first) (kind ▸ keyOf b right second)
  · intro locked inTime
    have guarded := runGuarded orderly idle locked inTime h
    exact ⟨guarded.locked,fun row member runs => guardedRecovers guarded member runs⟩

def noTasks : Tables := ⟨10,[],[],[]⟩

theorem noTasksOrderly : Orderly noTasks :=
  ⟨nodup_nil,nodup_nil,nodup_nil,fun _ member => (by cases member),fun _ member => (by cases member),
    fun _ member => (by cases member)⟩

def cleanup : Call := .createSystemTask "systask_t" "log_cleanup" "" ""

def claimCleanup : Call := .claimSystemTask ⟨1,"log_cleanup","a",70⟩

def claimAtOnce : List (Pool.Move Process Choice) :=
  [.start (.called cleanup),.act 0 prompt,.start (.called claimCleanup),.act 1 prompt,.act 1 prompt,.act 1 prompt,.act 1 prompt]

theorem claimedAtOnceRecovers : ∃ out, run runnerStep ⟨noTasks,[]⟩ claimAtOnce = some out ∧ Locked out.shared ∧
    ∃ row ∈ out.shared.tasks, row.status = .running := by
  have ran : (run runnerStep ⟨noTasks,[]⟩ claimAtOnce).any (fun out =>
      out.shared.tasks.any (fun row => row.status = .running)) := by decide
  obtain ⟨out,reached,some_⟩ := (Option.any_eq_true _ _).mp ran
  obtain ⟨row,member,runs⟩ := any_eq_true.mp some_
  have punctual : Along runnerStep MovesInTime ⟨noTasks,[]⟩ claimAtOnce := by
    refine ⟨trivial,?_⟩
    rintro _ ⟨⟩
    refine ⟨fun p found => by cases found; trivial,?_⟩
    rintro _ ⟨⟩
    refine ⟨trivial,?_⟩
    rintro _ ⟨⟩
    refine ⟨fun p found => by cases found; trivial,?_⟩
    rintro _ ⟨⟩
    refine ⟨fun p found => by cases found; trivial,?_⟩
    rintro _ ⟨⟩
    refine ⟨fun p found => by cases found; trivial,?_⟩
    rintro _ ⟨⟩
    refine ⟨fun p found => ?_,fun _ _ => trivial⟩
    cases found
    intro row member _
    rw [mem_singleton.mp member]
    exact ⟨_,mem_singleton_self _,rfl,rfl,rfl,by decide⟩
  have kept := (systemTaskRecoverable noTasksOrderly rfl reached).2.2 (fun _ member => by cases member) punctual
  exact ⟨out,reached,kept.1,row,member,of_decide_eq_true runs⟩

def claimAfterExpiry : List (Pool.Move Process Choice) :=
  [.start (.called cleanup),.act 0 prompt,.start (.called claimCleanup),.act 1 prompt,.act 1 prompt,.act 1 prompt,
    .start (.called .expireStaleSystemTaskLocks),.act 2 ⟨100,false⟩,.act 2 prompt,.act 2 prompt,.act 2 prompt,.act 2 prompt,
    .act 1 prompt]

theorem pausedClaimRunsUnlocked : ∃ out, run runnerStep ⟨noTasks,[]⟩ claimAfterExpiry = some out ∧ out.shared.locks = [] ∧
    ∃ row ∈ out.shared.tasks, row.status = .running ∧ row.activeKey = some "log_cleanup" := by decide +kernel

end Omnigate.SystemTasks
