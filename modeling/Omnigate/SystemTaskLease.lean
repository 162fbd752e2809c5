import Omnigate.SystemTask

/-! What the statements of system tasks can do to the two tables, and the lease as a fence: a lease that a runner has
lost on a task it had claimed never comes back to it, and without the lease its statements hit no row. -/
namespace Omnigate.SystemTasks

open Machine Table List

def Tidy (row : SystemTask) : Prop := row.activeKey = if row.status.active then some row.taskType else none

structure RowLater (row row' : SystemTask) : Prop where
  id : row'.id = row.id
  taskID : row'.taskID = row.taskID
  taskType : row'.taskType = row.taskType
  settled : row.status ≠ .pending → row'.status ≠ .pending ∧ row'.lockedBy = row.lockedBy
  ended : row.status.active = false → row'.status.active = false
  key : row'.activeKey = row.activeKey ∨ row'.activeKey = none
  tidy : Tidy row → Tidy row'

theorem rowRefl (row) : RowLater row row :=
  ⟨rfl,rfl,rfl,fun h => ⟨h,rfl⟩,fun h => h,.inl rfl,fun h => h⟩

theorem expireLater (row now) : RowLater row (expireRow now row) where
  id := rfl
  taskID := rfl
  taskType := rfl
  settled := fun _ => ⟨(by cases ·),rfl⟩
  ended := fun _ => rfl
  key := .inr rfl
  tidy := fun _ => rfl

theorem startLater (waits : row.status = .pending) (runner now) :
    RowLater row (startRow runner now row) where
  id := rfl
  taskID := rfl
  taskType := rfl
  settled := fun h => absurd waits h
  ended := fun h => by rw [waits] at h; cases h
  key := .inl rfl
  tidy := fun h => by
    have active : row.activeKey = some row.taskType := by
      unfold Tidy at h
      rw [waits] at h
      exact h
    exact active

theorem stateLater (row state now) : RowLater row (writeState state now row) :=
  ⟨rfl,rfl,rfl,fun h => ⟨h,rfl⟩,fun h => h,.inl rfl,fun h => h⟩

theorem endActive (ending : Ending) : ending.status.active = false := by cases ending <;> rfl

theorem endLater (row ending result error now) :
    RowLater row (writeEnd ending result error now row) where
  id := rfl
  taskID := rfl
  taskType := rfl
  settled := fun _ => ⟨by cases ending <;> exact (by cases ·),rfl⟩
  ended := fun _ => endActive ending
  key := .inr rfl
  tidy := fun _ => by
    unfold Tidy writeEnd
    rw [endActive]
    rfl

def Process.pursues : Process → Option (Claim × SystemTask)
  | .selected claim _ task => some (claim,task)
  | .conflicted claim _ task => some (claim,task)
  | .stale claim _ task _ => some (claim,task)
  | .acquired claim _ task _ => some (claim,task)
  | .marked claim _ task => some (claim,task)
  | .withdrawing claim task _ => some (claim,task)
  | _ => none

def Process.runner (p : Process) : Option String :=
  match p with
  | .looking claim _ => some claim.runner
  | .reading claim => some claim.runner
  | _ => p.pursues.map (fun pursued => pursued.1.runner)

def Process.concerns : Process → Option (String × String)
  | .updating taskID lockedBy _ _ => some (taskID,lockedBy)
  | .renewing taskID lockedBy _ _ => some (taskID,lockedBy)
  | .finishing taskID lockedBy _ _ _ _ => some (taskID,lockedBy)
  | .releasing taskID lockedBy => some (taskID,lockedBy)
  | .called (.releaseSystemTaskLock taskID lockedBy) => some (taskID,lockedBy)
  | .withdrawing claim task _ => some (task.taskID,claim.runner)
  | _ => none

inductive Change (p : Process) (s n : Tables) : Prop
  | quiet (tasks : n.tasks = s.tasks) (locks : n.locks = s.locks)
  | create (row : SystemTask) (acting : p.concerns = none) (waits : row.status = .pending) (tidy : Tidy row) (named : row.id = nextID s.tasks)
      (fresh : ∀ old ∈ s.tasks, old.taskID ≠ row.taskID ∧ old.activeKey ≠ row.activeKey)
      (tasks : n.tasks = s.tasks ++ [row]) (locks : n.locks = s.locks)
  | expire (taskID : String) (now : Int) (acting : p.concerns = none)
      (tasks : n.tasks = updateWhere (expirable taskID) (expireRow now) s.tasks) (locks : n.locks = s.locks)
  | insert (claim : Claim) (now : Int) (task : SystemTask) (acting : p = .selected claim now task)
      (free : ∀ row ∈ s.locks, row.taskType ≠ claim.taskType)
      (tasks : n.tasks = s.tasks) (locks : n.locks = s.locks ++ [claim.lock now task])
  | take (claim : Claim) (now : Int) (task : SystemTask) (existing : SystemTaskLock)
      (acting : p = .stale claim now task existing) (tasks : n.tasks = s.tasks)
      (locks : n.locks = updateWhere (takenOver claim.taskType now) (takeRow (claim.lock now task)) s.locks)
  | start (claim : Claim) (now : Int) (task : SystemTask) (acting : p = .marked claim now task)
      (tasks : n.tasks = updateWhere (claimable claim.id claim.taskType) (startRow claim.runner now) s.tasks)
      (locks : n.locks = s.locks)
  | write (taskID lockedBy state : String) (now : Int) (acting : p = .updating taskID lockedBy state now)
      (tasks : n.tasks = updateWhere (fenced taskID lockedBy now s) (writeState state now) s.tasks)
      (locks : n.locks = s.locks)
  | finish (taskID lockedBy : String) (ending : Ending) (result error : String) (now : Int)
      (acting : p = .finishing taskID lockedBy ending result error now)
      (hit : s.tasks.any (fenced taskID lockedBy now s))
      (tasks : n.tasks = updateWhere (fenced taskID lockedBy now s) (writeEnd ending result error now) s.tasks)
      (locks : n.locks = s.locks)
  | renew (taskID lockedBy : String) (lockUntil now : Int) (acting : p = .renewing taskID lockedBy lockUntil now)
      (tasks : n.tasks = s.tasks)
      (locks : n.locks = updateWhere (leased taskID lockedBy now) (renewRow lockUntil now) s.locks)
  | delete (taskID lockedBy : String)
      (acting : p = .releasing taskID lockedBy ∨ p = .called (.releaseSystemTaskLock taskID lockedBy) ∨
        ∃ claim task result, p = .withdrawing claim task result ∧ task.taskID = taskID ∧ claim.runner = lockedBy)
      (tasks : n.tasks = s.tasks) (locks : n.locks = s.locks.filter (fun row => !released taskID lockedBy row))
  | sweep (now : Int) (lock : SystemTaskLock) (rest : List SystemTaskLock) (acting : p = .sweeping now lock rest)
      (tasks : n.tasks = s.tasks) (locks : n.locks = s.locks.filter (fun row => !swept lock now row))

variable {n s : Tables} {p : Process}

theorem belowNext {tasks : List SystemTask} (member : row ∈ tasks) : row.id < nextID tasks := by
  induction tasks with
  | nil => cases member
  | cons first rest ih =>
    have bound : nextID (first::rest) = max (first.id+1) (nextID rest) := rfl
    rcases mem_cons.mp member with rfl | inside
    · omega
    · have later := ih inside
      omega

structure Becomes (p : Process) (row row' : SystemTask) : Prop extends RowLater row row' where
  claimed : row.status = .pending → row'.status ≠ .pending → ∃ claim now task, p = .marked claim now task ∧
    row.id = claim.id ∧ row.taskType = claim.taskType ∧ row'.status = .running ∧ row'.lockedBy = claim.runner

theorem becomesSame (p row) : Becomes p row row where
  toRowLater := rowRefl row
  claimed := fun waits moved => absurd waits moved

theorem becomesIf {f : SystemTask → SystemTask} {hits : SystemTask → Bool}
    (settled : hits row → row.status ≠ .pending) (later : RowLater row (f row)) :
    Becomes p row (if hits row then f row else row) := by
  split
  · rename_i hit
    exact ⟨later,fun waits => absurd waits (settled hit)⟩
  · exact becomesSame p row

inductive Rows (p : Process) (s n : List SystemTask) : Prop
  | updated (f : SystemTask → SystemTask) (tasks : n = s.map f) (each : ∀ row ∈ s, Becomes p row (f row))
  | added (row : SystemTask) (waits : row.status = .pending) (tidy : Tidy row) (above : ∀ old ∈ s, old.id ≠ row.id)
      (fresh : ∀ old ∈ s, old.taskID ≠ row.taskID ∧ old.activeKey ≠ row.activeKey) (tasks : n = s ++ [row])

theorem rowsSame {s n} (same : n = s) : Rows p s n :=
  .updated id (by rw [same,map_id]) (fun row _ => becomesSame p row)

theorem changeRows (change : Change p s n) : Rows p s.tasks n.tasks := by
  have runs : ∀ {taskID lockedBy now row}, fenced taskID lockedBy now s row → row.status ≠ .pending := by
    intro taskID lockedBy now row hit waits
    simp [fenced,waits] at hit
  cases change with
  | quiet tasks | insert _ _ _ _ _ tasks | take _ _ _ _ _ tasks
  | renew _ _ _ _ _ tasks | delete _ _ _ tasks | sweep _ _ _ _ tasks => exact rowsSame tasks
  | create row _ waits tidy _ fresh tasks =>
    exact .added row waits tidy (fun _ member _ => absurd (belowNext member) (by omega)) fresh tasks
  | expire taskID now _ tasks =>
    refine .updated _ tasks (fun row _ => becomesIf (fun hit waits => ?_) (expireLater row now))
    simp [expirable,waits] at hit
  | start claim now task acting tasks =>
    refine .updated _ tasks (fun row _ => ?_)
    split
    · rename_i hit
      simp only [claimable,Bool.and_eq_true,decide_eq_true_eq] at hit
      exact ⟨startLater hit.2 claim.runner now,fun _ _ => ⟨claim,now,task,acting,hit.1.1,hit.1.2,rfl,rfl⟩⟩
    · exact becomesSame p row
  | write taskID lockedBy state now _ tasks =>
    exact .updated _ tasks (fun row _ => becomesIf runs (stateLater row state now))
  | finish taskID lockedBy ending result error now _ _ tasks =>
    exact .updated _ tasks (fun row _ => becomesIf runs (endLater row ending result error now))

theorem rowsAhead {s n} (rows : Rows p s n) {row} (member : row ∈ s) :
    ∃ row' ∈ n, Becomes p row row' := by
  cases rows with
  | updated f tasks each => exact ⟨f row,tasks ▸ mem_map_of_mem member,each row member⟩
  | added _ _ _ _ _ tasks => exact ⟨row,tasks ▸ mem_append_left _ member,becomesSame p row⟩

theorem rowsBack {s n} (rows : Rows p s n) {row'} (member : row' ∈ n) : (∃ row ∈ s, Becomes p row row') ∨
      row'.status = .pending ∧ ∀ old ∈ s, old.taskID ≠ row'.taskID ∧ old.activeKey ≠ row'.activeKey := by
  cases rows with
  | updated f tasks each =>
    rw [tasks] at member
    obtain ⟨row,inside,rfl⟩ := mem_map.mp member
    exact .inl ⟨row,inside,each row inside⟩
  | added _ waits _ _ fresh tasks =>
    rw [tasks] at member
    rcases addedMem member with old | rfl
    · exact .inl ⟨row',old,becomesSame p row'⟩
    · exact .inr ⟨waits,fresh⟩

theorem locksBack (change : Change p s n) (member : lock' ∈ n.locks) :
    (∃ lock ∈ s.locks, lock.taskType = lock'.taskType ∧ lock.taskID = lock'.taskID ∧ lock.lockedBy = lock'.lockedBy) ∨
      ∃ claim task, p.pursues = some (claim,task) ∧ lock'.taskType = claim.taskType ∧ lock'.taskID = task.taskID ∧
        lock'.lockedBy = claim.runner := by
  have kept : ∀ {lock}, lock ∈ s.locks → (∃ old ∈ s.locks, old.taskType = lock.taskType ∧ old.taskID = lock.taskID ∧
      old.lockedBy = lock.lockedBy) := fun {lock} inside => ⟨lock,inside,rfl,rfl,rfl⟩
  cases change with
  | quiet _ locks | create _ _ _ _ _ _ _ locks | expire _ _ _ _ locks => exact .inl (kept (locks ▸ member))
  | insert claim now task acting _ _ locks =>
    rw [locks] at member
    rcases addedMem member with old | rfl
    · exact .inl (kept old)
    · exact .inr ⟨claim,task,by rw [acting]; rfl,rfl,rfl,rfl⟩
  | take claim now task _ acting _ locks =>
    rw [locks] at member
    rcases updateMem member with ⟨old,inside,hit,rfl⟩ | ⟨inside,_⟩
    · simp only [takenOver,Bool.and_eq_true,decide_eq_true_eq] at hit
      rw [acting]
      exact .inr ⟨claim,task,rfl,hit.1,rfl,rfl⟩
    · exact .inl (kept inside)
  | start _ _ _ _ _ locks | write _ _ _ _ _ _ locks | finish _ _ _ _ _ _ _ _ _ locks =>
    exact .inl (kept (locks ▸ member))
  | renew taskID lockedBy _ now _ _ locks =>
    rw [locks] at member
    obtain ⟨old,inside,rfl⟩ := mem_map.mp member
    refine .inl ⟨old,inside,?_⟩
    split <;> exact ⟨rfl,rfl,rfl⟩
  | delete _ _ _ _ locks | sweep _ _ _ _ _ locks => exact .inl (kept (mem_filter.mp (locks ▸ member)).1)

theorem changeKinds (change : Change p s n) (kinds : (s.locks.map SystemTaskLock.taskType).Nodup) :
    (n.locks.map SystemTaskLock.taskType).Nodup := by
  have filtered : ∀ hits : SystemTaskLock → Bool, ((s.locks.filter hits).map SystemTaskLock.taskType).Nodup :=
    fun hits => kinds.sublist (List.Sublist.map _ filter_sublist)
  cases change with
  | quiet _ locks | create _ _ _ _ _ _ _ locks | expire _ _ _ _ locks
  | start _ _ _ _ _ locks | write _ _ _ _ _ _ locks | finish _ _ _ _ _ _ _ _ _ locks => rw [locks]; exact kinds
  | insert claim now task _ free _ locks =>
    rw [locks]
    exact keysAdded kinds free
  | take claim now task _ _ _ locks =>
    rw [locks,updateKeys (f := takeRow (claim.lock now task)) (fun _ _ => rfl)]
    exact kinds
  | renew _ _ lockUntil now _ _ locks =>
    rw [locks,updateKeys (f := renewRow lockUntil now) (fun _ _ => rfl)]
    exact kinds
  | delete _ _ _ _ locks | sweep _ _ _ _ _ locks => rw [locks]; exact filtered _

structure Orderly (s : Tables) : Prop where
  ids : (s.tasks.map SystemTask.id).Nodup
  names : (s.tasks.map SystemTask.taskID).Nodup
  kinds : (s.locks.map SystemTaskLock.taskType).Nodup
  tidy : ∀ row ∈ s.tasks, Tidy row
  single : ∀ a ∈ s.tasks, ∀ b ∈ s.tasks, ∀ key, a.activeKey = some key → b.activeKey = some key → a = b
  owned : ∀ lock ∈ s.locks, ∃ row ∈ s.tasks, row.taskID = lock.taskID ∧ row.taskType = lock.taskType

structure Pursued (s : Tables) (claim : Claim) (task : SystemTask) : Prop where
  named : ∃ row ∈ s.tasks, row.id = claim.id ∧ row.taskID = task.taskID ∧ row.taskType = claim.taskType
  unclaimed : ∀ row ∈ s.tasks, row.taskID = task.taskID → row.status ≠ .pending → row.lockedBy ≠ claim.runner

theorem rowsOrderly (orderly : Orderly s) (rows : Rows p s.tasks n.tasks)
    (kinds : (n.locks.map SystemTaskLock.taskType).Nodup)
    (owned : ∀ lock ∈ n.locks, ∃ row ∈ n.tasks, row.taskID = lock.taskID ∧ row.taskType = lock.taskType) :
    Orderly n := by
  cases rows with
  | updated f tasks each =>
    have ids : n.tasks.map SystemTask.id = s.tasks.map SystemTask.id := by
      rw [tasks,map_map]
      exact map_congr_left (fun row member => (each row member).id)
    have names : n.tasks.map SystemTask.taskID = s.tasks.map SystemTask.taskID := by
      rw [tasks,map_map]
      exact map_congr_left (fun row member => (each row member).taskID)
    refine ⟨ids ▸ orderly.ids,names ▸ orderly.names,kinds,?_,?_,owned⟩
    · rw [tasks]
      exact forall_mem_map.mpr (fun row inside => (each row inside).tidy (orderly.tidy row inside))
    rw [tasks]
    intro _ left _ right key first second
    obtain ⟨a,leftInside,rfl⟩ := mem_map.mp left
    obtain ⟨b,rightInside,rfl⟩ := mem_map.mp right
    have keyOf : ∀ row ∈ s.tasks, (f row).activeKey = some key → row.activeKey = some key := by
      intro row inside some_
      rcases (each row inside).key with same | none_
      · exact same ▸ some_
      · rw [none_] at some_
        cases some_
    exact congrArg f (orderly.single a leftInside b rightInside key (keyOf a leftInside first) (keyOf b rightInside second))
  | added row _ tidy above fresh tasks =>
    refine ⟨?_,?_,kinds,?_,?_,owned⟩
    · rw [tasks]
      exact keysAdded orderly.ids above
    · rw [tasks]
      exact keysAdded orderly.names (fun row' member => (fresh row' member).1)
    · rw [tasks]
      exact allAdded orderly.tidy tidy
    rw [tasks]
    intro a left b right key first second
    rcases addedMem left with leftOld | rfl <;> rcases addedMem right with rightOld | rfl
    · exact orderly.single a leftOld b rightOld key first second
    · exact absurd (first.trans second.symm) (fresh a leftOld).2
    · exact absurd (second.trans first.symm) (fresh b rightOld).2
    · rfl

theorem changeOrderly (orderly : Orderly s) (change : Change p s n)
    (fits : ∀ claim task, p.pursues = some (claim,task) → Pursued s claim task) : Orderly n := by
  have rows := changeRows change
  refine rowsOrderly orderly rows (changeKinds change orderly.kinds) ?_
  have moved : ∀ row ∈ s.tasks, ∃ row' ∈ n.tasks, row'.taskID = row.taskID ∧ row'.taskType = row.taskType := by
    intro row member
    obtain ⟨row',inside,later⟩ := rowsAhead rows member
    exact ⟨row',inside,later.taskID,later.taskType⟩
  intro _ member
  rcases locksBack change member with ⟨lock,old,kind,name,_⟩ | ⟨claim,task,pursues,kind,name,_⟩
  · obtain ⟨row,inside,sameID,sameType⟩ := orderly.owned lock old
    obtain ⟨row',inside',nameLater,kindLater⟩ := moved row inside
    exact ⟨row',inside',nameLater.trans (sameID.trans name),kindLater.trans (sameType.trans kind)⟩
  · obtain ⟨row,inside,_,sameID,sameType⟩ := (fits claim task pursues).named
    obtain ⟨row',inside',nameLater,kindLater⟩ := moved row inside
    exact ⟨row',inside',nameLater.trans (sameID.trans name.symm),kindLater.trans (sameType.trans kind.symm)⟩

theorem fencedLease (fence : fenced taskID runner now s row) :
    row.taskID = taskID ∧ row.status = .running ∧ row.lockedBy = runner ∧
      ∃ lock ∈ s.locks, lock.taskID = taskID ∧ lock.lockedBy = runner := by
  simp only [fenced,Bool.and_eq_true,decide_eq_true_eq] at fence
  obtain ⟨⟨⟨name,runs⟩,holder⟩,lease⟩ := fence
  obtain ⟨lock,member,held⟩ := any_eq_true.mp lease
  simp only [leased,Bool.and_eq_true,decide_eq_true_eq] at held
  exact ⟨name,runs,holder,lock,member,held.1.1.trans name,held.1.2⟩

inductive Goes (s n : Tables) (p q : Process) : Prop
  | apart (before : p.runner = none) (after : q.runner = none) (same : n.claiming = s.claiming)
  | enter (claim : Claim) (now : Int) (before : p.runner = none) (free : claim.runner ∉ s.claiming)
      (after : q = .looking claim now) (joined : n.claiming = claim.runner::s.claiming)
  | select (claim : Claim) (now : Int) (task : SystemTask) (before : p = .looking claim now)
      (after : q = .selected claim now task) (found : s.tasks.find? (claimable claim.id claim.taskType) = some task)
      (same : n.claiming = s.claiming)
  | pursue (claim : Claim) (task : SystemTask) (before : p.pursues = some (claim,task))
      (after : q.pursues = some (claim,task)) (same : n.claiming = s.claiming)
      (idle : ∀ by_ now task', p = .marked by_ now task' → n.tasks = s.tasks)
  | started (claim : Claim) (now : Int) (task : SystemTask) (before : p = .marked claim now task)
      (after : q = .reading claim) (same : n.claiming = s.claiming)
  | leave (claim : Claim) (before : p.runner = some claim.runner) (after : q.runner = none)
      (left : n.claiming = s.claiming.filter (fun runner => runner ≠ claim.runner))

theorem pursuesRunner (h : p.pursues = some (claim,task)) : p.runner = some claim.runner := by
  cases p <;> simp only [Process.pursues,Option.some.injEq,Prod.mk.injEq,reduceCtorEq] at h
  all_goals
    obtain ⟨rfl,rfl⟩ := h
    rfl

theorem afterLockPursues (claim now task expired) :
    (afterLock claim now task expired).pursues = some (claim,task) := by
  unfold afterLock
  split <;> rfl

/- What a process may rely on later: an expiry knows a time that has passed, and that the task it sweeps no longer
runs under the lock seen; a release comes after the end of its task. -/
def Timely (s : Tables) : Process → Prop
  | .listing now => now ≤ s.clock
  | .expiring now _ => now ≤ s.clock
  | .sweeping now lock _ => now ≤ s.clock ∧ ∀ row ∈ s.tasks, row.taskID = lock.taskID → row.status = .running →
      ∀ held ∈ s.locks, held.taskID = lock.taskID → now ≤ held.lockedUntil
  | .releasing taskID _ => ∃ row ∈ s.tasks, row.taskID = taskID ∧ row.status.active = false
  | _ => True

structure Advanced (s : Tables) (p : Process) (n : Tables) (q : Process) : Prop where
  change : Change p s n
  goes : Goes s n p q
  clock : n.clock = s.clock
  timely : Timely s p → Timely n q

variable {claim : Claim} {task : SystemTask} {q : Process}

theorem rests (result) (alone : p.runner = none) : Advanced s p s (.finished result) :=
  ⟨.quiet rfl rfl,.apart alone rfl rfl,rfl,fun _ => trivial⟩

theorem leaves (result) (mine : p.runner = some claim.runner) : Advanced s p (s.leave claim) (.finished result) :=
  ⟨.quiet rfl rfl,.leave claim mine rfl rfl,rfl,fun _ => trivial⟩

theorem pursuesOn (before : p.pursues = some (claim,task)) (after : q.pursues = some (claim,task)) (change : Change p s n)
    (same : n.claiming = s.claiming) (idle : ∀ by_ now task', p = .marked by_ now task' → n.tasks = s.tasks)
    (clock : n.clock = s.clock) : Advanced s p n q := by
  refine ⟨change,.pursue claim task before after same idle,clock,fun _ => ?_⟩
  cases q with
  | listing | expiring | sweeping | releasing => cases after
  | _ => trivial

theorem enterSpec (h : enter s fails call = some (n,q)) : Advanced s (.called call) n q := by
  cases call with
  | createSystemTask taskID taskType payload state =>
    simp only [enter] at h
    split at h
    · rename_i _ inserted
      unfold insertTask at inserted
      split at inserted
      · cases inserted
      rename_i fresh
      cases inserted
      split at h <;> cases h
      · exact rests _ rfl
      refine ⟨.create ⟨nextID s.tasks,taskID,taskType,.pending,some taskType,payload,state,"","","",s.clock,s.clock⟩
        rfl rfl rfl rfl (fun old member => not_or.mp (fun hit => ?_)) rfl rfl,.apart rfl rfl rfl,rfl,fun _ => trivial⟩
      exact fresh (any_eq_true.mpr ⟨old,member,by simpa using hit⟩)
    · cases h
      exact rests _ rfl
  | claimSystemTask claim =>
    simp only [enter] at h
    split at h
    · cases h
    rename_i free
    cases h
    exact ⟨.quiet rfl rfl,.enter claim s.clock rfl free rfl rfl,rfl,fun _ => trivial⟩
  | updateSystemTaskState | renewSystemTaskLock | finishSystemTask =>
    cases h
    exact ⟨.quiet rfl rfl,.apart rfl rfl rfl,rfl,fun _ => trivial⟩
  | expireStaleSystemTaskLocks =>
    cases h
    exact ⟨.quiet rfl rfl,.apart rfl rfl rfl,rfl,fun _ => le_refl _⟩
  | releaseSystemTaskLock taskID lockedBy =>
    simp only [enter] at h
    split at h <;> cases h
    · exact rests _ rfl
    · exact ⟨.delete taskID lockedBy (.inr (.inl rfl)) rfl rfl,.apart rfl rfl rfl,rfl,fun _ => trivial⟩

theorem advanceSpec (h : advance s fails p = some (n,q)) : Advanced s p n q := by
  cases p with
  | called => exact enterSpec h
  | updating taskID lockedBy state now =>
    simp only [advance,writeTask] at h
    split at h
    · cases h; exact rests _ rfl
    split at h <;> cases h
    · exact ⟨.write taskID lockedBy state now rfl rfl rfl,.apart rfl rfl rfl,rfl,fun _ => trivial⟩
    · exact rests _ rfl
  | renewing taskID lockedBy lockUntil now =>
    simp only [advance,renewLock] at h
    split at h
    · cases h; exact rests _ rfl
    split at h <;> cases h
    · exact ⟨.renew taskID lockedBy lockUntil now rfl rfl rfl,.apart rfl rfl rfl,rfl,fun _ => trivial⟩
    · exact rests _ rfl
  | finishing taskID lockedBy ending result error now =>
    simp only [advance,writeTask] at h
    split at h
    · cases h; exact rests _ rfl
    split at h <;> cases h
    · rename_i hit
      obtain ⟨row,member,fence⟩ := any_eq_true.mp hit
      refine ⟨.finish taskID lockedBy ending result error now rfl hit rfl rfl,.apart rfl rfl rfl,rfl,fun _ =>
        ⟨writeEnd ending result error now row,?_,(fencedLease fence).1,endActive ending⟩⟩
      exact mem_map.mpr ⟨row,member,by rw [if_pos fence]⟩
    · exact rests _ rfl
  | releasing taskID lockedBy =>
    simp only [advance] at h
    split at h <;> cases h
    · exact rests _ rfl
    · exact ⟨.delete taskID lockedBy (.inl rfl) rfl rfl,.apart rfl rfl rfl,rfl,fun _ => trivial⟩
  | looking claim now =>
    simp only [advance] at h
    split at h
    · cases h; exact leaves _ rfl
    split at h
    · cases h; exact leaves _ rfl
    rename_i task found
    cases h
    exact ⟨.quiet rfl rfl,.select claim now task rfl rfl found rfl,rfl,fun _ => trivial⟩
  | selected claim now task =>
    have other : ∀ by_ now' task', Process.selected claim now task = .marked by_ now' task' → n.tasks = s.tasks :=
      fun _ _ _ same => by cases same
    simp only [advance,insertLock] at h
    split at h
    · cases h; exact pursuesOn rfl rfl (.quiet rfl rfl) rfl other rfl
    split at h
    · rename_i n' inserted
      split at inserted
      · cases inserted
      rename_i free
      cases inserted
      cases h
      refine pursuesOn rfl rfl (.insert claim now task rfl (fun row member same => ?_) rfl rfl) rfl other rfl
      exact free (any_eq_true.mpr ⟨row,member,decide_eq_true same⟩)
    · cases h; exact pursuesOn rfl rfl (.quiet rfl rfl) rfl other rfl
  | conflicted =>
    simp only [advance] at h
    split at h
    · cases h; exact leaves _ rfl
    split at h
    · cases h; exact leaves _ rfl
    split at h <;> cases h
    · exact leaves _ rfl
    · exact pursuesOn rfl rfl (.quiet rfl rfl) rfl (fun _ _ _ same => by cases same) rfl
  | stale claim now task existing =>
    simp only [advance,takeLock] at h
    split at h
    · cases h; exact leaves _ rfl
    split at h
    · rename_i n' taken
      split at taken <;> cases taken
      cases h
      exact pursuesOn rfl (afterLockPursues claim now task existing.taskID) (.take claim now task existing rfl rfl rfl) rfl
        (fun _ _ _ same => by cases same) rfl
    · cases h; exact leaves _ rfl
  | acquired claim now task expired =>
    simp only [advance] at h
    split at h <;> cases h
    · exact pursuesOn rfl rfl (.quiet rfl rfl) rfl (fun _ _ _ same => by cases same) rfl
    · exact pursuesOn rfl rfl (.expire expired s.clock rfl rfl rfl) rfl (fun _ _ _ same => by cases same) rfl
  | marked claim now task =>
    simp only [advance,startTask] at h
    split at h
    · cases h; exact pursuesOn rfl rfl (.quiet rfl rfl) rfl (fun _ _ _ _ => rfl) rfl
    split at h
    · rename_i n' begun
      split at begun <;> cases begun
      cases h
      exact ⟨.start claim now task rfl rfl rfl,.started claim now task rfl rfl rfl,rfl,fun _ => trivial⟩
    · cases h; exact pursuesOn rfl rfl (.quiet rfl rfl) rfl (fun _ _ _ _ => rfl) rfl
  | withdrawing claim task result =>
    simp only [advance] at h
    split at h <;> cases h
    · exact leaves _ rfl
    · exact ⟨.delete task.taskID claim.runner (.inr (.inr ⟨claim,task,result,rfl,rfl,rfl⟩)) rfl rfl,
        .leave claim rfl rfl rfl,rfl,fun _ => trivial⟩
  | reading =>
    simp only [advance] at h
    split at h
    · cases h; exact leaves _ rfl
    · split at h <;> cases h <;> exact leaves _ rfl
  | listing =>
    simp only [advance] at h
    split at h <;> cases h
    · exact rests _ rfl
    · exact ⟨.quiet rfl rfl,.apart rfl rfl rfl,rfl,id⟩
  | expiring now locks =>
    cases locks with
    | nil => cases h; exact rests _ rfl
    | cons lock =>
      simp only [advance] at h
      split at h <;> cases h
      · exact rests _ rfl
      refine ⟨.expire lock.taskID s.clock rfl rfl rfl,.apart rfl rfl rfl,rfl,fun timely =>
        ⟨timely,fun _ member name runs => ?_⟩⟩
      obtain ⟨row,_,rfl⟩ := mem_map.mp member
      split at runs
      · cases runs
      rename_i missed
      rw [if_neg missed] at name
      exact absurd (by simp [expirable,name,runs]) missed
  | sweeping now lock rest =>
    simp only [advance] at h
    split at h <;> cases h
    · exact rests _ rfl
    · exact ⟨.sweep now lock rest rfl rfl rfl,.apart rfl rfl rfl,rfl,And.left⟩
  | finished => cases h

theorem goesTaken (goes : Goes s n p q) (own : ∀ k, p.runner = some k → k ∈ s.claiming) :
    (∀ k, k ∈ n.claiming ↔ (k ∈ s.claiming ∧ p.runner ≠ some k) ∨ q.runner = some k) ∧
      ∀ k, q.runner = some k → p.runner = some k ∨ k ∉ s.claiming := by
  have kept : n.claiming = s.claiming → p.runner = q.runner →
      (∀ k, k ∈ n.claiming ↔ (k ∈ s.claiming ∧ p.runner ≠ some k) ∨ q.runner = some k) ∧
        ∀ k, q.runner = some k → p.runner = some k ∨ k ∉ s.claiming := by
    intro same alike
    refine ⟨fun k => ?_,fun k mine => .inl (alike.trans mine)⟩
    rw [same,← alike]
    by_cases mine : p.runner = some k
    · simp [mine,own k mine]
    · simp [mine]
  cases goes with
  | apart before after same => exact kept same (before.trans after.symm)
  | enter claim now before free after joined =>
    subst after
    refine ⟨fun k => ?_,fun k mine => ?_⟩
    · rw [joined,before,mem_cons]
      simp [Process.runner,eq_comm,or_comm]
    · cases mine
      exact .inr free
  | select claim now task before after _ same | started claim now task before after same =>
    subst before after
    exact kept same rfl
  | pursue claim task before after same =>
    exact kept same ((pursuesRunner before).trans (pursuesRunner after).symm)
  | leave claim before after left =>
    refine ⟨fun k => ?_,fun k mine => ?_⟩
    · rw [left,before,after,mem_filter]
      constructor
      · rintro ⟨member,different⟩
        exact .inl ⟨member,fun same => of_decide_eq_true different (Option.some.inj same).symm⟩
      rintro (⟨member,different⟩ | none_)
      · exact ⟨member,decide_eq_true (fun same => different (congrArg some same.symm))⟩
      · cases none_
    · rw [after] at mine
      cases mine

structure Sound (runners : Runners) : Prop where
  orderly : Orderly runners.shared
  exclusive : Pool.Exclusive Process.runner (fun s k => k ∈ s.claiming) runners
  fits : ∀ p ∈ runners.procs, ∀ claim task, p.pursues = some (claim,task) → Pursued runners.shared claim task

theorem pursuedKept (rows : Rows p s.tasks n.tasks) {claim} (pursued : Pursued s claim task)
    (apart : ∀ by_ now task', p = .marked by_ now task' → n.tasks = s.tasks ∨ by_.runner ≠ claim.runner) :
    Pursued n claim task where
  named := by
    obtain ⟨row,member,id,name,kind⟩ := pursued.named
    obtain ⟨row',inside,later⟩ := rowsAhead rows member
    exact ⟨row',inside,later.id.trans id,later.taskID.trans name,later.taskType.trans kind⟩
  unclaimed := by
    intro row' inside name moved
    rcases rowsBack rows inside with ⟨row,member,later⟩ | ⟨waits,_⟩
    · by_cases waits : row.status = .pending
      · obtain ⟨by_,now,task',acting,_,_,_,holder⟩ := later.claimed waits moved
        rcases apart by_ now task' acting with same | other
        · rw [same] at inside
          exact pursued.unclaimed row' inside name moved
        · rw [holder]
          exact other
      · rw [(later.settled waits).2]
        exact pursued.unclaimed row member (later.taskID.symm.trans name) waits
    · exact absurd waits moved

theorem pursuedSelected (orderly : Orderly s) (found : s.tasks.find? (claimable claim.id claim.taskType) = some task) : Pursued s claim task := by
  have member := mem_of_find?_eq_some found
  have hit := List.find?_some found
  simp only [claimable,Bool.and_eq_true,decide_eq_true_eq] at hit
  refine ⟨⟨task,member,hit.1.1,rfl,hit.1.2⟩,fun _ inside name moved => ?_⟩
  rw [inj_on_of_nodup_map orderly.names inside member name] at moved
  exact absurd hit.2 moved

theorem actSound (sound : Sound runners)
    (found : runners.procs[i]? = some p) (moved : act runners.shared p choice = some (s,q)) :
    Sound ⟨s,runners.procs.set i q⟩ := by
  have ⟨change,goes,_,_⟩ := advanceSpec moved
  have here := sound.fits p (mem_of_getElem? found)
  have orderly : Orderly {runners.shared with clock := runners.shared.clock + choice.elapsed} :=
    {sound.orderly with}
  have rows := changeRows change
  have taken := goesTaken goes (fun k mine => sound.exclusive.held i p k found mine)
  refine ⟨changeOrderly orderly change (fun c t pursues => ⟨(here c t pursues).named,(here c t pursues).unclaimed⟩),
    Pool.actExclusive sound.exclusive found taken.1 taken.2,?_⟩
  intro r inside claim task pursues
  obtain ⟨j,at'⟩ := mem_iff_getElem?.mp inside
  rcases Pool.setElem found at' with ⟨_,rfl⟩ | ⟨other,old⟩
  · cases goes with
    | apart _ after | leave _ _ after =>
      rw [pursuesRunner pursues] at after
      cases after
    | enter _ _ _ _ after | started _ _ _ _ after =>
      rw [after] at pursues
      cases pursues
    | select claim' _ task' before after picked =>
      rw [after] at pursues
      cases pursues
      have selected := pursuedSelected orderly picked
      refine pursuedKept rows ⟨selected.named,selected.unclaimed⟩ (fun by_ now' task' acting => ?_)
      rw [before] at acting
      cases acting
    | pursue claim' task' before after _ idle =>
      cases Option.some.inj (after.symm.trans pursues)
      have pursued := here claim task before
      exact pursuedKept rows ⟨pursued.named,pursued.unclaimed⟩ (fun by_ now' task' acting => .inl (idle by_ now' task' acting))
  · have pursued := sound.fits r (mem_of_getElem? old) claim task pursues
    refine pursuedKept rows ⟨pursued.named,pursued.unclaimed⟩ (fun by_ now' task' acting => .inr (fun same => other ?_))
    have mine : p.runner = some claim.runner := by
      rw [acting]
      exact congrArg some same
    exact sound.exclusive.alone j i r p _ old found (pursuesRunner pursues) mine

theorem startSound (sound : Sound runners) (begins : starts p) :
    Sound ⟨runners.shared,runners.procs ++ [p]⟩ := by
  cases p with
  | called =>
    exact ⟨sound.orderly,Pool.startExclusive sound.exclusive rfl,
      allAdded sound.fits (fun claim task pursues => by cases pursues)⟩
  | _ => cases begins

theorem stepSound {n} (sound : Sound runners) (h : runnerStep runners move = some n) : Sound n := by
  cases move with
  | start =>
    obtain ⟨begins,rfl⟩ := Pool.stepStart h
    exact startSound sound begins
  | act =>
    obtain ⟨p,s,q,found,moved,rfl⟩ := Pool.stepAct h
    exact actSound sound found moved

theorem idleSound (orderly : Orderly s) (idle : s.claiming = []) : Sound ⟨s,[]⟩ := by
  refine ⟨orderly,Pool.emptyExclusive (by simp [idle]),fun p member => ?_⟩
  cases member

theorem runSound (orderly : Orderly s) (idle : s.claiming = [])
    (h : run runnerStep ⟨s,[]⟩ moves = some out) : Sound out :=
  runAlways (fun _ _ _ sound moved => stepSound sound moved) (idleSound orderly idle) h

structure Lost (runner taskID : String) (s : Tables) : Prop where
  claimed : ∃ row ∈ s.tasks, row.taskID = taskID ∧ row.status ≠ .pending ∧ row.lockedBy = runner
  without : ∀ lock ∈ s.locks, lock.taskID = taskID → lock.lockedBy ≠ runner

def Claimed (runner taskID : String) (s : Tables) : Prop :=
  ∃ row ∈ s.tasks, row.taskID = taskID ∧ row.status ≠ .pending ∧ row.lockedBy = runner

theorem claimedKept (rows : Rows p s.tasks n.tasks) (claimed : Claimed runner taskID s) : Claimed runner taskID n := by
  obtain ⟨row,member,name,settled,holder⟩ := claimed
  obtain ⟨row',inside,later⟩ := rowsAhead rows member
  exact ⟨row',inside,later.taskID.trans name,(later.settled settled).1,(later.settled settled).2.trans holder⟩

theorem claimedStep {n} (claimed : Claimed runner taskID runners.shared) (h : runnerStep runners move = some n) :
    Claimed runner taskID n.shared := by
  cases move with
  | start =>
    obtain ⟨_,rfl⟩ := Pool.stepStart h
    exact claimed
  | act =>
    obtain ⟨p,s,q,_,moved,rfl⟩ := Pool.stepAct h
    exact claimedKept (changeRows (advanceSpec moved).change) claimed

theorem lostStep {n} (sound : Sound runners) (lost : Lost runner taskID runners.shared)
    (h : runnerStep runners move = some n) : Lost runner taskID n.shared := by
  refine ⟨claimedStep lost.claimed h,?_⟩
  cases move with
  | start =>
    obtain ⟨_,rfl⟩ := Pool.stepStart h
    exact lost.without
  | act =>
    obtain ⟨p,s,q,found,moved,rfl⟩ := Pool.stepAct h
    intro _ member name
    rcases locksBack (advanceSpec moved).change member with ⟨lock,old,_,same,holder⟩ | ⟨claim,task,pursues,_,same,holder⟩
    · rw [← holder]
      exact lost.without lock old (same.trans name)
    obtain ⟨row,inside,rowName,settled,mine⟩ := lost.claimed
    have pursued := sound.fits p (mem_of_getElem? found) claim task pursues
    rw [holder]
    intro eq
    exact pursued.unclaimed row inside (rowName.trans (name.symm.trans same)) settled (mine.trans eq.symm)

theorem runLost (sound : Sound runners) (lost : Lost runner taskID runners.shared)
    (h : run runnerStep runners moves = some out) : Lost runner taskID out.shared := by
  have keep : ∀ (a : Runners) move b, Sound a ∧ Lost runner taskID a.shared → runnerStep a move = some b →
      Sound b ∧ Lost runner taskID b.shared :=
    fun _ _ _ here moved => ⟨stepSound here.1 moved,lostStep here.1 here.2 moved⟩
  exact (runAlways keep ⟨sound,lost⟩ h).2

theorem updateNone {ρ : Type} {hits f} {rows : List ρ} (none_ : ∀ row ∈ rows, hits row = false) :
    updateWhere hits f rows = rows := by
  conv_rhs => rw [← map_id rows]
  refine map_congr_left (fun row member => ?_)
  simp [none_ row member]

theorem lostQuiet (lost : Lost runner taskID s) (concerns : p.concerns = some (taskID,runner))
    (change : Change p s n) : n.tasks = s.tasks ∧ n.locks = s.locks := by
  have unleased : ∀ now, ∀ lock ∈ s.locks, leased taskID runner now lock = false := by
    intro now lock member
    have different := lost.without lock member
    by_cases same : lock.taskID = taskID <;> simp_all [leased]
  have unfenced : ∀ now, ∀ row ∈ s.tasks, fenced taskID runner now s row = false := by
    intro now row member
    by_cases same : row.taskID = taskID
    · have none_ : s.locks.any (leased row.taskID runner now) = false := by
        rw [same]
        exact any_eq_false.mpr (fun lock inside => by rw [unleased now lock inside]; exact Bool.false_ne_true)
      simp [fenced,none_]
    · simp [fenced,same]
  have unreleased : s.locks.filter (fun row => !released taskID runner row) = s.locks := by
    refine filter_eq_self.mpr (fun lock member => ?_)
    have different := lost.without lock member
    by_cases same : lock.taskID = taskID <;> simp_all [released]
  cases change with
  | quiet tasks locks => exact ⟨tasks,locks⟩
  | create _ acting | expire _ _ acting =>
    rw [concerns] at acting
    cases acting
  | insert _ _ _ acting | take _ _ _ _ acting | start _ _ _ acting | sweep _ _ _ acting => subst acting; cases concerns
  | write _ _ _ now acting tasks locks | finish _ _ _ _ _ now acting _ tasks locks =>
    subst acting
    cases concerns
    exact ⟨tasks.trans (updateNone (unfenced now)),locks⟩
  | renew _ _ _ now acting tasks locks =>
    subst acting
    cases concerns
    exact ⟨tasks,locks.trans (updateNone (unleased now))⟩
  | delete _ _ acting tasks locks =>
    rcases acting with rfl | rfl | ⟨_,_,_,rfl,rfl,rfl⟩ <;> cases concerns <;>
      exact ⟨tasks,locks.trans unreleased⟩

def Writes (runner taskID : String) (runners : Runners) (move : Pool.Move Process Choice) (n : Runners) : Prop :=
  ∃ i choice p q, move = .act i choice ∧ runners.procs[i]? = some p ∧ n.procs[i]? = some q ∧
    ((∃ state now, p = .updating taskID runner state now ∧ q = .finished .done) ∨
      ∃ ending result error now, p = .finishing taskID runner ending result error now ∧ q = .releasing taskID runner)

theorem writesFenced {n} (h : runnerStep runners move = some n)
    (writes : Writes runner taskID runners move n) : ∃ now, ∃ row ∈ runners.shared.tasks,
      fenced taskID runner now runners.shared row := by
  obtain ⟨i,_,p,q,rfl,found,after,which⟩ := writes
  obtain ⟨_,s,_,found',moved,rfl⟩ := Pool.stepAct h
  cases Option.some.inj (found.symm.trans found')
  rw [List.getElem?_set_self (List.getElem?_eq_some_iff.mp found).1] at after
  cases after
  rcases which with ⟨_,now,rfl,rfl⟩ | ⟨_,_,_,now,rfl,rfl⟩
  all_goals
    simp only [act,advance,writeTask] at moved
    split at moved
    · cases moved
    split at moved
    · rename_i hit
      obtain ⟨row,member,fence⟩ := any_eq_true.mp hit
      exact ⟨now,row,member,fence⟩
    · cases moved

theorem lostElsewhere (orderly : Orderly s) (member : row ∈ s.tasks)
    (name : row.taskID = taskID) (settled : row.status ≠ .pending) (mine : row.lockedBy = runner)
    (inside : lock ∈ s.locks) (kind : lock.taskType = row.taskType) (other : lock.lockedBy ≠ runner) :
    Lost runner taskID s := by
  refine ⟨⟨row,member,name,settled,mine⟩,fun lock' inside' name' => ?_⟩
  obtain ⟨_,member',sameName,sameKind⟩ := orderly.owned lock' inside'
  have same := inj_on_of_nodup_map orderly.names member' member (sameName.trans (name'.trans name.symm))
  have one := inj_on_of_nodup_map orderly.kinds inside' inside (sameKind.symm.trans (by rw [same,kind]))
  rw [one]
  exact other

theorem leaseExclusive {s : Tables} (orderly : Orderly s) (idle : s.claiming = []) (runner taskID : String) :
    (∀ {xs ys zs first second} {a b m c d : Runners},
      run runnerStep ⟨s,[]⟩ xs = some a → runnerStep a first = some b → Writes runner taskID a first b →
      run runnerStep b ys = some m → run runnerStep m zs = some c → runnerStep c second = some d →
      Writes runner taskID c second d → ∀ row ∈ m.shared.tasks, row.taskID = taskID →
      ∀ lock ∈ m.shared.locks, lock.taskType = row.taskType → lock.lockedBy = runner) ∧
    ∀ {xs ys} {a m n : Runners} {i choice p row lock},
      run runnerStep ⟨s,[]⟩ xs = some a → row ∈ a.shared.tasks → row.taskID = taskID → row.status ≠ .pending →
      row.lockedBy = runner → lock ∈ a.shared.locks → lock.taskType = row.taskType → lock.lockedBy ≠ runner →
      run runnerStep a ys = some m → m.procs[i]? = some p → p.concerns = some (taskID,runner) →
      runnerStep m (.act i choice) = some n →
      n.shared.tasks = m.shared.tasks ∧ n.shared.locks = m.shared.locks := by
  constructor
  · intro xs ys zs first second a b m c d reached moved writes between later moved' writes' row member name lock inside kind
    have soundA := runSound orderly idle reached
    have soundB := stepSound soundA moved
    have soundM := runAlways (fun _ _ _ sound moved => stepSound sound moved) soundB between
    obtain ⟨_,row₁,member₁,fence₁⟩ := writesFenced moved writes
    obtain ⟨name₁,runs₁,holder₁,_⟩ := fencedLease fence₁
    have claimedB := claimedStep ⟨row₁,member₁,name₁,by rw [runs₁]; exact (by cases ·),holder₁⟩ moved
    obtain ⟨_,member₂,name₂,settled₂,holder₂⟩ := runAlways (fun _ _ _ claimed moved => claimedStep claimed moved) claimedB between
    have same := inj_on_of_nodup_map soundM.orderly.names member₂ member (name₂.trans name.symm)
    subst same
    by_contra other
    -- the lease would be lost for good, but the second write has met it
    have lost := runLost soundM (lostElsewhere soundM.orderly member₂ name₂ settled₂ holder₂ inside kind other) later
    obtain ⟨_,_,_,fence₃⟩ := writesFenced moved' writes'
    obtain ⟨_,_,_,lock₃,inside₃,name₃,holder₃⟩ := fencedLease fence₃
    exact lost.without lock₃ inside₃ name₃ holder₃
  · intro xs ys a m n i choice p row lock reached member name settled mine inside kind other later found concerns moved
    have soundA := runSound orderly idle reached
    have lost := runLost soundA (lostElsewhere soundA.orderly member name settled mine inside kind other) later
    obtain ⟨_,t,q,found',changed,rfl⟩ := Pool.stepAct moved
    cases Option.some.inj (found.symm.trans found')
    exact lostQuiet (s := {m.shared with clock := m.shared.clock + choice.elapsed}) ⟨lost.claimed,lost.without⟩ concerns
      (advanceSpec changed).change

def runningTask : SystemTask := ⟨1,"systask_t","log_cleanup",.running,some "log_cleanup","","","","","a",0,0⟩

def ownLock : SystemTaskLock := ⟨"log_cleanup","systask_t","a",50,0⟩

def runningTables : Tables := ⟨10,[runningTask],[ownLock],[]⟩

theorem runningOrderly : Orderly runningTables := by
  refine ⟨by decide,by decide,by decide,?_,?_,?_⟩
  · intro _ member
    rw [mem_singleton.mp member]
    rfl
  · intro a left b right _ _ _
    rw [mem_singleton.mp left,mem_singleton.mp right]
  · intro _ member
    rw [mem_singleton.mp member]
    exact ⟨runningTask,mem_singleton_self _,rfl,rfl⟩

def prompt : Choice := ⟨0,false⟩

def firstUpdate : List (Pool.Move Process Choice) :=
  [.start (.called (.updateSystemTaskState "systask_t" "a" "1")),.act 0 prompt]

def secondUpdate : List (Pool.Move Process Choice) :=
  [.start (.called (.updateSystemTaskState "systask_t" "a" "2")),.act 1 prompt]

theorem twoUpdatesOneHolder : ∃ a b m d : Runners, run runnerStep ⟨runningTables,[]⟩ firstUpdate = some a ∧
    runnerStep a (.act 0 prompt) = some b ∧ run runnerStep b secondUpdate = some m ∧
    runnerStep m (.act 1 prompt) = some d ∧ ∀ lock ∈ m.shared.locks, lock.taskType = "log_cleanup" → lock.lockedBy = "a" := by
  refine ⟨_,_,_,_,rfl,rfl,rfl,rfl,fun lock inside kind => ?_⟩
  have between := (leaseExclusive runningOrderly rfl "a" "systask_t").1
    (show run runnerStep ⟨runningTables,[]⟩ firstUpdate = some _ from rfl)
    (show runnerStep _ (.act 0 prompt) = some _ from rfl) ⟨0,prompt,_,_,rfl,rfl,rfl,.inl ⟨_,_,rfl,rfl⟩⟩
    (show run runnerStep _ secondUpdate = some _ from rfl) (show run runnerStep _ [] = some _ from rfl)
    (show runnerStep _ (.act 1 prompt) = some _ from rfl) ⟨1,prompt,_,_,rfl,rfl,rfl,.inl ⟨_,_,rfl,rfl⟩⟩
  exact between _ (mem_singleton_self _) rfl lock inside kind

end Omnigate.SystemTasks
