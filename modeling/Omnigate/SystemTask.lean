import Omnigate.Pool
import Omnigate.Table

/-! System tasks and their leases. A runner claims a pending task by three statements without a transaction: it takes
the lock row of the type, fails the task that an expired lock carried, and sets the task running. A runner makes one
claim after the other; the heartbeat, state updates and the end of a task run beside. Every function is a process of
single statements; before each of them time may pass, and each may fail. -/
namespace Omnigate.SystemTasks

inductive SystemTaskStatus where
  | pending
  | running
  | succeeded
  | failed
  deriving DecidableEq, Repr

def SystemTaskStatus.active : SystemTaskStatus → Bool
  | .pending => true
  | .running => true
  | _ => false

structure SystemTask where
  id : Nat
  (taskID taskType : String)
  status : SystemTaskStatus
  activeKey : Option String
  (payload state result error lockedBy : String)
  (createdAt updatedAt : Int)
  deriving DecidableEq, Repr

structure SystemTaskLock where
  (taskType taskID lockedBy : String)
  (lockedUntil updatedAt : Int)
  deriving DecidableEq, Repr

structure Tables where
  clock : Int
  tasks : List SystemTask
  locks : List SystemTaskLock
  claiming : List String

def nextID (tasks : List SystemTask) : Nat := tasks.foldr (fun row next => max (row.id+1) next) 1

def insertTask (taskID taskType payload state : String) (s : Tables) : Option Tables :=
  if s.tasks.any (fun row => row.taskID = taskID || row.activeKey = some taskType) then none
  else some {s with
    tasks := s.tasks ++ [⟨nextID s.tasks,taskID,taskType,.pending,some taskType,payload,state,"","","",s.clock,s.clock⟩] }

def expireRow (now : Int) (row : SystemTask) : SystemTask :=
  { row with status := .failed, activeKey := none, error := "task lease expired", updatedAt := now }

def expirable (taskID : String) (row : SystemTask) : Bool := row.taskID = taskID && row.status = .running

def markSystemTaskLeaseExpired (taskID : String) (s : Tables) : Tables :=
  {s with tasks := Table.updateWhere (expirable taskID) (expireRow s.clock) s.tasks}

def insertLock (lock : SystemTaskLock) (s : Tables) : Option Tables :=
  if s.locks.any (fun row => row.taskType = lock.taskType) then none
  else some {s with locks := s.locks ++ [lock]}

def takenOver (taskType : String) (now : Int) (row : SystemTaskLock) : Bool :=
  row.taskType = taskType && row.lockedUntil < now

/- The takeover of `acquireSystemTaskLock`: every column but the type is written. -/
def takeRow (lock row : SystemTaskLock) : SystemTaskLock := {lock with taskType := row.taskType}

def takeLock (lock : SystemTaskLock) (now : Int) (s : Tables) : Option Tables :=
  if s.locks.any (takenOver lock.taskType now) then
    some {s with locks := Table.updateWhere (takenOver lock.taskType now) (takeRow lock) s.locks}
  else none

def claimable (id : Nat) (taskType : String) (row : SystemTask) : Bool :=
  row.id = id && row.taskType = taskType && row.status = .pending

def startRow (runner : String) (now : Int) (row : SystemTask) : SystemTask :=
  {row with status := .running, lockedBy := runner, updatedAt := now}

def startTask (id : Nat) (taskType runner : String) (now : Int) (s : Tables) : Option Tables :=
  if s.tasks.any (claimable id taskType) then
    some {s with tasks := Table.updateWhere (claimable id taskType) (startRow runner now) s.tasks}
  else none

def leased (taskID lockedBy : String) (now : Int) (lock : SystemTaskLock) : Bool :=
  lock.taskID = taskID && lock.lockedBy = lockedBy && now ≤ lock.lockedUntil

/- The rows that the fenced updates of `UpdateSystemTaskState` and `FinishSystemTask` hit. -/
def fenced (taskID lockedBy : String) (now : Int) (s : Tables) (row : SystemTask) : Bool :=
  row.taskID = taskID && row.status = .running && row.lockedBy = lockedBy && s.locks.any (leased row.taskID lockedBy now)

def writeTask (taskID lockedBy : String) (now : Int) (f : SystemTask → SystemTask) (s : Tables) : Option Tables :=
  if s.tasks.any (fenced taskID lockedBy now s) then
    some {s with tasks := Table.updateWhere (fenced taskID lockedBy now s) f s.tasks}
  else none

def writeState (state : String) (now : Int) (row : SystemTask) : SystemTask := {row with state := state, updatedAt := now}

inductive Ending where
  | succeeded
  | failed
  deriving DecidableEq, Repr

def Ending.status : Ending → SystemTaskStatus
  | .succeeded => .succeeded
  | .failed => .failed

def writeEnd (ending : Ending) (result error : String) (now : Int) (row : SystemTask) : SystemTask :=
  {row with status := ending.status, activeKey := none, result := result, error := error, updatedAt := now}

def renewRow (lockUntil now : Int) (row : SystemTaskLock) : SystemTaskLock :=
  {row with lockedUntil := lockUntil, updatedAt := now}

def renewLock (taskID lockedBy : String) (lockUntil now : Int) (s : Tables) : Option Tables :=
  if s.locks.any (leased taskID lockedBy now) then
    some {s with locks := Table.updateWhere (leased taskID lockedBy now) (renewRow lockUntil now) s.locks}
  else none

def released (taskID lockedBy : String) (row : SystemTaskLock) : Bool := row.taskID = taskID && row.lockedBy = lockedBy

def deleteLock (taskID lockedBy : String) (s : Tables) : Tables :=
  {s with locks := s.locks.filter (fun row => !released taskID lockedBy row)}

def swept (lock : SystemTaskLock) (now : Int) (row : SystemTaskLock) : Bool :=
  row.taskType = lock.taskType && row.taskID = lock.taskID && row.lockedBy = lock.lockedBy && row.lockedUntil < now

def sweepLock (lock : SystemTaskLock) (now : Int) (s : Tables) : Tables :=
  {s with locks := s.locks.filter (fun row => !swept lock now row)}

structure Claim where
  id : Nat
  (taskType runner : String)
  lockUntil : Int
  deriving DecidableEq, Repr

inductive Call where
  | createSystemTask (taskID taskType payload state : String)
  | claimSystemTask (claim : Claim)
  | updateSystemTaskState (taskID lockedBy state : String)
  | renewSystemTaskLock (taskID lockedBy : String) (lockUntil : Int)
  | expireStaleSystemTaskLocks
  | releaseSystemTaskLock (taskID lockedBy : String)
  | finishSystemTask (taskID lockedBy : String) (ending : Ending) (result error : String)
  deriving DecidableEq, Repr

inductive Result where
  | done
  | claimed (task : SystemTask)
  | notClaimed
  | lockLost
  | error
  deriving DecidableEq, Repr

inductive Process where
  | called (call : Call)
  | updating (taskID lockedBy state : String) (now : Int)
  | renewing (taskID lockedBy : String) (lockUntil now : Int)
  | finishing (taskID lockedBy : String) (ending : Ending) (result error : String) (now : Int)
  | releasing (taskID lockedBy : String)
  | looking (claim : Claim) (now : Int)
  | selected (claim : Claim) (now : Int) (task : SystemTask)
  | conflicted (claim : Claim) (now : Int) (task : SystemTask)
  | stale (claim : Claim) (now : Int) (task : SystemTask) (existing : SystemTaskLock)
  | acquired (claim : Claim) (now : Int) (task : SystemTask) (expired : String)
  | marked (claim : Claim) (now : Int) (task : SystemTask)
  | withdrawing (claim : Claim) (task : SystemTask) (result : Result)
  | reading (claim : Claim)
  | listing (now : Int)
  | expiring (now : Int) (locks : List SystemTaskLock)
  | sweeping (now : Int) (lock : SystemTaskLock) (rest : List SystemTaskLock)
  | finished (result : Result)
  deriving DecidableEq, Repr

def Claim.lock (claim : Claim) (now : Int) (task : SystemTask) : SystemTaskLock :=
  ⟨claim.taskType,task.taskID,claim.runner,claim.lockUntil,now⟩

def Tables.leave (s : Tables) (claim : Claim) : Tables :=
  {s with claiming := s.claiming.filter (fun runner => runner ≠ claim.runner)}

/- After the lock is taken: the task of an expired lock is failed, unless it is the one being claimed. -/
def afterLock (claim : Claim) (now : Int) (task : SystemTask) (expired : String) : Process :=
  if expired ≠ "" ∧ expired ≠ task.taskID then .acquired claim now task expired else .marked claim now task

def written (next : Process) (s : Tables) : Option Tables → Tables × Process
  | some n => (n,next)
  | none => (s,.finished .lockLost)

structure Choice where
  elapsed : Nat
  fails : Bool

def enter (s : Tables) (fails : Bool) : Call → Option (Tables × Process)
  | .createSystemTask taskID taskType payload state =>
    match insertTask taskID taskType payload state s with
    | some n => if fails then some (s,.finished .error) else some (n,.finished .done)
    | none => some (s,.finished .error)
  | .claimSystemTask claim =>
    if claim.runner ∈ s.claiming then none
    else some ({s with claiming := claim.runner::s.claiming},.looking claim s.clock)
  | .updateSystemTaskState taskID lockedBy state => some (s,.updating taskID lockedBy state s.clock)
  | .renewSystemTaskLock taskID lockedBy lockUntil => some (s,.renewing taskID lockedBy lockUntil s.clock)
  | .expireStaleSystemTaskLocks => some (s,.listing s.clock)
  | .releaseSystemTaskLock taskID lockedBy =>
    if fails then some (s,.finished .error) else some (deleteLock taskID lockedBy s,.finished .done)
  | .finishSystemTask taskID lockedBy ending result error => some (s,.finishing taskID lockedBy ending result error s.clock)

def advance (s : Tables) (fails : Bool) : Process → Option (Tables × Process)
  | .called call => enter s fails call
  | .updating taskID lockedBy state now =>
    if fails then some (s,.finished .error)
    else some (written (.finished .done) s (writeTask taskID lockedBy now (writeState state now) s))
  | .renewing taskID lockedBy lockUntil now =>
    if fails then some (s,.finished .error)
    else some (written (.finished .done) s (renewLock taskID lockedBy lockUntil now s))
  | .finishing taskID lockedBy ending result error now =>
    if fails then some (s,.finished .error)
    else some (written (.releasing taskID lockedBy) s (writeTask taskID lockedBy now (writeEnd ending result error now) s))
  | .releasing taskID lockedBy =>
    if fails then some (s,.finished .error) else some (deleteLock taskID lockedBy s,.finished .done)
  | .looking claim now =>
    if fails then some (s.leave claim,.finished .error)
    else match s.tasks.find? (claimable claim.id claim.taskType) with
      | none => some (s.leave claim,.finished .notClaimed)
      | some task => some (s,.selected claim now task)
  | .selected claim now task =>
    -- any error of the insert counts as a conflict
    if fails then some (s,.conflicted claim now task)
    else match insertLock (claim.lock now task) s with
      | some n => some (n,.marked claim now task)
      | none => some (s,.conflicted claim now task)
  | .conflicted claim now task =>
    if fails then some (s.leave claim,.finished .error)
    else match s.locks.find? (fun row => row.taskType = claim.taskType) with
      | none => some (s.leave claim,.finished .notClaimed)
      | some existing =>
        if now ≤ existing.lockedUntil then some (s.leave claim,.finished .notClaimed)
        else some (s,.stale claim now task existing)
  | .stale claim now task existing =>
    if fails then some (s.leave claim,.finished .error)
    else match takeLock (claim.lock now task) now s with
      | some n => some (n,afterLock claim now task existing.taskID)
      | none => some (s.leave claim,.finished .notClaimed)
  | .acquired claim now task expired =>
    if fails then some (s,.withdrawing claim task .error)
    else some (markSystemTaskLeaseExpired expired s,.marked claim now task)
  | .marked claim now task =>
    if fails then some (s,.withdrawing claim task .error)
    else match startTask claim.id claim.taskType claim.runner now s with
      | some n => some (n,.reading claim)
      | none => some (s,.withdrawing claim task .notClaimed)
  | .withdrawing claim task result =>
    -- the error of this release is dropped
    if fails then some (s.leave claim,.finished result)
    else some ((deleteLock task.taskID claim.runner s).leave claim,.finished result)
  | .reading claim =>
    if fails then some (s.leave claim,.finished .error)
    else match s.tasks.find? (fun row => row.id = claim.id) with
      | some task => some (s.leave claim,.finished (.claimed task))
      | none => some (s.leave claim,.finished .error)
  | .listing now =>
    if fails then some (s,.finished .error)
    else some (s,.expiring now (s.locks.filter (fun row => row.lockedUntil < now)))
  | .expiring _ [] => some (s,.finished .done)
  | .expiring now (lock::rest) =>
    if fails then some (s,.finished .error)
    else some (markSystemTaskLeaseExpired lock.taskID s,.sweeping now lock rest)
  | .sweeping now lock rest =>
    if fails then some (s,.finished .error) else some (sweepLock lock now s,.expiring now rest)
  | .finished _ => none

def act (s : Tables) (p : Process) (choice : Choice) : Option (Tables × Process) :=
  advance {s with clock := s.clock + choice.elapsed} choice.fails p

def starts : Process → Bool
  | .called _ => true
  | _ => false

abbrev Runners := Pool.State Tables Process

abbrev runnerStep (runners : Runners) (move : Pool.Move Process Choice) : Option Runners :=
  Pool.step starts act runners move

end Omnigate.SystemTasks
