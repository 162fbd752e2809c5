import Omnigate.TaskBilling

/-! What the pollers, the timeout sweep and a client's fetch make of one task: the copy in memory after an upstream
answer, the guarded write that follows and the billing it calls for. A fetch, read or parse that failed is
`unreadable`. -/
namespace Omnigate.TaskPolling

open TaskBilling TaskRow

structure Site where
  serverAddress : String
  taskTimeoutMinutes : Int

def buildProxyURL (site : Site) (taskID : String) : String :=
  site.serverAddress ++ "/v1/videos/" ++ taskID ++ "/content"

inductive ErrorBody where
  | notJson | openAI (code : String) | unrecognized
  deriving DecidableEq, Repr

inductive Answer where
  | unreadable
  | parsed (taskResult : TaskInfo) (data : List UInt8) (errorBody : ErrorBody)
  deriving DecidableEq

/- The write an answer leads to. Billing follows a `guarded` write only if it was won; a
`plain` one is not waited for. -/
inductive Write where
  | skip | plain | guarded
  deriving DecidableEq, Repr

structure Outcome where
  task : Task
  write : Write
  (refund settle : Bool)
  deriving DecidableEq

def untouched (task : Task) : Outcome := ⟨task,.skip,false,false⟩

def failTaskInfo (reason : String) : TaskInfo := ⟨some .failure,reason,"","",0⟩

/- An answer without a status is a failure unless it says to come back later. -/
def resolveStatus (taskResult : TaskInfo) (errorBody : ErrorBody) : Option TaskInfo :=
  match taskResult.status with
  | some _ => some taskResult
  | none => match errorBody with
    | .notJson => some taskResult
    | .openAI code => if code = "429" then none else some (failTaskInfo "upstream returned error")
    | .unrecognized => some (failTaskInfo "upstream returned unrecognized message")

def resultURL (site : Site) (task : Task) (url : String) : String :=
  if url.startsWith "data:" then buildProxyURL site task.taskID
  else if url ≠ "" then url
  else buildProxyURL site task.taskID

def orNow (time now : Int) : Int := if time = 0 then now else time

def applyStatus (site : Site) (now : Int) (taskResult : TaskInfo) (task : Task) : Option Task :=
  match taskResult.status with
  | some .submitted => some { task with progress := "10%" }
  | some .queued => some { task with progress := "20%" }
  | some .inProgress => some { task with progress := "30%", startTime := orNow task.startTime now }
  | some .success => some {task with
      progress := "100%", finishTime := orNow task.finishTime now,
      privateData := {task.privateData with resultURL := resultURL site task taskResult.url} }
  | some .failure => some {task with
      progress := "100%", finishTime := orNow task.finishTime now, failReason := taskResult.reason }
  | _ => none

def reportedProgress (taskResult : TaskInfo) (task : Task) : Task :=
  if taskResult.status = some .failure then task
  else if taskResult.progress = "" then task
  else {task with progress := taskResult.progress}

def statusOf (taskResult : TaskInfo) : TaskStatus := taskResult.status.getD (.other "")

def updateVideoSingleTask (site : Site) (now : Int) (answer : Answer) (task : Task) : Outcome :=
  match answer with
  | .unreadable => untouched task
  | .parsed reported data errorBody =>
    match resolveStatus reported errorBody with
    | none => untouched {task with data := data}
    | some taskResult =>
      let moved := {task with data := data, status := statusOf taskResult}
      match applyStatus site now taskResult moved with
      | none => untouched moved
      | some updated =>
        let updated := reportedProgress taskResult updated
        ⟨updated,if terminal updated.status ∧ task.status ≠ updated.status then .guarded
          else if snapshot task = snapshot updated then .skip else .plain,
          updated.status = .failure ∧ task.quota ≠ 0,updated.status = .success⟩

structure SunoItem where
  status : Option TaskStatus
  failReason : String
  (submitTime startTime finishTime : Int)
  data : List UInt8
  deriving DecidableEq

def sortedBytes (data : List UInt8) : List UInt8 := data.mergeSort (· ≤ ·)

def taskNeedsUpdate (oldTask : Task) (newTask : SunoItem) : Bool :=
  oldTask.submitTime ≠ newTask.submitTime ∨ oldTask.startTime ≠ newTask.startTime ∨
  oldTask.finishTime ≠ newTask.finishTime ∨ some oldTask.status ≠ newTask.status ∨
  oldTask.failReason ≠ newTask.failReason ∨ (terminal oldTask.status ∧ oldTask.progress ≠ "100%") ∨
  sortedBytes oldTask.data ≠ sortedBytes newTask.data

def unlessZero (value old : Int) : Int := if value ≠ 0 then value else old

def updateSunoTask (item : SunoItem) (task : Task) : Outcome :=
  if ¬taskNeedsUpdate task item then untouched task
  else
    let status := item.status.getD task.status
    let isFailure := item.failReason ≠ "" ∨ status = .failure
    let updated := {task with
      status := if isFailure then .failure else status
      failReason := if item.failReason ≠ "" then item.failReason else task.failReason
      submitTime := unlessZero item.submitTime task.submitTime
      startTime := unlessZero item.startTime task.startTime
      finishTime := unlessZero item.finishTime task.finishTime
      progress := if isFailure ∨ item.status = some .success then "100%" else task.progress
      data := item.data }
    ⟨updated,.guarded,isFailure ∧ task.status ≠ .failure ∧ task.quota ≠ 0,false⟩

def isLegacy (task : Task) : Bool := 0 < task.submitTime ∧ task.submitTime < taskRefundLegacyCutoff

/- The per-task part of `sweepTimedOutTasks`. A task of the old system is failed with its quota cleared, so nothing
refunds it later. -/
def timeOut (site : Site) (now : Int) (task : Task) : Outcome :=
  let failed := { task with status := .failure, progress := "100%", finishTime := now }
  if isLegacy task then
    ⟨{ failed with failReason := "任务超时（旧系统遗留任务，不进行退款，请联系管理员）", quota := 0 },.guarded,false,false⟩
  else
    ⟨{ failed with failReason := "任务超时（" ++ toString site.taskTimeoutMinutes ++ "分钟）" },.guarded,
      task.quota ≠ 0,false⟩

def fetchedURL (site : Site) (taskResult : TaskInfo) (task : Task) : String :=
  if taskResult.url.startsWith "data:" then task.privateData.resultURL
  else if taskResult.url ≠ "" then taskResult.url
  else if task.status = .success then buildProxyURL site task.taskID
  else task.privateData.resultURL

/- A client asks for its task: whatever upstream says is written over the loaded status,
and no billing follows. -/
def tryRealtimeFetch (site : Site) (answer : Answer) (task : Task) : Outcome :=
  match answer with
  | .unreadable => untouched task
  | .parsed taskResult _ _ =>
    let moved := {task with
      status := taskResult.status.getD task.status
      progress := if taskResult.progress = "" then task.progress else taskResult.progress }
    let updated := {moved with
      privateData := {moved.privateData with resultURL := fetchedURL site taskResult moved} }
    ⟨updated,if snapshot task = snapshot updated then .skip else .plain,false,false⟩

end Omnigate.TaskPolling
