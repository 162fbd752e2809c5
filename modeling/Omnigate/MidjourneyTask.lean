import Omnigate.Table

/-! Midjourney tasks: what a submission checks, stores and charges, and what a poll result makes of a task. Statuses,
actions and progress are the texts of the upstream. The plus action and the simple change text are parsed elsewhere.
-/
namespace Omnigate.MidjourneyTask

open Table

structure Midjourney where
  (id code userId : Int)
  (action mjId prompt promptEn description state : String)
  (submitTime startTime finishTime : Int)
  (imageUrl videoUrl videoUrls status progress failReason : String)
  (channelId quota : Int)
  deriving DecidableEq, Repr

structure MidjourneyRequest where
  (prompt customId action : String)
  index : Int
  (taskId content : String)
  deriving DecidableEq, Repr

structure Properties where
  (imageUrl status : Option String)
  deriving DecidableEq, Repr

structure MidjourneyResponse where
  code : Int
  description : String
  properties : Option Properties
  result : String
  deriving DecidableEq, Repr

def midjourneyError (code : Int) (description : String) : MidjourneyResponse := ⟨code,description,none,""⟩

def requestError (description : String) : MidjourneyResponse := midjourneyError 4 description

inductive RelayMode where
  | imagine | describe | blend | change | simpleChange | action | modal | shorten | upload | video | edits | other
  deriving DecidableEq, Repr

structure Setup where
  coverPlusActionToNormalAction : MidjourneyRequest → Except MidjourneyResponse MidjourneyRequest
  convertSimpleChangeParams : String → Option (String × String)
  mjActionCheckSuccessEnabled : Bool

def enterMode (cfg : Setup) (mode : RelayMode) (request : MidjourneyRequest) :
    Except MidjourneyResponse (RelayMode × MidjourneyRequest) :=
  match mode with
  | .action => match cfg.coverPlusActionToNormalAction request with
    | .error e => .error e
    | .ok normal => .ok (.change,normal)
  | .video => .ok (.video,{ request with action := "VIDEO" })
  | mode => .ok (mode,request)

def ownAction : RelayMode → Option String
  | .imagine => some "IMAGINE"
  | .describe => some "DESCRIBE"
  | .edits => some "EDITS"
  | .shorten => some "SHORTEN"
  | .blend => some "BLEND"
  | .upload => some "UPLOAD"
  | _ => none

def originOf (cfg : Setup) (mode : RelayMode) (request : MidjourneyRequest) :
    Except MidjourneyResponse (String × MidjourneyRequest) :=
  match mode with
  | .change =>
    if request.taskId = "" then .error (requestError "task_id_is_required")
    else if request.action = "" then .error (requestError "action_is_required")
    else if request.index = 0 then .error (requestError "index_is_required")
    else .ok (request.taskId,request)
  | .simpleChange =>
    if request.content = "" then .error (requestError "content_is_required")
    else match cfg.convertSimpleChangeParams request.content with
      | none => .error (requestError "content_parse_failed")
      | some (taskId,action) => .ok (taskId,{request with action := action})
  | .modal => .ok (request.taskId,{ request with action := "MODAL" })
  | .video => .ok (request.taskId,{ request with action := "VIDEO" })
  | _ => .ok ("",request)

def getByMJId (rows : List Midjourney) (userId : Int) (mjId : String) : Option Midjourney :=
  rows.find? (fun row => row.userId = userId ∧ row.mjId = mjId)

structure Accepted where
  (action prompt : String)
  channelId : Int
  deriving DecidableEq, Repr

/- `channel` is the lookup of the earlier task's channel: an error, or whether it is enabled. -/
def acceptSubmit (cfg : Setup) (rows : List Midjourney) (channel : Except String Bool) (userId channelId : Int)
    (mode : RelayMode) (request : MidjourneyRequest) : Except MidjourneyResponse Accepted :=
  match enterMode cfg mode request with
  | .error e => .error e
  | .ok (mode,request) =>
    if mode = .imagine ∧ request.prompt = "" then .error (requestError "prompt_is_required")
    else match ownAction mode with
      | some action => .ok ⟨action,request.prompt,channelId⟩
      | none =>
        if request.taskId = "" then .ok ⟨request.action,request.prompt,channelId⟩
        else match originOf cfg mode request with
          | .error e => .error e
          | .ok (mjId,request) => match getByMJId rows userId mjId with
            | none => .error (requestError "task_not_found")
            | some originTask =>
              if cfg.mjActionCheckSuccessEnabled ∧ originTask.status ≠ "SUCCESS" ∧ mode ≠ .modal then
                .error (requestError "task_status_not_success")
              else match channel with
                | .error _ => .error (requestError "get_channel_info_failed")
                | .ok false => .error (requestError "该任务所属渠道已被禁用")
                | .ok true => .ok ⟨request.action,originTask.prompt,originTask.channelId⟩

def acceptSwapFace (channelId : Int) (sourceBase64 targetBase64 : String) : Except MidjourneyResponse Accepted :=
  if sourceBase64 = "" ∨ targetBase64 = "" then .error (requestError "sour_base64_and_target_base64_is_required")
  else .ok ⟨"SWAP_FACE","InsightFace",channelId⟩

def freeAction (action : String) : Bool := action = "INPAINT" ∨ action = "CUSTOM_ZOOM"

def checkQuota (consumeQuota : Bool) (price userQuota : Except String Int) : Except MidjourneyResponse Int :=
  match price with
  | .error e => .error (requestError e)
  | .ok quota => match userQuota with
    | .error e => .error (requestError e)
    | .ok userQuota =>
      if consumeQuota ∧ userQuota - quota < 0 then .error (requestError "quota_not_enough") else .ok quota

def taken (code : Int) : Bool := code = 1 ∨ code = 21 ∨ code = 22

def storedTask (id userId quota now : Int) (accepted : Accepted) (response : MidjourneyResponse) : Midjourney :=
  { id := id, code := response.code, userId := userId, action := accepted.action, mjId := response.result,
    prompt := accepted.prompt, promptEn := "", description := response.description, state := "", submitTime := now,
    startTime := 0, finishTime := 0, imageUrl := "", videoUrl := "", videoUrls := "", status := "", progress := "0%",
    failReason := "", channelId := accepted.channelId, quota := quota }

/- A task that was there already comes with its state; the response of a successful one counts as code 1. -/
def takeProperties (now : Int) (response : MidjourneyResponse) (task : Midjourney) : Int × Midjourney :=
  if response.code ≠ 21 then (response.code,task)
  else match response.properties with
    | some ⟨some imageUrl,some status⟩ =>
      if status = "SUCCESS" then
        (1,{task with
          imageUrl := imageUrl, status := status, progress := "100%", startTime := now, finishTime := now })
      else (response.code,{task with imageUrl := imageUrl, status := status})
    | _ => (response.code,task)

def submittedTask (id userId quota now : Int) (accepted : Accepted) (response : MidjourneyResponse) : Midjourney :=
  let task := storedTask id userId quota now accepted response
  let task := if taken response.code then task else {task with failReason := response.description}
  let (code,task) := takeProperties now response task
  if code = 1 ∧ accepted.action = "UPLOAD" then { task with progress := "100%", status := "SUCCESS" } else task

def swapFaceTask (id userId quota now submitTime : Int) (accepted : Accepted) (response : MidjourneyResponse) :
    Midjourney :=
  {storedTask id userId quota submitTime accepted response with startTime := now}

theorem takePropertiesAlike (now response task) :
    (takeProperties now response task).2.id = task.id ∧ (takeProperties now response task).2.quota = task.quota ∧
      (takeProperties now response task).2.userId = task.userId := by
  unfold takeProperties
  split
  · exact ⟨rfl,rfl,rfl⟩
  split
  · split <;> exact ⟨rfl,rfl,rfl⟩
  · exact ⟨rfl,rfl,rfl⟩

theorem takePropertiesOpen (isOpen : task.status ≠ "FAILURE")
    (h : response.properties.bind Properties.status ≠ some "FAILURE") :
    (takeProperties now response task).2.status ≠ "FAILURE" := by
  unfold takeProperties
  split
  · exact isOpen
  split
  · rename_i _ status isProperties
    rw [isProperties] at h
    have notFailed : status ≠ "FAILURE" := fun bad => h (by rw [bad]; rfl)
    split <;> exact notFailed
  · exact isOpen

theorem submittedFrom (id userId quota now accepted response) :
    ∃ task : Midjourney, task.id = id ∧ task.quota = quota ∧ task.userId = userId ∧ task.status = "" ∧
      (submittedTask id userId quota now accepted response = (takeProperties now response task).2 ∨
        submittedTask id userId quota now accepted response =
          { (takeProperties now response task).2 with progress := "100%", status := "SUCCESS" }) := by
  refine ⟨if taken response.code then storedTask id userId quota now accepted response
    else {storedTask id userId quota now accepted response with failReason := response.description},?_⟩
  unfold submittedTask
  dsimp only
  generalize isTask : (if taken response.code then storedTask id userId quota now accepted response
    else {storedTask id userId quota now accepted response with failReason := response.description}) = task
  have stored : task.id = id ∧ task.quota = quota ∧ task.userId = userId ∧ task.status = "" := by
    rw [← isTask]
    split <;> exact ⟨rfl,rfl,rfl,rfl⟩
  refine ⟨stored.1,stored.2.1,stored.2.2.1,stored.2.2.2,?_⟩
  split
  · exact .inr rfl
  · exact .inl rfl

theorem submittedAlike (id userId quota now accepted response) :
    (submittedTask id userId quota now accepted response).id = id ∧
      (submittedTask id userId quota now accepted response).quota = quota ∧
      (submittedTask id userId quota now accepted response).userId = userId := by
  obtain ⟨task,isId,price,owner,_,result⟩ := submittedFrom id userId quota now accepted response
  have alike := takePropertiesAlike now response task
  rw [isId,price,owner] at alike
  rcases result with same | same <;> rw [same] <;> exact alike

theorem submittedOpen {id}
    (h : response.properties.bind Properties.status ≠ some "FAILURE") :
    (submittedTask id userId quota now accepted response).status ≠ "FAILURE" := by
  obtain ⟨_,_,_,_,blank,result⟩ := submittedFrom id userId quota now accepted response
  rcases result with same | same <;> rw [same]
  · exact takePropertiesOpen (by rw [blank]; decide) h
  · exact (by decide : "SUCCESS" ≠ "FAILURE")

def chargesSubmit (accepted : Accepted) (statusCode : Int) (response : MidjourneyResponse) : Bool :=
  freeAction accepted.action = false ∧ taken response.code ∧ statusCode = 200

def chargesSwapFace (statusCode : Int) (response : MidjourneyResponse) : Bool :=
  statusCode = 200 ∧ response.code = 1

structure MidjourneyDto where
  (mjId promptEn state : String)
  (submitTime startTime finishTime : Int)
  (imageUrl videoUrl : String)
  videoUrls : Option String
  (status progress failReason : String)
  deriving DecidableEq, Repr

def timedOut (now : Int) (task : Midjourney) (responseItem : MidjourneyDto) : MidjourneyDto :=
  if 3600000 < now - task.submitTime ∧ task.progress ≠ "100%" then
    { responseItem with failReason := "上游任务超时（超过1小时）", status := "FAILURE" }
  else responseItem

def videoUrlsDiffer (oldTask : Midjourney) (newTask : MidjourneyDto) : Bool :=
  match newTask.videoUrls with
  | some text => oldTask.videoUrls ≠ text
  | none => oldTask.videoUrls ≠ ""

def checkMjTaskNeedUpdate (oldTask : Midjourney) (newTask : MidjourneyDto) : Bool :=
  oldTask.code ≠ 1 ∨ oldTask.progress ≠ newTask.progress ∨ oldTask.promptEn ≠ newTask.promptEn ∨
  oldTask.state ≠ newTask.state ∨ oldTask.submitTime ≠ newTask.submitTime ∨ oldTask.startTime ≠ newTask.startTime ∨
  oldTask.finishTime ≠ newTask.finishTime ∨ oldTask.imageUrl ≠ newTask.imageUrl ∨ oldTask.status ≠ newTask.status ∨
  oldTask.failReason ≠ newTask.failReason ∨ (oldTask.progress ≠ "100%" ∧ newTask.failReason ≠ "") ∨
  oldTask.videoUrl ≠ newTask.videoUrl ∨ videoUrlsDiffer oldTask newTask

def fails (responseItem : MidjourneyDto) : Bool :=
  (responseItem.progress ≠ "100%" ∧ responseItem.failReason ≠ "") ∨
  (responseItem.progress = "100%" ∧ responseItem.status = "FAILURE")

def polledTask (task : Midjourney) (responseItem : MidjourneyDto) : Midjourney :=
  {task with
    code := 1, progress := if fails responseItem then "100%" else responseItem.progress,
    promptEn := responseItem.promptEn, state := responseItem.state, submitTime := responseItem.submitTime,
    startTime := responseItem.startTime, finishTime := responseItem.finishTime, imageUrl := responseItem.imageUrl,
    status := responseItem.status, failReason := responseItem.failReason, videoUrl := responseItem.videoUrl,
    videoUrls := responseItem.videoUrls.getD "" }

def shouldReturnQuota (task : Midjourney) (responseItem : MidjourneyDto) : Bool :=
  fails responseItem ∧ task.quota ≠ 0

def updateWithStatus (fromStatus : String) (task : Midjourney) (rows : List Midjourney) : Bool × List Midjourney :=
  let hit := fun row : Midjourney => decide (row.id = task.id ∧ row.status = fromStatus)
  (rows.any hit,updateWhere hit (fun _ => task) rows)

def failed (failReason : Option String) (row : Midjourney) : Midjourney :=
  { row with status := "FAILURE", progress := "100%", failReason := failReason.getD row.failReason }

def mjBulkUpdate (mjIds : List String) (failReason : String) (rows : List Midjourney) : List Midjourney :=
  updateWhere (fun row => decide (row.mjId ∈ mjIds)) (failed (some failReason)) rows

def mjBulkUpdateByTaskIds (taskIDs : List Int) (rows : List Midjourney) : List Midjourney :=
  updateWhere (fun row => decide (row.id ∈ taskIDs)) (failed none) rows

def getAllUnFinishTasks (rows : List Midjourney) : List Midjourney := rows.filter (fun row => row.progress ≠ "100%")

/- What a pass sorts the unfinished tasks into. Of several tasks with one upstream id the last is kept. -/
structure Scan where
  nullTaskIds : List Int
  taskM : List Midjourney
  taskChannelM : List (Int × List String)
  deriving DecidableEq, Repr

def addToChannel (channelId : Int) (mjId : String) : List (Int × List String) → List (Int × List String)
  | [] => [(channelId,[mjId])]
  | (other,ids)::rest =>
    if other = channelId then (other,ids ++ [mjId])::rest else (other,ids)::addToChannel channelId mjId rest

def scanTask (scan : Scan) (task : Midjourney) : Scan :=
  if task.mjId = "" then { scan with nullTaskIds := scan.nullTaskIds ++ [task.id] }
  else {scan with
    taskM := save Midjourney.mjId task scan.taskM,
    taskChannelM := addToChannel task.channelId task.mjId scan.taskChannelM }

def scanTasks (tasks : List Midjourney) : Scan := tasks.foldl scanTask ⟨[],[],[]⟩

theorem scanCopies {tasks : List Midjourney} (h : task ∈ (tasks.foldl scanTask scan).taskM) :
    task ∈ scan.taskM ∨ task ∈ tasks := by
  induction tasks generalizing scan with
  | nil => exact .inl h
  | cons _ _ ih =>
    rcases ih h with before | later
    · unfold scanTask at before
      split at before
      · exact .inl before
      rcases saveMem before with rfl | old
      · exact .inr (by simp)
      · exact .inl old
    · exact .inr (List.mem_cons_of_mem _ later)

end Omnigate.MidjourneyTask
