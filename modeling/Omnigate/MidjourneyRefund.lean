import Omnigate.MidjourneyTask
import Omnigate.Pool

/-! Submissions and pollers of Midjourney tasks, statement by statement over one table. Every change of a quota is
recorded with the task it is for. A process that is not scheduled again has stopped. -/
namespace Omnigate.MidjourneyRefund

open Machine MidjourneyTask Pool Table List

inductive Account where
  | user (id : Int)
  | token (id : Int)
  deriving DecidableEq, Repr

structure Transfer where
  task : Option Int
  account : Account
  amount : Int
  deriving DecidableEq, Repr

structure Store where
  rows : List Midjourney
  nextId : Int
  balance : Account → Int
  transfers : List Transfer

def transfer (task : Option Int) (account : Account) (amount : Int) (s : Store) : Store :=
  {s with
    balance := fun other => if other = account then s.balance other + amount else s.balance other,
    transfers := s.transfers ++ [⟨task,account,amount⟩] }

inductive Kind where
  | submit (mode : RelayMode) (request : MidjourneyRequest)
  | swapFace (sourceBase64 targetBase64 : String)
  deriving DecidableEq, Repr

structure Job where
  kind : Kind
  (userId tokenId : Int)
  isPlayground : Bool
  (channelId startTime : Int)
  price : Except String Int

def accept (cfg : Setup) (rows : List Midjourney) (channel : Except String Bool) (job : Job) :
    Except MidjourneyResponse Accepted :=
  match job.kind with
  | .submit mode request => acceptSubmit cfg rows channel job.userId job.channelId mode request
  | .swapFace source target => acceptSwapFace job.channelId source target

def consumes (kind : Kind) (accepted : Accepted) : Bool :=
  match kind with
  | .submit _ _ => !freeAction accepted.action
  | .swapFace _ _ => true

def charges (kind : Kind) (accepted : Accepted) (statusCode : Int) (response : MidjourneyResponse) : Bool :=
  match kind with
  | .submit _ _ => chargesSubmit accepted statusCode response
  | .swapFace _ _ => chargesSwapFace statusCode response

def newTask (job : Job) (id quota now : Int) (accepted : Accepted) (response : MidjourneyResponse) : Midjourney :=
  match job.kind with
  | .submit _ _ => submittedTask id job.userId quota now accepted response
  | .swapFace _ _ => swapFaceTask id job.userId quota now job.startTime accepted response

/- A submission without an account instance whose channel cannot be read does not reach the table, and the deferred
charge sees the response as taken. -/
def lost (kind : Kind) (response : MidjourneyResponse) (channelFound : Bool) : Bool :=
  match kind with
  | .submit _ _ => response.code = 3 ∧ channelFound = false
  | .swapFace _ _ => false

structure Pass where
  taskM : List Midjourney
  taskChannelM : List (Int × List String)
  items : List MidjourneyDto
  deriving DecidableEq, Repr

inductive Proc where
  | requested (job : Job)
  | checked (job : Job) (accepted : Accepted) (quota : Int)
  | charging (job : Job) (task : Option Int) (quota : Int)
  | chargingToken (job : Job) (task : Option Int) (quota : Int)
  | scanning
  | sweeping (nullTaskIds : List Int) (pass : Pass)
  | polling (pass : Pass)
  | returning (task : Midjourney) (pass : Pass)
  | finished

inductive ChannelAnswer where
  | missing (fault : Option String)
  | silent
  | items (items : List MidjourneyDto)
  deriving DecidableEq, Repr

inductive Choice where
  | check (channel : Except String Bool) (userQuota : Except String Int)
  | unanswered
  | respond (statusCode : Int) (response : MidjourneyResponse) (channelFound : Bool) (now : Int)
      (fault : Option String)
  | channel (channelId : Int) (answer : ChannelAnswer)
  | item (now : Int) (fault : Option String)
  | statement (fault : Option String)

def chargeAfter (job : Job) (charged : Bool) (task : Option Int) (quota : Int) : Proc :=
  if charged then .charging job task quota else .finished

def respond (job : Job) (accepted : Accepted) (quota statusCode : Int) (response : MidjourneyResponse)
    (channelFound : Bool) (now : Int) (fault : Option String) (s : Store) : Store × Proc :=
  if lost job.kind response channelFound then
    (s,chargeAfter job (consumes job.kind accepted ∧ statusCode = 200) none quota)
  else match fault with
    | some _ => (s,chargeAfter job (charges job.kind accepted statusCode response) none quota)
    | none =>
      ({s with rows := s.rows ++ [newTask job s.nextId quota now accepted response], nextId := s.nextId + 1},
        chargeAfter job (charges job.kind accepted statusCode response) (some s.nextId) quota)

def chargeUser (job : Job) (task : Option Int) (quota : Int) (fault : Option String) (s : Store) : Store × Proc :=
  match fault with
  | some _ => (s,.finished)
  | none => (transfer task (.user job.userId) (-quota) s,
      if job.isPlayground then .finished else .chargingToken job task quota)

def chargeToken (job : Job) (task : Option Int) (quota : Int) (fault : Option String) (s : Store) : Store :=
  match fault with
  | some _ => s
  | none => transfer task (.token job.tokenId) (-quota) s

def scanRows (fault : Option String) (s : Store) : Proc :=
  match fault with
  | some _ => .finished
  | none =>
    let scan := scanTasks (getAllUnFinishTasks s.rows)
    let pass := ⟨scan.taskM,scan.taskChannelM,[]⟩
    if scan.nullTaskIds = [] then .polling pass else .sweeping scan.nullTaskIds pass

def channelFailReason (channelId : Int) : String := "获取渠道信息失败，请联系管理员，渠道ID：" ++ toString channelId

def askChannel (pass : Pass) (channelId : Int) (answer : ChannelAnswer) (s : Store) : Option (Store × Pass) :=
  match lookup Prod.fst channelId pass.taskChannelM with
  | none => none
  | some (_,taskIds) =>
    let pass := {pass with taskChannelM := pass.taskChannelM.filter (fun entry => entry.1 ≠ channelId)}
    match answer with
    | .missing none => some ({s with rows := mjBulkUpdate taskIds (channelFailReason channelId) s.rows},pass)
    | .missing (some _) => some (s,pass)
    | .silent => some (s,pass)
    | .items items => some (s,{pass with items := items})

/- The copy is the poller's own and keeps the item even when the update fails or is lost. -/
def pollItem (pass : Pass) (item : MidjourneyDto) (rest : List MidjourneyDto) (now : Int) (fault : Option String)
    (s : Store) : Store × Proc :=
  match lookup Midjourney.mjId item.mjId pass.taskM with
  | none => (s,.polling {pass with items := rest})
  | some task =>
    let item := timedOut now task item
    if ¬checkMjTaskNeedUpdate task item then (s,.polling {pass with items := rest})
    else
      let pass := {pass with taskM := save Midjourney.mjId (polledTask task item) pass.taskM, items := rest}
      match fault with
      | some _ => (s,.polling pass)
      | none =>
        let (won,rows) := updateWithStatus task.status (polledTask task item) s.rows
        ({s with rows := rows},
          if won ∧ shouldReturnQuota task item then .returning (polledTask task item) pass else .polling pass)

def increaseUserQuota (task : Midjourney) (fault : Option String) (s : Store) : Store :=
  if task.quota < 0 then s
  else match fault with
    | some _ => s
    | none => transfer (some task.id) (.user task.userId) task.quota s

def act (cfg : Setup) (s : Store) : Proc → Choice → Option (Store × Proc)
  | .requested job,.check channel userQuota =>
    match accept cfg s.rows channel job with
    | .error _ => some (s,.finished)
    | .ok accepted => match checkQuota (consumes job.kind accepted) job.price userQuota with
      | .error _ => some (s,.finished)
      | .ok quota => some (s,.checked job accepted quota)
  | .checked _ _ _,.unanswered => some (s,.finished)
  | .checked job accepted quota,.respond statusCode response channelFound now fault =>
    some (respond job accepted quota statusCode response channelFound now fault s)
  | .charging job task quota,.statement fault => some (chargeUser job task quota fault s)
  | .chargingToken job task quota,.statement fault => some (chargeToken job task quota fault s,.finished)
  | .scanning,.statement fault => some (s,scanRows fault s)
  | .sweeping nullTaskIds pass,.statement fault => match fault with
    | some _ => some (s,.polling pass)
    | none => some ({s with rows := mjBulkUpdateByTaskIds nullTaskIds s.rows},.polling pass)
  | .polling pass,.channel channelId answer =>
    if pass.items = [] then (askChannel pass channelId answer s).map (fun (after,pass) => (after,.polling pass))
    else none
  | .polling pass,.item now fault => match pass.items with
    | [] => none
    | item::rest => some (pollItem pass item rest now fault s)
  | .returning task pass,.statement fault => some (increaseUserQuota task fault s,.polling pass)
  | _,_ => none

def starts : Proc → Bool
  | .requested _ => true
  | .scanning => true
  | _ => false

abbrev World := Pool.State Store Proc

abbrev step (cfg : Setup) : World → Move Proc Choice → Option World := Pool.step starts (act cfg)

def deductedBy (task userId : Int) (t : Transfer) : Int :=
  if t.task = some task ∧ t.account = .user userId then max (-t.amount) 0 else 0

def givenBackBy (task userId : Int) (t : Transfer) : Int :=
  if t.task = some task ∧ t.account = .user userId then max t.amount 0 else 0

def ofUser : Account → Bool
  | .user _ => true
  | .token _ => false

def timesBackBy (task : Int) (t : Transfer) : Int :=
  if t.task = some task ∧ ofUser t.account ∧ 0 < t.amount then 1 else 0

def tokenBackBy (task : Int) (t : Transfer) : Int :=
  if t.task = some task ∧ ofUser t.account = false then max t.amount 0 else 0

def deducted (s : Store) (task userId : Int) : Int := (s.transfers.map (deductedBy task userId)).sum
def givenBack (s : Store) (task userId : Int) : Int := (s.transfers.map (givenBackBy task userId)).sum
def timesBack (s : Store) (task : Int) : Int := (s.transfers.map (timesBackBy task)).sum
def tokenBack (s : Store) (task : Int) : Int := (s.transfers.map (tokenBackBy task)).sum

def chargesFor (task : Int) : Proc → Bool
  | .charging _ charged _ => charged = some task
  | _ => false

def returnsFor (task : Int) : Proc → Bool
  | .returning copy _ => copy.id = task
  | _ => false

def settled (procs : List Proc) (task : Int) : Bool := procs.all (fun p => !chargesFor task p)

def uncharged (w : World) (row : Midjourney) : Bool :=
  settled w.procs row.id ∧ deducted w.shared row.id row.userId = 0

def nextItem (pass : Pass) (now : Int) : Option (Midjourney × MidjourneyDto) :=
  match pass.items with
  | [] => none
  | item::_ => (lookup Midjourney.mjId item.mjId pass.taskM).map (fun task => (task,timedOut now task item))

/- A task with a price is charged; an item has status FAILURE exactly when it fails the task, comes once its
submission has ended, and no earlier item failed the copy; bulk failures hit uncharged tasks only. -/
def careful (w : World) : Move Proc Choice → Bool
  | .start _ => true
  | .act i choice => match w.procs[i]?,choice with
    | some (.checked job accepted quota),.respond statusCode response _ _ _ =>
      0 ≤ quota ∧ (quota = 0 ∨ charges job.kind accepted statusCode response) ∧
        response.properties.bind Properties.status ≠ some "FAILURE"
    | some (.charging _ _ _),.statement fault => fault = none
    | some (.sweeping nullTaskIds _),.statement none =>
      w.shared.rows.all (fun row => row.id ∈ nullTaskIds → uncharged w row)
    | some (.polling pass),.channel channelId (.missing none) =>
      w.shared.rows.all (fun row =>
        row.mjId ∈ ((lookup Prod.fst channelId pass.taskChannelM).map Prod.snd).getD [] → uncharged w row)
    | some (.polling pass),.item now _ => match nextItem pass now with
      | none => true
      | some (task,item) =>
        task.status ≠ "FAILURE" ∧ (fails item ↔ item.status = "FAILURE") ∧ settled w.procs task.id
    | some (.returning _ _),.statement fault => fault = none
    | _,_ => true

def unreturned (w : World) : Move Proc Choice → Bool
  | .start _ => true
  | .act i choice => match w.procs[i]?,choice with
    | some (.checked _ _ quota),.respond _ _ _ _ _ => 0 ≤ quota
    | some (.polling pass),.item now _ => match nextItem pass now with
      | none => true
      | some (task,item) => !shouldReturnQuota task item
    | _,_ => true

def chargePart (task userId : Int) : Proc → Int
  | .charging job charged quota => if charged = some task ∧ job.userId = userId then quota else 0
  | _ => 0

def returnPart (task userId : Int) : Proc → Int
  | .returning copy _ => if copy.id = task ∧ copy.userId = userId then copy.quota else 0
  | _ => 0

def returnCount (task : Int) (p : Proc) : Int := if returnsFor task p then 1 else 0

def charged (w : World) (task userId : Int) : Int :=
  total (fun s => deducted s task userId) (chargePart task userId) w

def returned (w : World) (task userId : Int) : Int :=
  total (fun s => givenBack s task userId) (returnPart task userId) w

def times (w : World) (task : Int) : Int := total (fun s => timesBack s task) (returnCount task) w

theorem sumNonneg {f : α → Int} {xs : List α} (h : ∀ x ∈ xs, 0 ≤ f x) : 0 ≤ (xs.map f).sum :=
  sum_nonneg (by simpa using h)

theorem deductedNonneg (s task userId) : 0 ≤ deducted s task userId := by
  refine sumNonneg (fun t _ => ?_)
  unfold deductedBy
  split
  · exact le_max_right _ _
  · exact le_rfl

@[simp] theorem deductedTransfer (s task userId of account amount) :
    deducted (transfer of account amount s) task userId =
      deducted s task userId + deductedBy task userId ⟨of,account,amount⟩ := by
  simp [deducted,transfer]

@[simp] theorem givenBackTransfer (s task userId of account amount) :
    givenBack (transfer of account amount s) task userId =
      givenBack s task userId + givenBackBy task userId ⟨of,account,amount⟩ := by
  simp [givenBack,transfer]

@[simp] theorem timesBackTransfer (s task of account amount) :
    timesBack (transfer of account amount s) task = timesBack s task + timesBackBy task ⟨of,account,amount⟩ := by
  simp [timesBack,transfer]

def owed : Proc → Option Transfer
  | .charging job task quota => some ⟨task,.user job.userId,-quota⟩
  | .chargingToken job task quota => some ⟨task,.token job.tokenId,-quota⟩
  | .returning task _ => some ⟨some task.id,.user task.userId,task.quota⟩
  | _ => none

inductive Moves (before : Store) (p : Proc) (after : Store) : Prop
  | nothing (transfers : after.transfers = before.transfers) (balance : after.balance = before.balance)
  | one (t : Transfer) (isOwed : owed p = some t) (transfers : after.transfers = before.transfers ++ [t])
      (balance : after.balance = (transfer t.task t.account t.amount before).balance)

theorem actMoves {after} (h : act cfg before p choice = some (after,q)) :
    Moves before p after := by
  unfold act at h
  split at h
  · split at h
    · cases h; exact .nothing rfl rfl
    · split at h <;> cases h <;> exact .nothing rfl rfl
  · cases h; exact .nothing rfl rfl
  · obtain ⟨isStore,_⟩ := Prod.ext_iff.mp (Option.some.inj h)
    rw [← show _ = after from isStore]
    unfold respond
    split
    · exact .nothing rfl rfl
    · split <;> exact .nothing rfl rfl
  · obtain ⟨isStore,_⟩ := Prod.ext_iff.mp (Option.some.inj h)
    rw [← show _ = after from isStore]
    unfold chargeUser
    split
    · exact .nothing rfl rfl
    · exact .one _ rfl rfl rfl
  · cases h
    unfold chargeToken
    split
    · exact .nothing rfl rfl
    · exact .one _ rfl rfl rfl
  · cases h; exact .nothing rfl rfl
  · split at h <;> cases h <;> exact .nothing rfl rfl
  · split at h
    · obtain ⟨_,asked,same⟩ := Option.map_eq_some_iff.mp h
      cases same
      unfold askChannel at asked
      split at asked
      · cases asked
      · split at asked <;> cases asked <;> exact .nothing rfl rfl
    · cases h
  · split at h
    · cases h
    obtain ⟨isStore,_⟩ := Prod.ext_iff.mp (Option.some.inj h)
    rw [← show _ = after from isStore]
    unfold pollItem
    split
    · exact .nothing rfl rfl
    dsimp only
    split
    · exact .nothing rfl rfl
    · split <;> exact .nothing rfl rfl
  · cases h
    unfold increaseUserQuota
    split
    · exact .nothing rfl rfl
    split
    · exact .nothing rfl rfl
    · exact .one _ rfl rfl rfl
  · cases h

def moved (s : Store) (account : Account) : Int :=
  (s.transfers.map (fun t => if t.account = account then t.amount else 0)).sum

theorem stepMoved {next} (h : step cfg n move = some next) (account) :
    next.shared.balance account - moved next.shared account = n.shared.balance account - moved n.shared account := by
  cases move with
  | start =>
    obtain ⟨_,rfl⟩ := stepStart h
    rfl
  | act =>
    obtain ⟨p,s,q,_,acted,rfl⟩ := stepAct h
    cases actMoves acted with
    | nothing transfers balance =>
      rw [balance,moved,transfers]
      rfl
    | one t _ transfers balance =>
      rw [balance,moved,transfers,map_append,sum_append,map_singleton,sum_singleton]
      simp only [transfer,moved]
      by_cases mine : account = t.account
      · rw [if_pos mine,if_pos mine.symm]
        omega
      · rw [if_neg mine,if_neg (fun same => mine same.symm)]
        omega

theorem balanceMoved (begins : w.shared.transfers = []) (h : run (step cfg) w moves = some out) (account) :
    out.shared.balance account = w.shared.balance account + moved out.shared account := by
  have keep : ∀ (n : World) move next,
      n.shared.balance account - moved n.shared account = w.shared.balance account → step cfg n move = some next →
      next.shared.balance account - moved next.shared account = w.shared.balance account :=
    fun n move next same stepped => (stepMoved stepped account).trans same
  have start : w.shared.balance account - moved w.shared account = w.shared.balance account := by simp [moved,begins]
  have last := runAlways keep start h
  omega

end Omnigate.MidjourneyRefund
