import Omnigate.Balances
import Omnigate.Pool
import Omnigate.QuotaMath

/-! Everybody who writes the balance columns, statement by statement: quota calls (at once or through the batch
stores), the passes that flush the stores, the inviter's reward, the transfer of invitation quota, profile updates and
token edits. A transaction that locks its row first is one step, and so is a profile update. -/
namespace Omnigate.BalanceWriters

open Balances Deltas Machine QuotaMath Table List Option
open Pool hiding step State

structure Config where
  batchUpdateEnabled : Bool
  quotaForInviter : Int
  quotaPerUnit : ℚ
  logQuota : Int → String
  password2Hash : String → Except String String

inductive Call where
  | increaseUserQuota (id quota : Int) (db : Bool)
  | decreaseUserQuota (id quota : Int) (db : Bool)
  | updateUserUsedQuotaAndRequestCount (id quota : Int)
  | increaseTokenQuota (tokenId quota : Int)
  | decreaseTokenQuota (id quota : Int)
  | updateChannelUsedQuota (id quota : Int)
  deriving DecidableEq, Repr

structure Record where
  type : BatchUpdateType
  (id value : Int)
  deriving DecidableEq, Repr

abbrev Stores := BatchUpdateType → List (Int × Int)

/- A negative quota is refused: "quota 不能为负数！". -/
def Call.accepted : Call → Bool
  | .increaseUserQuota _ quota _ | .decreaseUserQuota _ quota _ | .increaseTokenQuota _ quota
  | .decreaseTokenQuota _ quota => 0 ≤ quota
  | .updateUserUsedQuotaAndRequestCount _ _ | .updateChannelUsedQuota _ _ => true

def Call.batched (cfg : Config) : Call → Bool
  | .increaseUserQuota _ _ db | .decreaseUserQuota _ _ db => ¬db ∧ cfg.batchUpdateEnabled
  | _ => cfg.batchUpdateEnabled

def Call.records : Call → List Record
  | .increaseUserQuota id quota _ => [⟨.userQuota,id,quota⟩]
  | .decreaseUserQuota id quota _ => [⟨.userQuota,id,-quota⟩]
  | .updateUserUsedQuotaAndRequestCount id quota => [⟨.usedQuota,id,quota⟩,⟨.requestCount,id,1⟩]
  | .increaseTokenQuota tokenId quota => [⟨.tokenQuota,tokenId,quota⟩]
  | .decreaseTokenQuota id quota => [⟨.tokenQuota,id,-quota⟩]
  | .updateChannelUsedQuota id quota => [⟨.channelUsedQuota,id,quota⟩]

def Call.directly (now : Int) : Call → Books → Books
  | .increaseUserQuota id quota _ => Balances.increaseUserQuota id quota
  | .decreaseUserQuota id quota _ => Balances.decreaseUserQuota id quota
  | .updateUserUsedQuotaAndRequestCount id quota => Balances.updateUserUsedQuotaAndRequestCount id quota 1
  | .increaseTokenQuota tokenId quota => Balances.increaseTokenQuota now tokenId quota
  | .decreaseTokenQuota id quota => Balances.decreaseTokenQuota now id quota
  | .updateChannelUsedQuota id quota => Balances.updateChannelUsedQuota id quota

def Call.id : Call → Int
  | .increaseUserQuota id _ _ | .decreaseUserQuota id _ _ | .updateUserUsedQuotaAndRequestCount id _
  | .increaseTokenQuota id _ | .decreaseTokenQuota id _ | .updateChannelUsedQuota id _ => id

def addNewRecord (r : Record) (stores : Stores) : Stores :=
  Function.update stores r.type (add r.id r.value (stores r.type))

def batchUpdateTypes : List BatchUpdateType :=
  [.userQuota,.tokenQuota,.usedQuota,.channelUsedQuota,.requestCount]

def noStores : Stores := fun _ => []

def userIDs (stores : Stores) : List Int :=
  keys (stores .userQuota) ++ keys (stores .usedQuota) ++ keys (stores .requestCount)

def dropFrom (key : Int) (type : BatchUpdateType) (stores : Stores) : Stores :=
  Function.update stores type (drop key (stores type))

/- The next statement of the flush, for a key of the map: the tables after it, and what the pass still has to write.
-/
def flush (now key : Int) (stores : Stores) (db : Books) : Option (Books × Stores) :=
  if stores .tokenQuota ≠ [] then
    if key ∈ keys (stores .tokenQuota) then
      some (increaseTokenQuota now key (held key (stores .tokenQuota)) db,dropFrom key .tokenQuota stores)
    else none
  else if stores .channelUsedQuota ≠ [] then
    if key ∈ keys (stores .channelUsedQuota) then
      some (updateChannelUsedQuota key (held key (stores .channelUsedQuota)) db,dropFrom key .channelUsedQuota stores)
    else none
  else if key ∈ userIDs stores then
    some (updateUserQuotaUsedQuotaAndRequestCount key (held key (stores .userQuota))
        (held key (stores .usedQuota)) (held key (stores .requestCount)) db,
      dropFrom key .requestCount (dropFrom key .usedQuota (dropFrom key .userQuota stores)))
  else none

def getUserById (id : Int) (db : Books) : Except String User := do
  if id = 0 then throw "id 为空！"
  match lookup User.id id db.users with
  | some user => return user
  | none => throw "record not found"

def saveUser (user : User) (db : Books) : Books := {db with users := save User.id user db.users}

def invited (quotaForInviter : Int) (user : User) : User :=
  { user with affCount := user.affCount + 1, affQuota := user.affQuota + quotaForInviter,
              affHistoryQuota := user.affHistoryQuota + quotaForInviter }

def transferred (quota : Int) (user : User) : User :=
  {user with affQuota := user.affQuota - quota, quota := user.quota + quota}

def transferAffQuotaToQuota (logQuota : Int → String) (quotaPerUnit : ℚ) (id quota : Int) (db : Books) :
    Except String Books :=
  if (quota : ℚ) < quotaPerUnit then .error ("转移额度最小为" ++ logQuota (truncate quotaPerUnit) ++ "！")
  else match lookup User.id id db.users with
    | none => .error "record not found"
    | some user =>
      if user.affQuota < quota then .error "邀请额度不足！" else .ok (saveUser (transferred quota user) db)

def orStored {α : Type} [DecidableEq α] (zero new stored : α) : α := if new = zero then stored else new

def profileWritten (newUser current : User) : User :=
  {current with
    affCount := orStored 0 newUser.affCount current.affCount
    affQuota := orStored 0 newUser.affQuota current.affQuota
    affHistoryQuota := orStored 0 newUser.affHistoryQuota current.affHistoryQuota
    inviterId := orStored 0 newUser.inviterId current.inviterId
    username := orStored "" newUser.username current.username
    password := orStored "" newUser.password current.password
    displayName := orStored "" newUser.displayName current.displayName
    email := orStored "" newUser.email current.email
    group := orStored "" newUser.group current.group
    setting := orStored "" newUser.setting current.setting
    role := orStored 0 newUser.role current.role
    status := orStored 0 newUser.status current.status }

def authChanged (updatePassword : Bool) (newUser current : User) : Bool :=
  (updatePassword ∧ current.password ≠ newUser.password) ∨ (newUser.role ≠ 0 ∧ current.role ≠ newUser.role) ∨
    (newUser.status ≠ 0 ∧ current.status ≠ newUser.status) ∨
    (newUser.group ≠ "" ∧ current.group ≠ newUser.group)

def nextAuthVersion (user : User) : User := {user with authVersion := max user.authVersion 1 + 1}

def profileSaved (user newUser : User) (updatePassword : Bool) (db : Books) : Except String Books :=
  match lookup User.id user.id db.users with
  | none => .error "record not found"
  | some current =>
    if ¬authChanged updatePassword newUser current then .ok (changeUser user.id (profileWritten newUser) db)
    else if user.id ≤ 0 then .error "invalid user auth version update"
    else .ok (changeUser user.id (fun row => profileWritten newUser (nextAuthVersion row)) db)

def updateWithTx (cfg : Config) (user : User) (updatePassword : Bool) (db : Books) : Except String Books :=
  if updatePassword then match cfg.password2Hash user.password with
    | .error e => .error e
    | .ok password => profileSaved user {user with password := password} updatePassword db
  else profileSaved user user updatePassword db

structure TokenRequest where
  userId : Int
  statusOnly : Bool
  token : Token
  deriving DecidableEq, Repr

def getTokenByIds (id userId : Int) (db : Books) : Except String Token := do
  if id = 0 ∨ userId = 0 then throw "id 或 userId 为空！"
  match db.tokens.find? (fun token => token.id = id ∧ token.userId = userId) with
  | some token => return token
  | none => throw "record not found"

def tokenEdited (token cleanToken : Token) : Token :=
  {cleanToken with
    name := token.name, expiredTime := token.expiredTime, remainQuota := token.remainQuota
    unlimitedQuota := token.unlimitedQuota, modelLimitsEnabled := token.modelLimitsEnabled
    modelLimits := token.modelLimits, allowIps := token.allowIps, group := token.group
    crossGroupRetry := token.crossGroupRetry }

def loadEdited (cfg : Config) (now : Int) (request : TokenRequest) (db : Books) : Except String Token := do
  let token := request.token
  if 50 < token.name.utf8ByteSize then throw "token.name_too_long"
  if ¬token.unlimitedQuota ∧ token.remainQuota < 0 then throw "token.quota_negative"
  if ¬token.unlimitedQuota ∧ truncate (1000000000 * cfg.quotaPerUnit) < token.remainQuota then
    throw "token.quota_exceed_max"
  let cleanToken ← getTokenByIds token.id request.userId db
  if token.status = .enabled ∧ cleanToken.status = .expired ∧ cleanToken.expiredTime ≤ now ∧
      cleanToken.expiredTime ≠ -1 then throw "token.expired_cannot_enable"
  if token.status = .enabled ∧ cleanToken.status = .exhausted ∧ cleanToken.remainQuota ≤ 0 ∧
      ¬cleanToken.unlimitedQuota then throw "token.exhausted_cannot_enable"
  if request.statusOnly then return {cleanToken with status := token.status}
  return tokenEdited token cleanToken

def tokenWritten (token stored : Token) : Token :=
  {stored with
    name := token.name, status := token.status, expiredTime := token.expiredTime
    remainQuota := token.remainQuota, unlimitedQuota := token.unlimitedQuota
    modelLimitsEnabled := token.modelLimitsEnabled, modelLimits := token.modelLimits
    allowIps := token.allowIps, group := token.group, crossGroupRetry := token.crossGroupRetry }

structure Entry where
  id : Int
  delta : Column → Int

structure Ledger where
  db : Books
  live : Stores
  done : List Entry

inductive Writer where
  | calling (call : Call)
  | recording (records : List Record)
  | checking (left : List BatchUpdateType)
  | swapping (left : List BatchUpdateType) (stores : Stores)
  | flushing (stores : Stores)
  | inviting (inviterId : Int)
  | savingInvite (user : User)
  | transferring (id quota : Int)
  | updating (user : User) (updatePassword : Bool)
  | editing (request : TokenRequest)
  | savingToken (token : Token) (statusOnly : Bool)
  | finished

structure Choice where
  (now key : Int)
  fault : Option String

def recordEntry (r : Record) : Entry := ⟨r.id,fun column => share r.type column * r.value⟩

def callEntry (call : Call) : Entry :=
  ⟨call.id,fun column => (call.records.map (fun r => share r.type column * r.value)).sum⟩

def inviteEntry (cfg : Config) (id : Int) : Entry :=
  ⟨id,fun column => if column = .user .affQuota then cfg.quotaForInviter else 0⟩

def transferEntry (id quota : Int) : Entry :=
  ⟨id,fun column => if column = .user .quota then quota else if column = .user .affQuota then -quota else 0⟩

def settle (s : Ledger) (db : Books) (entry : Entry) : Option (Ledger × Writer) :=
  some ({s with db := db, done := s.done ++ [entry]},.finished)

def act (cfg : Config) (s : Ledger) (p : Writer) (c : Choice) : Option (Ledger × Writer) :=
  match p with
  | .calling call =>
    if ¬call.accepted then some (s,.finished)
    else if call.batched cfg then some (s,.recording call.records)
    else if c.fault ≠ none then some (s,.finished)
    else settle s (call.directly c.now s.db) (callEntry call)
  | .recording [] => some (s,.finished)
  | .recording (r::rest) =>
    some ({s with live := addNewRecord r s.live, done := s.done ++ [recordEntry r]},.recording rest)
  | .checking [] => some (s,.finished)
  | .checking (type::rest) =>
    some (s,if s.live type ≠ [] then .swapping batchUpdateTypes noStores else .checking rest)
  | .swapping [] stores => some (s,.flushing stores)
  | .swapping (type::rest) stores =>
    some ({s with live := Function.update s.live type []},.swapping rest (Function.update stores type (s.live type)))
  | .flushing stores =>
    if ∀ type ∈ batchUpdateTypes, stores type = [] then some (s,.finished)
    else match flush c.now c.key stores s.db with
      | none => none
      | some (db,left) => some ({s with db := if c.fault = none then db else s.db},.flushing left)
  | .inviting inviterId => match c.fault,getUserById inviterId s.db with
    | none,.ok user => some (s,.savingInvite user)
    | _,_ => some (s,.finished)
  | .savingInvite user =>
    if c.fault ≠ none then some (s,.finished)
    else settle s (saveUser (invited cfg.quotaForInviter user) s.db) (inviteEntry cfg user.id)
  | .transferring id quota =>
    match c.fault,transferAffQuotaToQuota cfg.logQuota cfg.quotaPerUnit id quota s.db with
    | none,.ok db => settle s db (transferEntry id quota)
    | _,_ => some (s,.finished)
  | .updating user updatePassword => match c.fault,updateWithTx cfg user updatePassword s.db with
    | none,.ok db => some ({s with db := db},.finished)
    | _,_ => some (s,.finished)
  | .editing request => match c.fault,loadEdited cfg c.now request s.db with
    | none,.ok token => some (s,.savingToken token request.statusOnly)
    | _,_ => some (s,.finished)
  | .savingToken token _ =>
    if c.fault ≠ none then some (s,.finished)
    else some ({s with db := changeToken token.id (tokenWritten token) s.db},.finished)
  | .finished => none

def begins : Writer → Bool
  | .calling _ | .inviting _ | .transferring _ _ | .updating _ _ | .editing _ => true
  | .checking left => left = batchUpdateTypes
  | _ => false

def step (cfg : Config) (pool : Pool.State Ledger Writer) (move : Move Writer Choice) :
    Option (Pool.State Ledger Writer) :=
  Pool.step begins (act cfg) pool move

def start (db : Books) : Pool.State Ledger Writer := ⟨⟨db,noStores,[]⟩,[]⟩

def holds : Writer → Stores
  | .swapping _ stores | .flushing stores => stores
  | _ => noStores

def logged (column : Column) (k : Int) (done : List Entry) : Int :=
  (done.map (fun entry => if k = entry.id then entry.delta column else 0)).sum

def waiting (column : Column) (k : Int) (stores : Stores) : Int := weigh (fun type => share type column) k stores

def disturbs (s : Ledger) (p : Writer) (c : Choice) (column : Column) (k : Int) : Bool :=
  match p,column with
  | .savingInvite user,.user column =>
    c.fault = none ∧ user.id = k ∧ s.db.stored (.user column) k ≠ some (column.read user)
  | .updating user _,.user .affQuota =>
    c.fault = none ∧ user.id = k ∧ user.affQuota ≠ 0 ∧ s.db.stored (.user .affQuota) k ≠ some user.affQuota
  | .savingToken token _,.token .remainQuota =>
    c.fault = none ∧ token.id = k ∧ s.db.stored (.token .remainQuota) k ≠ some token.remainQuota
  | .flushing stores,column => match flush c.now c.key stores s.db with
    | none => false
    | some (_,left) => c.fault ≠ none ∧ waiting column k left ≠ waiting column k stores
  | _,_ => false

@[simp] theorem waitingNone (column k) : waiting column k noStores = 0 := weighEmpty _ _

theorem waitingDropped (column k key type stores) :
    waiting column k (dropFrom key type stores) =
      waiting column k stores - share type column * (if k = key then held key (stores type) else 0) := by
  unfold waiting dropFrom
  rw [weighUpdate,heldDrop]
  by_cases same : k = key
  · simp only [same,if_true]
    ring
  · have other : ¬key = k := fun eq => same eq.symm
    simp [same,other]

theorem loggedAppend (column k done entry) :
    logged column k (done ++ [entry]) = logged column k done + if k = entry.id then entry.delta column else 0 := by
  simp [logged]

theorem directlyAdds (now call db) :
    Adds db call.id (callEntry call).delta (call.directly now db) := by
  cases call with
  | increaseUserQuota id quota => simpa [callEntry,Call.records,Call.id,Call.directly] using increaseUserQuotaAdds id quota db
  | decreaseUserQuota id quota => simpa [callEntry,Call.records,Call.id,Call.directly] using decreaseUserQuotaAdds id quota db
  | updateUserUsedQuotaAndRequestCount id quota =>
    simpa [callEntry,Call.records,Call.id,Call.directly] using usedQuotaAdds id quota 1 db
  | increaseTokenQuota id quota => simpa [callEntry,Call.records,Call.id,Call.directly] using increaseTokenQuotaAdds now id quota db
  | decreaseTokenQuota id quota => simpa [callEntry,Call.records,Call.id,Call.directly] using decreaseTokenQuotaAdds now id quota db
  | updateChannelUsedQuota id quota => simpa [callEntry,Call.records,Call.id,Call.directly] using channelAdds id quota db

theorem flushAdds (h : flush now key stores db = some (db',left)) (column k) : db'.stored column k =
      (db.stored column k).map (fun v => v + (waiting column k stores - waiting column k left)) := by
  unfold flush at h
  split at h
  · split at h
    · cases h
      rw [increaseTokenQuotaAdds,waitingDropped]
      congr 1
      funext v
      split <;> simp
    · cases h
  split at h
  · split at h
    · cases h
      rw [channelAdds,waitingDropped]
      congr 1
      funext v
      split <;> simp
    · cases h
  split at h
  · cases h
    rw [combinedAdds,waitingDropped,waitingDropped,waitingDropped]
    congr 1
    funext v
    have used : dropFrom key .userQuota stores .usedQuota = stores .usedQuota := by simp [dropFrom]
    have count : dropFrom key .usedQuota (dropFrom key .userQuota stores) .requestCount = stores .requestCount := by
      simp [dropFrom]
    rw [used,count]
    by_cases same : k = key
    · simp only [same,if_true]
      ring
    · simp [same]
  · cases h

def Even (column : Column) (k : Int) (s : Ledger) (p : Writer) (s' : Ledger) (q : Writer) : Prop :=
  ∀ v, s.db.stored column k = some v → ∃ v', s'.db.stored column k = some v' ∧
    v' + waiting column k s'.live + waiting column k (holds q) + logged column k s.done =
      v + waiting column k s.live + waiting column k (holds p) + logged column k s'.done

theorem evenIdle {s : Ledger} (same : waiting column k (holds q) = waiting column k (holds p)) :
    Even column k s p s q := by
  intro v found
  exact ⟨v,found,by rw [same]⟩

theorem evenSettled {s : Ledger} (holds' : holds p = noStores) (adds : ∀ v, s.db.stored column k = some v →
      db.stored column k = some (v + if k = entry.id then entry.delta column else 0)) :
    Even column k s p {s with db := db, done := s.done ++ [entry]} .finished := by
  intro v found
  refine ⟨_,adds v found,?_⟩
  rw [loggedAppend,holds']
  simp only [holds]
  omega

theorem evenWritten (holds' : holds p = noStores)
    (same : db.stored column k = s.db.stored column k) : Even column k s p {s with db := db} .finished := by
  intro v found
  refine ⟨v,same.trans found,?_⟩
  rw [holds']
  rfl

theorem storedSaved (user db column k) :
    (saveUser user db).stored (.user column) k =
      if user.id = k then some (column.read user) else db.stored (.user column) k := by
  simp only [Books.stored,saveUser,lookupSave]
  split <;> rfl

theorem storedElsewhere (user db) (other : ∀ c, column ≠ .user c) (k) :
    (saveUser user db).stored column k = db.stored column k := by
  cases column with
  | user c => exact absurd rfl (other c)
  | token | channelUsed => rfl

theorem savedEven (idle : holds p = noStores) (key : saved.id = entry.id)
    (foreign : ∀ c, (∀ own, c ≠ .user own) → entry.delta c = 0)
    (adds : saved.id = k → ∀ own v, column = .user own → s.db.stored column k = some v →
      own.read saved = v + entry.delta column) :
    Even column k s p {s with db := saveUser saved s.db, done := s.done ++ [entry]} .finished := by
  refine evenSettled idle (fun v found => ?_)
  cases column with
  | token | channelUsed =>
    rw [storedElsewhere _ _ (by simp),found,foreign _ (by simp)]
    simp
  | user own =>
    rw [storedSaved]
    by_cases this : saved.id = k
    · rw [if_pos this,adds this own v rfl found,if_pos (this.symm.trans key)]
    · rw [if_neg this,found,if_neg (fun eq => this (key.trans eq.symm)),add_zero]

theorem invitedEven {user : User} (works : c.fault = none)
    (quiet : disturbs s (.savingInvite user) c column k = false) :
    Even column k s (.savingInvite user)
      {s with db := saveUser (invited cfg.quotaForInviter user) s.db, done := s.done ++ [inviteEntry cfg user.id]}
      .finished := by
  refine savedEven rfl rfl (fun c other => if_neg (other _)) ?_
  rintro this own v rfl found
  have this : user.id = k := this
  have loaded : s.db.stored (.user own) k = some (own.read user) := by simpa [disturbs,works,this] using quiet
  rw [← some.inj (loaded.symm.trans found)]
  cases own <;> simp [UserColumn.read,invited,inviteEntry]

theorem transferOk {id}
    (h : transferAffQuotaToQuota logQuota quotaPerUnit id quota db = .ok db') :
    ∃ user, lookup User.id id db.users = some user ∧ db' = saveUser (transferred quota user) db := by
  unfold transferAffQuotaToQuota at h
  split at h
  · cases h
  split at h
  · cases h
  rename_i user hit
  split at h <;> cases h
  exact ⟨user,hit,rfl⟩

theorem transferredEven {cfg : Config} {id}
    (h : transferAffQuotaToQuota cfg.logQuota cfg.quotaPerUnit id quota s.db = .ok db) :
    Even column k s (.transferring id quota) {s with db := db, done := s.done ++ [transferEntry id quota]}
      .finished := by
  obtain ⟨user,hit,rfl⟩ := transferOk h
  have key := (lookupSound hit).2
  refine savedEven rfl key (fun c other => by simp [transferEntry,other]) ?_
  rintro this own v rfl found
  have this : user.id = k := this
  rw [Books.stored,← this,key,hit,map_some] at found
  rw [← some.inj found]
  cases own <;> simp [UserColumn.read,transferred,transferEntry,sub_eq_add_neg]

theorem profileColumns {id} {before : User → User} (column k)
    (stable : ∀ row, (before row).id = row.id)
    (reads : ∀ (column : UserColumn) row, column.read (before row) = column.read row) :
    (changeUser id (fun row => profileWritten newUser (before row)) db).stored column k =
      (db.stored column k).map (fun v =>
        if column = .user .affQuota ∧ k = id then orStored 0 newUser.affQuota v else v) := by
  cases column with
  | token | channelUsed => simp [Books.stored,changeUser,Function.comp_def]
  | user column =>
    have keys : ∀ row, (profileWritten newUser (before row)).id = row.id := stable
    simp only [Books.stored,changeUser]
    rw [lookupUpdateKey keys,Option.map_map,Option.map_map]
    congr 1
    funext row
    have same := reads column row
    by_cases this : k = id
    · cases column <;> simp only [UserColumn.read] at same <;> simp [UserColumn.read,profileWritten,this,same]
    · simp [this]

theorem profileStored (h : updateWithTx cfg user updatePassword db = .ok db') (column k) :
    db'.stored column k = (db.stored column k).map (fun v =>
      if column = .user .affQuota ∧ k = user.id then orStored 0 user.affQuota v else v) := by
  have saved : ∀ password, profileSaved user {user with password := password} updatePassword db = .ok db' →
      db'.stored column k = (db.stored column k).map (fun v =>
        if column = .user .affQuota ∧ k = user.id then orStored 0 user.affQuota v else v) := by
    intro password h
    unfold profileSaved at h
    split at h
    · cases h
    split at h
    · cases h
      exact profileColumns column k (fun _ => rfl) (fun _ _ => rfl)
    split at h
    · cases h
    · cases h
      exact profileColumns column k (fun _ => rfl) (fun c _ => by cases c <;> rfl)
  unfold updateWithTx at h
  split at h
  · split at h
    · cases h
    · exact saved _ h
  · exact saved user.password h

theorem profileEven {c : Choice} (works : c.fault = none)
    (quiet : disturbs s (.updating user updatePassword) c column k = false)
    (h : updateWithTx cfg user updatePassword s.db = .ok db) :
    Even column k s (.updating user updatePassword) {s with db := db} .finished := by
  refine evenWritten rfl ?_
  rw [profileStored h]
  cases found : s.db.stored column k with
  | none => rfl
  | some v =>
    by_cases this : column = .user .affQuota ∧ k = user.id
    · simp only [disturbs,works] at quiet
      have same : user.affQuota = 0 ∨ v = user.affQuota := by
        by_contra neither
        simp_all
      rcases same with zero | same
      · simp [orStored,zero]
      · simp [orStored,same]
    · simp only [map_some,if_neg this]

theorem tokenWrittenEven {c : Choice} (works : c.fault = none)
    (quiet : disturbs s (.savingToken token statusOnly) c column k = false) :
    Even column k s (.savingToken token statusOnly)
      {s with db := changeToken token.id (tokenWritten token) s.db} .finished := by
  refine evenWritten rfl ?_
  cases column with
  | user | channelUsed => rfl
  | token column =>
    have keys : ∀ row, (tokenWritten token row).id = row.id := fun _ => rfl
    simp only [Books.stored,changeToken]
    rw [lookupUpdateKey keys]
    by_cases this : k = token.id
    · cases found : lookup Token.id k s.db.tokens with
      | none => rfl
      | some row =>
        cases column with
        | usedQuota => simp [TokenColumn.read,tokenWritten,this]
        | remainQuota =>
          have same : row.remainQuota = token.remainQuota := by
            simpa [disturbs,works,this.symm,Books.stored,found,TokenColumn.read] using quiet
          simp [TokenColumn.read,tokenWritten,this,same]
    · simp [this]

theorem recordedEven :
    Even column k s (.recording (r::rest))
      {s with live := addNewRecord r s.live, done := s.done ++ [recordEntry r]} (.recording rest) := by
  intro v found
  refine ⟨v,found,?_⟩
  have live : waiting column k (addNewRecord r s.live) =
      waiting column k s.live + if k = r.id then share r.type column * r.value else 0 := by
    unfold waiting addNewRecord
    rw [weighUpdate,heldAdd]
    by_cases same : k = r.id
    · simp only [same,if_true]
      ring
    · have other : ¬r.id = k := fun eq => same eq.symm
      simp [same,other]
  rw [live,loggedAppend]
  simp only [holds,recordEntry]
  omega

theorem swappedEven (empty : stores type = []) :
    Even column k s (.swapping (type::rest) stores) {s with live := Function.update s.live type []}
      (.swapping rest (Function.update stores type (s.live type))) := by
  intro v found
  refine ⟨v,found,?_⟩
  simp only [holds,waiting]
  rw [weighUpdate,weighUpdate,empty]
  ring

theorem flushedEven (h : flush now key stores s.db = some (db,left))
    (quiet : fault ≠ (none : Option String) → waiting column k left = waiting column k stores) :
    Even column k s (.flushing stores) {s with db := if fault = none then db else s.db} (.flushing left) := by
  intro v found
  by_cases works : fault = none
  · refine ⟨v + (waiting column k stores - waiting column k left),?_,?_⟩
    · simp only [if_pos works,flushAdds h,found,map_some]
    · simp only [holds]
      ring
  · refine ⟨v,by simpa [works] using found,?_⟩
    simp only [holds,quiet works]

def Fits : Writer → Prop
  | .swapping left stores => left.Nodup ∧ ∀ type ∈ left, stores type = []
  | _ => True

theorem actFits (fits : Fits p) (h : act cfg s p c = some (s',q)) : Fits q := by
  cases p with
  | finished => cases h
  | recording records => cases records <;> cases h <;> trivial
  | checking left =>
    cases left with
    | nil => cases h; trivial
    | cons =>
      simp only [act,Option.some.injEq,Prod.mk.injEq] at h
      rw [← h.2]
      split
      · exact ⟨by decide,fun _ _ => rfl⟩
      · trivial
  | swapping left =>
    cases left with
    | nil => cases h; trivial
    | cons type =>
      cases h
      obtain ⟨fresh,later⟩ := nodup_cons.mp fits.1
      refine ⟨later,fun t member => ?_⟩
      have other : t ≠ type := fun same => fresh (same ▸ member)
      rw [Function.update_of_ne other]
      exact fits.2 t (mem_cons_of_mem _ member)
  | calling | flushing | inviting | savingInvite | transferring | updating | editing | savingToken =>
    simp only [act,settle] at h
    repeat' split at h
    all_goals cases h
    all_goals trivial

theorem actEven (fits : Fits p) (quiet : disturbs s p c column k = false)
    (h : act cfg s p c = some (s',q)) : Even column k s p s' q := by
  cases p with
  | finished => cases h
  | calling call =>
    simp only [act,settle] at h
    split at h
    · cases h; exact evenIdle rfl
    split at h
    · cases h; exact evenIdle rfl
    split at h
    · cases h; exact evenIdle rfl
    cases h
    refine evenSettled rfl (fun v found => ?_)
    rw [directlyAdds c.now call s.db column k,found]
    rfl
  | recording records =>
    cases records with
    | nil => cases h; exact evenIdle rfl
    | cons => cases h; exact recordedEven
  | checking left =>
    cases left with
    | nil => cases h; exact evenIdle rfl
    | cons =>
      obtain ⟨rfl,rfl⟩ := h
      refine evenIdle ?_
      split <;> rfl
  | swapping left =>
    cases left with
    | nil => cases h; exact evenIdle rfl
    | cons type => cases h; exact swappedEven (fits.2 type (by simp))
  | flushing stores =>
    simp only [act] at h
    split at h
    · rename_i empty
      cases h
      have none : stores = noStores := by
        funext type
        exact empty type (by cases type <;> decide)
      rw [none]
      exact evenIdle rfl
    split at h
    · cases h
    rename_i db left flushed
    cases h
    refine flushedEven flushed (fun fails => ?_)
    simpa [disturbs,flushed,fails] using quiet
  | inviting | editing =>
    simp only [act] at h
    split at h <;> cases h <;> exact evenIdle rfl
  | savingInvite =>
    simp only [act,settle] at h
    split at h
    · cases h; exact evenIdle rfl
    rename_i works
    cases h
    exact invitedEven (not_not.mp works) quiet
  | transferring =>
    simp only [act,settle] at h
    split at h
    · rename_i db _ ok
      cases h
      exact transferredEven ok
    · cases h; exact evenIdle rfl
  | updating =>
    simp only [act] at h
    split at h
    · rename_i db works ok
      cases h
      exact profileEven works quiet ok
    · cases h; exact evenIdle rfl
  | savingToken =>
    simp only [act] at h
    split at h
    · cases h; exact evenIdle rfl
    rename_i works
    cases h
    exact tokenWrittenEven (not_not.mp works) quiet

def disturbsAt (column : Column) (k : Int) (pool : Pool.State Ledger Writer) : Move Writer Choice → Bool
  | .start _ => false
  | .act i c => match pool.procs[i]? with
    | some p => disturbs pool.shared p c column k
    | none => false

def account (column : Column) (k : Int) (s : Ledger) : Int :=
  (s.db.stored column k).getD 0 + waiting column k s.live - logged column k s.done

def inHand (column : Column) (k : Int) (p : Writer) : Int := waiting column k (holds p)

structure Balanced (column : Column) (k v0 : Int) (pool : Pool.State Ledger Writer) : Prop where
  fits : ∀ p ∈ pool.procs, Fits p
  stored : (pool.shared.db.stored column k).isSome
  even : total (account column k) (inHand column k) pool = v0

theorem stepBalanced (sound : Balanced column k v0 pool)
    (quiet : disturbsAt column k pool move = false) (h : step cfg pool move = some n) : Balanced column k v0 n := by
  cases move with
  | start p =>
    obtain ⟨fresh,rfl⟩ := stepStart h
    have idle : Fits p ∧ holds p = noStores := by
      cases p with
      | swapping | flushing => cases fresh
      | calling | recording | checking | inviting | savingInvite | transferring | updating | editing | savingToken
      | finished => exact ⟨trivial,rfl⟩
    refine ⟨allAdded sound.fits idle.1,sound.stored,?_⟩
    rw [totalStart]
    have none : inHand column k p = 0 := by simp [inHand,idle.2]
    have before := sound.even
    unfold total at before ⊢
    dsimp only
    omega
  | act =>
    obtain ⟨p,s',q,found,moved,rfl⟩ := stepAct h
    have fits := sound.fits p (mem_of_getElem? found)
    have even := actEven fits (by simpa [disturbsAt,found] using quiet) moved
    obtain ⟨v,value⟩ := isSome_iff_exists.mp sound.stored
    obtain ⟨_,value',_⟩ := even v value
    refine ⟨allSet sound.fits (actFits fits moved),by simp [value'],?_⟩
    have moves := totalAct (account column k) (inHand column k) found s' q
    have before := sound.even
    simp only [account,inHand,value,value',getD_some] at moves ⊢ before
    omega

theorem startBalanced (stored : db.stored column k = some v0) :
    Balanced column k v0 (start db) := by
  refine ⟨fun p member => ?_,by simp [start,stored],?_⟩
  · cases member
  · simp [start,total,account,stored,logged]

theorem runBalanced (stored : db.stored column k = some v0)
    (quiet : Along (step cfg) (fun pool move => disturbsAt column k pool move = false) (start db) moves)
    (h : run (step cfg) (start db) moves = some out) : Balanced column k v0 out :=
  runInvariant (fun _ _ _ sound quiet moved => stepBalanced sound quiet moved) (startBalanced stored) quiet h

def atRest (pool : Pool.State Ledger Writer) : Prop := ∀ p ∈ pool.procs, p = .finished

theorem restTotal (rest : atRest pool) (none : part .finished = 0) : total value part pool = value pool.shared := by
  have zero : (pool.procs.map part).sum = 0 := by
    refine sum_eq_zero (fun x member => ?_)
    obtain ⟨p,inside,rfl⟩ := mem_map.mp member
    rw [rest p inside,none]
  simp [total,zero]

theorem balancedSum (sound : Balanced column k v0 pool) :
    ∃ v, pool.shared.db.stored column k = some v ∧
      v + waiting column k pool.shared.live + (pool.procs.map (fun p => waiting column k (holds p))).sum =
        v0 + logged column k pool.shared.done := by
  obtain ⟨v,value⟩ := isSome_iff_exists.mp sound.stored
  have even := sound.even
  have hands : (pool.procs.map (inHand column k)).sum = (pool.procs.map (fun p => waiting column k (holds p))).sum :=
    rfl
  refine ⟨v,value,?_⟩
  simp only [total,account,value,getD_some] at even
  omega

theorem balancedRest (sound : Balanced column k v0 pool)
    (rest : atRest pool) (empty : ∀ type, pool.shared.live type = []) :
    pool.shared.db.stored column k = some (v0 + logged column k pool.shared.done) := by
  obtain ⟨v,value⟩ := isSome_iff_exists.mp sound.stored
  have even := sound.even
  have live : pool.shared.live = noStores := funext empty
  rw [restTotal rest (by simp [inHand,holds])] at even
  simp only [account,value,live,waitingNone,getD_some] at even
  rw [value]
  congr 1
  omega

end Omnigate.BalanceWriters
