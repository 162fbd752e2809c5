import Omnigate.Deltas

/-! The balance columns of users, tokens and channels, and the statements that add fixed amounts to the columns of the
rows with one id. Rows that are not deleted. -/
namespace Omnigate.Balances

open Deltas Table Option

structure User where
  (id quota usedQuota requestCount affCount affQuota affHistoryQuota inviterId : Int)
  (username password displayName email group setting : String)
  (role status authVersion : Int)
  deriving DecidableEq, Repr

inductive TokenStatus where
  | enabled | disabled | expired | exhausted
  | other (code : Int)
  deriving DecidableEq, Repr

structure Token where
  (id userId : Int)
  status : TokenStatus
  name : String
  (accessedTime expiredTime remainQuota : Int)
  (unlimitedQuota modelLimitsEnabled : Bool)
  modelLimits : String
  allowIps : Option String
  usedQuota : Int
  group : String
  crossGroupRetry : Bool
  deriving DecidableEq, Repr

structure Channel where
  (id usedQuota : Int)
  deriving DecidableEq, Repr

structure Books where
  users : List User
  tokens : List Token
  channels : List Channel
  deriving DecidableEq, Repr

inductive UserColumn where
  | quota | usedQuota | requestCount | affQuota
  deriving DecidableEq, Repr

inductive TokenColumn where
  | remainQuota | usedQuota
  deriving DecidableEq, Repr

inductive Column where
  | user (column : UserColumn)
  | token (column : TokenColumn)
  | channelUsed
  deriving DecidableEq, Repr

def UserColumn.read : UserColumn → User → Int
  | .quota => User.quota
  | .usedQuota => User.usedQuota
  | .requestCount => User.requestCount
  | .affQuota => User.affQuota

def TokenColumn.read : TokenColumn → Token → Int
  | .remainQuota => Token.remainQuota
  | .usedQuota => Token.usedQuota

def Books.stored (db : Books) : Column → Int → Option Int
  | .user column,id => (lookup User.id id db.users).map column.read
  | .token column,id => (lookup Token.id id db.tokens).map column.read
  | .channelUsed,id => (lookup Channel.id id db.channels).map Channel.usedQuota

inductive BatchUpdateType where
  | userQuota | tokenQuota | usedQuota | channelUsedQuota | requestCount
  deriving DecidableEq, Repr

instance : Fintype BatchUpdateType where
  elems := {.userQuota,.tokenQuota,.usedQuota,.channelUsedQuota,.requestCount}
  complete := by intro type; cases type <;> simp

def share : BatchUpdateType → Column → Int
  | .userQuota,.user .quota => 1
  | .usedQuota,.user .usedQuota => 1
  | .requestCount,.user .requestCount => 1
  | .tokenQuota,.token .remainQuota => 1
  | .tokenQuota,.token .usedQuota => -1
  | .channelUsedQuota,.channelUsed => 1
  | _,_ => 0

def changeUser (id : Int) (change : User → User) (db : Books) : Books :=
  {db with users := updateWhere (fun user => user.id = id) change db.users}

def changeToken (id : Int) (change : Token → Token) (db : Books) : Books :=
  {db with tokens := updateWhere (fun token => token.id = id) change db.tokens}

def increaseUserQuota (id quota : Int) : Books → Books :=
  changeUser id (fun user => {user with quota := user.quota + quota})

def decreaseUserQuota (id quota : Int) : Books → Books :=
  changeUser id (fun user => {user with quota := user.quota - quota})

def updateUserUsedQuotaAndRequestCount (id quota count : Int) : Books → Books :=
  changeUser id (fun user =>
    {user with usedQuota := user.usedQuota + quota, requestCount := user.requestCount + count})

def updateUserQuotaUsedQuotaAndRequestCount (id quota usedQuota requestCount : Int) (db : Books) : Books :=
  if quota = 0 ∧ usedQuota = 0 ∧ requestCount = 0 then db
  else changeUser id (fun user =>
    { user with quota := user.quota + quota, usedQuota := user.usedQuota + usedQuota,
                requestCount := user.requestCount + requestCount }) db

def increaseTokenQuota (now id quota : Int) : Books → Books :=
  changeToken id (fun token =>
    {token with remainQuota := token.remainQuota + quota, usedQuota := token.usedQuota - quota,accessedTime := now})

def decreaseTokenQuota (now id quota : Int) : Books → Books :=
  changeToken id (fun token =>
    {token with remainQuota := token.remainQuota - quota, usedQuota := token.usedQuota + quota,accessedTime := now})

def updateChannelUsedQuota (id quota : Int) (db : Books) : Books :=
  let change := fun channel : Channel => {channel with usedQuota := channel.usedQuota + quota}
  {db with channels := updateWhere (fun channel => channel.id = id) change db.channels}

def Adds (db : Books) (id : Int) (delta : Column → Int) (db' : Books) : Prop :=
  ∀ column k, db'.stored column k = (db.stored column k).map (fun v => v + if k = id then delta column else 0)

theorem readChanged {ρ : Type} {key} {id k amount : Int} {change read} {rows : List ρ}
    (stable : ∀ r, key (change r) = key r) (adds : ∀ r, read (change r) = read r + amount) :
    (lookup key k (updateWhere (fun r => key r = id) change rows)).map read =
      ((lookup key k rows).map read).map (fun v => v + if k = id then amount else 0) := by
  rw [lookupUpdateKey stable,map_map,map_map]
  by_cases this : k = id <;> simp [this,Function.comp_def,adds]

theorem userAdds {id} {change : User → User} (stable : ∀ user, (change user).id = user.id)
    (adds : ∀ (column : UserColumn) user, column.read (change user) = column.read user + delta (.user column))
    (tokens : ∀ column, delta (.token column) = 0) (channels : delta .channelUsed = 0) :
    Adds db id delta (changeUser id change db) := by
  intro column k
  cases column with
  | user column => exact readChanged stable (adds column)
  | token column => simp [Books.stored,changeUser,tokens column,Function.comp_def]
  | channelUsed => simp [Books.stored,changeUser,channels,Function.comp_def]

theorem tokenAdds {id} {change : Token → Token} (stable : ∀ token, (change token).id = token.id)
    (adds : ∀ (column : TokenColumn) token, column.read (change token) = column.read token + delta (.token column))
    (users : ∀ column, delta (.user column) = 0) (channels : delta .channelUsed = 0) :
    Adds db id delta (changeToken id change db) := by
  intro column k
  cases column with
  | user column => simp [Books.stored,changeToken,users column,Function.comp_def]
  | token column => exact readChanged stable (adds column)
  | channelUsed => simp [Books.stored,changeToken,channels,Function.comp_def]

theorem increaseUserQuotaAdds (id quota db) :
    Adds db id (fun column => share .userQuota column * quota) (increaseUserQuota id quota db) := by
  refine userAdds (fun _ => rfl) (fun column _ => ?_) (fun _ => by simp [share]) (by simp [share])
  cases column <;> simp [UserColumn.read,share]

theorem decreaseUserQuotaAdds (id quota db) :
    Adds db id (fun column => share .userQuota column * (-quota)) (decreaseUserQuota id quota db) := by
  refine userAdds (fun _ => rfl) (fun column _ => ?_) (fun _ => by simp [share]) (by simp [share])
  cases column <;> simp [UserColumn.read,share,sub_eq_add_neg]

theorem usedQuotaAdds (id quota count db) :
    Adds db id (fun column => share .usedQuota column * quota + share .requestCount column * count)
      (updateUserUsedQuotaAndRequestCount id quota count db) := by
  refine userAdds (fun _ => rfl) (fun column _ => ?_) (fun _ => by simp [share]) (by simp [share])
  cases column <;> simp [UserColumn.read,share]

theorem combinedAdds (id quota usedQuota requestCount db) :
    Adds db id (fun column => share .userQuota column * quota + share .usedQuota column * usedQuota +
        share .requestCount column * requestCount)
      (updateUserQuotaUsedQuotaAndRequestCount id quota usedQuota requestCount db) := by
  unfold updateUserQuotaUsedQuotaAndRequestCount
  split
  · rename_i zero
    obtain ⟨rfl,rfl,rfl⟩ := zero
    intro column k
    simp
  · refine userAdds (fun _ => rfl) (fun column _ => ?_) (fun _ => by simp [share]) (by simp [share])
    cases column <;> simp [UserColumn.read,share]

theorem increaseTokenQuotaAdds (now id quota db) :
    Adds db id (fun column => share .tokenQuota column * quota) (increaseTokenQuota now id quota db) := by
  refine tokenAdds (fun _ => rfl) (fun column _ => ?_) (fun _ => by simp [share]) (by simp [share])
  cases column <;> simp [TokenColumn.read,share,sub_eq_add_neg]

theorem decreaseTokenQuotaAdds (now id quota db) :
    Adds db id (fun column => share .tokenQuota column * (-quota)) (decreaseTokenQuota now id quota db) := by
  refine tokenAdds (fun _ => rfl) (fun column _ => ?_) (fun _ => by simp [share]) (by simp [share])
  cases column <;> simp [TokenColumn.read,share,sub_eq_add_neg]

theorem channelAdds (id quota db) :
    Adds db id (fun column => share .channelUsedQuota column * quota) (updateChannelUsedQuota id quota db) := by
  intro column k
  cases column with
  | user | token => simp [Books.stored,updateChannelUsedQuota,share,Function.comp_def]
  | channelUsed => exact readChanged (fun _ => rfl) (fun _ => by simp [share])

end Omnigate.Balances
