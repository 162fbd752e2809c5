import Omnigate.Pool
import Omnigate.Table
import Omnigate.Transaction

/-! Redemption codes under any interleaving of redeem calls and edits. From its guarded status update on a redeem call
holds the row until it commits, so the rest is one step; its read may be apart from that step, as on a database
without row locks. Rows that are not deleted. -/
namespace Omnigate.Redemption

open Machine Table Transaction List Option
open Pool hiding step State

inductive Status where
  | enabled | disabled | used
  | other (code : Int)
  deriving DecidableEq, Repr

structure Code where
  id : Int
  key : String
  status : Status
  name : String
  (quota redeemedTime usedUserId expiredTime : Int)
  deriving DecidableEq, Repr

structure User where
  (id quota : Int)
  deriving DecidableEq, Repr

structure Desk where
  codes : List Code
  users : List User
  deriving DecidableEq, Repr

def Desk.status (id : Int) (db : Desk) : Option Status := (lookup Code.id id db.codes).map Code.status

def Desk.quota (id : Int) (db : Desk) : Option Int := (lookup User.id id db.users).map User.quota

def readCode (key : String) (userId now : Int) (fault : Option String) (db : Desk) : Except String Code := do
  if key = "" then throw "未提供兑换码"
  if userId = 0 then throw "无效的 user id"
  match fault,lookup Code.key key db.codes with
  | none,some redemption =>
    if redemption.status ≠ .enabled then throw "该兑换码已被使用"
    if redemption.expiredTime ≠ 0 ∧ redemption.expiredTime < now then throw "该兑换码已过期"
    return redemption
  | _,_ => throw "无效的兑换码"

def swappable (id : Int) (r : Code) : Bool := r.id = id ∧ r.status = .enabled

def markUsed (now userId : Int) (r : Code) : Code :=
  {r with redeemedTime := now, status := .used, usedUserId := userId}

def swapStatus (now userId id : Int) (db : Desk) : Nat × Desk :=
  (db.codes.countP (swappable id),{db with codes := updateWhere (swappable id) (markUsed now userId) db.codes})

def addQuota (quota : Int) (user : User) : User := {user with quota := user.quota + quota}

def creditUser (userId quota : Int) (db : Desk) : Desk :=
  {db with users := updateWhere (fun user => user.id = userId) (addQuota quota) db.users}

def redeemTx (now userId : Int) (redemption : Code) : Tx Desk String Unit := do
  let rowsAffected ← alter (swapStatus now userId redemption.id)
  if rowsAffected = 0 then fail "该兑换码已被使用"
  exec (creditUser userId redemption.quota)

structure Request where
  id : Int
  name : String
  (quota expiredTime : Int)
  status : Status
  statusOnly : Bool
  deriving DecidableEq, Repr

def getRedemptionById (id : Int) (fault : Option String) (db : Desk) : Except String Code := do
  if id = 0 then throw "id 为空！"
  match fault,lookup Code.id id db.codes with
  | some e,_ => throw e
  | none,some redemption => return redemption
  | none,none => throw "record not found"

def validateExpiredTime (expired now : Int) : Bool := ¬(expired ≠ 0 ∧ expired < now)

def loadEdited (request : Request) (now : Int) (fault : Option String) (db : Desk) : Except String Code := do
  let clean ← getRedemptionById request.id fault db
  if request.statusOnly then return {clean with status := request.status}
  if ¬validateExpiredTime request.expiredTime now then throw "redemption.expire_time_invalid"
  return {clean with name := request.name, quota := request.quota, expiredTime := request.expiredTime}

def written (clean r : Code) : Code :=
  { r with name := clean.name, status := clean.status, quota := clean.quota,
           redeemedTime := clean.redeemedTime, expiredTime := clean.expiredTime }

def update (clean : Code) (db : Desk) : Desk :=
  {db with codes := updateWhere (fun r => r.id = clean.id) (written clean) db.codes}

structure Credit where
  (redemptionId userId quota : Int)
  deriving DecidableEq, Repr

structure Counter where
  db : Desk
  credits : List Credit
  deriving DecidableEq

inductive Call where
  | redeem (key : String) (userId : Int)
  | swapping (userId : Int) (redemption : Code)
  | edit (request : Request)
  | saving (clean : Code)
  | finished
  deriving DecidableEq

inductive Choice where
  | go (now : Int) (faults : List (Option String))
  | stop
  deriving DecidableEq

def act (s : Counter) (p : Call) (c : Choice) : Option (Counter × Call) :=
  match p,c with
  | .finished,_ => none
  | _,.stop => some (s,.finished)
  | .redeem key userId,.go now faults => match readCode key userId now faults.head?.join s.db with
    | .error _ => some (s,.finished)
    | .ok redemption => some (s,.swapping userId redemption)
  | .swapping userId redemption,.go now faults =>
    match atomically (redeemTx now userId redemption) faults s.db with
    | (.error _,db) => some ({s with db := db},.finished)
    | (.ok _,db) => some (⟨db,s.credits ++ [⟨redemption.id,userId,redemption.quota⟩]⟩,.finished)
  | .edit request,.go now faults => match loadEdited request now faults.head?.join s.db with
    | .error _ => some (s,.finished)
    | .ok clean => some (s,.saving clean)
  | .saving clean,.go _ faults => match faults.head?.join with
    | some _ => some (s,.finished)
    | none => some ({s with db := update clean s.db},.finished)

def begins : Call → Bool
  | .redeem _ _ => true
  | .edit request => ¬request.statusOnly
  | _ => false

def step (pool : Pool.State Counter Call) (move : Move Call Choice) : Option (Pool.State Counter Call) :=
  Pool.step begins act pool move

def start (db : Desk) : Pool.State Counter Call := ⟨⟨db,[]⟩,[]⟩

/- An edit whose code was used after the edit had loaded it does not come to its write. -/
def careful (pool : Pool.State Counter Call) : Move Call Choice → Bool
  | .act i (.go _ _) => match pool.procs[i]? with
    | some (.saving clean) => pool.shared.db.status clean.id = some .used → clean.status = .used
    | _ => true
  | _ => true

theorem redeemCases {after}
    (h : atomically (redeemTx now userId redemption) faults db = (r,after)) :
    (∃ e, r = .error e ∧ after = db) ∨ (r = .ok () ∧ 0 < db.codes.countP (swappable redemption.id) ∧
        after = creditUser userId redemption.quota (swapStatus now userId redemption.id db).2) := by
  rcases atomicallyCases h with failed | ⟨_,v,ok,ran,rfl⟩
  · exact .inl failed
  obtain ⟨rows,m,swapped,rest⟩ := bindOk ran
  obtain ⟨count,tables⟩ := alterOk swapped
  by_cases none : rows = 0
  · rw [if_pos none] at rest
    cases rest
  rw [if_neg none] at rest
  refine .inr ⟨ok,?_,?_⟩
  · rw [count] at none
    exact Nat.pos_of_ne_zero none
  · rw [execOk rest,tables]

theorem statusSwapped {id} (k db) : (swapStatus now userId id db).2.status k =
      (lookup Code.id k db.codes).map (fun r => if swappable id r then .used else r.status) := by
  have stable : ∀ r, (markUsed now userId r).id = r.id := fun _ => rfl
  unfold Desk.status swapStatus
  rw [lookupUpdate stable,Option.map_map]
  congr 1
  funext r
  simp only [Function.comp_apply]
  split <;> rfl

theorem statusWritten (clean k db) :
    (update clean db).status k = if k = clean.id then (db.status k).map (fun _ => clean.status) else db.status k := by
  have stable : ∀ r, (written clean r).id = r.id := fun _ => rfl
  unfold Desk.status update
  rw [lookupUpdateKey stable,Option.map_map,Option.map_map]
  split <;> rfl

theorem usedSwapped {id} (used : db.status k = some .used) :
    (swapStatus now userId id db).2.status k = some .used := by
  rw [statusSwapped]
  obtain ⟨r,found,status⟩ := map_eq_some_iff.mp used
  simp [found,swappable,status]

theorem swappedUsed {id} (unique : (db.codes.map Code.id).Nodup)
    (hit : 0 < db.codes.countP (swappable id)) :
    db.status id = some .enabled ∧ (swapStatus now userId id db).2.status id = some .used := by
  obtain ⟨r,member,swaps⟩ := countP_pos_iff.mp hit
  have both : r.id = id ∧ r.status = .enabled := by simpa [swappable] using swaps
  have found : lookup Code.id id db.codes = some r := both.1 ▸ lookupUnique unique member
  refine ⟨by simp [Desk.status,found,both.2],?_⟩
  rw [statusSwapped,found]
  simp [swaps]

theorem quotaCredited (userId quota k db) :
    (creditUser userId quota db).quota k = (db.quota k).map (fun before => if k = userId then before + quota else before) := by
  have stable : ∀ user, (addQuota quota user).id = user.id := fun _ => rfl
  unfold Desk.quota creditUser
  rw [lookupUpdateKey stable,Option.map_map,Option.map_map]
  by_cases this : k = userId <;> simp only [this,if_true,if_false] <;> rfl

def redeemed (id : Int) (credits : List Credit) : Nat := credits.countP (fun credit => credit.redemptionId = id)

def creditedTo (userId : Int) (credits : List Credit) : Int :=
  ((credits.filter (fun credit => credit.userId = userId)).map Credit.quota).sum

structure Once (db0 : Desk) (s : Counter) : Prop where
  keys : (s.db.codes.map Code.id).Nodup
  once : ∀ id, redeemed id s.credits = 0 ∨ (redeemed id s.credits = 1 ∧ s.db.status id = some .used)
  users : ∀ userId, s.db.quota userId = (db0.quota userId).map (fun quota => quota + creditedTo userId s.credits)

theorem onceRedeemed {redemption : Code} (once : Once db0 s)
    (hit : 0 < s.db.codes.countP (swappable redemption.id)) :
    Once db0 ⟨creditUser userId redemption.quota (swapStatus now userId redemption.id s.db).2,
      s.credits ++ [⟨redemption.id,userId,redemption.quota⟩]⟩ := by
  obtain ⟨enabled,used⟩ := swappedUsed once.keys hit
  refine ⟨?_,?_,?_⟩
  · have stable : ∀ r, (markUsed now userId r).id = r.id := fun _ => rfl
    have same := @updateKeys _ _ _ (swappable redemption.id) _ (fun r _ => stable r) s.db.codes
    exact same ▸ once.keys
  · intro id
    simp only [redeemed,countP_append,countP_singleton]
    by_cases this : redemption.id = id
    · subst this
      -- the code was enabled, so nobody had redeemed it before
      have before : redeemed redemption.id s.credits = 0 := by
        rcases once.once redemption.id with none | ⟨_,wrong⟩
        · exact none
        · rw [enabled] at wrong
          cases wrong
      unfold redeemed at before
      exact .inr ⟨by simp [before],used⟩
    simp only [this,decide_false,Bool.false_eq_true,if_false,Nat.add_zero]
    rcases once.once id with none | ⟨one,stored⟩
    · exact .inl none
    · exact .inr ⟨one,usedSwapped stored⟩
  · intro k
    have moved := quotaCredited userId redemption.quota k (swapStatus now userId redemption.id s.db).2
    have before : (swapStatus now userId redemption.id s.db).2.quota k = s.db.quota k := rfl
    rw [moved,before,once.users k,Option.map_map]
    congr 1
    funext quota
    by_cases this : k = userId
    · simp [creditedTo,this,Function.comp_apply,filter_append,add_assoc]
    · have other : ¬userId = k := fun same => this same.symm
      simp [creditedTo,this,other,Function.comp_apply,filter_append]

theorem usedWritten (care : db.status clean.id = some .used → clean.status = .used) (used : db.status k = some .used) :
    (update clean db).status k = some .used := by
  rw [statusWritten,used]
  by_cases this : k = clean.id
  · rw [this] at used
    simp [this,care used]
  · simp [this]

theorem onceWritten (once : Once db0 s) (care : s.db.status clean.id = some .used → clean.status = .used) :
    Once db0 {s with db := update clean s.db} := by
  refine ⟨?_,?_,once.users⟩
  · have stable : ∀ r, (written clean r).id = r.id := fun _ => rfl
    have same := @updateKeys _ _ _ (fun r => r.id = clean.id) _ (fun r _ => stable r) s.db.codes
    exact same ▸ once.keys
  intro id
  rcases once.once id with none | ⟨one,used⟩
  · exact .inl none
  · exact .inr ⟨one,usedWritten care used⟩

def StaysUsed (s s' : Counter) : Prop := ∀ id, s.db.status id = some .used → s'.db.status id = some .used

theorem actOnce {db0} {s s' : Counter} (once : Once db0 s)
    (care : ∀ clean now faults, p = .saving clean → c = .go now faults →
      s.db.status clean.id = some .used → clean.status = .used)
    (h : act s p c = some (s',q)) : Once db0 s' ∧ StaysUsed s s' := by
  have idle : Once db0 s ∧ StaysUsed s s := ⟨once,fun _ used => used⟩
  cases p with
  | finished => cases h
  | redeem | edit =>
    cases c with
    | stop => cases h; exact idle
    | go =>
      simp only [act] at h
      split at h <;> cases h <;> exact idle
  | saving clean =>
    cases c with
    | stop => cases h; exact idle
    | go now faults =>
      have quiet := care clean now faults rfl rfl
      simp only [act] at h
      split at h
      · cases h
        exact idle
      · cases h
        exact ⟨onceWritten once quiet,fun _ used => usedWritten quiet used⟩
  | swapping userId redemption =>
    cases c with
    | stop => cases h; exact idle
    | go now faults =>
      simp only [act] at h
      rcases tx : atomically (redeemTx now userId redemption) faults s.db with ⟨r,_⟩
      rw [tx] at h
      rcases redeemCases tx with ⟨e,rfl,rfl⟩ | ⟨rfl,hit,rfl⟩
      · cases h
        exact idle
      · cases h
        exact ⟨onceRedeemed once hit,fun _ used => usedSwapped used⟩

theorem stepOnce (once : Once db0 pool.shared) (care : careful pool move) (h : step pool move = some n) :
    Once db0 n.shared ∧ StaysUsed pool.shared n.shared := by
  cases move with
  | start =>
    obtain ⟨_,rfl⟩ := stepStart h
    exact ⟨once,fun _ used => used⟩
  | act =>
    obtain ⟨p,_,q,found,moved,rfl⟩ := stepAct h
    refine actOnce once ?_ moved
    rintro _ _ _ rfl rfl
    simpa [careful,found,imp_iff_not_or] using care

theorem runOnce (once : Once db0 pool.shared)
    (care : Along step (fun pool move => careful pool move) pool moves) (h : run step pool moves = some out) :
    Once db0 out.shared ∧ StaysUsed pool.shared out.shared := by
  have keep : ∀ s l n, (Once db0 s.shared ∧ StaysUsed pool.shared s.shared) → careful s l →
      step s l = some n → Once db0 n.shared ∧ StaysUsed pool.shared n.shared := by
    intro s l n sound care moved
    obtain ⟨once',stays⟩ := stepOnce sound.1 care moved
    exact ⟨once',fun id used => stays id (sound.2 id used)⟩
  exact runInvariant keep ⟨once,fun _ used => used⟩ care h

theorem redeemedOnce {db0 earlier later mid out} (unique : (db0.codes.map Code.id).Nodup)
    (care : Along step (fun pool move => careful pool move) (start db0) (earlier ++ later))
    (before : run step (start db0) earlier = some mid) (h : run step (start db0) (earlier ++ later) = some out) :
    (∀ id, redeemed id out.shared.credits ≤ 1) ∧
      (∀ id, 0 < redeemed id out.shared.credits → out.shared.db.status id = some .used) ∧
      (∀ userId, out.shared.db.quota userId =
        (db0.quota userId).map (fun quota => quota + creditedTo userId out.shared.credits)) ∧
      ∀ id, mid.shared.db.status id = some .used → out.shared.db.status id = some .used := by
  have begun : Once db0 (start db0).shared := by
    refine ⟨unique,fun _ => .inl rfl,fun userId => ?_⟩
    simp [start,creditedTo]
  obtain ⟨_,left,right⟩ := runAppend h
  cases some.inj (before.symm.trans left)
  obtain ⟨careBefore,careAfter⟩ := alongAppend care before
  have onceMid := (runOnce begun careBefore before).1
  obtain ⟨once,stays⟩ := runOnce onceMid careAfter right
  refine ⟨fun id => ?_,fun id _ => ?_,once.users,stays⟩
  · rcases once.once id with none | _ <;> omega
  rcases once.once id with none | ⟨_,used⟩
  · omega
  · exact used

def welcomeCode : Code := ⟨1,"WELCOME",.enabled,"welcome",500,0,0,0⟩

def welcomeDesk : Desk := ⟨[welcomeCode],[⟨7,100⟩,⟨8,100⟩]⟩

def newName : Request := ⟨1,"gift",500,0,.enabled,false⟩

theorem redeemedOnceByTheFaster :
    ∃ out, run step (start welcomeDesk)
        [.start (.redeem "WELCOME" 7),.start (.redeem "WELCOME" 8),.act 0 (.go 5 []),.act 1 (.go 5 []),
          .act 1 (.go 6 []),.act 0 (.go 6 []),.start (.edit newName),.act 2 (.go 9 []),.act 2 (.go 9 [])] =
          some out ∧
      out.shared.credits = [⟨1,8,500⟩] ∧ out.shared.db.status 1 = some .used ∧
      out.shared.db.quota 7 = some 100 ∧ out.shared.db.quota 8 = some 600 := by
  have runs : (run step (start welcomeDesk)
      ([.start (.redeem "WELCOME" 7),.start (.redeem "WELCOME" 8),.act 0 (.go 5 []),.act 1 (.go 5 []),
        .act 1 (.go 6 []),.act 0 (.go 6 []),.start (.edit newName),.act 2 (.go 9 []),.act 2 (.go 9 [])] ++ [])).map
        (fun out => out.shared.credits) = some [⟨1,8,500⟩] := by decide +kernel
  obtain ⟨out,h,credits⟩ := map_eq_some_iff.mp runs
  have all := redeemedOnce (by decide) (alongChecked (by decide +kernel)) (by simpa using h) h
  obtain ⟨_,used,users,_⟩ := all
  rw [credits] at used users
  exact ⟨out,by simpa using h,credits,used 1 (by decide),(users 7).trans (by decide +kernel),
    (users 8).trans (by decide +kernel)⟩

theorem renamedCodeIsRedeemedTwice :
    ∃ out, run step (start welcomeDesk)
        [.start (.edit newName),.act 0 (.go 4 []),
          .start (.redeem "WELCOME" 7),.act 1 (.go 5 []),.act 1 (.go 5 []),.act 0 (.go 6 []),
          .start (.redeem "WELCOME" 8),.act 2 (.go 7 []),.act 2 (.go 7 [])] = some out ∧
      redeemed 1 out.shared.credits = 2 ∧
      out.shared.db.quota 7 = some 600 ∧ out.shared.db.quota 8 = some 600 := by decide +kernel

end Omnigate.Redemption
