import Omnigate.AuthStore

/-! The cached user and its auth-version fence. A transaction holds no row lock between its calls (`lockForUpdate` is
a no-op on SQLite): its compare-and-swap is taken together with the commit, and one that rolls back leaves only the
fence it published. -/
namespace Omnigate.Auth

open Interleave

def userAuthFenceTTLSeconds (config : Config) : Int :=
  let cacheTTL := userCacheTTLSeconds config
  cacheTTL + (if cacheTTL < 60 then 60 else cacheTTL)

def fenceTTL (config : Config) : Int := userAuthFenceTTLSeconds config * 1000

def writeUserCache (config : Config) (user : UserBase) (includeQuota : Bool) : Call (Except AuthError Unit) :=
  if user.id ≤ 0 then pure (.ok ())
  else if user.authVersion ≤ 0 then pure (.error .userAuthVersionInvalid)
  else do
    let accepted ← .atomic (Store.writeUser {user with cacheSchema := userCacheSchemaVersion} includeQuota
      (cacheTTL config))
    pure (if accepted then .ok () else .error .userAuthCachePending)

def getUserAuthVersionFloor (userId : Int) : Call Int := .read (fun s => s.authVersionFloor userId)

def getUserById (id : Int) : Call (Except AuthError User) :=
  if id = 0 then pure (.error .userIdEmpty)
  else do
    match ← (.read (fun s => s.findUser id) : Call _) with
    | none => pure (.error .recordNotFound)
    | some user => pure (.ok user)

def cacheGetUserBase (userId : Int) : Call (Except AuthError UserBase) := do
  match ← (.read (fun s => s.cachedUser userId) : Call _) with
  | none => pure (.error .cacheMissing)
  | some userCache =>
    if userCache.id ≠ userId ∨ userCache.cacheSchema ≠ userCacheSchemaVersion ∨ userCache.authVersion ≤ 0 then
      pure (.error .cacheSchemaStale)
    else do
      let floor ← getUserAuthVersionFloor userId
      pure (if floor > userCache.authVersion then .error .userAuthCachePending else .ok userCache)

def populateUserCache (config : Config) (user : User) : Call (Except AuthError Unit) :=
  writeUserCache config user.toBaseUser true

def updateUserCache (config : Config) (user : User) : Call (Except AuthError Unit) :=
  writeUserCache config user.toBaseUser false

def getUserCache (config : Config) (userId : Int) : Call (Except AuthError UserBase) := do
  match ← cacheGetUserBase userId with
  | .ok userCache => pure (.ok userCache)
  | .error _ =>
    match ← getUserById userId with
    | .error err => pure (.error err)
    | .ok user => do
      let floor ← getUserAuthVersionFloor userId
      if floor > user.authVersion then pure (.error .userAuthCachePending)
      else do
        match ← populateUserCache config user with
        | .error .userAuthCachePending => pure (.error .userAuthCachePending)
        -- any other failure to populate is only logged
        | _ => pure (.ok user.toBaseUser)

def setUserAuthVersionFence (config : Config) (userId authVersion : Int) : Call (Except AuthError Unit) :=
  if userId ≤ 0 ∨ authVersion ≤ 0 then pure (.error .userAuthVersionInvalid)
  else do
    .atomic (fun s => (Store.raiseFence userId authVersion (fenceTTL config) s,()))
    pure (.ok ())

def publishCommittedUserAuthVersion (userId authVersion : Int) : Call (Except AuthError Unit) :=
  if userId ≤ 0 ∨ authVersion ≤ 0 then pure (.error .userAuthVersionInvalid)
  else do
    .atomic (fun s => (Store.publishVersion userId authVersion s,()))
    pure (.ok ())

/- The loop of `IncrementUserAuthVersionWithTx` and the end of its transaction: with `commits` false it rolls back
after the fence. -/
def incrementAttempts (config : Config) (userId : Int) (change : User → User) (commits : Bool) :
    Nat → Call (Except AuthError Int)
  | 0 => pure (.error .userAuthVersionConflict)
  | attempts + 1 => do
    match ← (.read (fun s => s.users userId) : Call _) with
    | none => pure (.error .recordNotFound)
    | some user =>
      let current := if user.authVersion < 1 then 1 else user.authVersion
      let next := current + 1
      match ← setUserAuthVersionFence config userId next with
      | .error err => pure (.error err)
      | .ok () =>
        if commits then do
          let won ← .atomic (Store.commitVersion userId user.authVersion next change)
          if won then pure (.ok next) else incrementAttempts config userId change commits attempts
        else pure (.error .rolledBack)

def incrementUserAuthVersionWithTx (config : Config) (userId : Int) (change : User → User) (commits : Bool) :
    Call (Except AuthError Int) :=
  if userId ≤ 0 then pure (.error .userAuthVersionInvalid)
  else incrementAttempts config userId change commits 3

def publishUserAuthCache (config : Config) (userId : Int) : Call (Except AuthError Unit) := do
  match ← getUserById userId with
  | .error err => pure (.error err)
  | .ok user => updateUserCache config user

def changeUser (config : Config) (userId : Int) (change : User → User) (commits : Bool) :
    Call (Except AuthError Int) := do
  match ← incrementUserAuthVersionWithTx config userId change commits with
  | .error err => pure (.error err)
  | .ok next =>
    match ← publishUserAuthCache config userId with
    | .error err => pure (.error err)
    | .ok () => pure (.ok next)

def bumpUserAuthVersion (config : Config) (userId : Int) : Call (Except AuthError Int) :=
  changeUser config userId id true

def deleteUserRow (config : Config) (userId : Int) (commits : Bool) : Call (Except AuthError Int) :=
  if userId = 0 then pure (.error .userIdEmpty)
  else do
    match ← incrementUserAuthVersionWithTx config userId (fun user => {user with deleted := true}) commits with
    | .error err => pure (.error err)
    | .ok next =>
      match ← publishCommittedUserAuthVersion userId next with
      | .error err => pure (.error err)
      | .ok () => pure (.ok next)

def invalidateUserCache (userId : Int) : Call Unit := .atomic (fun s => (Store.dropUserHash userId s,()))

def updateUserCacheFieldAtVersion (userId : Int) (field : UserField) (authVersion : Int) :
    Call (Except AuthError Unit) :=
  if userId ≤ 0 ∨ authVersion ≤ 0 then pure (.error .userAuthVersionInvalid)
  else do
    let accepted ← .atomic (Store.writeField userId field authVersion)
    pure (if accepted then .ok () else .error .userAuthCachePending)

def updateUserCacheField (userId : Int) (field : UserField) : Call (Except AuthError Unit) := do
  match ← (.read (fun s => s.findUser userId) : Call _) with
  | none => pure (.error .recordNotFound)
  | some user =>
    if user.authVersion ≤ 0 then pure (.error .userAuthVersionInvalid)
    else updateUserCacheFieldAtVersion userId field user.authVersion

def updateUserField (userId : Int) (field : UserField) : Call (Except AuthError Unit) := do
  .atomic (fun s => (Store.editUser userId field s,()))
  updateUserCacheField userId field

def refreshGroupAttempts (userId : Int) (authoritative : User) : Nat → Call (Except AuthError Unit)
  | 0 => do
    match ← updateUserCacheFieldAtVersion userId (.group authoritative.group) authoritative.authVersion with
    | .error err => pure (.error err)
    | .ok () => pure (.error .userGroupUnstable)
  | attempts + 1 => do
    match ← updateUserCacheFieldAtVersion userId (.group authoritative.group) authoritative.authVersion with
    | .error err => pure (.error err)
    | .ok () =>
      match ← (.read (fun s => s.findUser userId) : Call _) with
      | none => pure (.error .recordNotFound)
      | some verified =>
        if verified.authVersion = authoritative.authVersion ∧ verified.group = authoritative.group then pure (.ok ())
        else refreshGroupAttempts userId verified attempts

def refreshUserGroupCache (userId : Int) : Call (Except AuthError Unit) :=
  if userId ≤ 0 then pure (.error .userAuthVersionInvalid)
  else do
    match ← (.read (fun s => s.findUser userId) : Call _) with
    | none => pure (.error .recordNotFound)
    | some authoritative => refreshGroupAttempts userId authoritative 3

end Omnigate.Auth
