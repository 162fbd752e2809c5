import Omnigate.Table
import Omnigate.Interleave

/-! The rows and Redis keys behind a login: users, sessions, their cached copies and the auth-version keys, under one
clock in milliseconds. Redis is enabled and every call succeeds; a key has the last millisecond it lives. Statements,
row-locked transactions and Lua scripts take one step each. -/
namespace Omnigate.Auth

open Interleave

structure Config where
  (redisKeyCacheSeconds userSessionActiveLimit userSessionIssuanceLimit : Int)
  userSessionIssuanceWindowSeconds : Int
  (refreshMac rotateMac : String → String)
  uuidParses : String → Bool

inductive SessionStatus where
  | active
  | revoking
  | revoked
  deriving DecidableEq, Repr

structure UserSession where
  sid : String
  (userID version userAuthVersion : Int)
  status : SessionStatus
  (refreshHash previousRefreshHash : String)
  previousValidUntil : Int
  (loginMethod ip userAgent : String)
  (createdAt lastActiveAt expiresAt revokedAt : Int)
  revokedReason : String
  deriving DecidableEq, Repr

def userSessionCacheSchema : Int := 1

structure UserSessionCacheEntry where
  sid : String
  (userID version userAuthVersion : Int)
  status : SessionStatus
  (loginMethod ip userAgent : String)
  (createdAt lastActiveAt expiresAt revokedAt : Int)
  revokedReason : String
  cacheSchema : Int
  deriving DecidableEq, Repr

def UserSession.cacheEntry (session : UserSession) : UserSessionCacheEntry where
  sid := session.sid
  userID := session.userID
  version := session.version
  userAuthVersion := session.userAuthVersion
  status := session.status
  loginMethod := session.loginMethod
  ip := session.ip
  userAgent := session.userAgent
  createdAt := session.createdAt
  lastActiveAt := session.lastActiveAt
  expiresAt := session.expiresAt
  revokedAt := session.revokedAt
  revokedReason := session.revokedReason
  cacheSchema := userSessionCacheSchema

/- The digests are never cached: the session of a cache entry has none. -/
def UserSessionCacheEntry.session (entry : UserSessionCacheEntry) : UserSession where
  sid := entry.sid
  userID := entry.userID
  version := entry.version
  userAuthVersion := entry.userAuthVersion
  status := entry.status
  refreshHash := ""
  previousRefreshHash := ""
  previousValidUntil := 0
  loginMethod := entry.loginMethod
  ip := entry.ip
  userAgent := entry.userAgent
  createdAt := entry.createdAt
  lastActiveAt := entry.lastActiveAt
  expiresAt := entry.expiresAt
  revokedAt := entry.revokedAt
  revokedReason := entry.revokedReason

def userStatusEnabled : Int := 1

structure User where
  id : Int
  (username group email : String)
  (quota status role : Int)
  setting : String
  authVersion : Int
  deleted : Bool
  deriving DecidableEq, Repr

def userCacheSchemaVersion : Int := 2

structure UserBase where
  id : Int
  (group email : String)
  (quota status role : Int)
  (username setting : String)
  (authVersion cacheSchema : Int)
  deriving DecidableEq, Repr

def User.toBaseUser (user : User) : UserBase where
  id := user.id
  group := user.group
  email := user.email
  quota := user.quota
  status := user.status
  role := user.role
  username := user.username
  setting := user.setting
  authVersion := user.authVersion
  cacheSchema := userCacheSchemaVersion

inductive UserField where
  | status (value : Int)
  | group (value : String)
  | email (value : String)
  | username (value : String)
  | setting (value : String)
  deriving DecidableEq, Repr

def UserField.inHash (field : UserField) (base : UserBase) : UserBase :=
  let base := {base with cacheSchema := userCacheSchemaVersion}
  match field with
  | .status value => {base with status := value}
  | .group value => {base with group := value}
  | .email value => {base with email := value}
  | .username value => {base with username := value}
  | .setting value => {base with setting := value}

def UserField.inRow (field : UserField) (user : User) : User :=
  match field with
  | .status value => {user with status := value}
  | .group value => {user with group := value}
  | .email value => {user with email := value}
  | .username value => {user with username := value}
  | .setting value => {user with setting := value}

structure UserKeys where
  hash : Option (UserBase × Int)
  fence : Option (Int × Int)
  version : Option Int
  deriving DecidableEq, Repr

/- History variables, which no program reads: when the row left `active`, and the auth version and the committed floor
it was created at. -/
structure History where
  (ended birthVersion birthFloor : Int)
  deriving DecidableEq, Repr

structure Store where
  clock : Int
  users : Int → Option User
  userKeys : Int → UserKeys
  sessions : List UserSession
  sessionCache : String → Option (UserSessionCacheEntry × Int)
  history : String → History

inductive AuthError where
  | userSessionInvalid
  | userSessionInactive
  | userSessionRefreshInvalid
  | userSessionRefreshRace
  | userSessionRefreshReuse
  | userSessionLimit
  | userSessionIssuanceLimit
  | userSessionCacheObservationStale
  | cacheMissing
  | cacheSchemaStale
  | recordNotFound
  | duplicatedKey
  | userIdEmpty
  | userAuthCachePending
  | userAuthVersionConflict
  | userAuthVersionInvalid
  | userGroupUnstable
  | rolledBack
  | loginSessionInvalid
  | loginSessionRevoked
  | loginSessionMismatch
  | refreshTokenInvalid
  | refreshRace
  | authTokenInvalid
  deriving DecidableEq, Repr

inductive Label where
  | finalTombstone (sid : String) (version : Int)
  | rotateDigest (sid presentedHash : String)
  deriving DecidableEq, Repr

abbrev Call := Prog Label Store

def live {α : Type} (clock : Int) : Option (α × Int) → Option α
  | some (value,last) => if last < clock then none else some value
  | none => none

namespace Store

def unix (s : Store) : Int := s.clock / 1000

def session (s : Store) (sid : String) : Option UserSession := Table.lookup UserSession.sid sid s.sessions

def cached (s : Store) (sid : String) : Option UserSessionCacheEntry := live s.clock (s.sessionCache sid)

def pending (s : Store) (userId : Int) : Int := (live s.clock (s.userKeys userId).fence).getD 0

def committedVersion (s : Store) (userId : Int) : Int := (s.userKeys userId).version.getD 0

def authVersionFloor (s : Store) (userId : Int) : Int := max (max 0 (s.pending userId)) (s.committedVersion userId)

def cachedUser (s : Store) (userId : Int) : Option UserBase := live s.clock (s.userKeys userId).hash

end Store

def timeNow : Call Int := .read Store.clock

def unixNow : Call Int := .read Store.unix

def userCacheTTLSeconds (config : Config) : Int :=
  if config.redisKeyCacheSeconds ≤ 0 then 60 else config.redisKeyCacheSeconds

def cacheTTL (config : Config) : Int := userCacheTTLSeconds config * 1000

theorem cacheTTLPositive (config) : 0 < cacheTTL config := by
  unfold cacheTTL userCacheTTLSeconds
  split <;> omega

/- What the three writing scripts share: the committed version is raised, and a pending fence that is not above it
deleted. -/
def UserKeys.settle (keys : UserKeys) (pending committed incoming : Int) : UserKeys :=
  {keys with
    version := if committed < incoming then some incoming else keys.version
    fence := if pending > 0 ∧ pending ≤ incoming then none else keys.fence }

namespace Store

def setKeys (s : Store) (userId : Int) (keys : UserKeys) : Store :=
  {s with userKeys := Function.update s.userKeys userId keys}

def settled (s : Store) (userId incoming : Int) : UserKeys :=
  (s.userKeys userId).settle (s.pending userId) (s.committedVersion userId) incoming

def outdated (s : Store) (userId incoming : Int) : Bool :=
  s.pending userId > incoming || s.committedVersion userId > incoming ||
    ((s.cachedUser userId).map UserBase.authVersion).getD 0 > incoming

/- Script of `writeUserCache`. A cached quota is kept; without `includeQuota` an absent hash stays
absent. -/
def writeUser (user : UserBase) (includeQuota : Bool) (ttl : Int) (s : Store) : Store × Bool :=
  if s.outdated user.id user.authVersion then (s,false)
  else
    let keys := s.settled user.id user.authVersion
    match s.cachedUser user.id with
    | some cached =>
      (s.setKeys user.id {keys with hash := some ({user with quota := cached.quota},s.clock + ttl)},true)
    | none =>
      if includeQuota then (s.setKeys user.id {keys with hash := some (user,s.clock + ttl)},true)
      else (s.setKeys user.id keys,true)

/- Script of `updateUserCacheFieldAtVersion`: only a hash of exactly this version takes the field. -/
def writeField (userId : Int) (field : UserField) (incoming : Int) (s : Store) : Store × Bool :=
  if s.outdated userId incoming then (s,false)
  else
    let keys := s.settled userId incoming
    match keys.hash with
    | some (cached,last) =>
      if last < s.clock ∨ cached.authVersion ≠ incoming then (s.setKeys userId keys,true)
      else (s.setKeys userId {keys with hash := some (field.inHash cached,last)},true)
    | none => (s.setKeys userId keys,true)

/- Script of `publishCommittedUserAuthVersion`. -/
def publishVersion (userId incoming : Int) (s : Store) : Store := s.setKeys userId (s.settled userId incoming)

/- Script of `SetUserAuthVersionFence`. A fence always has an expiry here, so the branch for a key
without one never runs. -/
def raiseFence (userId incoming ttl : Int) (s : Store) : Store :=
  if s.pending userId < incoming ∨ s.pending userId = incoming then
    s.setKeys userId {s.userKeys userId with fence := some (incoming,s.clock + ttl)}
  else s

def dropUserHash (userId : Int) (s : Store) : Store := s.setKeys userId {s.userKeys userId with hash := none}

def findUser (s : Store) (id : Int) : Option User := (s.users id).filter (fun user => !user.deleted)

def setUser (s : Store) (id : Int) (user : User) : Store := {s with users := Function.update s.users id (some user)}

/- The compare-and-swap on `auth_version` with the commit, and the other columns the transaction changes. -/
def commitVersion (userId seen next : Int) (change : User → User) (s : Store) : Store × Bool :=
  match s.users userId with
  | none => (s,false)
  | some user =>
    if user.authVersion = seen then (s.setUser userId {change user with id := userId, authVersion := next},true)
    else (s,false)

def editUser (userId : Int) (field : UserField) (s : Store) : Store :=
  match s.findUser userId with
  | none => s
  | some user => s.setUser userId (field.inRow user)

def setCache (s : Store) (sid : String) (key : Option (UserSessionCacheEntry × Int)) : Store :=
  {s with sessionCache := Function.update s.sessionCache sid key}

def cachedVersion (s : Store) (sid : String) : Int := ((s.cached sid).map UserSessionCacheEntry.version).getD 0

/- An active entry expires at a given millisecond (one that is past deletes the key), any other
after a given number of them. -/
def writeSession (entry : UserSessionCacheEntry) (expiration : Int) (s : Store) : Store × Bool :=
  let denied := (s.cached entry.sid).any
    (fun current => current.status = .revoking || current.status = .revoked)
  if entry.status = .active ∧ denied then (s,false)
  else if s.cachedVersion entry.sid > entry.version then (s,false)
  else
    let keyed := if entry.status = .active then
        if expiration ≤ s.clock then none else some (entry,expiration)
      else some (entry,s.clock + expiration)
    (s.setCache entry.sid keyed,true)

def insertSession (row : UserSession) (s : Store) : Store × Bool :=
  match s.session row.sid with
  | some _ => (s,false)
  | none =>
    let born : History := ⟨0,row.userAuthVersion,s.committedVersion row.userID⟩
    ({s with sessions := s.sessions ++ [row], history := Function.update s.history row.sid born},true)

def revokeRow (now : Int) (reason : String) (row : UserSession) : UserSession :=
  {row with status := .revoked, revokedAt := now, revokedReason := reason}

def revokeWhere (p : UserSession → Bool) (now : Int) (reason : String) (s : Store) : Store × List UserSession :=
  let hit := fun (row : UserSession) => row.status = .active && p row
  ({s with
      sessions := Table.updateWhere hit (revokeRow now reason) s.sessions
      history := fun sid => if (s.session sid).any hit then {s.history sid with ended := s.clock} else s.history sid },
    s.sessions.filter hit)

def updateSessions (p : UserSession → Bool) (f : UserSession → UserSession) (s : Store) : Store × Nat :=
  ({s with sessions := Table.updateWhere p f s.sessions},(s.sessions.filter p).length)

def advanceRow (version userAuthVersion lastActiveAt : Int) (row : UserSession) : UserSession :=
  {row with version, userAuthVersion, lastActiveAt}

def rotateRow (previous next : String) (until_ now : Int) (row : UserSession) : UserSession :=
  {row with previousRefreshHash := previous, previousValidUntil := until_, refreshHash := next, lastActiveAt := now}

end Store

end Omnigate.Auth
