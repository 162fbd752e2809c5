import Omnigate.AuthStore

/-! Login sessions: the cached lookup with its delayed fills, rotation of the refresh digest, revocation, and the step
to a new auth version. Durations below a millisecond are zero. -/
namespace Omnigate.Auth

open Interleave

def userSessionRevokeBatchSize : Nat := 500

def userSessionCacheDeadline (config : Config) : Call Int := do
  let now ← timeNow
  pure (now + cacheTTL config)

def writeUserSessionCache (config : Config) (label : Option Label) (entry : UserSessionCacheEntry)
    (cacheDeadline : Option Int) : Call (Except AuthError Unit) := do
  let now ← timeNow
  let sessionExpiresAt := entry.expiresAt * 1000
  let entry := {entry with cacheSchema := userSessionCacheSchema}
  if entry.status = .active then
    match cacheDeadline with
    | none => pure (.error .userSessionInvalid)
    | some deadline =>
      if deadline - now ≤ 0 then pure (.error .userSessionCacheObservationStale)
      else if sessionExpiresAt - now ≤ 0 then pure (.error .userSessionInactive)
      else
        let cacheExpiresAt := if sessionExpiresAt < deadline then sessionExpiresAt else deadline
        if cacheExpiresAt - now < 1 then pure (.error .userSessionCacheObservationStale)
        else do
          let accepted ← .labelled label (Store.writeSession entry cacheExpiresAt)
          if !accepted then pure (.error .userSessionInactive)
          else do
            let completedAt ← timeNow
            if deadline ≤ completedAt then pure (.error .userSessionCacheObservationStale)
            else if sessionExpiresAt ≤ completedAt then pure (.error .userSessionInactive)
            else pure (.ok ())
  else
    let ttl := min (sessionExpiresAt - now) (cacheTTL config)
    let ttl := if ttl ≤ 0 then 1000 else ttl
    let accepted ← .labelled label (Store.writeSession entry ttl)
    pure (if accepted then .ok () else .error .userSessionInactive)

def confirmUserSessionActiveSnapshot (session : UserSession) : Call (Except AuthError Unit) :=
  if session.sid = "" ∨ session.userID ≤ 0 ∨ session.version ≤ 0 ∨ session.userAuthVersion ≤ 0 then
    pure (.error .userSessionInvalid)
  else do
    let now ← unixNow
    let count ← .read (fun s => (s.sessions.filter (fun row => row.sid = session.sid && row.userID = session.userID &&
      row.status = .active && row.revokedAt = 0 && row.expiresAt > now && row.version = session.version &&
      row.userAuthVersion = session.userAuthVersion)).length)
    pure (if count ≠ 1 then .error .userSessionInactive else .ok ())

def writeUserSessionDenyFence (config : Config) (session : UserSession) (status : SessionStatus) (now : Int)
    (reason : String) : Call (Except AuthError Unit) :=
  let entry := {session.cacheEntry with status := status, revokedAt := now, revokedReason := reason}
  writeUserSessionCache config none entry none

def createUserSession (config : Config) (session : UserSession) : Call (Except AuthError UserSession) := do
  let now ← unixNow
  if session.sid = "" ∨ session.userID ≤ 0 ∨ session.userAuthVersion ≤ 0 ∨ session.refreshHash = "" ∨
      session.expiresAt ≤ now ∨ session.status ≠ .active ∨ session.revokedAt ≠ 0 then
    pure (.error .userSessionInvalid)
  else
    let session := {session with
      version := if session.version ≤ 0 then 1 else session.version
      lastActiveAt := if session.lastActiveAt = 0 then now else session.lastActiveAt
      createdAt := if session.createdAt = 0 then now else session.createdAt }
    let cacheDeadline ← userSessionCacheDeadline config
    let created ← .atomic (Store.insertSession session)
    if !created then pure (.error .duplicatedKey)
    else
      match ← writeUserSessionCache config none session.cacheEntry (some cacheDeadline) with
      | .error .userSessionCacheObservationStale =>
        match ← confirmUserSessionActiveSnapshot session with
        | .error err => pure (.error err)
        | .ok () => pure (.ok session)
      | .error .userSessionInactive => pure (.error .userSessionInactive)
      | _ => pure (.ok session)

def getUserSessionBySID (sid : String) : Call (Except AuthError UserSession) :=
  if sid = "" then pure (.error .userSessionInvalid)
  else do
    match ← (.read (fun s => s.session sid) : Call _) with
    | none => pure (.error .recordNotFound)
    | some session => pure (.ok session)

def getUserSessionCache (sid : String) : Call (Except AuthError UserSessionCacheEntry) := do
  match ← (.read (fun s => s.cached sid) : Call _) with
  | none => pure (.error .cacheMissing)
  | some entry =>
    if entry.cacheSchema ≠ userSessionCacheSchema ∨ entry.sid ≠ sid ∨ entry.userID ≤ 0 ∨ entry.version ≤ 0 ∨
        entry.userAuthVersion ≤ 0 then pure (.error .cacheSchemaStale)
    else do
      let now ← unixNow
      if entry.status ≠ .active ∨ entry.revokedAt ≠ 0 ∨ entry.expiresAt ≤ now then
        pure (.error .userSessionInactive)
      else pure (.ok entry)

def loadUserSession (config : Config) (sid : String) : Call (Except AuthError UserSession) := do
  let cacheDeadline ← userSessionCacheDeadline config
  match ← getUserSessionBySID sid with
  | .error err => pure (.error err)
  | .ok session => do
    let now ← unixNow
    if session.status ≠ .active ∨ session.revokedAt ≠ 0 ∨ session.expiresAt ≤ now then do
      let _ ← writeUserSessionCache config none {session.cacheEntry with status := .revoked} none
      pure (.error .userSessionInactive)
    else do
      match ← writeUserSessionCache config none session.cacheEntry (some cacheDeadline) with
      | .error .userSessionCacheObservationStale =>
        match ← confirmUserSessionActiveSnapshot session with
        | .error err => pure (.error err)
        | .ok () => pure (.ok session)
      | .error .userSessionInactive => pure (.error .userSessionInactive)
      | _ => pure (.ok session)

def getUserSessionCached (config : Config) (sid : String) : Call (Except AuthError UserSession) :=
  if sid = "" then pure (.error .userSessionInvalid)
  else do
    match ← getUserSessionCache sid with
    | .ok entry => pure (.ok entry.session)
    | .error .userSessionInactive => pure (.error .userSessionInactive)
    | .error _ => loadUserSession config sid

inductive Rotation where
  | rotated (session : UserSession)
  | raced (session : UserSession)
  | failed (err : AuthError)
  deriving DecidableEq, Repr

def ofUser (sid : String) (userID : Int) (row : UserSession) : Bool := row.sid = sid && row.userID = userID

def unexpired (now : Int) (row : UserSession) : Bool :=
  row.status = .active && row.revokedAt = 0 && row.expiresAt > now

def revokeReused (config : Config) (session : UserSession) (now : Int) : Call Rotation := do
  match ← writeUserSessionDenyFence config session .revoking now "refresh_reuse" with
  | .error err => pure (.failed err)
  | .ok () => do
    let revoked ← .atomic (Store.revokeWhere (fun row => ofUser session.sid session.userID row && unexpired now row)
      now "refresh_reuse")
    if revoked.length = 0 then pure (.failed .userSessionInactive)
    else do
      let _ ← writeUserSessionCache config none (Store.revokeRow now "refresh_reuse" session).cacheEntry none
      pure (.failed .userSessionRefreshReuse)

def rotateAttempts (config : Config) (userID : Int) (sid presentedHash nextHash : String) (now graceSeconds : Int) :
    Nat → Call Rotation
  | 0 => pure (.failed .userSessionRefreshInvalid)
  | attempts + 1 => do
    let cacheDeadline ← userSessionCacheDeadline config
    match ← (.read (fun s => s.sessions.find? (ofUser sid userID)) : Call _) with
    | none => pure (.failed .recordNotFound)
    | some session =>
      if session.status ≠ .active ∨ session.revokedAt ≠ 0 ∨ session.expiresAt ≤ now then
        pure (.failed .userSessionInactive)
      else if session.refreshHash = presentedHash then do
        let rotate := Store.rotateRow session.refreshHash nextHash (now + graceSeconds) now
        let affected ← .labelled (some (.rotateDigest sid presentedHash)) (Store.updateSessions
          (fun row => ofUser sid userID row && unexpired now row && row.refreshHash = presentedHash) rotate)
        if affected = 0 then rotateAttempts config userID sid presentedHash nextHash now graceSeconds attempts
        else do
          let session := rotate session
          match ← writeUserSessionCache config none session.cacheEntry (some cacheDeadline) with
          | .error .userSessionCacheObservationStale =>
            match ← confirmUserSessionActiveSnapshot session with
            | .error err => pure (.failed err)
            | .ok () => pure (.rotated session)
          | .error .userSessionInactive => pure (.failed .userSessionInactive)
          | _ => pure (.rotated session)
      else if session.previousRefreshHash = "" ∨ session.previousRefreshHash ≠ presentedHash then
        pure (.failed .userSessionRefreshInvalid)
      else if now ≤ session.previousValidUntil then pure (.raced session)
      else revokeReused config session now

def rotateUserSessionRefresh (config : Config) (userID : Int) (sid presentedHash nextHash : String)
    (now graceSeconds : Int) : Call Rotation :=
  if userID ≤ 0 ∨ sid = "" ∨ presentedHash = "" ∨ nextHash = "" ∨ presentedHash = nextHash ∨ graceSeconds < 0 then
    pure (.failed .userSessionInvalid)
  else do
    let current ← unixNow
    rotateAttempts config userID sid presentedHash nextHash (if now ≤ 0 then current else now) graceSeconds 3

def revokeLocked (userID : Int) (sid reason : String) (now : Int) (s : Store) : Store × Except AuthError Bool :=
  match s.sessions.find? (ofUser sid userID) with
  | none => (s,.error .recordNotFound)
  | some current =>
    if current.status ≠ .active ∨ current.revokedAt ≠ 0 ∨ current.expiresAt ≤ now then (s,.ok false)
    else
      let updated := s.revokeWhere (fun row => row.sid = sid) now reason
      (updated.1,.ok (updated.2.length = 1))

def revokeUserSession (config : Config) (userID : Int) (sid reason : String) : Call (Except AuthError Bool) :=
  if userID ≤ 0 ∨ sid = "" then pure (.error .userSessionInvalid)
  else do
    let now ← unixNow
    match ← (.read (fun s => s.sessions.find? (ofUser sid userID)) : Call _) with
    | none => pure (.ok false)
    | some candidate =>
      if candidate.status ≠ .active ∨ candidate.revokedAt ≠ 0 ∨ candidate.expiresAt ≤ now then pure (.ok false)
      else do
        match ← writeUserSessionDenyFence config candidate .revoking now reason with
        | .error err => pure (.error err)
        | .ok () => do
          match ← (.atomic (revokeLocked userID sid reason now) : Call _) with
          | .error err => pure (.error err)
          | .ok revoked => do
            if revoked then
              let _ ← writeUserSessionCache config (some (.finalTombstone sid candidate.version))
                (Store.revokeRow now reason candidate).cacheEntry none
              pure (.ok true)
            else pure (.ok false)

def advanceLocked (userID : Int) (sid : String) (expectedSessionVersion expectedUserAuthVersion
    nextUserAuthVersion now : Int) (s : Store) : Store × Except AuthError UserSession :=
  match s.sessions.find? (ofUser sid userID) with
  | none => (s,.error .recordNotFound)
  | some session =>
    if session.status ≠ .active ∨ session.expiresAt ≤ now ∨ session.version ≠ expectedSessionVersion ∨
        session.userAuthVersion ≠ expectedUserAuthVersion then (s,.error .userSessionInactive)
    else
      let advance := Store.advanceRow (session.version + 1) nextUserAuthVersion now
      let updated := s.updateSessions (fun row => row.sid = sid && row.status = .active &&
        row.version = expectedSessionVersion && row.userAuthVersion = expectedUserAuthVersion) advance
      if updated.2 ≠ 1 then (s,.error .userSessionInactive) else (updated.1,.ok (advance session))

def advanceUserSessionAuthVersion (config : Config) (userID : Int) (sid : String) (expectedSessionVersion
    expectedUserAuthVersion nextUserAuthVersion : Int) : Call (Except AuthError UserSession) :=
  if userID ≤ 0 ∨ sid = "" ∨ expectedSessionVersion ≤ 0 ∨ expectedUserAuthVersion ≤ 0 ∨
      nextUserAuthVersion ≤ expectedUserAuthVersion then pure (.error .userSessionInvalid)
  else do
    let cacheDeadline ← userSessionCacheDeadline config
    let now ← unixNow
    match ← (.atomic (advanceLocked userID sid expectedSessionVersion expectedUserAuthVersion nextUserAuthVersion
        now) : Call _) with
    | .error err => pure (.error err)
    | .ok session =>
      match ← writeUserSessionCache config none session.cacheEntry (some cacheDeadline) with
      | .error .userSessionCacheObservationStale =>
        match ← confirmUserSessionActiveSnapshot session with
        | .error err => pure (.error err)
        | .ok () => pure (.ok session)
      | .error err => pure (.error err)
      | .ok () => pure (.ok session)

def writeFences (config : Config) (now : Int) (reason : String) : List UserSession → Call (Except AuthError Unit)
  | [] => pure (.ok ())
  | candidate::rest => do
    match ← writeUserSessionDenyFence config candidate .revoking now reason with
    | .error err => pure (.error err)
    | .ok () => writeFences config now reason rest

def writeTombstones (config : Config) (now : Int) (reason : String) : List UserSession → Call Unit
  | [] => pure ()
  | row::rest => do
    let _ ← writeUserSessionCache config none (Store.revokeRow now reason row).cacheEntry none
    writeTombstones config now reason rest

def revokeCandidates (userID : Int) (excludedSID : String) (now : Int) (s : Store) : List UserSession :=
  ((s.sessions.filter (fun row => row.userID = userID && row.status = .active && row.expiresAt > now &&
    (excludedSID = "" || row.sid ≠ excludedSID))).insertionSort (fun a b => a.sid ≤ b.sid)).take
      userSessionRevokeBatchSize

/- The loop of `revokeUserSessions`, which ends when no candidate is left: a run that needs more than `rounds` never
returns. It returns the sessions revoked, the source their number. -/
def revokeRounds (config : Config) (userID : Int) (excludedSID reason : String) (now : Int) (total : List String) :
    Nat → Call (Except AuthError (List String))
  | 0 => .halt
  | rounds + 1 => do
    let candidates ← .read (revokeCandidates userID excludedSID now)
    if candidates.length = 0 then pure (.ok total)
    else do
      match ← writeFences config now reason candidates with
      | .error err => pure (.error err)
      | .ok () => do
        let revoked ← .atomic (Store.revokeWhere (fun row => row.sid ∈ candidates.map UserSession.sid) now reason)
        writeTombstones config now reason revoked
        revokeRounds config userID excludedSID reason now (total ++ revoked.map UserSession.sid) rounds

def revokeUserSessions (config : Config) (userID : Int) (excludedSID reason : String) (rounds : Nat) :
    Call (Except AuthError (List String)) :=
  if userID ≤ 0 then pure (.error .userSessionInvalid)
  else do
    let now ← unixNow
    revokeRounds config userID excludedSID reason now [] rounds

end Omnigate.Auth
