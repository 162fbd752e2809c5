import Omnigate.Text
import Omnigate.UserAuthCache
import Omnigate.UserSession

/-! The login service: creating a session, validating an access token, refreshing, and the security change that keeps
only the current session. An access token stands for the identity it signs; random values are inputs; client metadata
comes trimmed. -/
namespace Omnigate.Auth

open Interleave

def loginSessionTTLSeconds : Int := 30 * 24 * 60 * 60

def refreshReplayWindowSeconds : Int := 30

structure AuthIdentity where
  userID : Int
  sessionID : String
  (userAuthVersion sessionVersion : Int)
  deriving DecidableEq, Repr

structure AuthBundle where
  accessToken : AuthIdentity
  session : UserSession
  refreshToken : String
  deriving DecidableEq, Repr

def issueAccessToken (identity : AuthIdentity) : Except AuthError AuthIdentity :=
  if identity.userID ≤ 0 ∨ identity.sessionID = "" ∨ identity.userAuthVersion ≤ 0 ∨ identity.sessionVersion ≤ 0 then
    .error .authTokenInvalid
  else .ok identity

def issueAuthBundle (session : UserSession) (rawRefreshToken : String) : Except AuthError AuthBundle :=
  match issueAccessToken ⟨session.userID,session.sid,session.userAuthVersion,session.version⟩ with
  | .error err => .error err
  | .ok accessToken => .ok ⟨accessToken,session,rawRefreshToken⟩

def cutDot : List Char → Option (List Char × List Char)
  | [] => none
  | c::rest => if c = '.' then some ([],rest) else (cutDot rest).map (fun (before,after) => (c::before,after))

def splitRefreshToken (config : Config) (raw : String) : Option (String × String) :=
  match cutDot (Text.trimSpace raw).toList with
  | none => none
  | some (sid,secret) =>
    if sid = [] ∨ secret = [] ∨ '.' ∈ secret ∨ !config.uuidParses (String.ofList sid) then none
    else some (String.ofList sid,String.ofList secret)

def hashRefreshSecret (config : Config) (secret : String) : String := config.refreshMac secret

def deriveNextRefreshSecret (config : Config) (sid currentSecret : String) : String :=
  config.rotateMac (sid ++ "." ++ currentSecret)

structure Login where
  (userID expectedAuthVersion : Int)
  (loginMethod ip userAgent sid refreshSecret : String)
  deriving DecidableEq, Repr

def countActiveUserSessions (userID now : Int) (s : Store) : Int :=
  (s.sessions.filter (fun row => row.userID = userID && row.status = .active && row.expiresAt > now)).length

def countUserSessionsCreatedSince (userID createdAfter : Int) (s : Store) : Int :=
  (s.sessions.filter (fun row => row.createdAt > createdAfter && (userID ≤ 0 || row.userID = userID))).length

def createLoginSession (config : Config) (login : Login) : Call (Except AuthError AuthBundle) := do
  match ← getUserCache config login.userID with
  | .error err => pure (.error err)
  | .ok user =>
    if user.status ≠ userStatusEnabled ∨ user.authVersion ≤ 0 then pure (.error .loginSessionInvalid)
    else if login.expectedAuthVersion > 0 ∧ user.authVersion ≠ login.expectedAuthVersion then
      pure (.error .loginSessionRevoked)
    else do
      let now ← unixNow
      let activeCount ← .read (countActiveUserSessions login.userID now)
      if activeCount ≥ config.userSessionActiveLimit then pure (.error .userSessionLimit)
      else do
        let issuanceCount ← .read (countUserSessionsCreatedSince login.userID
          (now - config.userSessionIssuanceWindowSeconds))
        if issuanceCount ≥ config.userSessionIssuanceLimit then pure (.error .userSessionIssuanceLimit)
        else do
          let session : UserSession := {
            sid := login.sid, userID := login.userID, version := 1, userAuthVersion := user.authVersion
            status := .active, refreshHash := hashRefreshSecret config login.refreshSecret
            previousRefreshHash := "", previousValidUntil := 0
            loginMethod := if login.loginMethod = "" then "unknown" else login.loginMethod
            ip := login.ip, userAgent := login.userAgent, createdAt := now, lastActiveAt := now
            expiresAt := now + loginSessionTTLSeconds, revokedAt := 0, revokedReason := "" }
          match ← createUserSession config session with
          | .error err => pure (.error err)
          | .ok session =>
            match issueAuthBundle session (session.sid ++ "." ++ login.refreshSecret) with
            | .error err => do
              let _ ← revokeUserSession config login.userID session.sid "token_issue_failed"
              pure (.error err)
            | .ok bundle => pure (.ok bundle)

def createLoginSessionAtAuthVersion (config : Config) (login : Login) : Call (Except AuthError AuthBundle) :=
  if login.expectedAuthVersion ≤ 0 then pure (.error .loginSessionInvalid)
  else createLoginSession config login

def validateLoginSession (config : Config) (identity : AuthIdentity) :
    Call (Except AuthError (UserSession × UserBase)) := do
  match ← getUserSessionCached config identity.sessionID with
  | .error .userSessionInactive => pure (.error .loginSessionRevoked)
  | .error err => pure (.error err)
  | .ok session => do
    let now ← unixNow
    if session.userID ≠ identity.userID ∨ session.status ≠ .active ∨ session.revokedAt ≠ 0 ∨
        session.expiresAt ≤ now ∨ session.version ≠ identity.sessionVersion ∨
        session.userAuthVersion ≠ identity.userAuthVersion then pure (.error .loginSessionRevoked)
    else do
      match ← getUserCache config identity.userID with
      | .error err => pure (.error err)
      | .ok user =>
        if user.status ≠ userStatusEnabled ∨ user.authVersion ≠ identity.userAuthVersion then
          pure (.error .loginSessionRevoked)
        else pure (.ok (session,user))

def advanceCurrentSessionToVersion (config : Config) (identity : AuthIdentity) (nextUserAuthVersion : Int)
    (reason : String) (rounds : Nat) : Call (Except AuthError AuthBundle) := do
  match ← advanceUserSessionAuthVersion config identity.userID identity.sessionID identity.sessionVersion
      identity.userAuthVersion nextUserAuthVersion with
  | .error err => pure (.error err)
  | .ok session =>
    match ← revokeUserSessions config identity.userID identity.sessionID reason rounds with
    | .error err => pure (.error err)
    | .ok _ => pure (issueAuthBundle session "")

def advanceCurrentSessionSecurity (config : Config) (identity : AuthIdentity) (reason : String) (rounds : Nat) :
    Call (Except AuthError AuthBundle) := do
  match ← bumpUserAuthVersion config identity.userID with
  | .error err => pure (.error err)
  | .ok nextUserAuthVersion => advanceCurrentSessionToVersion config identity nextUserAuthVersion reason rounds

def advanceCurrentSessionToUserVersion (config : Config) (identity : AuthIdentity) (reason : String) (rounds : Nat) :
    Call (Except AuthError AuthBundle) := do
  match ← getUserCache config identity.userID with
  | .error err => pure (.error err)
  | .ok user =>
    if user.status ≠ userStatusEnabled ∨ user.authVersion ≤ identity.userAuthVersion then
      pure (.error .loginSessionRevoked)
    else advanceCurrentSessionToVersion config identity user.authVersion reason rounds

def authenticated {α : Type} (config : Config) (identity : AuthIdentity) (handler : Call (Except AuthError α)) :
    Call (Except AuthError α) := do
  match ← validateLoginSession config identity with
  | .error err => pure (.error err)
  | .ok _ => handler

def refreshRotated (config : Config) (userID : Int) (user : User) (sid secret ip userAgent : String) :
    Call (Except AuthError (AuthBundle × User)) := do
  let nextSecret := deriveNextRefreshSecret config sid secret
  let now ← unixNow
  match ← rotateUserSessionRefresh config userID sid (hashRefreshSecret config secret)
      (hashRefreshSecret config nextSecret) now refreshReplayWindowSeconds with
  | .raced rotated =>
    if hashRefreshSecret config nextSecret = rotated.refreshHash then
      match issueAuthBundle rotated (sid ++ "." ++ nextSecret) with
      | .error err => pure (.error err)
      | .ok bundle => pure (.ok (bundle,user))
    else pure (.error .refreshRace)
  | .failed .userSessionRefreshReuse => pure (.error .loginSessionRevoked)
  | .failed .userSessionRefreshInvalid => pure (.error .refreshTokenInvalid)
  | .failed err => pure (.error err)
  | .rotated session =>
    match issueAuthBundle { session with ip := ip, userAgent := userAgent } (sid ++ "." ++ nextSecret) with
    | .error err => pure (.error err)
    | .ok bundle => pure (.ok (bundle,user))

def refreshLoginSession (config : Config) (rawRefreshToken expectedSID ip userAgent : String) :
    Call (Except AuthError (AuthBundle × User)) :=
  match splitRefreshToken config rawRefreshToken with
  | none => pure (.error .refreshTokenInvalid)
  | some (sid,secret) =>
    if Text.trimSpace expectedSID ≠ "" ∧ Text.trimSpace expectedSID ≠ sid then pure (.error .loginSessionMismatch)
    else do
      match ← getUserSessionCached config sid with
      | .error .userSessionInactive => pure (.error .loginSessionRevoked)
      | .error _ => pure (.error .refreshTokenInvalid)
      | .ok session => do
        let now ← unixNow
        if session.status ≠ .active ∨ session.revokedAt ≠ 0 ∨ session.expiresAt ≤ now then
          pure (.error .loginSessionRevoked)
        else do
          match ← getUserCache config session.userID with
          | .error err => pure (.error err)
          | .ok userCache =>
            match ← getUserById session.userID with
            | .error err => pure (.error err)
            | .ok currentUser =>
              if userCache.status ≠ userStatusEnabled ∨ userCache.authVersion ≠ session.userAuthVersion ∨
                  currentUser.status ≠ userStatusEnabled ∨ currentUser.authVersion ≠ session.userAuthVersion then do
                let _ ← revokeUserSession config session.userID session.sid "user_security_changed"
                pure (.error .loginSessionRevoked)
              else refreshRotated config session.userID currentUser sid secret ip userAgent

end Omnigate.Auth
