import Omnigate.AuthChanges
import Omnigate.EachCall
import Omnigate.LoginAgreement

/-! Refresh calls among themselves. Each call leaves a session row as it is, swaps the digest it was presented for the
next one, or revokes the row; so the stored digest walks along the chain of derived secrets. -/
namespace Omnigate.Auth

open Interleave Machine Duty

structure RefreshRequest where
  (rawRefreshToken expectedSID ip userAgent : String)
  deriving DecidableEq, Repr

abbrev RefreshReply := Except AuthError (AuthBundle × User)

def refreshProgram (config : Config) (request : RefreshRequest) : Call RefreshReply :=
  refreshLoginSession config request.rawRefreshToken request.expectedSID request.ip request.userAgent

abbrev RefreshSystem := System RefreshRequest Label Store RefreshReply

def rowsAlone : Duty Label Store where
  later := fun _ _ => True
  holds := fun _ => True
  does := fun _ s n _ => n.sessions = s.sessions
  refl := fun _ => trivial
  trans := fun _ _ _ _ _ => trivial
  moves := fun _ _ _ _ _ => trivial
  whatever := fun _ _ _ _ same => same
  still := fun _ _ => rfl

section
variable {config : Config}

theorem writeSessionAlone :
    rowsAlone.each (writeUserSessionCache config label entry deadline) (fun _ _ => True) s := by
  have written : ∀ (now : Store) expiration entry, (now.writeSession entry expiration).1.sessions = now.sessions := by
    intro now expiration entry
    obtain ⟨_,same⟩ := writeSessionCache now entry expiration
    rw [same]
  refine eachRead (fun _ _ _ => ?_)
  simp only
  split
  · split
    · trivial
    rename_i deadline
    split
    · trivial
    split
    · trivial
    generalize (if entry.expiresAt * 1000 < deadline then entry.expiresAt * 1000 else deadline) = cacheExpiresAt
    split
    · trivial
    refine eachLabelled (fun now _ _ => ⟨written now _ _,?_⟩)
    split
    · trivial
    refine eachRead (fun _ _ _ => ?_)
    split
    · trivial
    split <;> trivial
  · exact eachLabelled (fun now _ _ => ⟨written now _ _,trivial⟩)

theorem fenceAlone :
    rowsAlone.each (writeUserSessionDenyFence config session status now reason) (fun _ _ => True) s := by
  unfold writeUserSessionDenyFence
  exact writeSessionAlone

theorem confirmAlone :
    rowsAlone.each (confirmUserSessionActiveSnapshot session) (fun _ _ => True) s := by
  unfold confirmUserSessionActiveSnapshot
  split
  · trivial
  refine eachRead (fun _ _ _ => ?_)
  exact eachRead (fun _ _ _ => trivial)

theorem loadAlone : rowsAlone.each (loadUserSession config sid) (fun _ _ => True) s := by
  have found : ∀ n, rowsAlone.each (getUserSessionBySID sid) (fun _ _ => True) n := by
    intro n
    unfold getUserSessionBySID
    split
    · trivial
    refine eachRead (fun now _ _ => ?_)
    cases now.session sid <;> trivial
  refine eachAfter (eachRead (fun _ _ _ => trivial)) (fun _ n _ => ?_)
  refine eachAfter (found n) (fun r _ _ => ?_)
  cases r with
  | error => trivial
  | ok =>
    refine eachRead (fun _ _ _ => ?_)
    split
    · exact eachAfter writeSessionAlone (fun _ _ _ => trivial)
    refine eachAfter writeSessionAlone (fun _ _ _ => ?_)
    split
    · refine eachAfter confirmAlone (fun r'' _ _ => ?_)
      cases r'' <;> trivial
    · trivial
    · trivial

theorem lookupAlone :
    rowsAlone.each (getUserSessionCached config sid) (fun _ _ => True) s := by
  have cached : ∀ n, rowsAlone.each (getUserSessionCache sid) (fun _ _ => True) n := by
    intro n
    refine eachRead (fun now _ _ => ?_)
    cases now.cached sid with
    | none => trivial
    | some =>
      simp only
      split
      · trivial
      refine eachRead (fun _ _ _ => ?_)
      split <;> trivial
  unfold getUserSessionCached
  split
  · trivial
  refine eachAfter (cached s) (fun r n _ => ?_)
  split
  · trivial
  · trivial
  · exact loadAlone

theorem byIdAlone : rowsAlone.each (getUserById userId) (fun _ _ => True) s := by
  unfold getUserById
  split
  · trivial
  refine eachRead (fun now _ _ => ?_)
  cases now.findUser userId <;> trivial

theorem userAlone : rowsAlone.each (getUserCache config userId) (fun _ _ => True) s := by
  have cached : ∀ n, rowsAlone.each (cacheGetUserBase userId) (fun _ _ => True) n := by
    intro n
    refine eachRead (fun now _ _ => ?_)
    cases now.cachedUser userId with
    | none => trivial
    | some =>
      simp only
      split
      · trivial
      · exact eachRead (fun _ _ _ => trivial)
  have populated : ∀ user n, rowsAlone.each (populateUserCache config user) (fun _ _ => True) n := by
    intro user n
    unfold populateUserCache writeUserCache
    split
    · trivial
    split
    · trivial
    refine eachLabelled (fun now _ _ => ⟨?_,trivial⟩)
    refine fillKeeps (P := fun n => n.sessions = now.sessions) rfl (fun _ settles => ?_)
    obtain ⟨_,rfl,_⟩ := settles
    rfl
  refine eachAfter (cached s) (fun r n _ => ?_)
  cases r with
  | ok => trivial
  | error err =>
    refine eachAfter byIdAlone (fun r' m _ => ?_)
    cases r' with
    | error => trivial
    | ok user =>
      refine eachRead (fun _ _ _ => ?_)
      split
      · trivial
      refine eachAfter (populated user _) (fun _ _ _ => ?_)
      split <;> trivial

inductive RowMoves (config : Config) (raw : String) (label : Option Label) (sid : String) :
    Option UserSession → Option UserSession → Prop where
  | same (row) : RowMoves config raw label sid row row
  | rotate {row secret} (last now : Int) (token : splitRefreshToken config raw = some (sid,secret))
      (swap : label = some (.rotateDigest sid (hashRefreshSecret config secret))) (active : row.status = .active)
      (stored : row.refreshHash = hashRefreshSecret config secret) :
      RowMoves config raw label sid (some row) (some (Store.rotateRow (hashRefreshSecret config secret)
        (hashRefreshSecret config (deriveNextRefreshSecret config sid secret)) last now row))
  | revoke {row} (now : Int) (reason : String) (active : row.status = .active) :
      RowMoves config raw label sid (some row) (some (Store.revokeRow now reason row))

def rowDuty (config : Config) (raw : String) : Duty Label Store where
  later := fun _ _ => True
  holds := fun _ => True
  does := fun label s n _ => ∀ sid, RowMoves config raw label sid (s.session sid) (n.session sid)
  refl := fun _ => trivial
  trans := fun _ _ _ _ _ => trivial
  moves := fun _ _ _ _ _ => trivial
  whatever := fun _ _ _ _ moves => moves
  still := fun _ _ _ => .same _

variable {raw : String}

theorem aloneMoves {α : Type} {p : Call α} (alone : rowsAlone.each p (fun _ _ => True) s) :
    (rowDuty config raw).each p (fun _ _ => True) s := by
  refine eachWeaken alone (fun _ _ _ => trivial) (fun _ _ => trivial) (fun _ s n _ _ same sid => ?_)
  have agree : n.session sid = s.session sid := by
    unfold Store.session
    rw [show n.sessions = s.sessions from same]
  rw [agree]
  exact .same _

theorem revokeMoves (s : Store) (p : UserSession → Bool) (now reason sid) :
    RowMoves config raw label sid (s.session sid) ((s.revokeWhere p now reason).1.session sid) := by
  rw [sessionRevoke]
  cases s.session sid with
  | none => exact .same _
  | some =>
    simp only [Option.map_some]
    split
    · rename_i hit
      simp only [Bool.and_eq_true,decide_eq_true_eq] at hit
      exact .revoke now reason hit.1
    · exact .same _

theorem revokeSessionMoves {userID : Int} :
    (rowDuty config raw).each (revokeUserSession config userID sid reason) (fun _ _ => True) s := by
  have locked : ∀ (now : Store) clock label sid', RowMoves config raw label sid' (now.session sid')
      ((revokeLocked userID sid reason clock now).1.session sid') := by
    intro now clock label sid'
    unfold revokeLocked
    split
    · exact .same _
    split
    · exact .same _
    · exact revokeMoves now _ clock reason sid'
  unfold revokeUserSession
  split
  · trivial
  refine eachRead (fun _ _ _ => ?_)
  refine eachRead (fun _ _ _ => ?_)
  split
  · trivial
  split
  · trivial
  refine eachAfter (aloneMoves fenceAlone) (fun r _ _ => ?_)
  cases r with
  | error => trivial
  | ok =>
    refine eachLabelled (fun now _ _ => ⟨fun sid' => locked now _ _ sid',?_⟩)
    split
    · trivial
    split
    · exact eachAfter (aloneMoves writeSessionAlone) (fun _ _ _ => trivial)
    · trivial

theorem reuseMoves {session : UserSession} :
    (rowDuty config raw).each (revokeReused config session now) (fun _ _ => True) s := by
  refine eachAfter (aloneMoves fenceAlone) (fun r _ _ => ?_)
  cases r with
  | error => trivial
  | ok =>
    refine eachLabelled (fun mid _ _ => ⟨fun sid => revokeMoves mid _ now _ sid,?_⟩)
    split
    · trivial
    · exact eachAfter (aloneMoves writeSessionAlone) (fun _ _ _ => trivial)

theorem attemptsMove {userID : Int} (token : splitRefreshToken config raw = some (sid,secret)) (attempts : Nat) :
    (rowDuty config raw).each (rotateAttempts config userID sid (hashRefreshSecret config secret)
      (hashRefreshSecret config (deriveNextRefreshSecret config sid secret)) now graceSeconds attempts)
      (fun _ _ => True) s := by
  induction attempts generalizing s with
  | zero => trivial
  | succ attempts ih =>
    refine eachAfter (eachRead (fun _ _ _ => trivial)) (fun _ _ _ => ?_)
    refine eachRead (fun _ _ _ => ?_)
    split
    · trivial
    split
    · trivial
    split
    · rename_i presented
      refine eachLabelled (fun swap _ _ => ⟨fun sid' => ?_,?_⟩)
      · rw [sessionUpdate swap _ (f := Store.rotateRow _ _ _ _) (fun _ => rfl)]
        cases found : swap.session sid' with
        | none => exact .same _
        | some =>
          simp only [Option.map_some]
          split
          · rename_i hit
            simp only [ofUser,unexpired,Bool.and_eq_true,decide_eq_true_eq] at hit
            have key : sid' = sid := (sessionSid found).symm.trans hit.1.1.1
            subst key
            rw [presented]
            exact .rotate _ now token rfl hit.1.2.1.1 hit.2
          · exact .same _
      split
      · exact ih
      refine eachAfter (aloneMoves writeSessionAlone) (fun r _ _ => ?_)
      split
      · refine eachAfter (aloneMoves confirmAlone) (fun r' _ _ => ?_)
        cases r' <;> trivial
      · trivial
      · trivial
    split
    · trivial
    split
    · trivial
    · exact reuseMoves

def Handed (config : Config) (raw : String) (reply : RefreshReply) : Prop :=
  ∀ bundle user sid secret, reply = .ok (bundle,user) → splitRefreshToken config raw = some (sid,secret) →
    bundle.refreshToken = sid ++ "." ++ deriveNextRefreshSecret config sid secret

theorem handedError (err) : Handed config raw (.error err) := by
  intro _ _ _ _ same
  cases same

theorem handedIssued (token : splitRefreshToken config raw = some (sid,secret))
    (issued : issueAuthBundle session (sid ++ "." ++ deriveNextRefreshSecret config sid secret) = .ok bundle) :
    Handed config raw (.ok (bundle,user)) := by
  intro _ _ _ _ same token'
  cases same
  cases Option.some.inj (token.symm.trans token')
  exact (issuedBundle issued).2.2

theorem rotatedMoves (token : splitRefreshToken config raw = some (sid,secret)) :
    (rowDuty config raw).each (refreshRotated config userID user sid secret ip userAgent)
      (fun r _ => Handed config raw r) s := by
  have rotation : ∀ now n, (rowDuty config raw).each (rotateUserSessionRefresh config userID sid
      (hashRefreshSecret config secret) (hashRefreshSecret config (deriveNextRefreshSecret config sid secret)) now
      refreshReplayWindowSeconds) (fun _ _ => True) n := by
    intro now n
    unfold rotateUserSessionRefresh
    split
    · trivial
    · exact eachRead (fun _ _ _ => attemptsMove token 3)
  refine eachRead (fun _ _ _ => ?_)
  refine eachAfter (rotation _ _) (fun r _ _ => ?_)
  split
  · split
    · split
      · exact handedError _
      · rename_i issued
        exact handedIssued token issued
    · exact handedError _
  · exact handedError _
  · exact handedError _
  · exact handedError _
  · split
    · exact handedError _
    · rename_i issued
      exact handedIssued token issued

theorem refreshMoves {expectedSID ip userAgent : String} :
    (rowDuty config raw).each (refreshLoginSession config raw expectedSID ip userAgent)
      (fun r _ => Handed config raw r) s := by
  unfold refreshLoginSession
  split
  · exact handedError _
  rename_i _ _ token
  split
  · exact handedError _
  refine eachAfter (aloneMoves lookupAlone) (fun r _ _ => ?_)
  split
  · exact handedError _
  · exact handedError _
  refine eachRead (fun _ _ _ => ?_)
  split
  · exact handedError _
  refine eachAfter (aloneMoves userAlone) (fun r _ _ => ?_)
  cases r with
  | error => exact handedError _
  | ok =>
    refine eachAfter (aloneMoves byIdAlone) (fun r' _ _ => ?_)
    cases r' with
    | error => exact handedError _
    | ok =>
      simp only
      split
      · exact eachAfter revokeSessionMoves (fun _ _ _ => handedError _)
      · exact rotatedMoves token

end

def refreshChain (config : Config) (sid secret : String) : Nat → String
  | 0 => secret
  | k + 1 => deriveNextRefreshSecret config sid (refreshChain config sid secret k)

def previousDigest (config : Config) (sid secret : String) : Nat → String
  | 0 => ""
  | k + 1 => hashRefreshSecret config (refreshChain config sid secret k)

structure OnChain (config : Config) (sid secret : String) (k : Nat) (row : UserSession) : Prop where
  stored : row.refreshHash = hashRefreshSecret config (refreshChain config sid secret k)
  previous : row.previousRefreshHash = previousDigest config sid secret k

structure CollisionFree (config : Config) (sid secret : String) : Prop where
  digests : ∀ a b, hashRefreshSecret config a = hashRefreshSecret config b → a = b
  nonempty : ∀ a, hashRefreshSecret config a ≠ ""
  chain : ∀ i j, refreshChain config sid secret i = refreshChain config sid secret j → i = j

theorem chainMoves (free : CollisionFree config sid secret) (onChain : OnChain config sid secret k row)
    (moves : RowMoves config raw label sid (some row) after) :
    ∃ row', after = some row' ∧ (OnChain config sid secret k row' ∧ (row' = row ∨ row'.status ≠ .active) ∨
      OnChain config sid secret (k + 1) row' ∧
        label = some (.rotateDigest sid (hashRefreshSecret config (refreshChain config sid secret k)))) := by
  cases moves with
  | same => exact ⟨row,rfl,.inl ⟨onChain,.inl rfl⟩⟩
  | revoke =>
    refine ⟨_,rfl,.inl ⟨⟨onChain.stored,onChain.previous⟩,.inr ?_⟩⟩
    intro still
    cases still
  | @rotate row presented last now token swap active stored =>
    have same : presented = refreshChain config sid secret k := free.digests _ _ (stored.symm.trans onChain.stored)
    subst same
    exact ⟨_,rfl,.inr ⟨⟨rfl,rfl⟩,swap⟩⟩

def refreshDuty (config : Config) (request : RefreshRequest) : Duty Label Store := rowDuty config request.rawRefreshToken

theorem rowFits (config) : Fits (refreshProgram config) tick (fun _ => True) (refreshDuty config)
    (fun request reply _ => Handed config request.rawRefreshToken reply) where
  holds := fun _ _ _ => trivial
  keeps := fun _ _ _ _ _ _ _ => ⟨trivial,fun _ => trivial⟩
  quiet := fun _ _ _ => ⟨trivial,fun _ => trivial⟩
  spec := fun _ _ _ => refreshMoves

theorem chainStep (free : CollisionFree config sid secret) {sys n : RefreshSystem} (kept : Kept (fun _ => True) (refreshDuty config)
      (fun request reply _ => Handed config request.rawRefreshToken reply) sys)
    (h : step (refreshProgram config) tick sys move = some n) (found : sys.shared.session sid = some row) (onChain : OnChain config sid secret k row) :
    ∃ row', n.shared.session sid = some row' ∧ (OnChain config sid secret k row' ∧ (row' = row ∨ row'.status ≠ .active) ∨
      OnChain config sid secret (k + 1) row' ∧ ∃ i p, move = .act i ∧ sys.procs[i]? = some p ∧
        p.rest.label = some (.rotateDigest sid (hashRefreshSecret config (refreshChain config sid secret k)))) := by
  have acted := (stepKept (rowFits config) kept h).2
  cases move with
  | start =>
    have same : n.shared = sys.shared := acted
    exact ⟨row,by rw [same]; exact found,.inl ⟨onChain,.inl rfl⟩⟩
  | env e =>
    have same : n.shared = tick sys.shared e := acted
    exact ⟨row,by rw [same]; exact found,.inl ⟨onChain,.inl rfl⟩⟩
  | act i =>
    obtain ⟨p,q,at_,_,_,does⟩ := acted
    have moves : RowMoves config p.request.rawRefreshToken p.rest.label sid (some row) (n.shared.session sid) := by
      rw [← found]
      exact does sid
    obtain ⟨row',found',stays | ⟨next,label⟩⟩ := chainMoves free onChain moves
    · exact ⟨row',found',.inl stays⟩
    · exact ⟨row',found',.inr ⟨next,i,p,rfl,at_,label⟩⟩

theorem chainRun (free : CollisionFree config sid secret) {sys out : RefreshSystem} {moves}
    (kept : Kept (fun _ => True) (refreshDuty config)
      (fun request reply _ => Handed config request.rawRefreshToken reply) sys)
    (h : run (step (refreshProgram config) tick) sys moves = some out) (found : sys.shared.session sid = some row) (onChain : OnChain config sid secret k row) :
    ∃ k' row', out.shared.session sid = some row' ∧ OnChain config sid secret k' row' ∧
      (k' = k ∧ row' = row ∨ k < k' ∨ row'.status ≠ .active) ∧ k ≤ k' := by
  induction moves generalizing sys k row with
  | nil => cases h; exact ⟨k,row,found,onChain,.inl ⟨rfl,rfl⟩,le_refl k⟩
  | cons _ moves ih =>
    obtain ⟨n,moved,rest⟩ := runCons h
    have keptNext := (stepKept (rowFits config) kept moved).1
    obtain ⟨row',found',⟨stays,same⟩ | ⟨next,_⟩⟩ := chainStep free kept moved found onChain
    · obtain ⟨k'',row'',found'',onChain'',last,above⟩ := ih keptNext rest found' stays
      refine ⟨k'',row'',found'',onChain'',?_,above⟩
      rcases last with ⟨rfl,rfl⟩ | further | ended
      · rcases same with rfl | ended
        · exact .inl ⟨rfl,rfl⟩
        · exact .inr (.inr ended)
      · exact .inr (.inl further)
      · exact .inr (.inr ended)
    · obtain ⟨k'',row'',found'',onChain'',_,above⟩ := ih keptNext rest found' next
      exact ⟨k'',row'',found'',onChain'',.inr (.inl (by omega)),by omega⟩

end Omnigate.Auth
