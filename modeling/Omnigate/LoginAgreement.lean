import Omnigate.UserAuthFence
import Omnigate.UserSessionRevocation

/-! What a login, a validated token, a refresh and a security change have established when they return. A login that
read its user before a security change and inserted its row after the bulk revoke leaves a dead session. -/
namespace Omnigate.Auth

open Interleave Contract

def Stillborn (s : Store) (sid : String) : Prop := (s.history sid).birthVersion < (s.history sid).birthFloor

def bornLimits : Limits := ⟨fun s sid => ¬ Stillborn s sid,fun _ _ _ => True,fun _ => True⟩

structure Births (s : Store) : Prop where
  floor : ∀ sid row, s.session sid = some row → (s.history sid).birthFloor ≤ s.committedVersion row.userID
  kept : ∀ sid row, s.session sid = some row → Stillborn s sid → row.userAuthVersion = (s.history sid).birthVersion

variable {n s : Store}

theorem stillbornBefore (after : After s n) (found : s.session sid = some row) (still : Stillborn n sid) :
    Stillborn s sid := by
  obtain ⟨_,_,rowAfter⟩ := after.rows sid row found
  unfold Stillborn at still ⊢
  rw [rowAfter.birthVersion,rowAfter.birthFloor] at still
  exact still

theorem birthsRows {s n} (births : Births s) (after : After s n) {f}
    (sessions : ∀ sid, n.session sid = (s.session sid).map f)
    (same : ∀ sid row, s.session sid = some row → Stillborn s sid → (f row).userAuthVersion = row.userAuthVersion) :
    Births n := by
  have back : ∀ sid later, n.session sid = some later →
      ∃ row, s.session sid = some row ∧ f row = later ∧ RowAfter s n sid row later := by
    intro sid later found
    rw [sessions] at found
    obtain ⟨row,stored,agree⟩ := Option.map_eq_some_iff.mp found
    obtain ⟨_,found',rowAfter⟩ := after.rows sid row stored
    rw [sessions,stored] at found'
    cases (Option.some.inj found').symm.trans agree
    exact ⟨row,stored,agree,rowAfter⟩
  refine ⟨fun sid later found => ?_,fun sid later found still => ?_⟩
  · obtain ⟨row,stored,_,rowAfter⟩ := back sid later found
    rw [rowAfter.birthFloor,rowAfter.user]
    exact (births.floor sid row stored).trans (after.floor row.userID)
  obtain ⟨row,stored,agree,rowAfter⟩ := back sid later found
  have before := stillbornBefore after stored still
  rw [rowAfter.birthVersion,← agree,same sid row stored before]
  exact births.kept sid row stored before

theorem birthsSame (births : Births s) (after : After s n) (sessions : n.sessions = s.sessions) : Births n := by
  refine @birthsRows s n births after id (fun _ => ?_) (fun _ _ _ _ => rfl)
  unfold Store.session
  rw [sessions,Option.map_id]
  rfl

theorem birthsInsert (births : Births s) : Births (s.insertSession row).1 := by
  have after := @insertAfter s row
  cases fresh : s.session row.sid with
  | some =>
    rw [insertKnown fresh]
    exact births
  | none =>
    have floor : ∀ userId, (s.insertSession row).1.committedVersion userId = s.committedVersion userId := by
      intro userId
      unfold Store.committedVersion
      rw [(insertKept s row).1]
    have born : (s.insertSession row).1.history row.sid = ⟨0,row.userAuthVersion,s.committedVersion row.userID⟩ := by
      unfold Store.insertSession
      rw [fresh]
      exact Function.update_self _ _ _
    have cases_ : ∀ sid later, (s.insertSession row).1.session sid = some later →
        row.sid = sid ∧ later = row ∨ s.session sid = some later := by
      intro sid later found
      rw [sessionInsert fresh] at found
      split at found
      · rename_i same
        exact .inl ⟨same,(Option.some.inj found).symm⟩
      · exact .inr found
    refine ⟨fun sid later found => ?_,fun sid later found still => ?_⟩
    · rcases cases_ sid later found with ⟨rfl,rfl⟩ | stored
      · rw [born,floor]
      obtain ⟨later',found',rowAfter⟩ := after.rows sid later stored
      rw [rowAfter.birthFloor,floor]
      exact births.floor sid later stored
    · rcases cases_ sid later found with ⟨rfl,rfl⟩ | stored
      · rw [born]
      obtain ⟨later',found',rowAfter⟩ := after.rows sid later stored
      rw [rowAfter.birthVersion]
      exact births.kept sid later stored (stillbornBefore after stored still)

theorem settledBirths (births : Births s) (settles : Settles s userId incoming n) : Births n := by
  have after := settlesAfter settles
  obtain ⟨_,rfl,_⟩ := settles
  exact birthsSame births after rfl

theorem birthsChange (births : Births s) (h : Change config bornLimits s n) : Births n := by
  have after := changeAfter h
  cases h with
  | tick | commit | publish | drop => exact birthsSame births after rfl
  | insert => exact birthsInsert births
  | revoke p now reason =>
    refine birthsRows births after (sessionRevoke s p now reason) (fun sid row _ _ => ?_)
    split <;> rfl
  | advance allowed =>
    refine birthsRows births after (sessionUpdate s _ (fun _ => rfl)) (fun sid row found still => ?_)
    split
    · rename_i hit
      have born := (allowed row hit).2.2.2
      rw [sessionSid found] at born
      exact absurd still born
    · rfl
  | rotate =>
    refine birthsRows births after (sessionUpdate s _ (fun _ => rfl)) (fun sid row _ _ => ?_)
    split <;> rfl
  | @grant entry ttl | @deny entry ttl =>
    obtain ⟨cache,same⟩ := writeSessionCache s entry ttl
    exact birthsSame births after (by rw [same])
  | fence =>
    refine birthsSame births after ?_
    unfold Store.raiseFence
    split <;> rfl
  | fill => exact fillKeeps (P := Births) births (fun _ => settledBirths births)
  | field => exact fieldKeeps (P := Births) births (fun _ => settledBirths births)

theorem birthsStable (config : Config) (ok : Option Label → Store → Prop) :
    (agreement config bornLimits ok).Stable Births := fun _ _ _ h births => birthsChange births h

theorem issuedBundle (h : issueAuthBundle session raw = .ok bundle) :
    bundle.accessToken = ⟨session.userID,session.sid,session.userAuthVersion,session.version⟩ ∧
      bundle.session = session ∧ bundle.refreshToken = raw := by
  unfold issueAuthBundle issueAccessToken at h
  split at h
  · cases h
  rename_i issued
  split at issued
  · cases issued
  cases issued
  cases h
  exact ⟨rfl,rfl,rfl⟩

section
variable {config : Config} {ok : Option Label → Store → Prop}

structure LoggedIn (n : Store) (login : Login) (bundle : AuthBundle) : Prop where
  key : bundle.accessToken.sessionID = login.sid
  born : ∃ row, n.session login.sid = some row ∧ row.userID = login.userID ∧
    (n.history login.sid).birthVersion = bundle.accessToken.userAuthVersion
  expected : 0 < login.expectedAuthVersion → bundle.accessToken.userAuthVersion = login.expectedAuthVersion

theorem loginSpec (inv : Inv config s) (login : Login) :
    (agreement config limits ok).wp (createLoginSession config login)
      (fun r n => ∀ bundle, r = .ok bundle → LoggedIn n login bundle) s := by
  refine wpThen inv (getUserSpec inv login.userID) (fun r n _ _ _ => ?_)
  cases r with
  | error => exact failedNone
  | ok user =>
    simp only
    split
    · exact failedNone
    split
    · exact failedNone
    rename_i agrees
    refine wpRead (fun _ _ _ _ => ?_)
    refine wpRead (fun _ _ _ _ => ?_)
    split
    · exact failedNone
    refine wpRead (fun _ invIssued _ _ => ?_)
    split
    · exact failedNone
    refine wpThen invIssued createSpec (fun r' _ done invLast _ => ?_)
    cases r' with
    | error => exact failedNone
    | ok session =>
      obtain ⟨key,_,authVersion,created⟩ := done session rfl
      simp only
      split
      · exact wpThen invLast revokeSpec (fun _ _ _ _ _ bundle same => by cases same)
      rename_i bundle issuedBundle_
      intro _ same
      cases same
      obtain ⟨token,_⟩ := issuedBundle issuedBundle_
      obtain ⟨row,found,user_,birth⟩ := created
      have version : bundle.accessToken.userAuthVersion = user.authVersion := by rw [token]; exact authVersion
      refine ⟨by rw [token]; exact key,⟨row,found,user_,birth.trans version.symm⟩,fun positive => ?_⟩
      rw [version]
      by_contra other
      exact agrees ⟨positive,other⟩

structure Validated (s n : Store) (identity : AuthIdentity) : Prop where
  floor : s.committedVersion identity.userID ≤ identity.userAuthVersion
  born : (∃ row, n.session identity.sessionID = some row) ∧ ¬ Stillborn n identity.sessionID

theorem bornAfter (after : After s n) (born : (∃ row, s.session sid = some row) ∧ ¬ Stillborn s sid) :
    (∃ row, n.session sid = some row) ∧ ¬ Stillborn n sid := by
  obtain ⟨⟨row,found⟩,alive⟩ := born
  obtain ⟨later,foundLater,_⟩ := after.rows sid row found
  exact ⟨⟨later,foundLater⟩,fun still => alive (stillbornBefore after found still)⟩

theorem bornVersion (births : Births s) (known : Known s entry)
    (floor : s.committedVersion entry.userID ≤ entry.userAuthVersion) :
    (∃ row, s.session entry.sid = some row) ∧ ¬ Stillborn s entry.sid := by
  obtain ⟨row,found,copies⟩ := known
  refine ⟨⟨row,found⟩,fun still => ?_⟩
  have version := births.kept entry.sid row found still
  have birthFloor := births.floor entry.sid row found
  have bound := copies.authVersion
  rw [copies.user] at floor
  unfold Stillborn at still
  omega

theorem snapshotFloor (inv : Inv config s)
    (snapshot : Snapshot config limits ok s n userId base) : s.committedVersion userId ≤ base.authVersion := by
  obtain ⟨_,_,_,_,moved,passed⟩ := snapshot
  have grows := (relyAfter inv moved).floor userId
  unfold Store.authVersionFloor at passed
  omega

theorem validateSpec (inv : Inv config s) (births : Births s) (identity : AuthIdentity) :
    (agreement config bornLimits ok).wp (validateLoginSession config identity)
      (fun r n => ∀ got, r = .ok got → Validated s n identity) s := by
  refine wpThen inv (getSpec inv identity.sessionID) (fun r n done invN reached => ?_)
  split
  · exact failedNone
  · exact failedNone
  rename_i session
  have got := done session rfl
  refine wpRead (fun now invNow moved _ => ?_)
  split
  · exact failedNone
  rename_i agrees
  push Not at agrees
  refine wpThen invNow (getUserSpec invNow identity.userID) (fun r' _ snapshot _ reached' => ?_)
  cases r' with
  | error => exact failedNone
  | ok user =>
    have floor := snapshotFloor invNow (snapshot user rfl)
    simp only
    split
    · exact failedNone
    rename_i current
    push Not at current
    intro _ _
    have grows := (relyAfter inv (reached.trans moved)).floor identity.userID
    have births' : Births now := (birthsStable config ok).rely inv (reached.trans moved) births
    have known := knownAfter (relyAfter invN moved) got.known
    have bounded : now.committedVersion session.userID ≤ session.userAuthVersion := by
      rw [agrees.1,agrees.2.2.2.2.2,← current.2]
      exact floor
    have born := bornVersion births' known bounded
    rw [show session.cacheEntry.sid = identity.sessionID from got.key] at born
    exact ⟨by rw [← current.2]; omega,bornAfter (relyAfter invNow reached') born⟩

theorem authenticatedSpec {α : Type} {s identity} {handler : Call (Except AuthError α)}
    {post : α → Store → Prop} (inv : Inv config s) (births : Births s)
    (serves : ∀ n, Inv config n → (agreement config bornLimits ok).rely s n → Validated s n identity →
      (agreement config bornLimits ok).wp handler (fun r m => ∀ got, r = .ok got → post got m) n) :
    (agreement config bornLimits ok).wp (authenticated config identity handler)
      (fun r m => ∀ got, r = .ok got → post got m) s := by
  refine wpThen inv (validateSpec inv births identity) (fun r n done invN reached => ?_)
  cases r with
  | error => exact failedNone
  | ok got => exact serves n invN reached (done got rfl)

theorem advanceToVersionSpec (inv : Inv config s)
    (born : (∃ row, s.session identity.sessionID = some row) ∧ ¬ Stillborn s identity.sessionID) :
    (agreement config bornLimits ok).wp (advanceCurrentSessionToVersion config identity next reason rounds)
      (fun r n => ∀ bundle, r = .ok bundle → bundle.accessToken.userAuthVersion = next ∧
        Cleared n identity.userID identity.sessionID next) s := by
  refine wpThen inv (advanceSpec (fun _ _ moved => (bornAfter (relyAfter inv moved) born).2))
    (fun r n done invN _ => ?_)
  cases r with
  | error => exact failedNone
  | ok session =>
    have version := (done session rfl).1
    refine wpThen invN (@revokeAllSpec config _ _ identity.userID identity.sessionID reason next rounds n)
      (fun r' _ cleared _ _ => ?_)
    cases r' with
    | error => exact failedNone
    | ok sids =>
      intro bundle issued
      obtain ⟨token,_⟩ := issuedBundle issued
      exact ⟨by rw [token]; exact version,(cleared sids rfl).2⟩

/- A security change of the user: a version above all that was published when it began is published, and no other
session is left but those created since. -/
structure Bumped (s n : Store) (identity : AuthIdentity) (version : Int) : Prop where
  above : s.committedVersion identity.userID < version
  published : version ≤ n.committedVersion identity.userID
  cleared : Cleared n identity.userID identity.sessionID version

theorem nextAbove (inv : Inv config s) (next : Next s n userId version) :
    s.committedVersion userId < version := by
  unfold Store.committedVersion
  cases stored : (s.userKeys userId).version with
  | none => exact next.positive
  | some old => exact next.above old (inv.users.versions userId old stored)

theorem bumpSpec (inv : Inv config s)
    (born : (∃ row, s.session identity.sessionID = some row) ∧ ¬ Stillborn s identity.sessionID) :
    (agreement config bornLimits ok).wp (advanceCurrentSessionSecurity config identity reason rounds)
      (fun r n => ∀ bundle, r = .ok bundle → Bumped s n identity bundle.accessToken.userAuthVersion) s := by
  refine wpThen inv (changeUserSpec trivial inv) (fun r n done invN reached => ?_)
  cases r with
  | error => exact failedNone
  | ok version =>
    obtain ⟨next,published⟩ := done version rfl
    refine wpMono (wpReach invN (advanceToVersionSpec invN (bornAfter (relyAfter inv reached) born)))
      (fun _ _ after bundle same => ?_)
    obtain ⟨advanced,_,moved⟩ := after
    obtain ⟨version_,cleared⟩ := advanced bundle same
    rw [version_]
    exact ⟨nextAbove inv next,published.trans ((relyAfter invN moved).floor _),cleared⟩

theorem toUserVersionSpec (inv : Inv config s)
    (born : (∃ row, s.session identity.sessionID = some row) ∧ ¬ Stillborn s identity.sessionID) :
    (agreement config bornLimits ok).wp (advanceCurrentSessionToUserVersion config identity reason rounds)
      (fun _ _ => True) s := by
  refine wpThen inv (getUserSpec inv identity.userID) (fun r n _ invN reached => ?_)
  cases r with
  | error => trivial
  | ok =>
    simp only
    split
    · trivial
    · exact wpMono (advanceToVersionSpec invN (bornAfter (relyAfter inv reached) born)) (fun _ _ _ => trivial)

structure Refreshed (s n : Store) (sid : String) : Prop where
  alive : Alive s sid s.unix
  version : ∃ row, n.session sid = some row ∧ s.committedVersion row.userID ≤ row.userAuthVersion

theorem aliveEarlier (later : now ≤ used) (alive : Alive s sid used) :
    Alive s sid now := by
  intro row found
  obtain ⟨active,_⟩ := alive row found
  exact ⟨active,by omega⟩

theorem rotatedSpec
    (allowed : limits.rotate sid (hashRefreshSecret config secret) (hashRefreshSecret config (deriveNextRefreshSecret config sid secret)))
    (inv : Inv config s) :
    (agreement config limits ok).wp (refreshRotated config userID user sid secret ip userAgent)
      (fun r _ => ∀ got, r = .ok got → Alive s sid s.unix) s := by
  refine wpRead (fun _ invNow moved _ => ?_)
  refine wpThen invNow (rotateSpec allowed invNow) (fun r n done _ _ => ?_)
  obtain ⟨used,clock,rotation⟩ := done
  have later : s.unix ≤ used := by
    have passed := unixAfter (relyAfter inv moved)
    rcases clock with rfl | since
    · exact passed
    · exact passed.trans since
  have alive : ∀ session, r = .rotated session ∨ r = .raced session → Alive s sid s.unix := fun session same =>
    aliveEarlier later (aliveBefore (relyAfter inv moved) (rotation.alive session same))
  split
  · rename_i session
    split
    · split
      · exact failedNone
      · exact fun _ _ => alive session (.inr rfl)
    · exact failedNone
  · exact failedNone
  · exact failedNone
  · exact failedNone
  · rename_i session
    split
    · exact failedNone
    · exact fun _ _ => alive session (.inl rfl)

theorem refreshSpec
    (allowed : ∀ sid secret, splitRefreshToken config raw = some (sid,secret) → limits.rotate sid (hashRefreshSecret config secret) (hashRefreshSecret config (deriveNextRefreshSecret config sid secret)))
    (inv : Inv config s) :
    (agreement config limits ok).wp (refreshLoginSession config raw expectedSID ip userAgent)
      (fun r n => ∀ got, r = .ok got → ∃ sid secret, splitRefreshToken config raw = some (sid,secret) ∧
        Refreshed s n sid) s := by
  unfold refreshLoginSession
  split
  · exact failedNone
  rename_i sid secret token
  split
  · exact failedNone
  refine wpThen inv (getSpec inv sid) (fun r n done invN reached => ?_)
  split
  · exact failedNone
  · exact failedNone
  rename_i session
  have got := done session rfl
  refine wpRead (fun _ invNow moved _ => ?_)
  split
  · exact failedNone
  refine wpThen invNow (getUserSpec invNow session.userID) (fun r' _ snapshot invLooked reached' => ?_)
  cases r' with
  | error => exact failedNone
  | ok userCache =>
    have floor := snapshotFloor invNow (snapshot userCache rfl)
    refine wpThen invLooked (getUserByIdSpec session.userID) (fun r'' _ _ invRead reached'' => ?_)
    cases r'' with
    | error => exact failedNone
    | ok =>
      simp only
      split
      · exact wpThen invRead revokeSpec (fun _ _ _ _ _ got same => by cases same)
      rename_i agrees
      push Not at agrees
      refine wpMono (wpReach invRead (rotatedSpec (allowed sid secret token) invRead)) (fun r _ after got_ same => ?_)
      obtain ⟨alive,_,moved'⟩ := after
      have early := relyAfter inv (reached.trans (moved.trans (reached'.trans reached'')))
      have late := relyAfter invN (moved.trans (reached'.trans (reached''.trans moved')))
      refine ⟨sid,secret,token,aliveBefore early (aliveEarlier (unixAfter early) (alive got_ same)),?_⟩
      obtain ⟨row,found,copies⟩ := knownAfter late got.known
      rw [show session.cacheEntry.sid = sid from got.key] at found
      have grows := (relyAfter inv (reached.trans moved)).floor session.userID
      have user : session.userID = row.userID := copies.user
      have version : session.userAuthVersion ≤ row.userAuthVersion := copies.authVersion
      exact ⟨row,found,by rw [← user]; omega⟩

end

end Omnigate.Auth
