import Omnigate.AuthSession

/-! What any program of the login service may do to the store in one call, with the invariant these changes keep and
the order they respect. A change carries what its writer must know at that moment. -/
namespace Omnigate.Auth

open Interleave Table List Option

theorem failedNone {e : ε} {p : α → Prop} : ∀ got, (.error e : Except ε α) = .ok got → p got := by
  intro got same
  cases same

structure Limits where
  advance : Store → String → Prop
  rotate : String → String → String → Prop
  commit : Int → Prop

structure Copies (entry : UserSessionCacheEntry) (row : UserSession) : Prop where
  user : entry.userID = row.userID
  expires : entry.expiresAt = row.expiresAt
  version : entry.version ≤ row.version
  authVersion : entry.userAuthVersion ≤ row.userAuthVersion

def Known (s : Store) (entry : UserSessionCacheEntry) : Prop := ∃ row, s.session entry.sid = some row ∧ Copies entry row

/- A deadline taken before an active row was read: within one cache lifetime of the present or of the row's end. -/
def Fresh (config : Config) (s : Store) (sid : String) (deadline : Int) : Prop :=
  ∀ row, s.session sid = some row → (row.status = .active → deadline ≤ s.clock + cacheTTL config) ∧
    (row.status ≠ .active → deadline ≤ (s.history sid).ended + cacheTTL config)

def Committed (s : Store) (userId version : Int) : Prop := ∃ user, s.users userId = some user ∧ version ≤ user.authVersion

def Announced (s : Store) (userId version : Int) : Prop :=
  ∃ user, s.users userId = some user ∧ version ≤ max user.authVersion 1 + 1

inductive Change (config : Config) (limits : Limits) : Store → Store → Prop where
  | tick {s} (n : Nat) : Change config limits s {s with clock := s.clock + n}
  | insert {s row} (active : row.status = .active) (positive : 0 < row.version) :
      Change config limits s (s.insertSession row).1
  | revoke {s} (p now reason) : Change config limits s (s.revokeWhere p now reason).1
  | advance {s p version authVersion now}
      (allowed : ∀ row, p row → row.status = .active ∧ row.version ≤ version ∧ row.userAuthVersion ≤ authVersion ∧
        limits.advance s row.sid) :
      Change config limits s (s.updateSessions p (Store.advanceRow version authVersion now)).1
  | rotate {s p previous next last now}
      (allowed : ∀ row, p row → row.status = .active ∧ row.refreshHash = previous ∧
        limits.rotate row.sid previous next) :
      Change config limits s (s.updateSessions p (Store.rotateRow previous next last now)).1
  | grant {s entry expiration} (active : entry.status = .active) (known : Known s entry)
      (fresh : Fresh config s entry.sid expiration) (bound : expiration ≤ entry.expiresAt * 1000) :
      Change config limits s (s.writeSession entry expiration).1
  | deny {s entry ttl} (denied : entry.status ≠ .active) (known : Known s entry)
      (long : min (entry.expiresAt * 1000) (s.clock + cacheTTL config) ≤ s.clock + ttl) :
      Change config limits s (s.writeSession entry ttl).1
  | fence {s userId version} (announced : Announced s userId version) :
      Change config limits s (s.raiseFence userId version (fenceTTL config))
  | commit {s userId user} (next : User) (allowed : limits.commit userId) (stored : s.users userId = some user)
      (same : next.id = userId) (grows : user.authVersion ≤ next.authVersion) : Change config limits s (s.setUser userId next)
  | publish {s userId version} (committed : Committed s userId version) :
      Change config limits s (s.publishVersion userId version)
  | fill {s user includeQuota ttl} (committed : Committed s user.id user.authVersion) :
      Change config limits s (s.writeUser user includeQuota ttl).1
  | field {s userId field version} (committed : Committed s userId version) :
      Change config limits s (s.writeField userId field version).1
  | drop {s} (userId) : Change config limits s (s.dropUserHash userId)

variable {f : UserSession → UserSession}

theorem sessionUpdate (s : Store) (p : UserSession → Bool) (stable : ∀ row, (f row).sid = row.sid) (sid) :
    (s.updateSessions p f).1.session sid = (s.session sid).map (fun row => if p row then f row else row) :=
  lookupUpdate stable sid s.sessions

theorem sessionRevoke (s : Store) (p : UserSession → Bool) (now reason sid) :
    (s.revokeWhere p now reason).1.session sid = (s.session sid).map
      (fun row => if row.status = .active && p row then Store.revokeRow now reason row else row) :=
  lookupUpdate (f := Store.revokeRow now reason) (fun _ => rfl) sid s.sessions

variable {s n : Store}

theorem sessionInsert (fresh : s.session row.sid = none) (sid) :
    (s.insertSession row).1.session sid = if row.sid = sid then some row else s.session sid := by
  unfold Store.insertSession
  rw [fresh]
  by_cases same : row.sid = sid
  · subst same
    rw [if_pos rfl]
    exact lookupInserted fresh
  · rw [if_neg same]
    exact lookupAppend same

theorem sessionFound (unique : (s.sessions.map UserSession.sid).Nodup) (member : row ∈ s.sessions) : s.session row.sid = some row := lookupUnique unique member

theorem sessionSid (found : s.session sid = some row) : row.sid = sid :=
  (lookupSound found).2

theorem liveSome {α : Type} {entry : α} {key : Option (α × Int)} (h : live clock key = some entry) :
    ∃ last, key = some (entry,last) ∧ clock ≤ last := by
  unfold live at h
  split at h
  · rename_i _ last
    split at h
    · cases h
    · cases h; exact ⟨last,rfl,by omega⟩
  · cases h

theorem cacheSet (s : Store) (sid other) (key : Option (UserSessionCacheEntry × Int)) :
    (s.setCache sid key).sessionCache other = if other = sid then key else s.sessionCache other :=
  Function.update_apply _ _ _ _

variable {entry : UserSessionCacheEntry}

theorem writeSessionOther (other : entry.sid ≠ sid) :
    (s.writeSession entry expiration).1.sessionCache sid = s.sessionCache sid := by
  unfold Store.writeSession
  simp only
  split
  · rfl
  split
  · rfl
  · rw [cacheSet,if_neg (Ne.symm other)]

theorem writeSessionCache (s : Store) (entry expiration) :
    ∃ cache, (s.writeSession entry expiration).1 = {s with sessionCache := cache} := by
  unfold Store.writeSession
  simp only
  split
  · exact ⟨s.sessionCache,rfl⟩
  split
  · exact ⟨s.sessionCache,rfl⟩
  · exact ⟨_,rfl⟩

theorem keysSet (s : Store) (userId other : Int) (keys) :
    (s.setKeys userId keys).userKeys other = if other = userId then keys else s.userKeys other :=
  Function.update_apply _ _ _ _

theorem settledVersion (s : Store) (userId incoming) :
    (s.settled userId incoming).version.getD 0 = max (s.committedVersion userId) incoming := by
  unfold Store.settled UserKeys.settle Store.committedVersion
  simp only
  split
  · rw [getD_some]; omega
  · omega

def Settles (s : Store) (userId incoming : Int) (n : Store) : Prop :=
  ∃ hash, n = s.setKeys userId {s.settled userId incoming with hash := hash} ∧
    ∀ base last, hash = some (base,last) → base.authVersion = incoming ∨ (s.userKeys userId).hash = some (base,last)

theorem settlesKeys (s userId incoming) :
    Settles s userId incoming (s.setKeys userId (s.settled userId incoming)) :=
  ⟨(s.userKeys userId).hash,rfl,fun _ _ stored => .inr stored⟩

theorem writeUserSettles (s user includeQuota ttl) :
    s.outdated user.id user.authVersion ∧ s.writeUser user includeQuota ttl = (s,false) ∨
    Settles s user.id user.authVersion (s.writeUser user includeQuota ttl).1 ∧
      (s.writeUser user includeQuota ttl).2 = true := by
  unfold Store.writeUser
  split
  · rename_i old
    exact .inl ⟨old,rfl⟩
  split
  · refine .inr ⟨⟨_,rfl,?_⟩,rfl⟩
    intro base last stored
    cases stored
    exact .inl rfl
  split
  · refine .inr ⟨⟨_,rfl,?_⟩,rfl⟩
    intro base last stored
    cases stored
    exact .inl rfl
  · exact .inr ⟨settlesKeys s _ _,rfl⟩

theorem inHashVersion (field : UserField) (base : UserBase) : (field.inHash base).authVersion = base.authVersion := by
  cases field <;> rfl

theorem writeFieldSettles (s : Store) (userId field) (incoming : Int) :
    s.writeField userId field incoming = (s,false) ∨
    Settles s userId incoming (s.writeField userId field incoming).1 := by
  unfold Store.writeField
  split
  · exact .inl rfl
  simp only
  split
  · split
    · exact .inr (settlesKeys s _ _)
    rename_i cached _ _ fits
    refine .inr ⟨_,rfl,?_⟩
    intro _ _ written
    cases written
    push Not at fits
    exact .inl ((inHashVersion field cached).trans fits.2)
  · exact .inr (settlesKeys s _ _)

section
variable {P : Store → Prop} (same : P s)

include same

theorem fillKeeps (settles : ∀ n, Settles s user.id user.authVersion n → P n) :
    P (s.writeUser user includeQuota ttl).1 := by
  rcases writeUserSettles s user includeQuota ttl with ⟨_,refused⟩ | ⟨settled,_⟩
  · rw [refused]; exact same
  · exact settles _ settled

theorem fieldKeeps (settles : ∀ n, Settles s userId incoming n → P n) :
    P (s.writeField userId field incoming).1 := by
  rcases writeFieldSettles s userId field incoming with refused | settled
  · rw [refused]; exact same
  · exact settles _ settled

end

structure RowAfter (s n : Store) (sid : String) (row later : UserSession) : Prop where
  user : later.userID = row.userID
  expires : later.expiresAt = row.expiresAt
  version : row.version ≤ later.version
  authVersion : row.userAuthVersion ≤ later.userAuthVersion
  frozen : row.status ≠ .active → later = row ∧ (n.history sid).ended = (s.history sid).ended
  ended : row.status = .active → later.status ≠ .active → s.clock ≤ (n.history sid).ended
  revokedAt : later.status = .active → later.revokedAt = row.revokedAt
  birthVersion : (n.history sid).birthVersion = (s.history sid).birthVersion
  birthFloor : (n.history sid).birthFloor = (s.history sid).birthFloor

structure After (s n : Store) : Prop where
  clock : s.clock ≤ n.clock
  rows : ∀ sid row, s.session sid = some row → ∃ later, n.session sid = some later ∧ RowAfter s n sid row later
  born : ∀ sid row, s.session sid = none → n.session sid = some row →
    s.committedVersion row.userID ≤ (n.history sid).birthFloor
  floor : ∀ userId, s.committedVersion userId ≤ n.committedVersion userId
  users : ∀ userId user, s.users userId = some user → ∃ later, n.users userId = some later ∧
    user.authVersion ≤ later.authVersion

theorem rowSame {s n sid} (same : n.history sid = s.history sid) (row) :
    RowAfter s n sid row row where
  user := rfl
  expires := rfl
  version := le_refl _
  authVersion := le_refl _
  frozen := fun _ => ⟨rfl,by rw [same]⟩
  ended := fun active ended => absurd active ended
  revokedAt := fun _ => rfl
  birthVersion := by rw [same]
  birthFloor := by rw [same]

theorem afterKeys (clock : s.clock ≤ n.clock) (sessions : n.sessions = s.sessions) (history : n.history = s.history)
    (floor : ∀ userId, s.committedVersion userId ≤ n.committedVersion userId)
    (users : ∀ userId user, s.users userId = some user → ∃ later, n.users userId = some later ∧ user.authVersion ≤ later.authVersion) :
    After s n := by
  have same : ∀ sid, n.session sid = s.session sid := fun sid => by unfold Store.session; rw [sessions]
  refine ⟨clock,fun sid row found => ⟨row,(same sid).trans found,rowSame (by rw [history]) row⟩,?_,floor,users⟩
  intro sid row missing found
  rw [same,missing] at found
  cases found

theorem afterRefl (s) : After s s :=
  afterKeys (le_refl _) rfl rfl (fun _ => le_refl _) (fun _ user found => ⟨user,found,le_refl _⟩)

theorem rowTrans (clock : a.clock ≤ b.clock)
    (first : RowAfter a b sid row mid) (second : RowAfter b d sid mid last) : RowAfter a d sid row last where
  user := second.user.trans first.user
  expires := second.expires.trans first.expires
  version := first.version.trans second.version
  authVersion := first.authVersion.trans second.authVersion
  frozen := by
    intro ended
    obtain ⟨same,moment⟩ := first.frozen ended
    subst same
    obtain ⟨same',moment'⟩ := second.frozen ended
    exact ⟨same',moment'.trans moment⟩
  ended := by
    intro active ended
    by_cases midActive : mid.status = .active
    · exact clock.trans (second.ended midActive ended)
    · rw [(second.frozen midActive).2]
      exact first.ended active midActive
  revokedAt := by
    intro active
    have midActive : mid.status = .active := by
      by_contra ended
      rw [(second.frozen ended).1] at active
      exact ended active
    exact (second.revokedAt active).trans (first.revokedAt midActive)
  birthVersion := second.birthVersion.trans first.birthVersion
  birthFloor := second.birthFloor.trans first.birthFloor

theorem afterTrans (a b d : Store) (first : After a b) (second : After b d) : After a d where
  clock := first.clock.trans second.clock
  rows := by
    intro sid row found
    obtain ⟨mid,foundMid,rowMid⟩ := first.rows sid row found
    obtain ⟨last,foundLast,rowLast⟩ := second.rows sid mid foundMid
    exact ⟨last,foundLast,rowTrans first.clock rowMid rowLast⟩
  born := by
    intro sid row missing found
    cases mid : b.session sid with
    | none => exact (first.floor _).trans (second.born sid row mid found)
    | some row' =>
      obtain ⟨last,foundLast,rowLast⟩ := second.rows sid row' mid
      cases some.inj (foundLast.symm.trans found)
      rw [rowLast.birthFloor,rowLast.user]
      exact first.born sid row' missing mid
  floor := fun userId => (first.floor userId).trans (second.floor userId)
  users := by
    intro userId user found
    obtain ⟨mid,foundMid,grows⟩ := first.users userId user found
    obtain ⟨last,foundLast,grows'⟩ := second.users userId mid foundMid
    exact ⟨last,foundLast,grows.trans grows'⟩

theorem afterRows (clock : n.clock = s.clock) (keys : n.userKeys = s.userKeys) (users : n.users = s.users)
    (sessions : ∀ sid, n.session sid = (s.session sid).map f)
    (rows : ∀ sid row, s.session sid = some row → RowAfter s n sid row (f row)) : After s n where
  clock := by rw [clock]
  rows := by
    intro sid row found
    exact ⟨f row,by rw [sessions,found]; rfl,rows sid row found⟩
  born := by
    intro sid row missing found
    rw [sessions,missing] at found
    cases found
  floor := fun userId => by unfold Store.committedVersion; rw [keys]
  users := fun userId user found => ⟨user,by rw [users]; exact found,le_refl _⟩

theorem insertKnown (known : s.session row.sid = some old) : (s.insertSession row).1 = s := by
  unfold Store.insertSession
  rw [known]

theorem insertKept (s : Store) (row) : (s.insertSession row).1.userKeys = s.userKeys ∧ (s.insertSession row).1.users = s.users ∧
    (s.insertSession row).1.clock = s.clock := by
  unfold Store.insertSession
  split <;> exact ⟨rfl,rfl,rfl⟩

theorem insertAfter {s row} : After s (s.insertSession row).1 := by
  cases fresh : s.session row.sid with
  | some =>
    rw [insertKnown fresh]
    exact afterRefl s
  | none =>
    have born : (s.insertSession row).1.history = Function.update s.history row.sid
        ⟨0,row.userAuthVersion,s.committedVersion row.userID⟩ := by unfold Store.insertSession; rw [fresh]
    obtain ⟨keys,users,clock⟩ := insertKept s row
    refine ⟨by rw [clock],?_,?_,?_,?_⟩
    · intro sid old found
      have other : row.sid ≠ sid := fun same => by rw [same,found] at fresh; cases fresh
      refine ⟨old,by rw [sessionInsert fresh,if_neg other]; exact found,rowSame ?_ old⟩
      rw [born,Function.update_of_ne (Ne.symm other)]
    · intro sid _ missing found
      rw [sessionInsert fresh] at found
      split at found
      · rename_i same
        cases found
        subst same
        rw [born,Function.update_self]
      · rw [missing] at found
        cases found
    · intro userId
      unfold Store.committedVersion
      rw [keys]
    · intro userId user found
      exact ⟨user,by rw [users]; exact found,le_refl _⟩

theorem revokeAfter (s : Store) (p : UserSession → Bool) (now reason) : After s (s.revokeWhere p now reason).1 := by
  refine afterRows rfl rfl rfl (sessionRevoke s p now reason) (fun sid row found => ?_)
  by_cases hit : (row.status = .active && p row)
  · have moment : (s.revokeWhere p now reason).1.history sid = {s.history sid with ended := s.clock} := by
      simp only [Store.revokeWhere,found,any_some,hit,if_true]
    rw [if_pos hit]
    have active : row.status = .active := by simpa using (Bool.and_eq_true_iff.mp hit).1
    refine ⟨rfl,rfl,le_refl _,le_refl _,fun ended => absurd active ended,fun _ _ => by rw [moment],?_,
      by rw [moment],by rw [moment]⟩
    intro still
    cases still
  · have moment : (s.revokeWhere p now reason).1.history sid = s.history sid := by
      simp only [Store.revokeWhere,found,any_some]
      rw [if_neg hit]
    rw [if_neg hit]
    exact rowSame moment row

theorem updateAfter (stable : ∀ row, (f row).sid = row.sid)
    (each : ∀ row, p row → row.status = .active ∧ (f row).status = .active ∧ (f row).userID = row.userID ∧ (f row).expiresAt = row.expiresAt ∧ row.version ≤ (f row).version ∧ row.userAuthVersion ≤ (f row).userAuthVersion ∧ (f row).revokedAt = row.revokedAt) :
    After s (s.updateSessions p f).1 := by
  refine afterRows rfl rfl rfl (sessionUpdate s p stable) (fun sid row _ => ?_)
  by_cases hit : p row
  · rw [if_pos hit]
    obtain ⟨active,still,user,expires,version,authVersion,revokedAt⟩ := each row hit
    exact ⟨user,expires,version,authVersion,fun ended => absurd active ended,fun _ ended => absurd still ended,
      fun _ => revokedAt,rfl,rfl⟩
  · rw [if_neg hit]
    exact @rowSame s (s.updateSessions p f).1 sid rfl row

theorem keysAfter {keys} (grows : s.committedVersion userId ≤ keys.version.getD 0) :
    After s (s.setKeys userId keys) := by
  refine afterKeys (le_refl _) rfl rfl (fun _ => ?_) (fun _ user found => ⟨user,found,le_refl _⟩)
  unfold Store.committedVersion
  rw [keysSet]
  split
  · rename_i same
    rw [same]
    exact grows
  · exact le_refl _

theorem settlesAfter (settles : Settles s userId incoming n) : After s n := by
  obtain ⟨_,rfl,_⟩ := settles
  refine keysAfter ?_
  have raised := settledVersion s userId incoming
  simp only at raised ⊢
  omega

theorem changeAfter (h : Change config limits s n) : After s n := by
  cases h with
  | tick =>
    exact afterKeys (by simp) rfl rfl (fun _ => le_refl _) (fun _ user found => ⟨user,found,le_refl _⟩)
  | insert => exact insertAfter
  | revoke p now reason => exact revokeAfter s p now reason
  | advance allowed =>
    refine updateAfter (fun _ => rfl) (fun row hit => ?_)
    obtain ⟨active,version,authVersion,_⟩ := allowed row hit
    exact ⟨active,active,rfl,rfl,version,authVersion,rfl⟩
  | rotate allowed =>
    refine updateAfter (fun _ => rfl) (fun row hit => ?_)
    exact ⟨(allowed row hit).1,(allowed row hit).1,rfl,rfl,le_refl _,le_refl _,rfl⟩
  | grant | deny =>
    obtain ⟨cache,same⟩ := writeSessionCache s _ _
    rw [same]
    exact afterKeys (le_refl _) rfl rfl (fun _ => le_refl _) (fun _ user found => ⟨user,found,le_refl _⟩)
  | fence =>
    unfold Store.raiseFence
    split
    · exact keysAfter (le_refl _)
    · exact afterRefl s
  | @commit userId user next allowed stored sameId grows =>
    refine afterKeys (le_refl _) rfl rfl (fun _ => le_refl _) (fun other old found => ?_)
    by_cases same : other = userId
    · subst same
      cases some.inj (stored.symm.trans found)
      exact ⟨next,by simp [Store.setUser],grows⟩
    · exact ⟨old,by simpa [Store.setUser,Function.update_of_ne same] using found,le_refl _⟩
  | @publish userId version committed => exact settlesAfter (settlesKeys s userId version)
  | fill => exact fillKeeps (P := After s) (afterRefl s) (fun _ => settlesAfter)
  | field => exact fieldKeeps (P := After s) (afterRefl s) (fun _ => settlesAfter)
  | drop => exact keysAfter (le_refl _)

theorem unixAfter (after : After s n) : s.unix ≤ n.unix := by
  have := after.clock
  unfold Store.unix
  omega

theorem knownAfter (after : After s n) (known : Known s entry) : Known n entry := by
  obtain ⟨row,found,copies⟩ := known
  obtain ⟨later,foundLater,rowAfter⟩ := after.rows _ row found
  exact ⟨later,foundLater,copies.user.trans rowAfter.user.symm,copies.expires.trans rowAfter.expires.symm,
    copies.version.trans rowAfter.version,copies.authVersion.trans rowAfter.authVersion⟩

variable {config : Config}

theorem freshAfter (after : After s n) (found : s.session sid = some row)
    (fresh : Fresh config s sid deadline) : Fresh config n sid deadline := by
  intro _ foundLater
  obtain ⟨_,foundRow,rowAfter⟩ := after.rows sid row found
  cases some.inj (foundRow.symm.trans foundLater)
  have clock := after.clock
  by_cases active : row.status = .active
  · have bound := (fresh row found).1 active
    exact ⟨fun _ => by omega,fun ended => by have := rowAfter.ended active ended; omega⟩
  obtain ⟨same,_⟩ := rowAfter.frozen active
  have bound := (fresh row found).2 active
  exact ⟨fun still => absurd (same ▸ still) active,fun _ => by omega⟩

theorem committedAfter (after : After s n) (committed : Committed s userId version) :
    Committed n userId version := by
  obtain ⟨user,found,bound⟩ := committed
  obtain ⟨later,foundLater,grows⟩ := after.users userId user found
  exact ⟨later,foundLater,bound.trans grows⟩

theorem announcedAfter (after : After s n) (announced : Announced s userId version) :
    Announced n userId version := by
  obtain ⟨user,found,_⟩ := announced
  obtain ⟨later,foundLater,_⟩ := after.users userId user found
  exact ⟨later,foundLater,by omega⟩

structure SessionInv (s : Store) : Prop where
  unique : (s.sessions.map UserSession.sid).Nodup
  entries : ∀ sid entry last, s.sessionCache sid = some (entry,last) → entry.sid = sid ∧ Known s entry
  ended : ∀ sid row, s.session sid = some row → row.status ≠ .active → (s.history sid).ended ≤ s.clock
  positive : ∀ sid row, s.session sid = some row → 0 < row.version

structure UserInv (config : Config) (s : Store) : Prop where
  versions : ∀ userId version, (s.userKeys userId).version = some version → Committed s userId version
  fences : ∀ userId version last, (s.userKeys userId).fence = some (version,last) →
    Announced s userId version ∧ last ≤ s.clock + fenceTTL config
  hashes : ∀ userId base last, (s.userKeys userId).hash = some (base,last) → Committed s userId base.authVersion
  ids : ∀ userId user, s.users userId = some user → user.id = userId ∧ 0 < userId

structure Inv (config : Config) (s : Store) : Prop where
  sessions : SessionInv s
  users : UserInv config s

theorem sessionInvRows (inv : SessionInv s) (after : After s n) (unique : (n.sessions.map UserSession.sid).Nodup)
    (cache : n.sessionCache = s.sessionCache) (sessions : ∀ sid, n.session sid = (s.session sid).map f)
    (ends : ∀ sid row, s.session sid = some row → row.status = .active → (f row).status ≠ .active →
      (n.history sid).ended ≤ n.clock) : SessionInv n where
  unique := unique
  entries := by
    intro sid entry last stored
    rw [cache] at stored
    obtain ⟨key,known⟩ := inv.entries sid entry last stored
    exact ⟨key,knownAfter after known⟩
  ended := by
    intro sid later found ended
    rw [sessions] at found
    obtain ⟨row,stored,rfl⟩ := map_eq_some_iff.mp found
    by_cases active : row.status = .active
    · exact ends sid row stored active ended
    obtain ⟨_,_,rowAfter⟩ := after.rows sid row stored
    rw [(rowAfter.frozen active).2]
    exact (inv.ended sid row stored active).trans after.clock
  positive := by
    intro sid later found
    obtain ⟨row,stored,_⟩ := map_eq_some_iff.mp ((sessions sid).symm.trans found)
    obtain ⟨_,foundLater,rowAfter⟩ := after.rows sid row stored
    cases some.inj (foundLater.symm.trans found)
    exact (inv.positive sid row stored).trans_le rowAfter.version

theorem sessionInvSame (inv : SessionInv s) (after : After s n) (sessions : n.sessions = s.sessions)
    (cache : n.sessionCache = s.sessionCache) : SessionInv n := by
  refine sessionInvRows (f := id) inv after (by rw [sessions]; exact inv.unique) cache (fun sid => ?_)
    (fun _ _ _ active ended => absurd active ended)
  unfold Store.session
  rw [sessions,Option.map_id_fun,id]

theorem userInvSame (inv : UserInv config s) (after : After s n) (keys : n.userKeys = s.userKeys)
    (ids : ∀ userId user, n.users userId = some user → user.id = userId ∧ 0 < userId) :
    UserInv config n where
  versions := by
    intro userId version stored
    rw [keys] at stored
    exact committedAfter after (inv.versions userId version stored)
  fences := by
    intro userId version last stored
    rw [keys] at stored
    obtain ⟨announced,bound⟩ := inv.fences userId version last stored
    exact ⟨announcedAfter after announced,bound.trans (by have := after.clock; omega)⟩
  hashes := by
    intro userId base last stored
    rw [keys] at stored
    exact committedAfter after (inv.hashes userId base last stored)
  ids := ids

theorem writeSessionStored (h : (s.writeSession entry expiration).1.sessionCache sid = some (stored,last)) :
    s.sessionCache sid = some (stored,last) ∨ sid = entry.sid ∧ stored = entry := by
  unfold Store.writeSession at h
  simp only at h
  split at h
  · exact .inl h
  split at h
  · exact .inl h
  rw [cacheSet] at h
  split at h
  · rename_i same
    split at h
    · split at h
      · cases h
      · cases h; exact .inr ⟨same,rfl⟩
    · cases h; exact .inr ⟨same,rfl⟩
  · exact .inl h

theorem writeSessionInv (inv : SessionInv s) (known : Known s entry) (expiration : Int) :
    SessionInv (s.writeSession entry expiration).1 := by
  have entries : ∀ sid stored last, (s.writeSession entry expiration).1.sessionCache sid = some (stored,last) →
      stored.sid = sid ∧ Known s stored := by
    intro sid stored last h
    rcases writeSessionStored h with old | ⟨same,new⟩
    · exact inv.entries sid stored last old
    · subst same; subst new; exact ⟨rfl,known⟩
  obtain ⟨_,same⟩ := writeSessionCache s entry expiration
  rw [same] at entries ⊢
  exact {inv with entries := entries}

theorem insertInv (inv : SessionInv s) (active : row.status = .active)
    (positive : 0 < row.version) : SessionInv (s.insertSession row).1 := by
  have after : After s (s.insertSession row).1 := insertAfter
  cases fresh : s.session row.sid with
  | some =>
    rw [insertKnown fresh]
    exact inv
  | none =>
    have found := sessionInsert fresh
    unfold Store.insertSession at after found ⊢
    simp only [fresh] at after found ⊢
    refine ⟨?_,?_,?_,?_⟩
    · exact keysAdded inv.unique (lookupNone.mp fresh)
    · intro sid entry last stored
      obtain ⟨key,known⟩ := inv.entries sid entry last stored
      exact ⟨key,knownAfter after known⟩
    · intro sid row' stored ended
      rw [found] at stored
      split at stored
      · cases stored
        exact absurd active ended
      rename_i other
      simp only [Function.update_of_ne (Ne.symm other)]
      exact inv.ended sid row' stored ended
    · intro sid row' stored
      rw [found] at stored
      split at stored
      · cases stored; exact positive
      · exact inv.positive sid row' stored

theorem revokeInv (inv : SessionInv s) (p : UserSession → Bool) (now reason) :
    SessionInv (s.revokeWhere p now reason).1 := by
  refine sessionInvRows inv (revokeAfter s p now reason) ?_ rfl (sessionRevoke s p now reason) ?_
  · show (List.map UserSession.sid (updateWhere _ (Store.revokeRow now reason) s.sessions)).Nodup
    rw [updateKeys (f := Store.revokeRow now reason) (fun _ _ => rfl)]
    exact inv.unique
  intro sid row stored active ended
  simp only [Store.revokeWhere,stored,any_some]
  split
  · exact le_refl _
  rename_i missed
  rw [if_neg missed] at ended
  exact absurd active ended

theorem updateInv (inv : SessionInv s) (stable : ∀ row, (f row).sid = row.sid)
    (after : After s (s.updateSessions p f).1) (active : ∀ row, p row → (f row).status = .active) :
    SessionInv (s.updateSessions p f).1 := by
  refine sessionInvRows inv after ?_ rfl (sessionUpdate s p stable) ?_
  · show (List.map UserSession.sid (updateWhere p f s.sessions)).Nodup
    rw [updateKeys (fun row _ => stable row)]
    exact inv.unique
  intro sid row _ was ended
  split at ended
  · rename_i hit
    exact absurd (active row hit) ended
  · exact absurd was ended

theorem keysInv {keys} (inv : UserInv config s) (version : ∀ v, keys.version = some v → Committed s userId v)
    (fence : ∀ v last, keys.fence = some (v,last) → Announced s userId v ∧ last ≤ s.clock + fenceTTL config)
    (hash : ∀ base last, keys.hash = some (base,last) → Committed s userId base.authVersion) :
    UserInv config (s.setKeys userId keys) where
  versions := by
    intro other v stored
    rw [keysSet] at stored
    split at stored
    · rename_i same; rw [same]; exact version v stored
    · exact inv.versions other v stored
  fences := by
    intro other v last stored
    rw [keysSet] at stored
    split at stored
    · rename_i same; rw [same]; exact fence v last stored
    · exact inv.fences other v last stored
  hashes := by
    intro other base last stored
    rw [keysSet] at stored
    split at stored
    · rename_i same; rw [same]; exact hash base last stored
    · exact inv.hashes other base last stored
  ids := inv.ids

theorem settlesInv (inv : UserInv config s) (committed : Committed s userId incoming)
    (settles : Settles s userId incoming n) : UserInv config n := by
  obtain ⟨_,rfl,written⟩ := settles
  refine keysInv inv ?_ ?_ ?_
  · intro v stored
    simp only [Store.settled,UserKeys.settle] at stored
    split at stored
    · cases stored; exact committed
    · exact inv.versions userId v stored
  · intro v last stored
    simp only [Store.settled,UserKeys.settle] at stored
    split at stored
    · cases stored
    · exact inv.fences userId v last stored
  · intro base last stored
    rcases written base last stored with same | old
    · rw [same]; exact committed
    · exact inv.hashes userId base last old

theorem settledInv (inv : Inv config s) (committed : Committed s userId incoming)
    (settles : Settles s userId incoming n) : Inv config n := by
  have after := settlesAfter settles
  have kept := settlesInv inv.users committed settles
  obtain ⟨_,rfl,_⟩ := settles
  exact ⟨sessionInvSame inv.sessions after rfl rfl,kept⟩

theorem changeInv (inv : Inv config s) (h : Change config limits s n) : Inv config n := by
  have after := changeAfter h
  cases h with
  | tick => exact ⟨sessionInvSame inv.sessions after rfl rfl,userInvSame inv.users after rfl inv.users.ids⟩
  | @insert row active positive =>
    obtain ⟨keys,users,_⟩ := insertKept s row
    exact ⟨insertInv inv.sessions active positive,userInvSame inv.users after keys (by rw [users]; exact inv.users.ids)⟩
  | revoke p now reason => exact ⟨revokeInv inv.sessions p now reason,userInvSame inv.users after rfl inv.users.ids⟩
  | advance allowed | rotate allowed =>
    exact ⟨updateInv inv.sessions (fun _ => rfl) after (fun row hit => (allowed row hit).1),userInvSame inv.users after rfl inv.users.ids⟩
  | @grant entry ttl _ known | @deny entry ttl _ known =>
    have kept := writeSessionInv inv.sessions known ttl
    obtain ⟨cache,same⟩ := writeSessionCache s entry ttl
    exact ⟨kept,userInvSame inv.users after (by rw [same]) (by rw [same]; exact inv.users.ids)⟩
  | @fence userId version announced =>
    unfold Store.raiseFence at after ⊢
    split
    · rename_i raised
      rw [if_pos raised] at after
      refine ⟨sessionInvSame inv.sessions after rfl rfl,keysInv inv.users ?_ ?_ ?_⟩
      · exact fun v stored => inv.users.versions userId v stored
      · intro v last stored
        cases stored
        exact ⟨announced,le_refl _⟩
      · exact fun base last stored => inv.users.hashes userId base last stored
    · exact inv
  | @commit userId user next allowed stored same grows =>
    refine ⟨sessionInvSame inv.sessions after rfl rfl,userInvSame inv.users after rfl (fun other later found => ?_)⟩
    by_cases hit : other = userId
    · subst hit
      simp only [Store.setUser,Function.update_self,Option.some.injEq] at found
      rw [← found]
      exact ⟨same,(inv.users.ids _ user stored).2⟩
    · simp only [Store.setUser,Function.update_of_ne hit] at found
      exact inv.users.ids other later found
  | @publish userId version committed =>
    exact settledInv inv committed (settlesKeys s userId version)
  | fill committed => exact fillKeeps (P := Inv config) inv (fun _ => settledInv inv committed)
  | field committed => exact fieldKeeps (P := Inv config) inv (fun _ => settledInv inv committed)
  | drop userId =>
    refine ⟨sessionInvSame inv.sessions after rfl rfl,keysInv inv.users ?_ ?_ ?_⟩
    · exact fun v stored => inv.users.versions userId v stored
    · exact fun v last stored => inv.users.fences userId v last stored
    · intro base last stored; cases stored

def agreement (config : Config) (limits : Limits) (ok : Option Label → Store → Prop) : Contract Label Store where
  inv := Inv config
  change := Change config limits
  ok := ok
  keeps := fun _ _ inv h => changeInv inv h

theorem relyAfter {config limits ok s n} (inv : Inv config s) (moved : (agreement config limits ok).rely s n) :
    After s n :=
  Contract.relyMono afterRefl afterTrans (fun _ _ _ h => changeAfter h) inv moved

structure Blank (s : Store) : Prop where
  unique : (s.sessions.map UserSession.sid).Nodup
  positive : ∀ row ∈ s.sessions, 0 < row.version
  noEntries : ∀ sid, s.sessionCache sid = none
  noKeys : ∀ userId, s.userKeys userId = ⟨none,none,none⟩
  ids : ∀ userId user, s.users userId = some user → user.id = userId ∧ 0 < userId
  past : ∀ sid, (s.history sid).ended ≤ s.clock

theorem blankInv (config : Config) (blank : Blank s) : Inv config s where
  sessions := by
    refine ⟨blank.unique,?_,fun sid _ _ _ => blank.past sid,?_⟩
    · intro sid _ last stored
      rw [blank.noEntries] at stored
      cases stored
    · intro sid row found
      exact blank.positive row (lookupSound found).1
  users := by
    refine ⟨?_,?_,?_,blank.ids⟩
    · intro userId version stored
      rw [blank.noKeys] at stored
      cases stored
    · intro userId version last stored
      rw [blank.noKeys] at stored
      cases stored
    · intro userId _ last stored
      rw [blank.noKeys] at stored
      cases stored

def tick (s : Store) (n : Nat) : Store := {s with clock := s.clock + n}

theorem tickQuiet (s) (n : Nat) : (agreement config limits ok).rely s (tick s n) :=
  .single (Change.tick n)

def unlimited : Limits := ⟨fun _ _ => True,fun _ _ _ => True,fun _ => True⟩

end Omnigate.Auth
