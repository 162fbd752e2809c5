import Omnigate.AuthChanges

/-! The session programs keep to the agreement, with what each has achieved when it returns. A deny tombstone written
after a session ended outlives every active snapshot that was read before, so that a finished revocation stays in
force. -/
namespace Omnigate.Auth

open Interleave Contract Option

def Ended (s : Store) (sid : String) : Prop := ∃ row, s.session sid = some row ∧ row.status ≠ .active

def horizon (config : Config) (s : Store) (row : UserSession) : Int :=
  min ((s.history row.sid).ended + cacheTTL config) (row.expiresAt * 1000)

structure Silenced (clock limit : Int) (key : Option (UserSessionCacheEntry × Int)) : Prop where
  denies : ∀ entry last, key = some (entry,last) → clock ≤ last → entry.status ≠ .active ∧ limit ≤ last
  past : (∀ entry last, key = some (entry,last) → last < clock) → limit < clock

def Final (config : Config) (s : Store) (sid : String) : Prop :=
  ∃ row, s.session sid = some row ∧ row.status ≠ .active ∧ Silenced s.clock (horizon config s row) (s.sessionCache sid)

variable {clock now userID : Int}

theorem silencedLater (passes : clock ≤ later) (h : Silenced clock limit key) :
    Silenced later limit key where
  denies := fun entry last stored lives => h.denies entry last stored (passes.trans lives)
  past := by
    intro gone
    by_cases over_ : ∀ entry last, key = some (entry,last) → last < clock
    · exact (h.past over_).trans_le passes
    push Not at over_
    obtain ⟨entry,last,stored,lives⟩ := over_
    exact (h.denies entry last stored lives).2.trans_lt (gone entry last stored)

variable {n s : Store} {sid : String}

theorem endedAfter (after : After s n) (ended : Ended s sid) : Ended n sid := by
  obtain ⟨row,found,over_⟩ := ended
  obtain ⟨later,foundLater,rowAfter⟩ := after.rows sid row found
  exact ⟨later,foundLater,by rw [(rowAfter.frozen over_).1]; exact over_⟩

theorem finalKept (after : After s n) (final : Final config s sid)
    (key : n.sessionCache sid = s.sessionCache sid) : Final config n sid := by
  obtain ⟨row,found,over_,silenced⟩ := final
  obtain ⟨later,foundLater,rowAfter⟩ := after.rows sid row found
  obtain ⟨same,moment⟩ := rowAfter.frozen over_
  subst same
  refine ⟨later,foundLater,over_,?_⟩
  have limit : horizon config n later = horizon config s later := by
    unfold horizon
    rw [sessionSid found,moment]
  rw [limit,key]
  exact silencedLater after.clock silenced

theorem liveNone {key : Option (UserSessionCacheEntry × Int)} (h : live clock key = none) :
    ∀ entry last, key = some (entry,last) → last < clock := by
  intro entry last stored
  rw [stored] at h
  unfold live at h
  simp only at h
  split at h
  · assumption
  · cases h

variable {entry : UserSessionCacheEntry}

theorem grantSilenced {expiration limit : Int} (active : entry.status = .active) (bound : expiration ≤ limit)
    (h : Silenced s.clock limit (s.sessionCache entry.sid)) :
    Silenced s.clock limit ((s.writeSession entry expiration).1.sessionCache entry.sid) := by
  cases current : s.cached entry.sid with
  | some stored =>
    obtain ⟨last,key,lives⟩ := liveSome current
    have denied := (h.denies stored last key lives).1
    have refused : s.writeSession entry expiration = (s,false) := by
      unfold Store.writeSession
      simp only [current,Option.any_some]
      rw [if_pos]
      refine ⟨active,?_⟩
      cases status : stored.status with
      | active => exact absurd status denied
      | revoking | revoked => rfl
    rw [refused]
    exact h
  | none =>
    have passed := h.past (liveNone current)
    have dropped : expiration ≤ s.clock := by omega
    unfold Store.writeSession
    simp only [current,Option.any_none,Bool.false_eq_true,and_false,if_false]
    split
    · exact h
    simp only [cacheSet,if_true]
    refine ⟨?_,fun _ => passed⟩
    intro stored last same
    cases same

theorem denySilenced (denied : entry.status ≠ .active) (long : limit ≤ clock + ttl) :
    Silenced clock limit (some (entry,clock + ttl)) where
  denies := by
    intro _ _ same _
    cases same
    exact ⟨denied,long⟩
  past := by
    intro gone
    have := gone entry (clock + ttl) rfl
    omega

theorem denyWrite {s : Store} {entry} (denied : entry.status ≠ .active) (ttl) :
    s.writeSession entry ttl = (s,false) ∧ entry.version < s.cachedVersion entry.sid ∨
    s.writeSession entry ttl = (s.setCache entry.sid (some (entry,s.clock + ttl)),true) := by
  unfold Store.writeSession
  simp only [denied,false_and,if_false]
  split
  · rename_i newer
    exact .inl ⟨rfl,newer⟩
  · exact .inr rfl

theorem horizonBound (config : Config) (inv : SessionInv s)
    (found : s.session sid = some row) (ended : row.status ≠ .active) :
    horizon config s row ≤ min (row.expiresAt * 1000) (s.clock + cacheTTL config) := by
  have moment := inv.ended sid row found ended
  unfold horizon
  rw [sessionSid found]
  omega

theorem denyFinal (inv : SessionInv s) (denied : entry.status ≠ .active)
    (known : Known s entry) (long : min (entry.expiresAt * 1000) (s.clock + cacheTTL config) ≤ s.clock + ttl)
    (ended : Ended s entry.sid) : Final config (s.setCache entry.sid (some (entry,s.clock + ttl))) entry.sid := by
  obtain ⟨row,found,over_⟩ := ended
  obtain ⟨_,found',copies⟩ := known
  cases some.inj (found'.symm.trans found)
  have bound := horizonBound config inv found over_
  have expires := copies.expires
  refine ⟨row,found,over_,?_⟩
  rw [cacheSet,if_pos rfl]
  exact denySilenced denied (by rw [expires] at long; exact bound.trans long)

theorem finalChange {config limits} {s n : Store} {sid} (inv : Inv config s) (h : Change config limits s n)
    (final : Final config s sid) : Final config n sid := by
  have after := changeAfter h
  cases h with
  | @grant entry expiration active known fresh bound =>
    by_cases same : entry.sid = sid
    · obtain ⟨row,found,over_,silenced⟩ := final
      subst same
      have limit : expiration ≤ horizon config s row := by
        obtain ⟨_,found',copies⟩ := known
        cases some.inj (found'.symm.trans found)
        have early := (fresh row found).2 over_
        have expires := copies.expires
        unfold horizon
        rw [sessionSid found]
        omega
      have kept := grantSilenced active limit silenced
      obtain ⟨_,write⟩ := writeSessionCache s entry expiration
      rw [write] at kept ⊢
      exact ⟨row,found,over_,kept⟩
    · exact finalKept after final (writeSessionOther same)
  | @deny entry ttl denied known long =>
    by_cases same : entry.sid = sid
    · subst same
      obtain ⟨row,found,over_,_⟩ := id final
      rcases denyWrite denied ttl with ⟨refused,_⟩ | written
      · rw [refused]; exact final
      · rw [written]; exact denyFinal inv.sessions denied known long ⟨row,found,over_⟩
    · exact finalKept after final (writeSessionOther same)
  | tick | revoke | advance | rotate | commit | publish | drop =>
    exact finalKept after final rfl
  | @insert row active positive => exact finalKept after final (by unfold Store.insertSession; split <;> rfl)
  | fence => exact finalKept after final (by unfold Store.raiseFence; split <;> rfl)
  | @fill user includeQuota ttl committed =>
    refine finalKept after final ?_
    rcases writeUserSettles s user includeQuota ttl with ⟨_,same⟩ | ⟨⟨_,same,_⟩,_⟩ <;> rw [same]
    rfl
  | @field userId field version committed =>
    refine finalKept after final ?_
    rcases writeFieldSettles s userId field version with same | ⟨_,same,_⟩ <;> rw [same]
    rfl

theorem finalStable (config : Config) (limits : Limits) (ok : Option Label → Store → Prop) (sid : String) :
    (agreement config limits ok).Stable (fun s => Final config s sid) :=
  fun _ _ inv h final => finalChange inv h final

section
variable {config : Config} {limits : Limits} {ok : Option Label → Store → Prop}

theorem knownSchema (known : Known s entry) (schema : Int) : Known s {entry with cacheSchema := schema} := by
  obtain ⟨row,found,copies⟩ := known
  exact ⟨row,found,{copies with}⟩

theorem denyLasts (expires) (passed : now ≤ clock) (positive : 0 < cache) :
    min expires (clock + cache) ≤ clock + (if min (expires - now) cache ≤ 0 then 1000 else min (expires - now) cache) := by
  split <;> omega

theorem denySpec {label : Option Label} (inv : Inv config s) (denied : entry.status ≠ .active) (known : Known s entry) :
    (agreement config limits ok).wp (writeUserSessionCache config label entry none)
      (fun r n => (r = .ok () → Ended s entry.sid → Final config n entry.sid) ∧
        (r ≠ .ok () → r = .error .userSessionInactive ∧
          ∃ mid, Inv config mid ∧ After s mid ∧ ok label mid ∧ entry.version < mid.cachedVersion entry.sid)) s := by
  refine wpRead (fun now invNow moved _ => ?_)
  simp only [denied,if_false]
  refine wpLabelled (fun mid invMid moved' allowed => ?_)
  have after := afterTrans _ _ _ (relyAfter inv moved) (relyAfter invNow moved')
  have knownMid := knownSchema (knownAfter after known) userSessionCacheSchema
  have long := denyLasts (entry.expiresAt * 1000) (relyAfter invNow moved').clock (cacheTTLPositive config)
  refine ⟨.single (Change.deny denied knownMid long),fun _ => ?_⟩
  generalize (if min (entry.expiresAt * 1000 - now.clock) (cacheTTL config) ≤ 0 then 1000
    else min (entry.expiresAt * 1000 - now.clock) (cacheTTL config)) = ttl at long ⊢
  rcases @denyWrite mid {entry with cacheSchema := userSessionCacheSchema} denied ttl with ⟨refused,newer⟩ | written
  · rw [refused]
    refine ⟨fun accepted => ?_,fun _ => ⟨rfl,mid,invMid,after,allowed,newer⟩⟩
    cases accepted
  · rw [written]
    exact ⟨fun _ ended => denyFinal invMid.sessions denied knownMid long (endedAfter after ended),fun refused => absurd rfl refused⟩

theorem grantSpec {deadline : Int} (inv : Inv config s) (active : entry.status = .active) (known : Known s entry)
    (fresh : Fresh config s entry.sid deadline) :
    (agreement config limits ok).wp (writeUserSessionCache config none entry (some deadline)) (fun _ _ => True) s := by
  obtain ⟨_,found,_⟩ := id known
  refine wpRead (fun _ invNow moved _ => ?_)
  have bounds : (if entry.expiresAt * 1000 < deadline then entry.expiresAt * 1000 else deadline) ≤ deadline ∧
      (if entry.expiresAt * 1000 < deadline then entry.expiresAt * 1000 else deadline) ≤ entry.expiresAt * 1000 := by
    constructor <;> split <;> omega
  simp only [active,if_true]
  generalize (if entry.expiresAt * 1000 < deadline then entry.expiresAt * 1000 else deadline) = expiration at bounds ⊢
  split
  · trivial
  split
  · trivial
  split
  · trivial
  refine wpLabelled (fun mid _ moved' _ => ?_)
  have after := afterTrans _ _ _ (relyAfter inv moved) (relyAfter invNow moved')
  have freshMid : Fresh config mid entry.sid expiration := fun later foundLater =>
    (freshAfter after found fresh later foundLater).imp (fun early h => bounds.1.trans (early h))
      (fun late h => bounds.1.trans (late h))
  have knownMid := knownSchema (knownAfter after known) userSessionCacheSchema
  rw [active] at knownMid
  refine ⟨.single (Change.grant rfl knownMid freshMid bounds.2),fun _ => ?_⟩
  split
  · trivial
  refine wpRead (fun _ _ _ _ => ?_)
  split
  · trivial
  split <;> trivial

theorem confirmSpec (session) :
    (agreement config limits ok).wp (confirmUserSessionActiveSnapshot session) (fun _ _ => True) s := by
  unfold confirmUserSessionActiveSnapshot
  split
  · trivial
  refine wpRead (fun _ _ _ _ => ?_)
  refine wpRead (fun _ _ _ _ => ?_)
  trivial

theorem wpDeadline {α : Type} {g : Int → Call α} {post}
    (rest : ∀ now, Inv config now → (agreement config limits ok).rely s now →
      (agreement config limits ok).wp (g (now.clock + cacheTTL config)) post now) :
    (agreement config limits ok).wp (userSessionCacheDeadline config >>= g) post s :=
  wpBind.mpr (wpRead (fun now inv moved _ => rest now inv moved))

theorem knownRow (found : s.session sid = some row) : Known s row.cacheEntry := by
  have key : row.cacheEntry.sid = sid := sessionSid found
  exact ⟨row,by rw [key]; exact found,rfl,rfl,le_refl _,le_refl _⟩

theorem freshRead (passed : now ≤ s.clock) (found : s.session sid = some row)
    (active : row.status = .active) : Fresh config s sid (now + cacheTTL config) := by
  intro _ found'
  cases some.inj (found.symm.trans found')
  exact ⟨fun _ => by omega,fun ended => absurd active ended⟩

theorem activeNotEnded {now : Store} (after : After s now) (found : now.session sid = some row)
    (active : row.status = .active) : ¬ Ended s sid := by
  intro ended
  obtain ⟨_,foundLater,over_⟩ := endedAfter after ended
  cases some.inj (foundLater.symm.trans found)
  exact over_ active

structure Got (config : Config) (s n : Store) (sid : String) (session : UserSession) : Prop where
  key : session.sid = sid
  active : session.status = .active
  known : Known n session.cacheEntry
  notFinal : ¬ Final config s sid

theorem cachedSpec (inv : Inv config s) (sid : String) : (agreement config limits ok).wp (getUserSessionCache sid)
      (fun r n => ∀ entry, r = .ok entry → Got config s n sid entry.session) s := by
  refine wpRead (fun now invNow moved _ => ?_)
  cases found : now.cached sid with
  | none => exact failedNone
  | some entry =>
    simp only
    split
    · exact failedNone
    refine wpRead (fun _ _ moved' _ => ?_)
    split
    · exact failedNone
    rename_i valid
    intro entry' same
    cases same
    push Not at valid
    obtain ⟨until_,stored,lives⟩ := liveSome found
    obtain ⟨key,row,foundRow,copies⟩ := invNow.sessions.entries sid entry until_ stored
    refine ⟨key,valid.1,?_,?_⟩
    · exact knownAfter (relyAfter invNow moved') ⟨row,foundRow,{copies with}⟩
    intro final
    obtain ⟨_,_,_,silenced⟩ := (finalStable config limits ok sid).rely inv moved final
    exact (silenced.denies entry until_ stored lives).1 valid.1

theorem loadSpec (inv : Inv config s) (sid : String) : (agreement config limits ok).wp (loadUserSession config sid)
      (fun r n => ∀ session, r = .ok session → Got config s n sid session ∧ ¬ Ended s sid) s := by
  refine wpDeadline (fun _ invNow moved => ?_)
  unfold getUserSessionBySID
  split
  · exact failedNone
  refine wpBind.mpr (wpRead (fun mid invMid moved' _ => ?_))
  cases found : mid.session sid with
  | none => exact failedNone
  | some row =>
    refine wpRead (fun later invLater moved'' _ => ?_)
    have after := afterTrans _ _ _ (relyAfter inv moved) (relyAfter invNow moved')
    have knownLater := knownAfter (relyAfter invMid moved'') (knownRow found)
    split
    · have knownRevoked : Known later {row.cacheEntry with status := .revoked} := by
        obtain ⟨row',found',copies⟩ := knownLater
        exact ⟨row',found',{copies with}⟩
      exact wpThen invLater (denySpec invLater (by simp) knownRevoked) (fun _ _ _ _ _ => failedNone)
    rename_i valid
    push Not at valid
    have fresh : Fresh config later sid _ := freshAfter (relyAfter invMid moved'') found
      (freshRead (relyAfter invNow moved').clock found valid.1)
    have got : ∀ n, After later n → Got config s n sid row ∧ ¬ Ended s sid := by
      intro n afterLater
      have alive := activeNotEnded after found valid.1
      refine ⟨⟨sessionSid found,valid.1,knownAfter afterLater knownLater,?_⟩,alive⟩
      rintro ⟨row',found',over_,_⟩
      exact alive ⟨row',found',over_⟩
    have key : row.cacheEntry.sid = sid := sessionSid found
    refine wpThen invLater (grantSpec invLater valid.1 knownLater (key ▸ fresh)) (fun r n _ invN reached => ?_)
    have afterN := relyAfter invLater reached
    split
    · refine wpThen invN (confirmSpec row) (fun r' last _ _ reached' => ?_)
      cases r' with
      | error => exact failedNone
      | ok =>
        intro session same
        cases same
        exact got last (afterTrans _ _ _ afterN (relyAfter invN reached'))
    · exact failedNone
    · intro session same
      cases same
      exact got n afterN

theorem getSpec (inv : Inv config s) (sid : String) : (agreement config limits ok).wp (getUserSessionCached config sid)
      (fun r n => ∀ session, r = .ok session → Got config s n sid session) s := by
  unfold getUserSessionCached
  split
  · exact failedNone
  refine wpThen inv (cachedSpec inv sid) (fun r n got invN reached => ?_)
  split
  · intro session same
    cases same
    exact got _ rfl
  · exact failedNone
  refine wpMono (loadSpec invN sid) (fun _ _ loaded session same => ?_)
  obtain ⟨⟨key,active,known,_⟩,alive⟩ := loaded session same
  refine ⟨key,active,known,?_⟩
  rintro ⟨row,found,over_,_⟩
  exact alive (endedAfter (relyAfter inv reached) ⟨row,found,over_⟩)

theorem ofUserRow (unique : (s.sessions.map UserSession.sid).Nodup)
    (found : s.sessions.find? (ofUser sid userID) = some row) : s.session sid = some row ∧ row.userID = userID := by
  have hit := List.find?_some found
  simp only [ofUser,Bool.and_eq_true,decide_eq_true_eq] at hit
  have stored := sessionFound unique (List.mem_of_find?_eq_some found)
  rw [hit.1] at stored
  exact ⟨stored,hit.2⟩

theorem findRow (inv : Inv config s) (found : s.sessions.find? (ofUser sid userID) = some row) :
    s.session sid = some row ∧ row.userID = userID :=
  ofUserRow inv.sessions.unique found

theorem knownDenied {session : UserSession} (known : Known s session.cacheEntry) (status revokedAt reason) :
    Known s {session.cacheEntry with status := status, revokedAt := revokedAt, revokedReason := reason} := by
  obtain ⟨row,found,copies⟩ := known
  exact ⟨row,found,{copies with}⟩

theorem fenceSpec {session : UserSession} (inv : Inv config s) (known : Known s session.cacheEntry) (now reason) :
    (agreement config limits ok).wp (writeUserSessionDenyFence config session .revoking now reason)
      (fun r _ => r ≠ .ok () → r = .error .userSessionInactive ∧
        ∃ mid, Inv config mid ∧ After s mid ∧ ok none mid ∧ session.version < mid.cachedVersion session.sid) s := by
  have denied : SessionStatus.revoking ≠ .active := by simp
  exact wpMono (denySpec inv denied (knownDenied known _ now reason)) (fun _ _ done => done.2)

theorem tombstoneSpec {session : UserSession} (inv : Inv config s)
    (known : Known s session.cacheEntry) (now reason) :
    (agreement config limits ok).wp (writeUserSessionCache config label (Store.revokeRow now reason session).cacheEntry none)
      (fun r n => (r = .ok () → Ended s session.sid → Final config n session.sid) ∧
        (r ≠ .ok () → r = .error .userSessionInactive ∧
          ∃ mid, Inv config mid ∧ After s mid ∧ ok label mid ∧ session.version < mid.cachedVersion session.sid)) s := by
  have denied : SessionStatus.revoked ≠ .active := by simp
  exact denySpec inv denied (knownDenied known _ now reason)

theorem revokeEnds (found : s.session sid = some row)
    (covered : row.status = .active → p row) (now reason) : Ended (s.revokeWhere p now reason).1 sid := by
  by_cases active : row.status = .active
  · refine ⟨Store.revokeRow now reason row,?_,by simp [Store.revokeRow]⟩
    rw [sessionRevoke,found]
    simp [active,covered active]
  · exact endedAfter (revokeAfter s p now reason) ⟨row,found,active⟩

def Outrun (config : Config) (s : Store) (sid : String) (version : Int) : Prop :=
  ∃ mid, Inv config mid ∧ After s mid ∧ version < mid.cachedVersion sid

theorem reuseSpec (inv : Inv config s) (known : Known s session.cacheEntry) (found : s.session session.sid = some row)
    (alive : row.status = .active → row.revokedAt = 0) (unexpired_ : now < session.expiresAt) :
    (agreement config limits ok).wp (revokeReused config session now)
      (fun r n => (r = .failed .userSessionRefreshReuse → Ended n session.sid) ∧
        (Ended n session.sid ∨ Outrun config s session.sid session.version)) s := by
  refine wpThen inv (fenceSpec inv known now _) (fun r n fenced invN reached => ?_)
  cases r with
  | error =>
    obtain ⟨refused,mid,invMid,after,_,newer⟩ := fenced (by simp)
    refine ⟨?_,.inr ⟨mid,invMid,after,newer⟩⟩
    intro same
    cases refused
    cases same
  | ok =>
    refine wpAtomic (fun mid invMid moved _ => ⟨.single (Change.revoke _ _ _),fun invLast => ?_⟩)
    have after := afterTrans _ _ _ (relyAfter inv reached) (relyAfter invN moved)
    obtain ⟨later,foundLater,rowAfter⟩ := after.rows _ row found
    obtain ⟨_,found',copies⟩ := id known
    cases some.inj (found'.symm.trans found)
    have expires : session.expiresAt = row.expiresAt := copies.expires
    have user : session.userID = row.userID := copies.user
    have ended : Ended (mid.revokeWhere (fun row => ofUser session.sid session.userID row && unexpired now row) now
        "refresh_reuse").1 session.sid := by
      refine revokeEnds foundLater (fun active => ?_) now "refresh_reuse"
      have zero : later.revokedAt = 0 := by
        rw [rowAfter.revokedAt active]
        refine alive ?_
        by_contra over_
        rw [(rowAfter.frozen over_).1] at active
        exact over_ active
      simp [ofUser,unexpired,sessionSid foundLater,rowAfter.user,user,active,zero,rowAfter.expires,← expires,unexpired_]
    split
    · exact ⟨fun _ => ended,.inl ended⟩
    refine wpThen invLast (tombstoneSpec invLast
      (knownAfter (revokeAfter mid _ now "refresh_reuse") (knownAfter after known)) now _) (fun _ _ _ _ reached' => ?_)
    have kept := endedAfter (relyAfter invLast reached') ended
    exact ⟨fun _ => kept,.inl kept⟩

def Alive (s : Store) (sid : String) (now : Int) : Prop :=
  ∀ row, s.session sid = some row → row.status = .active ∧ now < row.expiresAt

theorem aliveBefore (after : After s n) (alive : Alive n sid now) : Alive s sid now := by
  intro row found
  obtain ⟨later,foundLater,rowAfter⟩ := after.rows sid row found
  obtain ⟨active,expires⟩ := alive later foundLater
  rw [rowAfter.expires] at expires
  refine ⟨?_,expires⟩
  by_contra over_
  rw [(rowAfter.frozen over_).1] at active
  exact over_ active

structure RotationPost (s n : Store) (sid : String) (now : Int) (r : Rotation) : Prop where
  alive : ∀ session, r = .rotated session ∨ r = .raced session → Alive s sid now
  reused : r = .failed .userSessionRefreshReuse → Ended n sid

theorem rotationFailed (other : err ≠ .userSessionRefreshReuse) :
    RotationPost s n sid now (.failed err) where
  alive := by
    intro _ same
    rcases same with same | same <;> cases same
  reused := by
    intro same
    cases same
    exact absurd rfl other

theorem rotationWon (alive : Alive s sid now) :
    RotationPost s n sid now (.rotated session) where
  alive := fun _ _ => alive
  reused := by
    intro same
    cases same

theorem confirmErrors (session) :
    (agreement config limits ok).wp (confirmUserSessionActiveSnapshot session)
      (fun r _ => ∀ err, r = .error err → err ≠ .userSessionRefreshReuse) s := by
  unfold confirmUserSessionActiveSnapshot
  split
  · intro err same; cases same; simp
  refine wpRead (fun _ _ _ _ => ?_)
  refine wpRead (fun _ _ _ _ => ?_)
  intro err same
  split at same
  · cases same; simp
  · cases same

theorem rotateAttemptsSpec {presentedHash nextHash : String} {graceSeconds}
    (allowed : limits.rotate sid presentedHash nextHash) (attempts : Nat) (inv : Inv config s) :
    (agreement config limits ok).wp (rotateAttempts config userID sid presentedHash nextHash now graceSeconds attempts)
      (fun r n => RotationPost s n sid now r) s := by
  induction attempts generalizing s with
  | zero => exact rotationFailed (by simp)
  | succ attempts ih =>
    refine wpDeadline (fun _ invFirst moved => ?_)
    refine wpRead (fun mid invMid moved' _ => ?_)
    have after := afterTrans _ _ _ (relyAfter inv moved) (relyAfter invFirst moved')
    cases read : mid.sessions.find? (ofUser sid userID) with
    | none => exact rotationFailed (by simp)
    | some session =>
      obtain ⟨found,user⟩ := findRow invMid read
      have key : session.sid = sid := sessionSid found
      have known := knownRow found
      simp only
      split
      · exact rotationFailed (by simp)
      rename_i valid
      push Not at valid
      have alive : Alive s sid now := aliveBefore after (fun row found' => by
        cases some.inj (found.symm.trans found')
        exact ⟨valid.1,valid.2.2⟩)
      split
      · rename_i presented
        refine wpLabelled (fun swap _ swapped _ => ⟨.single (Change.rotate ?_),fun invNext => ?_⟩)
        · intro row hit
          simp only [ofUser,unexpired,Bool.and_eq_true,decide_eq_true_eq] at hit
          obtain ⟨⟨⟨sidRow,_⟩,⟨active,_⟩,_⟩,digest⟩ := hit
          refine ⟨active,digest.trans presented.symm,?_⟩
          rw [sidRow,presented]
          exact allowed
        have afterSwap := updateAfter (s := swap) (p := fun row => ofUser sid userID row && unexpired now row &&
            row.refreshHash = presentedHash) (f := Store.rotateRow session.refreshHash nextHash (now + graceSeconds) now)
          (fun _ => rfl) (fun row hit => by
            simp only [unexpired,Bool.and_eq_true,decide_eq_true_eq] at hit
            exact ⟨hit.1.2.1.1,hit.1.2.1.1,rfl,rfl,le_refl _,le_refl _,rfl⟩)
        generalize swap.updateSessions (fun row => ofUser sid userID row && unexpired now row &&
          row.refreshHash = presentedHash) (Store.rotateRow session.refreshHash nextHash (now + graceSeconds) now) = next
          at afterSwap invNext ⊢
        replace afterSwap := afterTrans _ _ _ (relyAfter invMid swapped) afterSwap
        split
        · refine wpMono (ih invNext) (fun r n done => ?_)
          exact ⟨fun session' same => aliveBefore (afterTrans _ _ _ after afterSwap) (done.alive session' same),done.reused⟩
        have knownNext : Known next.1 (Store.rotateRow session.refreshHash nextHash (now + graceSeconds) now session).cacheEntry := by
          obtain ⟨row,found',copies⟩ := knownAfter afterSwap known
          exact ⟨row,found',{copies with}⟩
        have fresh : Fresh config next.1 sid _ := freshAfter afterSwap found
          (freshRead (relyAfter invFirst moved').clock found valid.1)
        refine wpThen invNext (grantSpec invNext valid.1 knownNext (by rw [← key] at fresh; exact fresh))
          (fun r n _ invN _ => ?_)
        split
        · refine wpThen invN (confirmErrors _) (fun r' _ errors _ _ => ?_)
          cases r' with
          | error err => exact rotationFailed (errors err rfl)
          | ok => exact rotationWon alive
        · exact rotationFailed (by simp)
        · exact rotationWon alive
      split
      · exact rotationFailed (by simp)
      split
      · refine ⟨fun _ _ => alive,?_⟩
        intro same
        cases same
      · refine wpMono (reuseSpec invMid known (key.symm ▸ found) (fun _ => valid.2.1) valid.2.2)
          (fun r n done => ⟨fun session' same => ?_,fun same => key ▸ done.1 same⟩)
        exact alive

theorem rotateSpec (allowed : limits.rotate sid presentedHash nextHash) (inv : Inv config s) :
    (agreement config limits ok).wp (rotateUserSessionRefresh config userID sid presentedHash nextHash now graceSeconds)
      (fun r n => ∃ used, (used = now ∨ s.unix ≤ used) ∧ RotationPost s n sid used r) s := by
  unfold rotateUserSessionRefresh
  split
  · exact ⟨now,.inl rfl,rotationFailed (by simp)⟩
  refine wpRead (fun first invFirst moved _ => ?_)
  refine wpMono (rotateAttemptsSpec allowed 3 invFirst) (fun r n done => ?_)
  refine ⟨if now ≤ 0 then first.unix else now,?_,?_,done.reused⟩
  · split
    · exact .inr (unixAfter (relyAfter inv moved))
    · exact .inl rfl
  · exact fun session same => aliveBefore (relyAfter inv moved) (done.alive session same)

theorem insertCases {s : Store} {row} : (s.insertSession row).1 = s ∧ (s.insertSession row).2 = false ∨
    (s.insertSession row).1.session row.sid = some row ∧
      (s.insertSession row).1.history row.sid = ⟨0,row.userAuthVersion,s.committedVersion row.userID⟩ := by
  cases fresh : s.session row.sid with
  | some => exact .inl (by unfold Store.insertSession; rw [fresh]; exact ⟨rfl,rfl⟩)
  | none =>
    refine .inr ⟨by rw [sessionInsert fresh,if_pos rfl],?_⟩
    unfold Store.insertSession
    rw [fresh]
    exact Function.update_self _ _ _

def Created (n : Store) (session : UserSession) : Prop :=
  ∃ row, n.session session.sid = some row ∧ row.userID = session.userID ∧
    (n.history session.sid).birthVersion = session.userAuthVersion

theorem createdAfter (after : After s n) (created : Created s session) :
    Created n session := by
  obtain ⟨row,found,user,version⟩ := created
  obtain ⟨later,foundLater,rowAfter⟩ := after.rows _ row found
  exact ⟨later,foundLater,rowAfter.user.trans user,rowAfter.birthVersion.trans version⟩

theorem createSpec {session : UserSession} : (agreement config limits ok).wp (createUserSession config session)
      (fun r n => ∀ created, r = .ok created → created.sid = session.sid ∧ created.userID = session.userID ∧
        created.userAuthVersion = session.userAuthVersion ∧ Created n session) s := by
  refine wpRead (fun first _ _ _ => ?_)
  split
  · exact failedNone
  rename_i valid
  push Not at valid
  generalize same : ({session with
      version := if session.version ≤ 0 then 1 else session.version
      lastActiveAt := if session.lastActiveAt = 0 then first.unix else session.lastActiveAt
      createdAt := if session.createdAt = 0 then first.unix else session.createdAt } : UserSession) = row
  have active : row.status = .active := by subst same; exact valid.2.2.2.2.2.1
  have positive : 0 < row.version := by
    subst same
    show 0 < if session.version ≤ 0 then 1 else session.version
    split <;> omega
  have key : row.sid = session.sid := by subst same; rfl
  refine wpDeadline (fun _ invSecond _ => ?_)
  refine wpAtomic (fun lock _ moved'' _ => ⟨.single (Change.insert active positive),fun invNext => ?_⟩)
  have clock := (relyAfter invSecond moved'').clock
  have lastClock := (@insertAfter lock row).clock
  rcases @insertCases lock row with ⟨unchanged,refused⟩ | ⟨found,born⟩
  · rw [unchanged,refused]
    intro created answer
    cases answer
  have created : Created (lock.insertSession row).1 session := by
    refine ⟨row,key ▸ found,by subst same; rfl,?_⟩
    rw [← key,born]
    subst same
    rfl
  generalize lock.insertSession row = next at invNext found created lastClock ⊢
  split
  · intro created' answer; cases answer
  have answered : ∀ n, After next.1 n → ∀ created', (Except.ok row : Except AuthError UserSession) = .ok created' →
      created'.sid = session.sid ∧ created'.userID = session.userID ∧
      created'.userAuthVersion = session.userAuthVersion ∧ Created n session := by
    intro n after created' answer
    cases answer
    exact ⟨key,by subst same; rfl,by subst same; rfl,createdAfter after created⟩
  refine wpThen invNext (grantSpec invNext active (knownRow found) (freshRead (clock.trans lastClock) found active))
    (fun r n _ invN reached => ?_)
  have after := relyAfter invNext reached
  split
  · refine wpThen invN (confirmSpec row) (fun r' last _ _ reached' => ?_)
    cases r' with
    | error => intro created' answer; cases answer
    | ok => exact answered last (afterTrans _ _ _ after (relyAfter invN reached'))
  · intro created' answer; cases answer
  · exact answered n after

end

end Omnigate.Auth
