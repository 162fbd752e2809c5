import Omnigate.RefreshChain

/-! Refresh calls on a session whose user is enabled with the session's auth version. Their lookups only ever see that
user and copies of that session, and a deny entry in the cache means that the session is over or about to be revoked
by some call. -/
namespace Omnigate.Auth

open Interleave Machine List Duty Option

structure Seat where
  sid : String
  user : User
  (version expiresAt : Int)
  enabled : user.status = userStatusEnabled
  present : user.deleted = false
  idPositive : 0 < user.id
  authPositive : 0 < user.authVersion
  positive : 0 < version

structure Seat.Copy (seat : Seat) (entry : UserSessionCacheEntry) : Prop where
  user : entry.userID = seat.user.id
  authVersion : entry.userAuthVersion = seat.user.authVersion
  version : entry.version = seat.version
  expires : entry.expiresAt = seat.expiresAt
  clean : entry.status = .active → entry.revokedAt = 0

structure Settled (seat : Seat) (s : Store) : Prop where
  unique : (s.sessions.map UserSession.sid).Nodup
  row : ∃ row, s.session seat.sid = some row ∧ seat.Copy row.cacheEntry
  entries : ∀ entry last, s.sessionCache seat.sid = some (entry,last) → seat.Copy entry
  user : s.users seat.user.id = some seat.user
  ids : ∀ userId user, s.users userId = some user → user.id = userId
  hash : ∀ base last, (s.userKeys seat.user.id).hash = some (base,last) →
    base.status = userStatusEnabled ∧ base.authVersion = seat.user.authVersion
  version : ∀ version, (s.userKeys seat.user.id).version = some version → version ≤ seat.user.authVersion
  fence : (s.userKeys seat.user.id).fence = none

def Denied (seat : Seat) (s : Store) : Prop := ∃ entry, s.cached seat.sid = some entry ∧ entry.status ≠ .active

def Dead (seat : Seat) (s : Store) : Prop := Ended s seat.sid ∨ seat.expiresAt ≤ s.unix

def Ends (seat : Seat) (act : Store → Store) : Prop := ∀ s, Settled seat s → Ended (act s) seat.sid

structure Later (seat : Seat) (s n : Store) : Prop where
  clock : s.clock ≤ n.clock
  ended : Ended s seat.sid → Ended n seat.sid

variable {s : Store}

theorem laterDead (later : Later seat s n) (dead : Dead seat s) : Dead seat n := by
  rcases dead with ended | expired
  · exact .inl (later.ended ended)
  have passed := later.clock
  refine .inr ?_
  unfold Store.unix at expired ⊢
  omega

/- A call keeps the seat settled. It denies the session only where that is over, or right before the call that ends
it. -/
structure Serves (seat : Seat) (free : Prop) (s n : Store) (next : Option (Store → Store)) : Prop where
  settled : Settled seat n
  later : Later seat s n
  denied : Denied seat n → Denied seat s ∨ Dead seat n ∨ ∃ act, next = some act ∧ Ends seat act
  row : n.session seat.sid = s.session seat.sid ∨ free

def seatDuty (seat : Seat) (free : Prop) (holds : Store → Prop) (settled : ∀ s, holds s → Settled seat s) :
    Duty Label Store where
  later := Later seat
  holds := holds
  does := fun _ s n next => Serves seat free s n next
  refl := fun _ => ⟨le_refl _,id⟩
  trans := fun _ _ _ first second => ⟨first.clock.trans second.clock,fun ended => second.ended (first.ended ended)⟩
  moves := fun _ _ _ _ serves => serves.later
  whatever := by
    intro label s n next serves
    refine ⟨serves.settled,serves.later,fun denied => ?_,serves.row⟩
    rcases serves.denied denied with before | dead | ⟨act,none_,_⟩
    · exact .inl before
    · exact .inr (.inl dead)
    · cases none_
  still := fun s now => ⟨settled s now,⟨le_refl _,id⟩,.inl,.inl rfl⟩

theorem writeSessionSettled {seat s entry expiration}
    (settled : Settled seat s) (copy : entry.sid = seat.sid → seat.Copy entry) :
    Settled seat (s.writeSession entry expiration).1 := by
  obtain ⟨_,same⟩ := writeSessionCache s entry expiration
  have entries : ∀ entry' last, (s.writeSession entry expiration).1.sessionCache seat.sid = some (entry',last) →
      seat.Copy entry' := by
    intro entry' last stored
    rcases writeSessionStored stored with old | ⟨own,rfl⟩
    · exact settled.entries entry' last old
    · exact copy own.symm
  rw [same] at entries ⊢
  exact {settled with entries := entries}

variable {next : Option (Store → Store)}

theorem writeSessionServes {free : Prop} {entry expiration}
    (settled : Settled seat s) (copy : entry.sid = seat.sid → seat.Copy entry)
    (fair : entry.status ≠ .active → entry.sid = seat.sid → Dead seat s ∨ ∃ act, next = some act ∧ Ends seat act) :
    Serves seat free s (s.writeSession entry expiration).1 next := by
  have kept := @writeSessionSettled seat s entry expiration settled copy
  obtain ⟨_,same⟩ := writeSessionCache s entry expiration
  have later : Later seat s (s.writeSession entry expiration).1 := by
    rw [same]
    exact ⟨le_refl _,id⟩
  refine ⟨kept,later,?_,.inl (by rw [same]; rfl)⟩
  rintro ⟨found,live_,denied⟩
  have clock : (s.writeSession entry expiration).1.clock = s.clock := by rw [same]
  obtain ⟨last,stored,lives⟩ := liveSome live_
  rcases writeSessionStored stored with old | ⟨own,rfl⟩
  · refine .inl ⟨found,?_,denied⟩
    unfold Store.cached live
    rw [old]
    exact if_neg (by omega)
  rcases fair denied own.symm with dead | ending
  · exact .inr (.inl (laterDead later dead))
  · exact .inr (.inr ending)

theorem keysServe {free : Prop} {userId keys} (settled : Settled seat s)
    (fits : userId = seat.user.id → keys.fence = none ∧ (∀ version, keys.version = some version → version ≤ seat.user.authVersion) ∧ ∀ base last, keys.hash = some (base,last) → base.status = userStatusEnabled ∧ base.authVersion = seat.user.authVersion) :
    Serves seat free s (s.setKeys userId keys) next := by
  have at_ := keysSet s userId seat.user.id keys
  refine ⟨⟨settled.unique,settled.row,settled.entries,settled.user,settled.ids,?_,?_,?_⟩,⟨le_refl _,id⟩,.inl,.inl rfl⟩
  · intro base last stored
    rw [at_] at stored
    split at stored
    · rename_i same; exact (fits same.symm).2.2 base last stored
    · exact settled.hash base last stored
  · intro version stored
    rw [at_] at stored
    split at stored
    · rename_i same; exact (fits same.symm).2.1 version stored
    · exact settled.version version stored
  · rw [at_]
    split
    · rename_i same; exact (fits same.symm).1
    · exact settled.fence

theorem writeUserServes {free : Prop} {user includeQuota ttl} (settled : Settled seat s)
    (agree : user.id = seat.user.id → user.status = userStatusEnabled ∧ user.authVersion = seat.user.authVersion) :
    Serves seat free s (s.writeUser user includeQuota ttl).1 next := by
  have same : Serves seat free s s next := ⟨settled,⟨le_refl _,id⟩,.inl,.inl rfl⟩
  have settle : ∀ hash, (user.id = seat.user.id → ∀ base last, hash = some (base,last) →
      base.status = userStatusEnabled ∧ base.authVersion = seat.user.authVersion) →
      Serves seat free s (s.setKeys user.id {s.settled user.id user.authVersion with hash := hash}) next := by
    intro hash fits
    refine keysServe settled (fun own => ⟨?_,fun version stored => ?_,fits own⟩)
    · simp only [Store.settled,UserKeys.settle]
      split
      · rfl
      · rw [own]; exact settled.fence
    simp only [Store.settled,UserKeys.settle] at stored
    split at stored
    · cases stored
      exact le_of_eq (agree own).2
    · rw [own] at stored
      exact settled.version version stored
  unfold Store.writeUser
  split
  · exact same
  split
  · refine settle _ (fun own base last stored => ?_)
    cases stored
    exact agree own
  split
  · refine settle _ (fun own base last stored => ?_)
    cases stored
    exact agree own
  · refine settle (s.userKeys user.id).hash (fun own base last stored => ?_)
    rw [own] at stored
    exact settled.hash base last stored

theorem rowsServe {free : Prop} {p f history} (settled : Settled seat s) (stable : ∀ row, (f row).sid = row.sid)
    (copies : ∀ row, seat.Copy row.cacheEntry → seat.Copy (f row).cacheEntry)
    (ends : ∀ row, row.status ≠ .active → (f row).status ≠ .active)
    (alone : (∀ row, s.session seat.sid = some row → p row = false) ∨ free) :
    Serves seat free s {s with sessions := Table.updateWhere p f s.sessions, history := history} next := by
  obtain ⟨row,found,copy⟩ := settled.row
  have found' := sessionUpdate s p stable seat.sid
  rw [found,map_some] at found'
  refine ⟨⟨?_,⟨_,found',?_⟩,settled.entries,settled.user,settled.ids,settled.hash,settled.version,settled.fence⟩,
    ⟨le_refl _,?_⟩,.inl,?_⟩
  · rw [Table.updateKeys (fun row _ => stable row)]
    exact settled.unique
  · split
    · exact copies row copy
    · exact copy
  · rintro ⟨_,stored,over_⟩
    cases some.inj (found.symm.trans stored)
    refine ⟨_,found',?_⟩
    split
    · exact ends row over_
    · exact over_
  · rcases alone with none_ | free_
    · rw [none_ row found] at found'
      exact .inl (found'.trans found.symm)
    · exact .inr free_

theorem revokeServes {free : Prop} {p now reason}
    (settled : Settled seat s) (alone : (∀ row, s.session seat.sid = some row → p row = false) ∨ free) :
    Serves seat free s (s.revokeWhere p now reason).1 next := by
  refine rowsServe settled (fun _ => rfl) (fun row copy => ?_) (fun _ _ active => by cases active) ?_
  · exact {copy with clean := fun active => by cases active}
  rcases alone with none_ | free_
  · exact .inl (fun row found => by rw [none_ row found,Bool.and_false])
  · exact .inr free_

theorem rotateServes {free : Prop} {p previous digest last now} (settled : Settled seat s)
    (alone : (∀ row, s.session seat.sid = some row → p row = false) ∨ free) :
    Serves seat free s (s.updateSessions p (Store.rotateRow previous digest last now)).1 next :=
  rowsServe settled (fun _ => rfl)
    (fun _ copy => {copy with}) (fun _ over_ => over_) alone

theorem denyThen {d : Duty Label Store} {α : Type} {label entry} {f : Except AuthError Unit → Call α} {post : α → Store → Prop}
    (denied : entry.status ≠ .active)
    (rest : ∀ (ttl : Int) now, d.later s now → d.holds now →
      let written := now.writeSession {entry with cacheSchema := userSessionCacheSchema} ttl
      let rest := f (if written.2 then .ok () else .error .userSessionInactive)
      d.does label now written.1 rest.head ∧ d.each rest post written.1) :
    d.each (writeUserSessionCache config label entry none >>= f) post s := by
  intro clock moved holds
  refine ⟨d.whatever _ _ _ _ (d.still clock holds),?_⟩
  simp only [if_neg denied]
  intro now moved' holds'
  exact rest _ now (d.trans _ _ _ moved moved') holds'

structure Sure (seat : Seat) (row : UserSession) (s : Store) : Prop where
  row : s.session seat.sid = some row
  undenied : ¬ Denied seat s
  unexpired : s.unix < seat.expiresAt

theorem copyStamped {seat : Seat} (copy : seat.Copy entry) : seat.Copy {entry with cacheSchema := userSessionCacheSchema} :=
  {copy with}

theorem cachedVersionSettled (settled : Settled seat s) : s.cachedVersion seat.sid ≤ seat.version := by
  unfold Store.cachedVersion
  cases found : s.cached seat.sid with
  | none => exact le_of_lt seat.positive
  | some entry =>
    obtain ⟨last,stored,_⟩ := liveSome found
    exact le_of_eq (settled.entries entry last stored).version

theorem writeAccepted {seat s entry expiration}
    (settled : Settled seat s) (own : entry.sid = seat.sid) (copy : seat.Copy entry)
    (open_ : entry.status = .active → ¬ Denied seat s) : (s.writeSession entry expiration).2 = true := by
  have version := cachedVersionSettled settled
  unfold Store.writeSession
  simp only
  split
  · rename_i refused
    obtain ⟨active,denies⟩ := refused
    refine absurd ?_ (open_ active)
    rw [own] at denies
    obtain ⟨current,found,status⟩ := (any_eq_true _ _).mp denies
    refine ⟨current,found,fun still => ?_⟩
    rw [still] at status
    cases status
  split
  · rename_i newer
    rw [own,copy.version] at newer
    omega
  · rfl

theorem committedSettled (settled : Settled seat s) :
    s.pending seat.user.id = 0 ∧ s.committedVersion seat.user.id ≤ seat.user.authVersion := by
  unfold Store.pending Store.committedVersion
  rw [settled.fence]
  refine ⟨rfl,?_⟩
  cases stored : (s.userKeys seat.user.id).version with
  | none => exact le_of_lt seat.authPositive
  | some version => exact settled.version version stored

section
variable {config : Config} {seat : Seat} {free certain : Prop} {holds : Store → Prop}
  {settled : ∀ s, holds s → Settled seat s} {row₀ : UserSession}

theorem grantServes (active : entry.status = .active)
    (copy : entry.sid = seat.sid → seat.Copy entry) (sure : certain → ∀ s, holds s → Sure seat row₀ s) :
    (seatDuty seat free holds settled).each (writeUserSessionCache config label entry (some deadline))
      (fun r _ => certain → entry.sid = seat.sid → r ≠ .error .userSessionInactive) s := by
  have unexpired_ : ∀ now, holds now → certain → entry.sid = seat.sid → ¬ entry.expiresAt * 1000 ≤ now.clock := by
    intro now holdsNow certain_ own passed
    have before := (sure certain_ now holdsNow).unexpired
    rw [(copy own).expires] at passed
    unfold Store.unix at before
    omega
  refine eachRead (fun clocked _ holdsClock => ?_)
  simp only [if_pos active]
  split
  · intro _ _ same; cases same
  split
  · rename_i passed
    exact fun certain_ own => absurd (by omega) (unexpired_ clocked holdsClock certain_ own)
  generalize (if entry.expiresAt * 1000 < deadline then entry.expiresAt * 1000 else deadline) = cacheExpiresAt
  split
  · intro _ _ same; cases same
  refine eachLabelled (fun now _ holdsNow => ⟨?_,?_⟩)
  · exact writeSessionServes (settled now holdsNow) (fun own => copyStamped (copy own)) (fun denied => absurd active denied)
  split
  · rename_i refused
    intro certain_ own
    have accepted := @writeAccepted seat now {entry with cacheSchema := userSessionCacheSchema} cacheExpiresAt
      (settled now holdsNow) own (copyStamped (copy own)) (fun _ => (sure certain_ now holdsNow).undenied)
    rw [accepted] at refused
    cases refused
  refine eachRead (fun last _ holdsLast => ?_)
  split
  · intro _ _ same; cases same
  split
  · rename_i passed
    exact fun certain_ own => absurd passed (unexpired_ last holdsLast certain_ own)
  · intro _ _ same; cases same

theorem countOne {s : Store} {row p}
    (unique : (s.sessions.map UserSession.sid).Nodup) (found : s.session row.sid = some row) (hit : p row)
    (only : ∀ other, p other → other.sid = row.sid) : (s.sessions.filter p).length = 1 := by
  have each : ∀ other ∈ s.sessions.filter p, other = row := by
    intro other member
    obtain ⟨stored,holds⟩ := mem_filter.mp member
    have same := sessionFound unique stored
    rw [only other holds,found] at same
    exact (some.inj same).symm
  have nodup : (s.sessions.filter p).Nodup := (List.Nodup.of_map _ unique).filter _
  have member : row ∈ s.sessions.filter p := mem_filter.mpr ⟨(Table.lookupSound found).1,hit⟩
  have repeated := eq_replicate_of_mem each
  rw [repeated,nodup_replicate] at nodup
  have positive := length_pos_of_mem member
  omega

theorem confirmServes {session : UserSession} (copy : session.sid = seat.sid → seat.Copy session.cacheEntry)
    (sure : certain → ∀ s, holds s → Sure seat row₀ s) (alive : certain → row₀.status = .active) :
    (seatDuty seat free holds settled).each (confirmUserSessionActiveSnapshot session)
      (fun r _ => certain → session.sid = seat.sid → seat.sid ≠ "" → r = .ok ()) s := by
  unfold confirmUserSessionActiveSnapshot
  split
  · rename_i invalid
    intro _ own named
    have user : session.userID = seat.user.id := (copy own).user
    have authVersion : session.userAuthVersion = seat.user.authVersion := (copy own).authVersion
    have version : session.version = seat.version := (copy own).version
    have := seat.idPositive
    have := seat.authPositive
    have := seat.positive
    rcases invalid with empty | _ | _ | _
    · exact absurd (own.symm.trans empty) named
    · omega
    · omega
    · omega
  refine eachRead (fun clocked _ holdsClock => ?_)
  refine eachRead (fun now _ holdsNow => ?_)
  intro certain_ own _
  have here := (sure certain_ now holdsNow).row
  have copyRow : seat.Copy row₀.cacheEntry := by
    obtain ⟨row,found,copy'⟩ := (settled now holdsNow).row
    cases some.inj (found.symm.trans here)
    exact copy'
  have key : row₀.sid = seat.sid := sessionSid here
  have open_ := (sure certain_ clocked holdsClock).unexpired
  have active := alive certain_
  have one := @countOne now row₀ (fun row => row.sid = session.sid && row.userID = session.userID &&
      row.status = .active && row.revokedAt = 0 && row.expiresAt > clocked.unix && row.version = session.version &&
      row.userAuthVersion = session.userAuthVersion) (settled now holdsNow).unique (by rw [key]; exact here)
    (by
      have user : session.userID = row₀.userID := (copy own).user.trans copyRow.user.symm
      have authVersion : session.userAuthVersion = row₀.userAuthVersion :=
        (copy own).authVersion.trans copyRow.authVersion.symm
      have version : session.version = row₀.version := (copy own).version.trans copyRow.version.symm
      have expires : row₀.expiresAt = seat.expiresAt := copyRow.expires
      have zero : row₀.revokedAt = 0 := copyRow.clean active
      simp only [Bool.and_eq_true,decide_eq_true_eq]
      exact ⟨⟨⟨⟨⟨⟨key.trans own.symm,user.symm⟩,active⟩,zero⟩,by rw [expires]; exact open_⟩,version.symm⟩,authVersion.symm⟩)
    (by
      intro _ hit
      simp only [Bool.and_eq_true,decide_eq_true_eq] at hit
      exact hit.1.1.1.1.1.1.trans (own.trans key.symm))
  rw [one]
  exact if_neg (by decide)

structure Looked (seat : Seat) (sid : String) (session : UserSession) : Prop where
  key : session.sid = sid
  active : session.status = .active
  clean : session.revokedAt = 0
  copy : sid = seat.sid → seat.Copy session.cacheEntry

def Found (seat : Seat) (certain : Prop) (sid : String) (r : Except AuthError UserSession) : Prop :=
  (∀ session, r = .ok session → Looked seat sid session) ∧ (certain → sid = seat.sid → ∃ session, r = .ok session)

theorem rowCopy (settled : Settled seat s) (found : s.session sid = some row) :
    sid = seat.sid → seat.Copy row.cacheEntry := by
  rintro rfl
  obtain ⟨_,found',copy⟩ := settled.row
  cases some.inj (found'.symm.trans found)
  exact copy

section

variable (named : sid ≠ "") (sure : certain → ∀ s, holds s → Sure seat row₀ s) (alive : certain → row₀.status = .active)

include named sure alive

theorem loadServes :
    (seatDuty seat free holds settled).each (loadUserSession config sid) (fun r _ => Found seat certain sid r) s := by
  refine eachAfter (eachRead (fun _ _ _ => trivial)) (fun _ begun _ => ?_)
  have found : (seatDuty seat free holds settled).each (getUserSessionBySID sid) (fun r n => holds n ∧
      (∀ session, r = .ok session → n.session sid = some session) ∧ (∀ err, r = .error err → n.session sid = none)) begun := by
    unfold getUserSessionBySID
    rw [if_neg named]
    refine eachRead (fun read _ holdsRead => ?_)
    cases found : read.session sid with
    | none => exact ⟨holdsRead,failedNone,fun _ _ => found⟩
    | some =>
      refine ⟨holdsRead,fun session same => ?_,fun err same => (by cases same)⟩
      cases same
      exact found
  refine eachThen found (fun r read got _ => ?_)
  obtain ⟨holdsRead,got,missing⟩ := got
  cases r with
  | error err =>
    refine ⟨failedNone,fun certain_ own => ?_⟩
    have none_ := missing err rfl
    rw [own,(sure certain_ read holdsRead).row] at none_
    cases none_
  | ok session =>
    have found := got session rfl
    have copy := rowCopy (settled read holdsRead) found
    have key := sessionSid found
    refine eachRead (fun clocked since holdsClock => ?_)
    split
    · rename_i over_
      have dead : session.sid = seat.sid → Dead seat clocked := by
        intro own
        have copy' := copy (key.symm.trans own)
        by_cases active : session.status = .active
        · rcases over_ with ended | revoked | expired
          · exact absurd active ended
          · exact absurd (copy'.clean active) revoked
          · exact .inr (by rw [← show session.expiresAt = seat.expiresAt from copy'.expires]; exact expired)
        · exact .inl (since.ended ⟨session,by rw [← own,key]; exact found,active⟩)
      refine denyThen (by simp) (fun _ now moved holdsNow => ⟨?_,?_⟩)
      · refine writeSessionServes (settled now holdsNow) (fun own => ?_) (fun _ own => .inl (laterDead moved (dead own)))
        obtain ⟨user,authVersion,version,expires,_⟩ := copy (key.symm.trans own)
        exact ⟨user,authVersion,version,expires,fun active => by cases active⟩
      refine ⟨failedNone,fun certain_ own => ?_⟩
      have here := sure certain_ clocked holdsClock
      rcases dead (key.trans own) with ⟨row,stored,ended⟩ | expired
      · cases some.inj (here.row.symm.trans stored)
        exact absurd (alive certain_) ended
      · exact absurd here.unexpired (by omega)
    rename_i valid
    push Not at valid
    have good : Found seat certain sid (.ok session) := by
      refine ⟨fun _ same => ?_,fun _ _ => ⟨session,rfl⟩⟩
      cases same
      exact ⟨key,valid.1,valid.2.1,copy⟩
    refine eachThen (grantServes valid.1 (fun own => copy (key.symm.trans own)) sure) (fun r n granted _ => ?_)
    split
    · refine eachThen (confirmServes (fun own => copy (key.symm.trans own)) sure alive) (fun r' m confirmed _ => ?_)
      cases r' with
      | ok => exact good
      | error =>
        refine ⟨failedNone,fun certain_ own => ?_⟩
        cases confirmed certain_ (key.trans own) (own ▸ named)
    · refine ⟨failedNone,fun certain_ own => ?_⟩
      exact absurd rfl (granted certain_ (key.trans own))
    · exact good

theorem lookupServes :
    (seatDuty seat free holds settled).each (getUserSessionCached config sid)
      (fun r _ => Found seat certain sid r) s := by
  have cached : (seatDuty seat free holds settled).each (getUserSessionCache sid)
      (fun r _ => (∀ entry, r = .ok entry → Looked seat sid entry.session) ∧
        (certain → sid = seat.sid → r ≠ .error .userSessionInactive)) s := by
    refine eachRead (fun now _ holdsNow => ?_)
    cases found : now.cached sid with
    | none =>
      refine ⟨failedNone,fun _ _ same => ?_⟩
      cases same
    | some entry =>
      simp only
      split
      · refine ⟨failedNone,fun _ _ same => ?_⟩
        cases same
      rename_i schema
      push Not at schema
      have copy : sid = seat.sid → seat.Copy entry := by
        intro own
        obtain ⟨last,stored,_⟩ := liveSome found
        exact (settled now holdsNow).entries entry last (own ▸ stored)
      refine eachRead (fun clocked _ holdsClock => ?_)
      split
      · rename_i over_
        refine ⟨failedNone,fun certain_ own _ => ?_⟩
        have active : entry.status = .active := by
          by_contra denied
          exact (sure certain_ now holdsNow).undenied ⟨entry,by rw [← own]; exact found,denied⟩
        rcases over_ with ended | revoked | expired
        · exact ended active
        · exact revoked ((copy own).clean active)
        rw [(copy own).expires] at expired
        have := (sure certain_ clocked holdsClock).unexpired
        omega
      rename_i valid
      push Not at valid
      refine ⟨fun _ same => ?_,fun _ _ same => (by cases same)⟩
      cases same
      exact ⟨schema.2.1,valid.1,valid.2.1,fun own => copyStamped (copy own)⟩
  unfold getUserSessionCached
  rw [if_neg named]
  refine eachThen cached (fun r n got _ => ?_)
  split
  · rename_i entry
    refine ⟨fun session same => ?_,fun _ _ => ⟨_,rfl⟩⟩
    cases same
    exact got.1 entry rfl
  · refine ⟨failedNone,fun certain_ own => ?_⟩
    exact absurd rfl (got.2 certain_ own)
  · exact loadServes named sure alive

end

theorem byIdServes : (seatDuty seat free holds settled).each (getUserById userId)
      (fun r _ => (∀ user, r = .ok user → user.id = userId) ∧ (userId = seat.user.id → r = .ok seat.user)) s := by
  unfold getUserById
  split
  · refine ⟨failedNone,fun own => ?_⟩
    have := seat.idPositive
    omega
  refine eachRead (fun now _ holdsNow => ?_)
  cases found : now.findUser userId with
  | none =>
    refine ⟨failedNone,fun own => ?_⟩
    unfold Store.findUser at found
    rw [own,(settled now holdsNow).user,filter_some,seat.present] at found
    cases found
  | some user =>
    have stored := findUserStored found
    refine ⟨fun _ same => ?_,fun own => ?_⟩
    · cases same
      exact (settled now holdsNow).ids userId user stored
    rw [own,(settled now holdsNow).user] at stored
    cases stored
    rfl

theorem populateServes (seatUser : user.id = seat.user.id → user = seat.user) :
    (seatDuty seat free holds settled).each (populateUserCache config user)
      (fun r _ => user.id = seat.user.id → r ≠ .error .userAuthCachePending) s := by
  unfold populateUserCache writeUserCache
  split
  · intro _ same; cases same
  split
  · intro _ same; cases same
  refine eachLabelled (fun now _ holdsNow => ⟨?_,?_⟩)
  · refine writeUserServes (settled now holdsNow) (fun own => ?_)
    have same := seatUser own
    subst same
    exact ⟨seat.enabled,rfl⟩
  intro own
  have same := seatUser own
  subst same
  -- nothing that is stored for the user is newer
  have fresh : now.outdated seat.user.id seat.user.authVersion = false := by
    have held := settled now holdsNow
    have positive := seat.authPositive
    obtain ⟨pending,committed⟩ := committedSettled held
    unfold Store.outdated
    simp only [pending,Bool.or_eq_false_iff,decide_eq_false_iff_not]
    refine ⟨⟨by omega,by omega⟩,?_⟩
    cases found : now.cachedUser seat.user.id with
    | none => simp only [map_none,getD_none]; omega
    | some base =>
      obtain ⟨last,stored,_⟩ := liveSome found
      have := (held.hash base last stored).2
      simp only [map_some,getD_some]
      omega
  have accepted : (now.writeUser {seat.user.toBaseUser with cacheSchema := userCacheSchemaVersion} true
      (cacheTTL config)).2 = true := by
    rcases writeUserSettles now {seat.user.toBaseUser with cacheSchema := userCacheSchemaVersion} true (cacheTTL config)
      with ⟨old,_⟩ | ⟨_,taken⟩
    · have stale : now.outdated seat.user.id seat.user.authVersion = true := old
      rw [fresh] at stale
      cases stale
    · exact taken
  rw [accepted]
  intro same
  cases same

theorem userServes : (seatDuty seat free holds settled).each (getUserCache config userId)
      (fun r _ => userId = seat.user.id → ∃ base, r = .ok base ∧ base.status = userStatusEnabled ∧
        base.authVersion = seat.user.authVersion) s := by
  have floorBound : ∀ now, holds now → userId = seat.user.id → now.authVersionFloor userId ≤ seat.user.authVersion := by
    intro now holdsNow own
    have positive := seat.authPositive
    obtain ⟨pending,committed⟩ := committedSettled (settled now holdsNow)
    unfold Store.authVersionFloor
    rw [own,pending]
    omega
  have cached : (seatDuty seat free holds settled).each (cacheGetUserBase userId) (fun r _ => userId = seat.user.id →
      ∀ base, r = .ok base → base.status = userStatusEnabled ∧ base.authVersion = seat.user.authVersion) s := by
    refine eachRead (fun now _ holdsNow => ?_)
    cases found : now.cachedUser userId with
    | none => intro _ base same; cases same
    | some =>
      simp only
      split
      · intro _ base same; cases same
      refine eachRead (fun _ _ _ => ?_)
      intro own base same
      split at same
      · cases same
      cases same
      obtain ⟨last,stored,_⟩ := liveSome found
      exact (settled now holdsNow).hash _ last (own ▸ stored)
  refine eachThen cached (fun r n got _ => ?_)
  cases r with
  | ok base =>
    intro own
    exact ⟨base,rfl,got own base rfl⟩
  | error err =>
    refine eachThen byIdServes (fun r' m read _ => ?_)
    cases r' with
    | error =>
      intro own
      cases read.2 own
    | ok user =>
      have seatUser : user.id = seat.user.id → user = seat.user := by
        intro own
        cases read.2 ((read.1 user rfl).symm.trans own)
        rfl
      refine eachRead (fun now _ holdsNow => ?_)
      split
      · rename_i low
        intro own
        have bound := floorBound now holdsNow own
        rw [seatUser ((read.1 user rfl).trans own)] at low
        omega
      refine eachThen (populateServes seatUser) (fun _ last populated _ => ?_)
      split
      · intro own
        exact absurd rfl (populated ((read.1 user rfl).trans own))
      intro own
      have same := seatUser ((read.1 user rfl).trans own)
      subst same
      exact ⟨_,rfl,seat.enabled,rfl⟩

theorem revokeOtherServes {sid reason : String} (other : sid ≠ seat.sid) :
    (seatDuty seat free holds settled).each (revokeUserSession config userID sid reason) (fun _ _ => True) s := by
  have kept : ∀ now clock, holds now → Serves seat free now (revokeLocked userID sid reason clock now).1 none := by
    intro now clock holdsNow
    have same := (seatDuty seat free holds settled).still now holdsNow
    unfold revokeLocked
    split
    · exact same
    split
    · exact same
    refine revokeServes (settled now holdsNow) (.inl (fun _ found => ?_))
    rw [sessionSid found]
    exact decide_eq_false (Ne.symm other)
  unfold revokeUserSession
  split
  · trivial
  refine eachRead (fun _ _ _ => ?_)
  refine eachRead (fun read _ _ => ?_)
  cases found : read.sessions.find? (ofUser sid userID) with
  | none => trivial
  | some candidate =>
    have unlike : candidate.sid ≠ seat.sid := by
      have hit := List.find?_some found
      simp only [ofUser,Bool.and_eq_true,decide_eq_true_eq] at hit
      rw [hit.1]
      exact other
    simp only
    split
    · trivial
    refine denyThen (by simp) (fun ttl now _ holdsNow => ⟨?_,?_⟩)
    · exact writeSessionServes (settled now holdsNow) (absurd · unlike) (fun _ own => absurd own unlike)
    split
    · trivial
    refine eachLabelled (fun lock _ holdsLock => ⟨whatever _ _ _ _ _ (kept lock _ holdsLock),?_⟩)
    split
    · trivial
    split
    · refine denyThen (by simp [UserSession.cacheEntry,Store.revokeRow]) (fun ttl now _ holdsNow => ⟨?_,trivial⟩)
      exact writeSessionServes (settled now holdsNow) (absurd · unlike) (fun _ own => absurd own unlike)
    · trivial

theorem reuseServes {now : Int}
    (copy : session.sid = seat.sid → seat.Copy session.cacheEntry) (open_ : now < session.expiresAt)
    (freely : session.sid = seat.sid → free) (sure : certain → ∀ s, holds s → Sure seat row₀ s)
    (alive : certain → row₀.status = .active ∧ session.sid = seat.sid) :
    (seatDuty seat free holds settled).each (revokeReused config session now) (fun _ _ => ¬ certain) s := by
  have hit : session.sid = seat.sid → ∀ n row, Settled seat n → n.session seat.sid = some row → row.status = .active →
      (ofUser session.sid session.userID row && unexpired now row) = true := by
    intro own n row settledN found active
    have copyRow := rowCopy settledN found rfl
    have user : row.userID = session.userID := copyRow.user.trans (copy own).user.symm
    have expires : row.expiresAt = session.expiresAt := copyRow.expires.trans (copy own).expires.symm
    have clean : row.revokedAt = 0 := copyRow.clean active
    simp [ofUser,unexpired,sessionSid found,own,user,active,clean,expires,open_]
  have ends : session.sid = seat.sid → Ends seat (fun s => (s.revokeWhere
      (fun row => ofUser session.sid session.userID row && unexpired now row) now "refresh_reuse").1) := by
    intro own n settledN
    obtain ⟨row,found,_⟩ := settledN.row
    exact revokeEnds found (hit own n row settledN found) now "refresh_reuse"
  have denial : session.sid = seat.sid → ∀ status revokedAt reason, status ≠ .active → seat.Copy
      {session.cacheEntry with
        status := status, revokedAt := revokedAt, revokedReason := reason, cacheSchema := userSessionCacheSchema } := by
    intro own status revokedAt reason denied
    obtain ⟨user,authVersion,version,expires,_⟩ := copy own
    exact ⟨user,authVersion,version,expires,fun active => absurd active denied⟩
  refine denyThen (by simp) (fun ttl fenced _ holdsFenced => ?_)
  have accepted : session.sid = seat.sid → (fenced.writeSession {session.cacheEntry with
      status := .revoking, revokedAt := now, revokedReason := "refresh_reuse",
      cacheSchema := userSessionCacheSchema } ttl).2 = true := fun own =>
    writeAccepted (settled fenced holdsFenced) own (denial own _ _ _ (by simp)) (fun active => by cases active)
  refine ⟨writeSessionServes (settled fenced holdsFenced) (fun own => denial own _ _ _ (by simp)) (fun _ own => ?_),?_⟩
  · right
    rw [accepted own]
    exact ⟨_,rfl,ends own⟩
  split
  · rename_i refused
    intro certain_
    rw [accepted (alive certain_).2] at refused
    cases refused
  refine eachLabelled (fun mid _ holdsMid => ⟨?_,?_⟩)
  · refine revokeServes (settled mid holdsMid) ?_
    by_cases own : session.sid = seat.sid
    · exact .inr (freely own)
    · refine .inl (fun row found => ?_)
      simp only [ofUser,sessionSid found,Ne.symm own,decide_false,Bool.false_and]
  split
  · rename_i nothing
    intro certain_
    have here := (sure certain_ mid holdsMid).row
    have member : row₀ ∈ mid.sessions.filter (fun row => row.status = .active &&
        (ofUser session.sid session.userID row && unexpired now row)) := by
      refine mem_filter.mpr ⟨(Table.lookupSound here).1,?_⟩
      rw [hit (alive certain_).2 mid row₀ (settled mid holdsMid) here (alive certain_).1]
      simp [(alive certain_).1]
    have positive := length_pos_of_mem member
    exact absurd nothing (Nat.ne_of_gt positive)
  · have over_ : session.sid = seat.sid → Ended (mid.revokeWhere
        (fun row => ofUser session.sid session.userID row && unexpired now row) now "refresh_reuse").1 seat.sid :=
      fun own => ends own mid (settled mid holdsMid)
    refine denyThen (by simp [UserSession.cacheEntry,Store.revokeRow]) (fun ttl last moved holdsLast => ⟨?_,?_⟩)
    · exact writeSessionServes (settled last holdsLast) (fun own => denial own .revoked now "refresh_reuse" (by simp))
        (fun _ own => .inl (.inl (moved.ended (over_ own))))
    intro certain_
    obtain ⟨row,found,ended⟩ := moved.ended (over_ (alive certain_).2)
    cases some.inj ((sure certain_ last holdsLast).row.symm.trans found)
    exact ended (alive certain_).1

structure Reused (row : UserSession) (presentedHash : String) : Prop where
  active : row.status = .active
  other : row.refreshHash ≠ presentedHash
  previous : row.previousRefreshHash = presentedHash
  named : presentedHash ≠ ""

section

variable (unknown : sid = seat.sid → free ∨ ∀ s row, holds s → s.session sid = some row → row.refreshHash ≠ presentedHash ∧ row.previousRefreshHash ≠ presentedHash) (sure : certain → ∀ s, holds s → Sure seat row₀ s)

include unknown sure

theorem attemptsServe
    (reused : certain → sid = seat.sid ∧ userID = seat.user.id ∧ Reused row₀ presentedHash ∧ row₀.previousValidUntil < now ∧ now < seat.expiresAt)
    (attempts : Nat) :
    (seatDuty seat free holds settled).each
      (rotateAttempts config userID sid presentedHash nextHash now graceSeconds attempts)
      (fun _ _ => attempts ≠ 0 → ¬ certain) s := by
  induction attempts generalizing s with
  | zero => exact fun none_ => absurd rfl none_
  | succ attempts ih =>
    refine eachAfter (eachRead (fun _ _ _ => trivial)) (fun _ _ _ => ?_)
    refine eachRead (fun read _ holdsRead => ?_)
    have unique := (settled read holdsRead).unique
    cases found : read.sessions.find? (ofUser sid userID) with
    | none =>
      intro _ certain_
      obtain ⟨own,user,_⟩ := reused certain_
      have here := (sure certain_ read holdsRead).row
      have copy := rowCopy (settled read holdsRead) here rfl
      have owner : row₀.userID = seat.user.id := copy.user
      refine List.find?_eq_none.mp found row₀ (Table.lookupSound here).1 ?_
      simp [ofUser,sessionSid here,own,user,owner]
    | some session =>
      obtain ⟨stored,user⟩ := ofUserRow unique found
      have key := sessionSid stored
      have copy : session.sid = seat.sid → seat.Copy session.cacheEntry := fun own =>
        rowCopy (settled read holdsRead) stored (key.symm.trans own)
      have exactly : certain → session = row₀ := by
        intro certain_
        rw [(reused certain_).1,(sure certain_ read holdsRead).row] at stored
        exact (some.inj stored).symm
      simp only
      split
      · rename_i over_
        intro _ certain_
        obtain ⟨own,_,digest,_⟩ := reused certain_
        have copy' := copy (key.trans own)
        have active : session.status = .active := by rw [exactly certain_]; exact digest.active
        have expires : session.expiresAt = seat.expiresAt := copy'.expires
        rcases over_ with ended | revoked | _
        · exact ended active
        · exact revoked (copy'.clean active)
        · omega
      rename_i valid
      push Not at valid
      split
      · rename_i presented
        have uncertain : ¬ certain := by
          intro certain_
          rw [exactly certain_] at presented
          exact (reused certain_).2.2.1.other presented
        have rotated : session.sid = seat.sid → seat.Copy
            (Store.rotateRow session.refreshHash nextHash (now + graceSeconds) now session).cacheEntry := fun own =>
          ⟨(copy own).user,(copy own).authVersion,(copy own).version,(copy own).expires,(copy own).clean⟩
        refine eachLabelled (fun swap _ holdsSwap => ⟨?_,?_⟩)
        · refine rotateServes (settled swap holdsSwap) ?_
          by_cases own : sid = seat.sid
          · rcases unknown own with free_ | none_
            · exact .inr free_
            · exact absurd presented (none_ read session holdsRead stored).1
          · refine .inl (fun row foundRow => ?_)
            simp only [ofUser,sessionSid foundRow,Ne.symm own,decide_false,Bool.false_and]
        split
        · exact eachMono ih (fun _ _ _ _ => uncertain)
        refine eachThen (grantServes valid.1 rotated sure) (fun r _ _ _ => ?_)
        split
        · refine eachThen (confirmServes rotated sure (fun certain_ => absurd certain_ uncertain)) (fun r' _ _ _ => ?_)
          cases r' with
          | error | ok => exact fun _ => uncertain
        · exact fun _ => uncertain
        · exact fun _ => uncertain
      split
      · rename_i neither
        intro _ certain_
        obtain ⟨_,_,digest,_⟩ := reused certain_
        rw [exactly certain_] at neither
        rcases neither with empty | other
        · exact digest.named (digest.previous.symm.trans empty)
        · exact other digest.previous
      rename_i previous
      push Not at previous
      split
      · rename_i grace
        intro _ certain_
        have passed := (reused certain_).2.2.2.1
        rw [exactly certain_] at grace
        omega
      · refine eachMono (reuseServes copy valid.2.2 (fun own => ?_) sure (fun certain_ =>
          ⟨(reused certain_).2.2.1.active,key.trans (reused certain_).1⟩)) (fun _ _ never _ => never)
        rcases unknown (key.symm.trans own) with free_ | none_
        · exact free_
        · exact absurd previous.2 (none_ read session holdsRead stored).2

theorem rotateServesSeat
    (reused : certain → sid = seat.sid ∧ userID = seat.user.id ∧ Reused row₀ presentedHash ∧ (∀ s, holds s → row₀.previousValidUntil < s.unix) ∧ row₀.previousValidUntil < now ∧ now < seat.expiresAt)
    (fits : certain → sid ≠ "" ∧ nextHash ≠ "" ∧ presentedHash ≠ nextHash ∧ 0 ≤ graceSeconds) :
    (seatDuty seat free holds settled).each
      (rotateUserSessionRefresh config userID sid presentedHash nextHash now graceSeconds) (fun _ _ => ¬ certain) s := by
  unfold rotateUserSessionRefresh
  split
  · rename_i invalid
    intro certain_
    obtain ⟨named,next,differs,_⟩ := fits certain_
    obtain ⟨_,user,digest,_⟩ := reused certain_
    have positive := seat.idPositive
    rcases invalid with bad | bad | bad | bad | bad | bad
    · omega
    · exact named bad
    · exact digest.named bad
    · exact next bad
    · exact differs bad
    · omega
  refine eachRead (fun current _ holdsCurrent => ?_)
  refine eachMono (attemptsServe unknown sure (fun certain_ => ?_) 3) (fun _ _ never => never (by decide))
  obtain ⟨own,user,digest,passed,past,open_⟩ := reused certain_
  refine ⟨own,user,digest,?_,?_⟩
  · split
    · exact passed current holdsCurrent
    · exact past
  · split
    · exact (sure certain_ current holdsCurrent).unexpired
    · exact open_

end

theorem splitNamed (token : splitRefreshToken config raw = some (sid,secret)) : sid ≠ "" := by
  unfold splitRefreshToken at token
  split at token
  · cases token
  split at token
  · cases token
  rename_i valid
  push Not at valid
  cases token
  intro empty
  exact valid.1 (String.ofList_eq_empty_iff.mp empty)

theorem refreshServes {raw expectedSID ip userAgent s}
    (unknown : ∀ sid secret, splitRefreshToken config raw = some (sid,secret) → sid = seat.sid →
      free ∨ ∀ s row, holds s → s.session sid = some row →
        row.refreshHash ≠ hashRefreshSecret config secret ∧ row.previousRefreshHash ≠ hashRefreshSecret config secret)
    (sure : certain → ∀ s, holds s → Sure seat row₀ s)
    (reused : certain → ∃ secret, splitRefreshToken config raw = some (seat.sid,secret) ∧
      (Text.trimSpace expectedSID = "" ∨ Text.trimSpace expectedSID = seat.sid) ∧
      Reused row₀ (hashRefreshSecret config secret) ∧ (∀ s, holds s → row₀.previousValidUntil < s.unix) ∧
      hashRefreshSecret config (deriveNextRefreshSecret config seat.sid secret) ≠ "" ∧
      hashRefreshSecret config secret ≠ hashRefreshSecret config (deriveNextRefreshSecret config seat.sid secret)) :
    (seatDuty seat free holds settled).each (refreshLoginSession config raw expectedSID ip userAgent)
      (fun _ _ => ¬ certain) s := by
  have alive : certain → row₀.status = .active := fun certain_ => by
    obtain ⟨_,_,_,digest,_⟩ := reused certain_
    exact digest.active
  unfold refreshLoginSession
  split
  · rename_i none_
    intro certain_
    obtain ⟨secret,token,_⟩ := reused certain_
    rw [none_] at token
    cases token
  rename_i sid secret token
  have own : certain → sid = seat.sid := by
    intro certain_
    obtain ⟨secret',token',_⟩ := reused certain_
    cases some.inj (token.symm.trans token')
    rfl
  split
  · rename_i mismatch
    intro certain_
    obtain ⟨_,_,expected,_⟩ := reused certain_
    rcases expected with empty | same
    · exact mismatch.1 empty
    · exact mismatch.2 (same.trans (own certain_).symm)
  refine eachThen (lookupServes (splitNamed token) sure alive) (fun r n looked _ => ?_)
  split
  · intro certain_
    obtain ⟨session,same⟩ := looked.2 certain_ (own certain_)
    cases same
  · intro certain_
    obtain ⟨session,same⟩ := looked.2 certain_ (own certain_)
    cases same
  rename_i session
  have got := looked.1 session rfl
  refine eachRead (fun clocked _ holdsClock => ?_)
  split
  · rename_i over_
    intro certain_
    have expires : session.expiresAt = seat.expiresAt := (got.copy (own certain_)).expires
    have open_ := (sure certain_ clocked holdsClock).unexpired
    rcases over_ with ended | revoked | _
    · exact ended got.active
    · exact revoked got.clean
    · omega
  refine eachThen userServes (fun r' m user _ => ?_)
  cases r' with
  | error =>
    intro certain_
    obtain ⟨base,same,_⟩ := user (got.copy (own certain_)).user
    cases same
  | ok =>
    refine eachThen byIdServes (fun r'' _ current _ => ?_)
    cases r'' with
    | error =>
      intro certain_
      cases current.2 (got.copy (own certain_)).user
    | ok =>
      simp only
      split
      · rename_i changed
        have other : sid ≠ seat.sid := by
          intro same
          have copy := got.copy same
          obtain ⟨base,answer,enabled,authVersion⟩ := user copy.user
          cases answer
          cases current.2 copy.user
          have version : session.userAuthVersion = seat.user.authVersion := copy.authVersion
          rcases changed with bad | bad | bad | bad
          · exact bad enabled
          · exact bad (authVersion.trans version.symm)
          · exact bad seat.enabled
          · exact bad version.symm
        rw [← got.key] at other
        refine eachAfter (revokeOtherServes other) (fun _ _ _ certain_ => ?_)
        exact other (got.key.trans (own certain_))
      refine eachRead (fun now _ holdsNow => ?_)
      refine eachThen (rotateServesSeat (unknown sid secret token) sure (fun certain_ => ?_) (fun certain_ => ?_))
        (fun r _ never _ => ?_)
      · obtain ⟨secret',token',_,digest,passed,_⟩ := reused certain_
        cases some.inj (token.symm.trans token')
        exact ⟨rfl,(got.copy rfl).user,digest,passed,passed now holdsNow,(sure certain_ now holdsNow).unexpired⟩
      · obtain ⟨secret',token',_,_,_,next,differs⟩ := reused certain_
        cases some.inj (token.symm.trans token')
        exact ⟨splitNamed token,next,differs,by decide⟩
      split
      · split
        · split
          · exact never
          · exact never
        · exact never
      · exact never
      · exact never
      · exact never
      · split
        · exact never
        · exact never

end

end Omnigate.Auth
