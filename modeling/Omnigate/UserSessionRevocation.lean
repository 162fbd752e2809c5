import Omnigate.UserSessionAgreement

/-! Revocation of one session and of all sessions of a user, in any interleaving with lookups,
rotations and steps to a new auth version. -/
namespace Omnigate.Auth

open Interleave Machine List Contract

section
variable {config : Config} {limits : Limits} {ok : Option Label → Store → Prop}

theorem revokeLockedCases {s userID sid reason now} (inv : Inv config s) :
    (revokeLocked userID sid reason now s).1 = s ∧ (revokeLocked userID sid reason now s).2 ≠ .ok true ∨
    (revokeLocked userID sid reason now s).1 = (s.revokeWhere (fun row => row.sid = sid) now reason).1 ∧
      Ended (s.revokeWhere (fun row => row.sid = sid) now reason).1 sid := by
  unfold revokeLocked
  cases found : s.sessions.find? (ofUser sid userID) with
  | none => exact .inl ⟨rfl,by simp⟩
  | some =>
    simp only
    split
    · exact .inl ⟨rfl,by simp⟩
    · obtain ⟨stored,_⟩ := findRow inv found
      exact .inr ⟨rfl,revokeEnds stored (fun _ => by simp [sessionSid stored]) now reason⟩

def Guarded (ok : Option Label → Store → Prop) : Prop :=
  ∀ sid version s, ok (some (.finalTombstone sid version)) s → s.cachedVersion sid ≤ version

theorem revokeSpec : (agreement config limits ok).wp (revokeUserSession config userID sid reason)
      (fun r n => r = .ok true → Ended n sid ∧ (Guarded ok → Final config n sid)) s := by
  unfold revokeUserSession
  split
  · intro same; cases same
  refine wpRead (fun first _ _ _ => ?_)
  refine wpRead (fun mid invMid _ _ => ?_)
  cases read : mid.sessions.find? (ofUser sid userID) with
  | none => intro same; cases same
  | some candidate =>
    obtain ⟨found,_⟩ := findRow invMid read
    have key : candidate.sid = sid := sessionSid found
    simp only
    split
    · intro same; cases same
    refine wpThen invMid (fenceSpec invMid (knownRow found) _ reason) (fun r n _ invN reached => ?_)
    cases r with
    | error => intro same; cases same
    | ok =>
      refine wpAtomic (fun lock invLock moved'' _ => ?_)
      have known := knownAfter (afterTrans _ _ _ (relyAfter invMid reached) (relyAfter invN moved'')) (knownRow found)
      rcases @revokeLockedCases config lock userID sid reason first.unix invLock with ⟨same,refused⟩ | ⟨same,ended⟩
      · rw [same]
        refine ⟨.refl,fun _ => ?_⟩
        cases answer : (revokeLocked userID sid reason first.unix lock).2 with
        | error => intro h; cases h
        | ok revoked =>
          cases revoked with
          | false => intro h; cases h
          | true => exact absurd answer refused
      rw [same]
      refine ⟨.single (Change.revoke _ _ _),fun invNext => ?_⟩
      cases answer : (revokeLocked userID sid reason first.unix lock).2 with
      | error => intro h; cases h
      | ok revoked =>
        cases revoked with
        | false => intro h; cases h
        | true =>
          refine wpThen invNext (tombstoneSpec invNext (knownAfter (revokeAfter lock _ _ _) known) _ reason)
            (fun r _ written _ reached' _ => ?_)
          refine ⟨endedAfter (relyAfter invNext reached') ended,fun guarded => ?_⟩
          rw [key] at written
          by_cases accepted : r = .ok ()
          · exact written.1 accepted ended
          obtain ⟨_,at_,_,_,allowed,_⟩ := written.2 accepted
          have bound := guarded sid candidate.version at_ allowed
          omega

theorem advanceLockedCases {s userID sid version authVersion next now} (inv : Inv config s) :
    (∃ err, advanceLocked userID sid version authVersion next now s = (s,.error err)) ∨
    ∃ row, s.session sid = some row ∧ row.status = .active ∧ row.version = version ∧ row.userAuthVersion = authVersion ∧
      advanceLocked userID sid version authVersion next now s =
        ((s.updateSessions (fun row => row.sid = sid && row.status = .active && row.version = version &&
          row.userAuthVersion = authVersion) (Store.advanceRow (row.version + 1) next now)).1,
        .ok (Store.advanceRow (row.version + 1) next now row)) := by
  unfold advanceLocked
  cases found : s.sessions.find? (ofUser sid userID) with
  | none => exact .inl ⟨_,rfl⟩
  | some row =>
    simp only
    split
    · exact .inl ⟨_,rfl⟩
    rename_i valid
    push Not at valid
    split
    · exact .inl ⟨_,rfl⟩
    · exact .inr ⟨row,(findRow inv found).1,valid.1,valid.2.2.1,valid.2.2.2,rfl⟩

theorem advanceSpec {next}
    (allowed : ∀ mid, Inv config mid → (agreement config limits ok).rely s mid → limits.advance mid sid) :
    (agreement config limits ok).wp (advanceUserSessionAuthVersion config userID sid version authVersion next)
      (fun r _ => ∀ session, r = .ok session → session.userAuthVersion = next ∧ session.sid = sid) s := by
  unfold advanceUserSessionAuthVersion
  split
  · exact failedNone
  rename_i valid
  push Not at valid
  refine wpDeadline (fun _ invFirst moved => ?_)
  refine wpRead (fun second invSecond moved' _ => ?_)
  refine wpAtomic (fun lock invLock moved'' _ => ?_)
  have clock := (afterTrans _ _ _ (relyAfter invFirst moved') (relyAfter invSecond moved'')).clock
  rcases @advanceLockedCases config lock userID sid version authVersion next second.unix invLock with
    ⟨err,same⟩ | ⟨row,found,active,rfl,rfl,same⟩
  · rw [same]
    refine ⟨.refl,fun _ => ?_⟩
    intro session answer
    cases answer
  rw [same]
  have key : row.sid = sid := sessionSid found
  refine ⟨.single (Change.advance ?_),fun invNext => ?_⟩
  · intro other hit
    simp only [Bool.and_eq_true,decide_eq_true_eq] at hit
    refine ⟨hit.1.1.2,by omega,by omega,?_⟩
    rw [hit.1.1.1]
    exact allowed lock invLock (moved.trans (moved'.trans moved''))
  have foundNext := sessionUpdate lock (fun other => other.sid = sid && other.status = .active &&
    other.version = row.version && other.userAuthVersion = row.userAuthVersion)
    (f := Store.advanceRow (row.version + 1) next second.unix) (fun _ => rfl) sid
  rw [found] at foundNext
  simp only [Option.map_some,key,active,decide_true,Bool.and_self,if_true] at foundNext
  have answered : ∀ session, (Except.ok (Store.advanceRow (row.version + 1) next second.unix row) :
      Except AuthError UserSession) = .ok session → session.userAuthVersion = next ∧ session.sid = sid := by
    intro session answer
    cases answer
    exact ⟨rfl,key⟩
  refine wpThen invNext (grantSpec invNext active (knownRow foundNext) ?_) (fun r n _ invN _ => ?_)
  · have named : (Store.advanceRow (row.version + 1) next second.unix row).cacheEntry.sid = sid := key
    rw [named]
    exact freshRead clock foundNext active
  split
  · refine wpThen invN (confirmSpec _) (fun r' _ _ _ _ => ?_)
    cases r' with
    | error => intro session answer; cases answer
    | ok => exact answered
  · intro session answer; cases answer
  · exact answered

theorem cachedVersionBound (inv : Inv config s) (found : s.session sid = some row) :
    s.cachedVersion sid ≤ row.version := by
  unfold Store.cachedVersion
  cases cached : s.cached sid with
  | none => exact (inv.sessions.positive sid row found).le
  | some entry =>
    obtain ⟨last,stored,_⟩ := liveSome cached
    obtain ⟨key,_,found',copies⟩ := inv.sessions.entries sid entry last stored
    rw [key] at found'
    cases Option.some.inj (found'.symm.trans found)
    exact copies.version

theorem fencesSpec (inv : Inv config s) (known : ∀ candidate ∈ candidates, Known s candidate.cacheEntry) :
    (agreement config limits ok).wp (writeFences config now reason candidates) (fun _ _ => True) s := by
  induction candidates generalizing s with
  | nil => trivial
  | cons candidate _ ih =>
    refine wpThen inv (fenceSpec inv (known candidate (by simp)) now reason) (fun r n _ invN reached => ?_)
    cases r with
    | error => trivial
    | ok => exact ih invN (fun other member => knownAfter (relyAfter inv reached) (known other (by simp [member])))

def EndedAs (s : Store) (row : UserSession) : Prop :=
  ∃ later, s.session row.sid = some later ∧ later.status ≠ .active ∧ later.version = row.version ∧
    Copies row.cacheEntry later

theorem endedAsAfter (after : After s n) (ended : EndedAs s row) : EndedAs n row := by
  obtain ⟨later,found,over_,version,copies⟩ := ended
  obtain ⟨last,foundLast,rowAfter⟩ := after.rows _ later found
  obtain ⟨same,_⟩ := rowAfter.frozen over_
  exact ⟨last,foundLast,by rw [same]; exact over_,by rw [same]; exact version,by rw [same]; exact copies⟩

theorem tombstonesSpec (inv : Inv config s) (ended : ∀ row ∈ rows, EndedAs s row) :
    (agreement config limits ok).wp (writeTombstones config now reason rows)
      (fun _ n => ∀ row ∈ rows, Final config n row.sid) s := by
  induction rows generalizing s with
  | nil => intro row member; cases member
  | cons row _ ih =>
    obtain ⟨later,found,over_,version,copies⟩ := ended row (by simp)
    refine wpThen inv (tombstoneSpec inv ⟨later,found,copies⟩ now reason) (fun r n written invN reached => ?_)
    have final : Final config n row.sid := by
      by_cases accepted : r = .ok ()
      · exact written.1 accepted ⟨later,found,over_⟩
      obtain ⟨_,_,invMid,after,_⟩ := written.2 accepted
      obtain ⟨last,foundLast,_⟩ := endedAsAfter after ⟨later,found,over_,version,copies⟩
      have bound := cachedVersionBound invMid foundLast
      omega
    have restSpec := ih invN (fun other member => endedAsAfter (relyAfter inv reached) (ended other (by simp [member])))
    refine wpMono (wpReach invN restSpec) ?_
    rintro u last ⟨done,_,reached'⟩ other member
    rcases mem_cons.mp member with rfl | inside
    · exact (finalStable config limits ok _).rely invN reached' final
    · exact done other inside

def Cleared (s : Store) (userID : Int) (excludedSID : String) (floor : Int) : Prop :=
  ∀ sid row, s.session sid = some row → row.userID = userID → sid ≠ excludedSID →
    row.status ≠ .active ∨ row.expiresAt ≤ s.unix ∨ floor ≤ (s.history sid).birthFloor

theorem clearedAfter (after : After s n)
    (bound : floor ≤ s.committedVersion userID) (cleared : Cleared s userID excludedSID floor) :
    Cleared n userID excludedSID floor := by
  intro sid row found user other
  cases before : s.session sid with
  | none =>
    have born := after.born sid row before found
    rw [user] at born
    exact .inr (.inr (bound.trans born))
  | some old =>
    obtain ⟨_,foundLater,rowAfter⟩ := after.rows sid old before
    cases Option.some.inj (foundLater.symm.trans found)
    rcases cleared sid old before (rowAfter.user.symm.trans user) other with over_ | expired | born
    · exact .inl (by rw [(rowAfter.frozen over_).1]; exact over_)
    · exact .inr (.inl (by rw [rowAfter.expires]; exact expired.trans (unixAfter after)))
    · exact .inr (.inr (by rw [rowAfter.birthFloor]; exact born))

theorem candidatesKnown (inv : Inv config s) :
    ∀ candidate ∈ revokeCandidates userID excludedSID now s, s.session candidate.sid = some candidate := by
  intro candidate member
  have inside := mem_of_mem_take member
  rw [mem_insertionSort] at inside
  exact sessionFound inv.sessions.unique (mem_filter.mp inside).1

theorem candidatesNone (passed : now ≤ s.unix)
    (none_ : (revokeCandidates userID excludedSID now s).length = 0) : Cleared s userID excludedSID floor := by
  have empty : s.sessions.filter (fun row => row.userID = userID && row.status = .active && row.expiresAt > now &&
      (excludedSID = "" || row.sid ≠ excludedSID)) = [] := by
    unfold revokeCandidates userSessionRevokeBatchSize at none_
    rw [length_take,length_insertionSort] at none_
    exact length_eq_zero_iff.mp (by omega)
  intro sid row found user other
  by_contra alive
  push Not at alive
  have member := (Table.lookupSound found).1
  have kept := filter_eq_nil_iff.mp empty row member
  have key := sessionSid found
  apply kept
  simp only [Bool.and_eq_true,Bool.or_eq_true,decide_eq_true_eq]
  exact ⟨⟨⟨user,alive.1⟩,by omega⟩,.inr (by rw [key]; exact other)⟩

theorem revokedEnded (inv : Inv config s) :
    ∀ row ∈ (s.revokeWhere p now reason).2, EndedAs (s.revokeWhere p now reason).1 row := by
  intro row member
  obtain ⟨inside,hit⟩ := mem_filter.mp member
  have found := sessionFound inv.sessions.unique inside
  refine ⟨Store.revokeRow now reason row,?_,by simp [Store.revokeRow],rfl,rfl,rfl,le_refl _,le_refl _⟩
  rw [sessionRevoke,found,Option.map_some,if_pos hit]

theorem roundsSpec (rounds : Nat)
    (inv : Inv config s) (passed : now ≤ s.unix) (final : ∀ sid ∈ total, Final config s sid) :
    (agreement config limits ok).wp (revokeRounds config userID excludedSID reason now total rounds)
      (fun r n => ∀ sids, r = .ok sids → (∀ sid ∈ sids, Final config n sid) ∧ Cleared n userID excludedSID floor) s := by
  induction rounds generalizing s total with
  | zero => trivial
  | succ rounds ih =>
    refine wpRead (fun mid invMid moved _ => ?_)
    have passedMid := passed.trans (unixAfter (relyAfter inv moved))
    have finalMid : ∀ sid ∈ total, Final config mid sid :=
      fun sid member => (finalStable config limits ok sid).rely inv moved (final sid member)
    split
    · rename_i none_
      intro sids same
      cases same
      exact ⟨finalMid,candidatesNone passedMid none_⟩
    refine wpThen invMid (fencesSpec invMid (fun candidate member =>
      knownRow (candidatesKnown invMid candidate member))) (fun r n _ invN reached => ?_)
    cases r with
    | error => exact failedNone
    | ok =>
      refine wpAtomic (fun lock invLock moved' _ => ⟨.single (Change.revoke _ _ _),fun invNext => ?_⟩)
      have change := afterTrans _ _ _ (relyAfter invMid reached) (relyAfter invN moved')
      refine wpThen invNext (tombstonesSpec invNext (revokedEnded invLock)) (fun _ _ written invLast reached' => ?_)
      have afterLast := afterTrans _ _ _ change (afterTrans _ _ _ (revokeAfter lock _ now reason) (relyAfter invNext reached'))
      refine ih invLast (passedMid.trans (unixAfter afterLast)) (fun sid member => ?_)
      rcases mem_append.mp member with old | new
      · refine (finalStable config limits ok sid).rely invNext reached' ?_
        refine @finalChange config limits _ _ sid invLock (Change.revoke _ _ _) ?_
        exact (finalStable config limits ok sid).rely invMid (reached.trans moved') (finalMid sid old)
      · obtain ⟨row,inside,rfl⟩ := mem_map.mp new
        exact written row inside

theorem revokeAllSpec {userID excludedSID reason floor} (rounds : Nat) {s} :
    (agreement config limits ok).wp (revokeUserSessions config userID excludedSID reason rounds)
      (fun r n => ∀ sids, r = .ok sids → (∀ sid ∈ sids, Final config n sid) ∧ Cleared n userID excludedSID floor) s := by
  unfold revokeUserSessions
  split
  · exact failedNone
  refine wpRead (fun _ invFirst _ _ => ?_)
  refine roundsSpec rounds invFirst (le_refl _) ?_
  intro sid member
  cases member

end

end Omnigate.Auth
