import Omnigate.AuthChanges

/-! The auth-version fence of a user: a pending fence stands until it expires or its version is committed, whatever
stale fills are in flight, and every snapshot that `GetUserCache` returns has passed the floor during the call. -/
namespace Omnigate.Auth

open Interleave Machine Contract

/- The fence that lives to `last` for a version of at least `version` is there, or its time is over, or the version
committed. -/
def FenceStands (userId version last : Int) (s : Store) : Prop :=
  (∃ fence until_, (s.userKeys userId).fence = some (fence,until_) ∧ version ≤ fence ∧ last ≤ until_) ∨
  last < s.clock ∨ Committed s userId version

variable {n s : Store} {last userId version : Int}

theorem fenceStandsKept (after : After s n) (stands : FenceStands userId version last s)
    (kept : ∀ fence until_, (s.userKeys userId).fence = some (fence,until_) → version ≤ fence → last ≤ until_ → FenceStands userId version last n) :
    FenceStands userId version last n := by
  rcases stands with ⟨fence,until_,stored,above,later⟩ | over_ | committed
  · exact kept fence until_ stored above later
  · exact .inr (.inl (over_.trans_le after.clock))
  · exact .inr (.inr (committedAfter after committed))

theorem livePending (stored : (s.userKeys userId).fence = some (fence,until_))
    (lives : s.clock ≤ until_) : s.pending userId = fence := by
  unfold Store.pending live
  rw [stored]
  simp only
  rw [if_neg (by omega)]
  rfl

theorem standsPending (stands : FenceStands userId version last s) (running : s.clock ≤ last)
    (open_ : ¬ Committed s userId version) : version ≤ s.pending userId := by
  rcases stands with ⟨_,_,stored,above,later⟩ | _ | committed
  · rw [livePending stored (running.trans later)]
    exact above
  · omega
  · exact absurd committed open_

theorem settlesStands (committed : Committed s other incoming)
    (settles : Settles s other incoming n) (stands : FenceStands userId version last s) :
    FenceStands userId version last n := by
  have after := settlesAfter settles
  refine fenceStandsKept after stands (fun fence until_ stored above later => ?_)
  obtain ⟨_,rfl,_⟩ := settles
  by_cases same : userId = other
  · subst same
    by_cases dropped : s.pending userId > 0 ∧ s.pending userId ≤ incoming
    · by_cases lives : s.clock ≤ until_
      · rw [livePending stored lives] at dropped
        obtain ⟨user,found,_⟩ := committed
        exact .inr (.inr ⟨user,found,by omega⟩)
      · exact .inr (.inl (by show last < s.clock; omega))
    refine .inl ⟨fence,until_,?_,above,later⟩
    simp only [keysSet,if_true,Store.settled,UserKeys.settle]
    rw [if_neg dropped]
    exact stored
  · exact .inl ⟨fence,until_,by rw [keysSet,if_neg same]; exact stored,above,later⟩

theorem fenceStandsSame (after : After s n) (keys : (n.userKeys userId).fence = (s.userKeys userId).fence)
    (stands : FenceStands userId version last s) : FenceStands userId version last n :=
  fenceStandsKept after stands (fun fence until_ stored above later => .inl ⟨fence,until_,keys.trans stored,above,later⟩)

theorem fenceStandsChange (inv : Inv config s) (h : Change config limits s n)
    (stands : FenceStands userId version last s) : FenceStands userId version last n := by
  have after := changeAfter h
  cases h with
  | tick | revoke | advance | rotate | commit =>
    exact fenceStandsSame after rfl stands
  | @insert row => exact fenceStandsSame after (by rw [(insertKept s row).1]) stands
  | @grant entry ttl | @deny entry ttl =>
    obtain ⟨cache,same⟩ := writeSessionCache s entry ttl
    exact fenceStandsSame after (by rw [same]) stands
  | @fence other incoming announced =>
    unfold Store.raiseFence at after ⊢
    split
    · rename_i raised
      rw [if_pos raised] at after
      refine fenceStandsKept after stands (fun fence until_ stored above later => ?_)
      by_cases same : userId = other
      · subst same
        by_cases lives : s.clock ≤ until_
        · rw [livePending stored lives] at raised
          have bound := (inv.users.fences userId fence until_ stored).2
          refine .inl ⟨incoming,s.clock + fenceTTL config,?_,by omega,by omega⟩
          rw [keysSet,if_pos rfl]
        · exact .inr (.inl (by show last < s.clock; omega))
      · exact .inl ⟨fence,until_,by rw [keysSet,if_neg same]; exact stored,above,later⟩
    · exact stands
  | @publish other incoming committed => exact settlesStands committed (settlesKeys s other incoming) stands
  | fill committed => exact fillKeeps (P := FenceStands userId version last) stands (fun _ moved => settlesStands committed moved stands)
  | field committed => exact fieldKeeps (P := FenceStands userId version last) stands (fun _ moved => settlesStands committed moved stands)
  | drop =>
    refine fenceStandsSame after ?_ stands
    unfold Store.dropUserHash
    rw [keysSet]
    split
    · rename_i same; rw [same]
    · rfl

section
variable {config : Config} {limits : Limits} {ok : Option Label → Store → Prop}

theorem settlesCommitted (settles : Settles s userId incoming n) :
    incoming ≤ n.committedVersion userId := by
  obtain ⟨_,rfl,_⟩ := settles
  have raised := settledVersion s userId incoming
  unfold Store.committedVersion
  rw [keysSet,if_pos rfl]
  simp only
  omega

theorem writeUserSpec (inv : Inv config s) (committed : Committed s user.id user.authVersion) :
    (agreement config limits ok).wp (writeUserCache config user includeQuota)
      (fun r n => r = .ok () → 0 < user.id → user.authVersion ≤ n.committedVersion user.id) s := by
  unfold writeUserCache
  split
  · intro _ _; omega
  split
  · intro same; cases same
  refine wpAtomic (fun now _ moved _ => ?_)
  have committedNow := committedAfter (relyAfter inv moved) committed
  refine ⟨.single (Change.fill committedNow),fun _ => ?_⟩
  rcases writeUserSettles now {user with cacheSchema := userCacheSchemaVersion} includeQuota (cacheTTL config) with
    ⟨_,same⟩ | ⟨settles,_⟩
  · rw [same]
    intro answer
    cases answer
  · intro _ _
    exact settlesCommitted settles

def Snapshot (config : Config) (limits : Limits) (ok : Option Label → Store → Prop) (s n : Store) (userId : Int)
    (base : UserBase) : Prop :=
  Committed n userId base.authVersion ∧
  ∃ mid, ok none mid ∧ Inv config mid ∧ (agreement config limits ok).rely s mid ∧
    mid.authVersionFloor userId ≤ base.authVersion

theorem findUserStored {id} (found : s.findUser id = some user) : s.users id = some user := by
  exact (Option.filter_eq_some_iff.mp found).1

theorem cacheGetSpec (userId) : (agreement config limits ok).wp (cacheGetUserBase userId)
      (fun r n => ∀ base, r = .ok base → Snapshot config limits ok s n userId base) s := by
  refine wpRead (fun now invNow moved _ => ?_)
  cases found : now.cachedUser userId with
  | none => exact failedNone
  | some cached =>
    simp only
    split
    · exact failedNone
    refine wpRead (fun mid invMid moved' allowed => ?_)
    intro base same
    split at same
    · cases same
    cases same
    obtain ⟨last,stored,_⟩ := liveSome found
    have committed := invNow.users.hashes userId cached last stored
    exact ⟨committedAfter (relyAfter invNow moved') committed,mid,allowed,invMid,moved.trans moved',by omega⟩

theorem getUserByIdSpec (id) : (agreement config limits ok).wp (getUserById id)
      (fun r n => ∀ user, r = .ok user → n.users id = some user ∧ (agreement config limits ok).rely s n) s := by
  unfold getUserById
  split
  · exact failedNone
  refine wpRead (fun now _ moved _ => ?_)
  cases found : now.findUser id with
  | none => exact failedNone
  | some =>
    intro _ same
    cases same
    exact ⟨findUserStored found,moved⟩

theorem storedBase (inv : Inv config s) (stored : s.users userId = some user) :
    Committed s user.toBaseUser.id user.toBaseUser.authVersion := by
  show Committed s user.id user.authVersion
  rw [(inv.users.ids userId user stored).1]
  exact ⟨user,stored,le_refl _⟩

theorem getUserSpec (inv : Inv config s) (userId : Int) : (agreement config limits ok).wp (getUserCache config userId)
      (fun r n => ∀ base, r = .ok base → Snapshot config limits ok s n userId base) s := by
  refine wpThen inv (cacheGetSpec userId) (fun r n got invN reached => ?_)
  cases r with
  | ok base => intro _ same; cases same; exact got base rfl
  | error err =>
    refine wpThen invN (getUserByIdSpec userId) (fun r' m read invM _ => ?_)
    cases r' with
    | error => exact failedNone
    | ok user =>
      obtain ⟨stored,moved⟩ := read user rfl
      refine wpRead (fun mid invMid moved' allowed => ?_)
      split
      · exact failedNone
      have committed : Committed mid userId user.authVersion :=
        committedAfter (relyAfter invM moved') ⟨user,stored,le_refl _⟩
      have named := committedAfter (relyAfter invM moved') (storedBase invM stored)
      refine wpThen invMid (writeUserSpec invMid named) (fun _ _ _ _ reached' => ?_)
      split
      · exact failedNone
      intro base same
      cases same
      exact ⟨committedAfter (relyAfter invMid reached') committed,mid,allowed,invMid,
        reached.trans (moved.trans moved'),by show _ ≤ user.authVersion; omega⟩

theorem setFenceSpec (inv : Inv config s) (announced : Announced s userId version) :
    (agreement config limits ok).wp (setUserAuthVersionFence config userId version) (fun _ _ => True) s := by
  unfold setUserAuthVersionFence
  split
  · trivial
  refine wpAtomic (fun _ _ moved _ => ?_)
  exact ⟨.single (Change.fence (announcedAfter (relyAfter inv moved) announced)),fun _ => trivial⟩

theorem commitVersionCases {s : Store} {userId seen next change} :
    (s.commitVersion userId seen next change).1 = s ∧ (s.commitVersion userId seen next change).2 = false ∨
    ∃ user, s.users userId = some user ∧ user.authVersion = seen ∧ (s.commitVersion userId seen next change).1 =
      s.setUser userId {change user with id := userId, authVersion := next} := by
  unfold Store.commitVersion
  split
  · exact .inl ⟨rfl,rfl⟩
  rename_i user stored
  split
  · rename_i same
    exact .inr ⟨user,stored,same,rfl⟩
  · exact .inl ⟨rfl,rfl⟩

structure Next (s n : Store) (userId version : Int) : Prop where
  committed : Committed n userId version
  above : ∀ old, Committed s userId old → old < version
  positive : 0 < version

theorem incrementSpec {change : User → User} (allowed : limits.commit userId) (attempts : Nat)
    (inv : Inv config s) :
    (agreement config limits ok).wp (incrementAttempts config userId change commits attempts)
      (fun r n => ∀ version, r = .ok version → Next s n userId version) s := by
  induction attempts generalizing s with
  | zero => exact failedNone
  | succ attempts ih =>
    refine wpRead (fun now invNow moved _ => ?_)
    cases found : now.users userId with
    | none => exact failedNone
    | some user =>
      simp only
      generalize current : (if user.authVersion < 1 then 1 else user.authVersion) = seen
      have grows : user.authVersion ≤ seen ∧ 0 < seen ∧ seen + 1 ≤ max user.authVersion 1 + 1 := by
        subst current
        split <;> omega
      have early : ∀ old, Committed s userId old → old ≤ user.authVersion := by
        intro old committed
        obtain ⟨_,found',bound⟩ := committedAfter (relyAfter inv moved) committed
        cases Option.some.inj (found'.symm.trans found)
        exact bound
      have retry : ∀ m, Inv config m → After now m → (agreement config limits ok).wp
          (incrementAttempts config userId change commits attempts)
          (fun r n => ∀ version, r = .ok version → Next s n userId version) m := by
        intro m invM after
        refine wpMono (ih invM) (fun r n done version same => ?_)
        obtain ⟨committed,above,positive⟩ := done version same
        exact ⟨committed,fun old before => above old (committedAfter (afterTrans _ _ _ (relyAfter inv moved) after) before),
          positive⟩
      refine wpThen invNow (setFenceSpec invNow ⟨user,found,grows.2.2⟩) (fun r n _ invN reached => ?_)
      cases r with
      | error => exact failedNone
      | ok =>
        cases commits with
        | false => exact failedNone
        | true =>
          refine wpAtomic (fun mid _ moved' _ => ?_)
          rcases @commitVersionCases mid userId user.authVersion (seen + 1) change with ⟨same,lost⟩ | ⟨row,stored,version,same⟩
          · rw [same,lost]
            exact ⟨.refl,fun invSame => retry mid invSame (afterTrans _ _ _ (relyAfter invNow reached) (relyAfter invN moved'))⟩
          rw [same]
          have change_ : Change config limits mid _ :=
            Change.commit {change row with id := userId, authVersion := seen + 1} allowed stored rfl
              (by show row.authVersion ≤ seen + 1; omega)
          refine ⟨.single change_,fun invNext => ?_⟩
          split
          · intro version same
            cases same
            refine ⟨⟨_,Function.update_self _ _ _,le_refl _⟩,fun old before => ?_,by omega⟩
            have := early old before
            omega
          · exact retry _ invNext (afterTrans _ _ _ (afterTrans _ _ _ (relyAfter invNow reached) (relyAfter invN moved'))
              (changeAfter change_))

theorem incrementTxSpec {change} (allowed : limits.commit userId) (inv : Inv config s) :
    (agreement config limits ok).wp (incrementUserAuthVersionWithTx config userId change commits)
      (fun r n => ∀ version, r = .ok version → Next s n userId version) s := by
  unfold incrementUserAuthVersionWithTx
  split
  · exact failedNone
  · exact incrementSpec allowed 3 inv

theorem publishCommittedSpec (inv : Inv config s) (committed : Committed s userId version) :
    (agreement config limits ok).wp (publishCommittedUserAuthVersion userId version)
      (fun r n => r = .ok () → version ≤ n.committedVersion userId) s := by
  unfold publishCommittedUserAuthVersion
  split
  · intro same; cases same
  refine wpAtomic (fun now _ moved _ => ?_)
  refine ⟨.single (Change.publish (committedAfter (relyAfter inv moved) committed)),fun _ _ => ?_⟩
  exact settlesCommitted (settlesKeys now userId version)

theorem publishCacheSpec (inv : Inv config s) : (agreement config limits ok).wp (publishUserAuthCache config userId)
      (fun r n => r = .ok () → ∀ version, Committed s userId version → version ≤ n.committedVersion userId) s := by
  refine wpThen inv (getUserByIdSpec userId) (fun r n read invN _ => ?_)
  cases r with
  | error => intro same; cases same
  | ok user =>
    obtain ⟨stored,moved⟩ := read user rfl
    have id : user.id = userId := (invN.users.ids userId user stored).1
    refine wpMono (writeUserSpec invN (storedBase invN stored)) (fun _ last done same version committed => ?_)
    obtain ⟨_,found,_⟩ := committedAfter (relyAfter inv moved) committed
    cases Option.some.inj (found.symm.trans stored)
    have positive := (invN.users.ids userId user stored).2
    have written : user.authVersion ≤ last.committedVersion user.id := done same (by show 0 < user.id; omega)
    rw [id] at written
    omega

theorem changeUserSpec {change} (allowed : limits.commit userId) (inv : Inv config s) :
    (agreement config limits ok).wp (changeUser config userId change commits)
      (fun r n => ∀ version, r = .ok version → Next s n userId version ∧ version ≤ n.committedVersion userId) s := by
  refine wpThen inv (incrementTxSpec allowed inv) (fun r n done invN _ => ?_)
  cases r with
  | error => exact failedNone
  | ok version =>
    have next := done version rfl
    refine wpThen invN (publishCacheSpec invN) (fun r' _ published _ reached => ?_)
    cases r' with
    | error => exact failedNone
    | ok =>
      intro _ same
      cases same
      exact ⟨⟨committedAfter (relyAfter invN reached) next.committed,next.above,next.positive⟩,
        published rfl version next.committed⟩

theorem deleteRowSpec (allowed : limits.commit userId) (inv : Inv config s) :
    (agreement config limits ok).wp (deleteUserRow config userId commits)
      (fun r n => ∀ version, r = .ok version → version ≤ n.committedVersion userId) s := by
  unfold deleteUserRow
  split
  · exact failedNone
  refine wpThen inv (incrementTxSpec allowed inv) (fun r n done invN _ => ?_)
  cases r with
  | error => exact failedNone
  | ok version =>
    refine wpThen invN (publishCommittedSpec invN (done version rfl).committed) (fun r' _ published _ _ => ?_)
    cases r' with
    | error => exact failedNone
    | ok =>
      intro _ same
      cases same
      exact published rfl

theorem fieldAtSpec (inv : Inv config s) (committed : Committed s userId version) :
    (agreement config limits ok).wp (updateUserCacheFieldAtVersion userId field version) (fun _ _ => True) s := by
  unfold updateUserCacheFieldAtVersion
  split
  · trivial
  refine wpAtomic (fun _ _ moved _ => ?_)
  exact ⟨.single (Change.field (committedAfter (relyAfter inv moved) committed)),fun _ => trivial⟩

theorem inRowKept (field : UserField) (user : User) :
    (field.inRow user).id = user.id ∧ (field.inRow user).authVersion = user.authVersion := by
  cases field <;> exact ⟨rfl,rfl⟩

theorem updateFieldSpec (allowed : limits.commit userId) :
    (agreement config limits ok).wp (updateUserField userId field) (fun _ _ => True) s := by
  refine wpAtomic (fun _ invNow _ _ => ⟨?_,fun _ => ?_⟩)
  · unfold Store.editUser
    split
    · exact .refl
    rename_i user found
    have stored := findUserStored found
    exact .single (Change.commit _ allowed stored ((inRowKept field user).1.trans (invNow.users.ids userId user stored).1)
      (inRowKept field user).2.ge)
  · refine wpRead (fun mid invMid _ _ => ?_)
    cases found : mid.findUser userId with
    | none => trivial
    | some user =>
      simp only
      split
      · trivial
      · exact fieldAtSpec invMid ⟨user,findUserStored found,le_refl _⟩

theorem refreshAttemptsSpec (attempts : Nat) (inv : Inv config s)
    (committed : Committed s userId authoritative.authVersion) :
    (agreement config limits ok).wp (refreshGroupAttempts userId authoritative attempts) (fun _ _ => True) s := by
  induction attempts generalizing s authoritative with
  | zero =>
    refine wpThen inv (fieldAtSpec inv committed) (fun r _ _ _ _ => ?_)
    cases r <;> trivial
  | succ attempts ih =>
    refine wpThen inv (fieldAtSpec inv committed) (fun r n _ _ _ => ?_)
    cases r with
    | error => trivial
    | ok =>
      refine wpRead (fun mid invMid _ _ => ?_)
      cases found : mid.findUser userId with
      | none => trivial
      | some verified =>
        simp only
        split
        · trivial
        · exact ih invMid ⟨verified,findUserStored found,le_refl _⟩

theorem refreshGroupSpec (userId) :
    (agreement config limits ok).wp (refreshUserGroupCache userId) (fun _ _ => True) s := by
  unfold refreshUserGroupCache
  split
  · trivial
  refine wpRead (fun now invNow _ _ => ?_)
  cases found : now.findUser userId with
  | none => trivial
  | some user => exact refreshAttemptsSpec 3 invNow ⟨user,findUserStored found,le_refl _⟩

end

inductive UserRequest where
  | get (userId : Int)
  | change (userId : Int) (change : User → User) (commits : Bool)
  | delete (userId : Int) (commits : Bool)
  | publish (userId : Int)
  | invalidate (userId : Int)
  | field (userId : Int) (field : UserField)
  | refreshGroup (userId : Int)

inductive UserReply where
  | user (r : Except AuthError UserBase)
  | version (r : Except AuthError Int)
  | unit (r : Except AuthError Unit)
  deriving DecidableEq

def userProgram (config : Config) : UserRequest → Call UserReply
  | .get userId => .user <$> getUserCache config userId
  | .change userId change commits => .version <$> changeUser config userId change commits
  | .delete userId commits => .version <$> deleteUserRow config userId commits
  | .publish userId => .unit <$> publishUserAuthCache config userId
  | .invalidate userId => (fun _ => .unit (.ok ())) <$> invalidateUserCache userId
  | .field userId field => .unit <$> updateUserField userId field
  | .refreshGroup userId => .unit <$> refreshUserGroupCache userId

abbrev UserSystem := System UserRequest Label Store UserReply

def always (_ : Option Label) (_ : Store) : Prop := True

def userPost (config : Config) (request : UserRequest) (began : Store) (reply : UserReply) (n : Store) : Prop :=
  match request,reply with
  | .get userId,.user (.ok base) => Snapshot config unlimited always began n userId base
  | .change userId _ _,.version (.ok version) => version ≤ n.committedVersion userId
  | .delete userId _,.version (.ok version) => version ≤ n.committedVersion userId
  | .publish userId,.unit (.ok ()) => ∀ version, Committed began userId version → version ≤ n.committedVersion userId
  | _,_ => True

theorem userSpec (config : Config) (request : UserRequest) (s : Store) (inv : Inv config s) :
    (agreement config unlimited always).wp (userProgram config request) (userPost config request s) s := by
  cases request with
  | get userId =>
    refine wpMap (wpMono (getUserSpec inv userId) (fun r n got => ?_))
    cases r with
    | error => trivial
    | ok base => exact got base rfl
  | change =>
    refine wpMap (wpMono (changeUserSpec trivial inv) (fun r n done => ?_))
    cases r with
    | error => trivial
    | ok version => exact (done version rfl).2
  | delete =>
    refine wpMap (wpMono (deleteRowSpec trivial inv) (fun r n done => ?_))
    cases r with
    | error => trivial
    | ok version => exact done version rfl
  | publish =>
    refine wpMap (wpMono (publishCacheSpec inv) (fun r n done => ?_))
    cases r with
    | error => trivial
    | ok => exact done rfl
  | invalidate userId => exact fun _ _ _ _ => ⟨.single (Change.drop userId),trivial⟩
  | field => exact wpMap (wpMono (updateFieldSpec trivial) (fun r n _ => trivial))
  | refreshGroup userId => exact wpMap (wpMono (refreshGroupSpec userId) (fun r n _ => trivial))

theorem userRun (config : Config) {sys out : UserSystem} {moves : List (Move UserRequest Nat)}
    (good : Good (agreement config unlimited always) (userPost config) sys)
    (h : run (step (userProgram config) tick) sys moves = some out) :
    Good (agreement config unlimited always) (userPost config) out ∧
      (agreement config unlimited always).rely sys.shared out.shared :=
  runGood (userSpec config) (fun s n _ => tickQuiet s n) good (alongMeets (fun _ _ => trivial) sys moves) h

def Publishes (userId version : Int) (p : Process UserRequest Label Store UserReply) : Prop :=
  match p.request,p.rest with
  | .change target _ _,.done (.version (.ok next)) => target = userId ∧ next = version
  | .delete target _,.done (.version (.ok next)) => target = userId ∧ next = version
  | .publish target,.done (.unit (.ok ())) => target = userId ∧ Committed p.began userId version
  | _,_ => False

theorem publishedFloor {config : Config} {sys : UserSystem} (good : Good (agreement config unlimited always) (userPost config) sys) (member : p ∈ sys.procs)
    (publishes : Publishes userId version p) : version ≤ sys.shared.committedVersion userId := by
  obtain ⟨s,invBegan,since,left,holds⟩ := good.procs p member
  have grows := (relyAfter (relyInv invBegan since) left).floor userId
  obtain ⟨request,began,rest⟩ := p
  unfold Publishes at publishes
  split at publishes
  · rename_i same answer
    subst same answer
    obtain ⟨rfl,rfl⟩ := publishes
    exact le_trans holds grows
  · rename_i same answer
    subst same answer
    obtain ⟨rfl,rfl⟩ := publishes
    exact le_trans holds grows
  · rename_i same answer
    subst same answer
    obtain ⟨rfl,committed⟩ := publishes
    exact le_trans (holds version committed) grows
  · cases publishes

theorem followedLookup (config : Config) {s : Store} {userId version : Int} (inv : Inv config s) :
    wp {agreement config unlimited always with ok := fun _ s => version ≤ s.pending userId}
      (userProgram config (.get userId)) (fun reply n => ∀ base, reply = .user (.ok base) →
        Inv config n ∧ version ≤ base.authVersion ∧ Committed n userId version) s := by
  have spec : (agreement config unlimited (fun _ s => version ≤ s.pending userId)).wp (getUserCache config userId) _ s :=
    wpReach inv (getUserSpec inv userId)
  refine wpMap (wpMono spec ?_)
  rintro r n ⟨got,invN,_⟩ base same
  cases r with
  | error => cases same
  | ok =>
    cases same
    obtain ⟨⟨user,found,bound⟩,_,_,_,_,passed⟩ := got base rfl
    unfold Store.authVersionFloor at passed
    have above : version ≤ base.authVersion := by omega
    exact ⟨invN,above,user,found,above.trans bound⟩

theorem livesFollows {sys : UserSystem} {move : Move UserRequest Nat} (i : Nat)
    (lives : version ≤ sys.shared.pending userId) : Follows (fun _ s => version ≤ s.pending userId) i sys move := by
  cases move with
  | act => exact fun _ _ _ => lives
  | start | env => trivial

theorem authVersionFence (config : Config) {start : Store} (blank : Blank start) {before : List (Move UserRequest Nat)}
    {sys : UserSystem} (reached : run (step (userProgram config) tick) ⟨start,[]⟩ before = some sys)
    (userId version : Int) :
    (∀ fence last, (sys.shared.userKeys userId).fence = some (fence,last) → version ≤ fence →
      ∀ moves out, run (step (userProgram config) tick) sys moves = some out → out.shared.clock ≤ last →
        ¬ Committed out.shared userId version → version ≤ out.shared.pending userId) ∧
    (∀ moves out, run (step (userProgram config) tick) sys (.start (.get userId)::moves) = some out →
      Along (step (userProgram config) tick) (fun sys _ => version ≤ sys.shared.pending userId) sys
        (.start (.get userId)::moves) →
      ∀ answering base, out.answered sys.procs.length = some (answering,.user (.ok base)) →
        version ≤ base.authVersion ∧ Committed out.shared userId version) ∧
    (∀ p ∈ sys.procs, Publishes userId version p →
      ∀ moves out, run (step (userProgram config) tick) sys (.start (.get userId)::moves) = some out →
      ∀ answering base, out.answered sys.procs.length = some (answering,.user (.ok base)) →
        version ≤ base.authVersion) := by
  have blankGood : Good (agreement config unlimited always) (userPost config) (⟨start,[]⟩ : UserSystem) :=
    ⟨blankInv config blank,fun p member => by cases member⟩
  have good := (userRun config blankGood reached).1
  refine ⟨?_,?_,?_⟩
  · intro fence last stored above moves out h running open_
    have moved := (userRun config good h).2
    have stable : (agreement config unlimited always).Stable (FenceStands userId version last) :=
      fun _ _ inv change stands => fenceStandsChange inv change stands
    exact standsPending (stable.rely good.inv moved (.inl ⟨fence,last,stored,above,le_refl _⟩)) running open_
  · intro moves out h lives answering base answered
    have own := @followedLookup config _ userId version good.inv
    obtain ⟨n,moved,rest⟩ := runCons h
    have meets : Meets (agreement config unlimited always) sys (.start (.get userId) : Move UserRequest Nat) := trivial
    have started := (stepGood (userSpec config) (fun s n _ => tickQuiet s n) good meets moved).1
    have allowed : Along (step (userProgram config) tick) (Follows (fun _ s => version ≤ s.pending userId)
        sys.procs.length) n moves :=
      alongWeaken (fun _ _ _ _ _ _ => trivial) (fun _ _ _ lives => livesFollows sys.procs.length lives) trivial
        (lives.2 n moved)
    cases moved
    obtain ⟨p,s,found,left,holds⟩ := runFollows (userSpec config) (fun s n _ => tickQuiet s n) started
      (alongMeets (fun _ _ => trivial) _ moves) allowed rest (List.getElem?_concat_length) .refl own
    obtain ⟨_,returned⟩ := System.answeredProcess answered
    cases Option.some.inj (returned.symm.trans found)
    obtain ⟨inv,bound,committed⟩ := holds base rfl
    exact ⟨bound,committedAfter (relyAfter inv left) committed⟩
  · intro p member publishes moves out h answering base answered
    obtain ⟨rfl,s,_,_,_,_,_,_,moved,passed⟩ := (userRun config good h).1.startedReturned h answered
    have floor := publishedFloor good member publishes
    have grows := (relyAfter good.inv moved).floor userId
    unfold Store.authVersionFloor at passed
    omega

def oneUser : Store where
  clock := 1000
  users := fun id => if id = 1 then some ⟨1,"root","default","",0,userStatusEnabled,100,"",1,false⟩ else none
  userKeys := fun _ => ⟨none,none,none⟩
  sessions := []
  sessionCache := fun _ => none
  history := fun _ => ⟨0,0,0⟩

theorem oneUserBlank : Blank oneUser where
  unique := by decide
  positive := by decide
  noEntries := fun _ => rfl
  noKeys := fun _ => rfl
  ids := by
    intro _ _ found
    simp only [oneUser] at found
    split at found
    · rename_i same
      cases found
      rw [same]
      exact ⟨rfl,by decide⟩
    · cases found
  past := by
    intro _
    have early : (0 : Int) ≤ 1000 := by decide
    exact early

def dayCached : Config := ⟨60,50,100,86400,id,id,fun _ => true⟩

theorem openFenceHolds : ∃ sys : UserSystem,
    run (step (userProgram dayCached) tick) ⟨oneUser,[]⟩ [.start (.change 1 id true),.act 0,.act 0] = some sys ∧
    sys.shared.pending 1 = 2 ∧
    ∀ moves out, run (step (userProgram dayCached) tick) sys (.start (.get 1)::moves) = some out →
      Along (step (userProgram dayCached) tick) (fun sys _ => 2 ≤ sys.shared.pending 1) sys (.start (.get 1)::moves) →
      ∀ answering base, out.answered sys.procs.length = some (answering,.user (.ok base)) →
        2 ≤ base.authVersion ∧ Committed out.shared 1 2 := by
  have evaluated : (run (step (userProgram dayCached) tick) (⟨oneUser,[]⟩ : UserSystem)
      [.start (.change 1 id true),.act 0,.act 0]).any (fun sys => sys.shared.pending 1 = 2) := by decide +kernel
  obtain ⟨sys,reached,pending⟩ := (Option.any_eq_true _ _).mp evaluated
  exact ⟨sys,reached,of_decide_eq_true pending,(authVersionFence dayCached oneUserBlank reached 1 2).2.1⟩

end Omnigate.Auth
