import Omnigate.LoginAgreement
import Omnigate.UserSessionFinality

/-! Runs of the login service. A finished security change kills the older access tokens of the user and every other
session created with an older auth version, also those whose logins and refreshes are in flight; a login that reads
its user after the change is not caught. -/
namespace Omnigate.Auth

open Interleave Machine Contract Option

inductive LoginRequest where
  | login (login : Login)
  | loginAtVersion (login : Login)
  | validate (identity : AuthIdentity)
  | refresh (rawRefreshToken expectedSID ip userAgent : String)
  | bump (identity : AuthIdentity) (reason : String) (rounds : Nat)
  | secure (identity : AuthIdentity) (change : User → User) (reason : String) (rounds : Nat)
  | change (userId : Int) (change : User → User) (commits : Bool)
  | logout (userID : Int) (sid reason : String)

inductive LoginReply where
  | bundle (r : Except AuthError AuthBundle)
  | validated (r : Except AuthError (UserSession × UserBase))
  | refreshed (r : Except AuthError (AuthBundle × User))
  | version (r : Except AuthError Int)
  | revoked (r : Except AuthError Bool)
  deriving DecidableEq

def LoginReply.issued : LoginReply → Option AuthBundle
  | .bundle (.ok login) => some login
  | _ => none

def LoginReply.renewed : LoginReply → Option (AuthBundle × User)
  | .refreshed (.ok got) => some got
  | _ => none

theorem issuedBy {reply : LoginReply} (h : reply.issued = some bundle) : reply = .bundle (.ok bundle) := by
  unfold LoginReply.issued at h
  split at h <;> cases h
  rfl

theorem renewedBy {reply : LoginReply} (h : reply.renewed = some got) : reply = .refreshed (.ok got) := by
  unfold LoginReply.renewed at h
  split at h <;> cases h
  rfl

def secureSession (config : Config) (identity : AuthIdentity) (change : User → User) (reason : String) (rounds : Nat) :
    Call (Except AuthError AuthBundle) := do
  match ← changeUser config identity.userID change true with
  | .error err => pure (.error err)
  | .ok _ => advanceCurrentSessionToUserVersion config identity reason rounds

def loginProgram (config : Config) : LoginRequest → Call LoginReply
  | .login login => .bundle <$> createLoginSession config {login with expectedAuthVersion := 0}
  | .loginAtVersion login => .bundle <$> createLoginSessionAtAuthVersion config login
  | .validate identity => .validated <$> validateLoginSession config identity
  | .refresh raw expectedSID ip userAgent => .refreshed <$> refreshLoginSession config raw expectedSID ip userAgent
  | .bump identity reason rounds =>
    .bundle <$> authenticated config identity (advanceCurrentSessionSecurity config identity reason rounds)
  | .secure identity change reason rounds =>
    .bundle <$> authenticated config identity (secureSession config identity change reason rounds)
  | .change userId change commits => .version <$> changeUser config userId change commits
  | .logout userID sid reason => .revoked <$> revokeUserSession config userID sid reason

abbrev LoginSystem := System LoginRequest Label Store LoginReply

def bornAgreement (config : Config) : Contract Label Store :=
  (agreement config bornLimits always).also Births (birthsStable config always)

def loginPost (config : Config) (request : LoginRequest) (began : Store) (reply : LoginReply) (n : Store) : Prop :=
  match request,reply with
  | .login login,.bundle (.ok bundle) => LoggedIn n {login with expectedAuthVersion := 0} bundle
  | .loginAtVersion login,.bundle (.ok bundle) => 0 < login.expectedAuthVersion ∧ LoggedIn n login bundle
  | .validate identity,.validated (.ok _) => began.committedVersion identity.userID ≤ identity.userAuthVersion
  | .refresh raw _ _ _,.refreshed (.ok _) =>
    ∃ sid secret, splitRefreshToken config raw = some (sid,secret) ∧ Refreshed began n sid
  | .bump identity _ _,.bundle (.ok bundle) => Bumped began n identity bundle.accessToken.userAuthVersion
  | _,_ => True

theorem secureSpec {change} (inv : Inv config s)
    (born : (∃ row, s.session identity.sessionID = some row) ∧ ¬ Stillborn s identity.sessionID) :
    (agreement config bornLimits always).wp (secureSession config identity change reason rounds) (fun _ _ => True) s := by
  refine wpThen inv (changeUserSpec trivial inv) (fun r n _ invN reached => ?_)
  cases r with
  | error => trivial
  | ok => exact toUserVersionSpec invN (bornAfter (relyAfter inv reached) born)

attribute [local irreducible] splitRefreshToken

theorem loginRequestSpec (config request s) (good : (bornAgreement config).inv s) :
    (bornAgreement config).wp (loginProgram config request) (loginPost config request s) s := by
  obtain ⟨inv,births⟩ := good
  refine wpAlso ?_
  cases request with
  | login =>
    refine wpMap (wpMono (loginSpec inv _) (fun r n done => ?_))
    cases r with
    | error => trivial
    | ok bundle => exact done bundle rfl
  | loginAtVersion login =>
    refine wpMap ?_
    unfold createLoginSessionAtAuthVersion
    split
    · trivial
    refine wpMono (loginSpec inv login) (fun r n done => ?_)
    cases r with
    | error => trivial
    | ok bundle => exact ⟨by omega,done bundle rfl⟩
  | validate identity =>
    refine wpMap (wpMono (validateSpec inv births identity) (fun r n done => ?_))
    cases r with
    | error => trivial
    | ok got => exact (done got rfl).floor
  | refresh =>
    refine wpMap (wpMono (refreshSpec (fun _ _ _ => trivial) inv) (fun r n done => ?_))
    cases r with
    | error => trivial
    | ok got => exact done got rfl
  | bump identity =>
    refine wpMap (wpMono (@authenticatedSpec config always _ s identity _
      (fun bundle n => Bumped s n identity bundle.accessToken.userAuthVersion) inv births ?_) (fun r n done => ?_))
    · intro n invN reached validated
      refine wpMono (bumpSpec invN validated.born) (fun r m done bundle same => ?_)
      have bumped := done bundle same
      exact ⟨((relyAfter inv reached).floor _).trans_lt bumped.above,bumped.published,bumped.cleared⟩
    cases r with
    | error => trivial
    | ok bundle => exact done bundle rfl
  | secure identity =>
    refine wpMap (wpMono (@authenticatedSpec config always _ s identity _ (fun _ _ => True) inv births
      (fun n invN _ validated => ?_)) (fun r n _ => ?_))
    · exact wpMono (secureSpec invN validated.born) (fun _ _ _ _ _ => trivial)
    · cases r <;> trivial
  | change => exact wpMap (wpMono (changeUserSpec trivial inv) (fun _ _ _ => trivial))
  | logout => exact wpMap (wpMono revokeSpec (fun _ _ _ => trivial))

theorem loginRun (config) {sys out : LoginSystem} (good : Good (bornAgreement config) (loginPost config) sys)
    (h : run (step (loginProgram config) tick) sys moves = some out) :
    Good (bornAgreement config) (loginPost config) out ∧ After sys.shared out.shared := by
  have quiet : ∀ s n, (bornAgreement config).inv s → (bornAgreement config).rely s (tick s n) :=
    fun s n _ => .single (Change.tick n)
  obtain ⟨goodOut,moved⟩ := runGood (loginRequestSpec config) quiet good (alongMeets (fun _ _ => trivial) sys moves) h
  exact ⟨goodOut,@relyAfter config bornLimits always _ _ good.inv.1 moved⟩

def OldLogin (userID version : Int) (sid : String) : LoginRequest → LoginReply → Prop
  | .login login,.bundle (.ok bundle) =>
    login.userID = userID ∧ login.sid = sid ∧ bundle.accessToken.userAuthVersion < version
  | .loginAtVersion login,.bundle (.ok _) =>
    login.userID = userID ∧ login.sid = sid ∧ login.expectedAuthVersion < version
  | _,_ => False

def OldSession (before after : LoginSystem) (userID version : Int) (sid : String) : Prop :=
  (∃ row, before.shared.session sid = some row ∧ row.userID = userID) ∨
  ∃ i request reply, after.answered i = some (request,reply) ∧ OldLogin userID version sid request reply

theorem oldLoginBorn {sys : LoginSystem} (good : Good (bornAgreement config) (loginPost config) sys)
    (answered : sys.answered i = some (request,reply))
    (old : OldLogin userID version sid request reply) :
    ∃ row, sys.shared.session sid = some row ∧ row.userID = userID ∧ (sys.shared.history sid).birthVersion < version := by
  obtain ⟨_,s,invBegan,since,left,done⟩ := good.returned answered
  have invS : Inv config s := (relyInv invBegan since).1
  have after : After s sys.shared := @relyAfter config bornLimits always _ _ invS left
  have carried : ∀ row, s.session sid = some row → row.userID = userID → (s.history sid).birthVersion < version →
      ∃ row, sys.shared.session sid = some row ∧ row.userID = userID ∧
        (sys.shared.history sid).birthVersion < version := by
    intro row found user birth
    obtain ⟨later,foundLater,rowAfter⟩ := after.rows sid row found
    exact ⟨later,foundLater,rowAfter.user.trans user,by rw [rowAfter.birthVersion]; exact birth⟩
  unfold OldLogin at old
  split at old
  · obtain ⟨rfl,rfl,below⟩ := old
    obtain ⟨row,found,user,birth⟩ := LoggedIn.born done
    exact carried row found user (by rw [birth]; exact below)
  · obtain ⟨rfl,rfl,below⟩ := old
    obtain ⟨positive,logged⟩ := done
    obtain ⟨row,found,user,birth⟩ := logged.born
    exact carried row found user (by rw [birth,logged.expected positive]; exact below)
  · cases old

theorem oldRefused (after : After s n)
    (births : Births n) (published : version ≤ s.committedVersion userID) (cleared : Cleared s userID kept version)
    (found : s.session sid = some row) (user : row.userID = userID) (other : sid ≠ kept)
    (old : (s.history sid).birthFloor < version ∨ (s.history sid).birthVersion < version) : ¬ Refreshed s n sid := by
  rintro ⟨alive,later,foundLater,bound⟩
  obtain ⟨active,_⟩ := alive row found
  rcases cleared sid row found user other with ended | _ | _
  · exact ended active
  · omega
  obtain ⟨_,found',rowAfter⟩ := after.rows sid row found
  cases some.inj (found'.symm.trans foundLater)
  have still : Stillborn n sid := by
    unfold Stillborn
    rw [rowAfter.birthVersion,rowAfter.birthFloor]
    omega
  have version_ := births.kept sid later foundLater still
  rw [rowAfter.birthVersion] at version_
  rw [rowAfter.user,user] at bound
  omega

theorem bumpKillsOldCredentials (config : Config) {start : Store} (blank : Blank start)
    (unborn : ∀ sid, (start.history sid).birthVersion = 0 ∧ (start.history sid).birthFloor = 0)
    {earlier during : List (Move LoginRequest Nat)} {before after : LoginSystem} {identity : AuthIdentity}
    {reason : String} {rounds : Nat} (first : run (step (loginProgram config) tick) ⟨start,[]⟩ earlier = some before)
    (second : run (step (loginProgram config) tick) before (.start (.bump identity reason rounds)::during) = some after)
    {changing : LoginRequest} {bundle : AuthBundle}
    (returned : after.answered before.procs.length = some (changing,.bundle (.ok bundle)))
    {later : List (Move LoginRequest Nat)} {out : LoginSystem} :
    (∀ token, run (step (loginProgram config) tick) after (.start (.validate token)::later) = some out →
      token.userID = identity.userID → token.userAuthVersion < bundle.accessToken.userAuthVersion →
      ∀ answering reply, out.answered after.procs.length = some (answering,reply) → ∀ got, reply ≠ .validated (.ok got)) ∧
    (∀ raw expectedSID ip userAgent,
      run (step (loginProgram config) tick) after (.start (.refresh raw expectedSID ip userAgent)::later) = some out →
      ∀ sid secret, splitRefreshToken config raw = some (sid,secret) → sid ≠ identity.sessionID →
      OldSession before after identity.userID bundle.accessToken.userAuthVersion sid →
      ∀ answering reply, out.answered after.procs.length = some (answering,reply) → ∀ got, reply ≠ .refreshed (.ok got)) := by
  have births : Births start := by
    refine ⟨fun sid row _ => ?_,fun sid row _ still => ?_⟩
    · rw [(unborn sid).2]
      unfold Store.committedVersion
      rw [blank.noKeys]
      exact le_refl _
    unfold Stillborn at still
    rw [(unborn sid).1,(unborn sid).2] at still
    omega
  have blankGood : Good (bornAgreement config) (loginPost config) (⟨start,[]⟩ : LoginSystem) :=
    ⟨⟨blankInv config blank,births⟩,fun p member => by cases member⟩
  have goodBefore := (loginRun config blankGood first).1
  obtain ⟨goodAfter,since⟩ := loginRun config goodBefore second
  obtain ⟨rfl,s,reached,left,bumped⟩ := goodAfter.startedReturned second returned
  have invS : Inv config s := (relyInv goodBefore.inv reached).1
  have settled : After s after.shared := @relyAfter config bornLimits always _ _ invS left
  have published : bundle.accessToken.userAuthVersion ≤ after.shared.committedVersion identity.userID :=
    (Bumped.published bumped).trans (settled.floor _)
  have cleared := clearedAfter settled (Bumped.published bumped) (Bumped.cleared bumped)
  refine ⟨?_,?_⟩
  · rintro token third user _ answering reply answered got rfl
    obtain ⟨goodOut,_⟩ := loginRun config goodAfter third
    obtain ⟨rfl,n,_,_,floor⟩ := goodOut.startedReturned third answered
    have above : after.shared.committedVersion token.userID ≤ token.userAuthVersion := floor
    rw [user] at above
    omega
  rintro raw expectedSID ip userAgent third sid secret split_ other old answering reply answered got rfl
  obtain ⟨goodOut,_⟩ := loginRun config goodAfter third
  obtain ⟨rfl,n,moved,_,_,_,split',refreshed⟩ := goodOut.startedReturned third answered
  cases some.inj (split'.symm.trans split_)
  have invN := relyInv goodAfter.inv moved
  have toN : After after.shared n := @relyAfter config bornLimits always _ _ goodAfter.inv.1 moved
  rcases old with ⟨row,found,user⟩ | ⟨i,_,reply,finished,oldLogin⟩
  · obtain ⟨_,found',rowAfter⟩ := since.rows sid row found
    refine oldRefused toN invN.2 published cleared found' (rowAfter.user.trans user) other (.inl ?_) refreshed
    have floor := goodBefore.inv.2.floor sid row found
    have above := Bumped.above bumped
    rw [rowAfter.birthFloor]
    rw [user] at floor
    omega
  · obtain ⟨row,found,user,birth⟩ := oldLoginBorn goodAfter finished oldLogin
    exact oldRefused toN invN.2 published cleared found user other (.inr birth) refreshed

def otherBrowser : UserSession := { browser with sid := "t" }

def household : Store := {oneUser with sessions := [browser,otherBrowser]}

theorem householdBlank : Blank household := {oneUserBlank with unique := by decide, positive := by decide}

def browserIdentity : AuthIdentity := ⟨1,"s",1,1⟩

def promptBump : List (Move LoginRequest Nat) :=
  .start (.bump browserIdentity "password_changed" 2)::List.replicate 31 (.act 0)

theorem otherBrowserRefused : ∃ after out, ∃ changing bundle answering reply,
    run (step (loginProgram dayCached) tick) ⟨household,[]⟩ promptBump = some after ∧
    after.answered 0 = some (changing,.bundle (.ok bundle)) ∧
    run (step (loginProgram dayCached) tick) after [.start (.refresh "t.h" "" "" ""),.act 1,.act 1] = some out ∧
    out.answered 1 = some (answering,reply) ∧ ∀ got, reply ≠ .refreshed (.ok got) := by
  have evaluated : (run (step (loginProgram dayCached) tick) (⟨household,[]⟩ : LoginSystem) promptBump).any (fun after =>
      after.procs.length = 1 && (after.answered 0).any (fun answer => answer.2.issued.isSome) &&
      (run (step (loginProgram dayCached) tick) after [.start (.refresh "t.h" "" "" ""),.act 1,.act 1]).any
        (fun out => (out.answered 1).isSome)) := by decide +kernel
  have token : splitRefreshToken dayCached "t.h" = some ("t","h") := by decide +kernel
  obtain ⟨after,changed,holds⟩ := (any_eq_true _ _).mp evaluated
  simp only [Bool.and_eq_true,decide_eq_true_eq] at holds
  obtain ⟨⟨alone,answered⟩,asked⟩ := holds
  obtain ⟨⟨changing,answer⟩,returned,success⟩ := (any_eq_true _ _).mp answered
  obtain ⟨out,looked,some_⟩ := (any_eq_true _ _).mp asked
  obtain ⟨⟨answering,reply⟩,replied⟩ := isSome_iff_exists.mp some_
  obtain ⟨bundle,issued⟩ := isSome_iff_exists.mp success
  cases issuedBy issued
  refine ⟨after,out,changing,bundle,answering,reply,changed,returned,looked,replied,?_⟩
  rw [← alone] at replied
  have nothing : run (step (loginProgram dayCached) tick) ⟨household,[]⟩ [] = some ⟨household,[]⟩ := rfl
  exact (bumpKillsOldCredentials dayCached householdBlank (fun _ => ⟨rfl,rfl⟩) nothing changed returned).2 "t.h" "" "" ""
    looked "t" "h" token (by decide) (.inl ⟨otherBrowser,rfl,rfl⟩) answering reply replied

/- `CreateLoginSession` expects no version: a login whose password was checked before the change and which reads its
user afterwards gets the new version. -/
def slowLogin : Login := ⟨1,0,"password","","","n","x"⟩

def overtakenLogin : List (Move LoginRequest Nat) :=
  .start (.bump browserIdentity "password_changed" 2)::List.replicate 31 (.act 1) ++ List.replicate 11 (.act 0)

theorem overtakenLoginSurvives : ∃ before after out, ∃ changing logging answering bundle issued got,
    run (step (loginProgram dayCached) tick) ⟨household,[]⟩ [.start (.login slowLogin)] = some before ∧
    run (step (loginProgram dayCached) tick) before overtakenLogin = some after ∧
    after.answered before.procs.length = some (changing,.bundle (.ok bundle)) ∧
    after.answered 0 = some (logging,.bundle (.ok issued)) ∧ issued.refreshToken = "n.x" ∧
    run (step (loginProgram dayCached) tick) after (.start (.refresh "n.x" "" "" "")::List.replicate 14 (.act 2)) =
      some out ∧
    out.answered after.procs.length = some (answering,.refreshed (.ok got)) := by
  have evaluated : (run (step (loginProgram dayCached) tick) (⟨household,[]⟩ : LoginSystem) [.start (.login slowLogin)]).any
      (fun before => (run (step (loginProgram dayCached) tick) before overtakenLogin).any (fun after =>
        (after.answered before.procs.length).any (fun answer => answer.2.issued.isSome) &&
        (after.answered 0).any (fun answer => answer.2.issued.any (fun issued => issued.refreshToken = "n.x")) &&
        (run (step (loginProgram dayCached) tick) after
          (.start (.refresh "n.x" "" "" "")::List.replicate 14 (.act 2))).any (fun out =>
            (out.answered after.procs.length).any (fun answer => answer.2.renewed.isSome)))) := by decide +kernel
  obtain ⟨before,started,holds⟩ := (any_eq_true _ _).mp evaluated
  obtain ⟨after,changed,holds⟩ := (any_eq_true _ _).mp holds
  simp only [Bool.and_eq_true] at holds
  obtain ⟨⟨bumped,logged⟩,asked⟩ := holds
  obtain ⟨⟨changing,answer⟩,returned,success⟩ := (any_eq_true _ _).mp bumped
  obtain ⟨⟨logging,login⟩,entered,issue⟩ := (any_eq_true _ _).mp logged
  obtain ⟨out,looked,refreshed⟩ := (any_eq_true _ _).mp asked
  obtain ⟨⟨answering,_⟩,replied,renewed⟩ := (any_eq_true _ _).mp refreshed
  obtain ⟨bundle,bumpIssued⟩ := isSome_iff_exists.mp success
  obtain ⟨issued,loginIssued,token⟩ := (any_eq_true _ _).mp issue
  obtain ⟨got,again⟩ := isSome_iff_exists.mp renewed
  cases issuedBy bumpIssued
  cases issuedBy loginIssued
  cases renewedBy again
  exact ⟨before,after,out,changing,logging,answering,bundle,issued,got,started,changed,returned,entered,
    of_decide_eq_true token,looked,replied⟩

end Omnigate.Auth
