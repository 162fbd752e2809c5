import Omnigate.UserSessionRevocation

/-! Runs of the session programs under one clock, from any database and an empty Redis. A finished revocation stays in
force for every later lookup, as long as no final tombstone of `RevokeUserSession` meets a newer cached version. -/
namespace Omnigate.Auth

open Interleave Machine Contract Option

inductive SessionRequest where
  | get (sid : String)
  | create (session : UserSession)
  | rotate (userID : Int) (sid presentedHash nextHash : String) (now graceSeconds : Int)
  | advance (userID : Int) (sid : String) (expectedSessionVersion expectedUserAuthVersion nextUserAuthVersion : Int)
  | revoke (userID : Int) (sid reason : String)
  | revokeAll (userID : Int) (excludedSID reason : String) (rounds : Nat)
  deriving DecidableEq, Repr

inductive SessionReply where
  | session (r : Except AuthError UserSession)
  | rotation (r : Rotation)
  | revoked (r : Except AuthError Bool)
  | revokedAll (r : Except AuthError (List String))
  deriving DecidableEq

def sessionProgram (config : Config) : SessionRequest → Call SessionReply
  | .get sid => .session <$> getUserSessionCached config sid
  | .create session => .session <$> createUserSession config session
  | .rotate userID sid presentedHash nextHash now graceSeconds =>
    .rotation <$> rotateUserSessionRefresh config userID sid presentedHash nextHash now graceSeconds
  | .advance userID sid version authVersion next =>
    .session <$> advanceUserSessionAuthVersion config userID sid version authVersion next
  | .revoke userID sid reason => .revoked <$> revokeUserSession config userID sid reason
  | .revokeAll userID excludedSID reason rounds => .revokedAll <$> revokeUserSessions config userID excludedSID reason rounds

def Revokes (sid : String) : SessionRequest → SessionReply → Prop
  | .revoke _ target _,.revoked (.ok true) => target = sid
  | .revokeAll ..,.revokedAll (.ok sids) => sid ∈ sids
  | _,_ => False

def tombstoneFits (label : Option Label) (s : Store) : Bool :=
  match label with
  | some (.finalTombstone sid version) => s.cachedVersion sid ≤ version
  | _ => true

/- The condition on a run: where the final tombstone of `RevokeUserSession` is written, no newer version of that
session is cached. -/
def tombstonesFit (sys : System SessionRequest Label Store SessionReply) : Move SessionRequest Nat → Bool
  | .act i => match sys.procs[i]? with
    | some p => tombstoneFits p.rest.label sys.shared
    | none => true
  | _ => true

def sessionPost (config : Config) (request : SessionRequest) (began : Store) (reply : SessionReply) (n : Store) : Prop :=
  (∀ sid session, request = .get sid → reply = .session (.ok session) → ¬ Final config began sid) ∧
  (∀ sid, Revokes sid request reply → Final config n sid)

theorem sessionSpec (config : Config) (request : SessionRequest) (s : Store) (inv : Inv config s) :
    (agreement config unlimited (fun label s => tombstoneFits label s)).wp (sessionProgram config request)
      (sessionPost config request s) s := by
  cases request with
  | get sid =>
    refine wpMap (wpMono (getSpec inv sid) (fun r n got => ⟨?_,?_⟩))
    · intro sid' session same answer
      cases same
      cases answer
      exact (got session rfl).notFinal
    · intro sid' revokes
      cases revokes
  | create =>
    refine wpMap (wpMono createSpec (fun r n _ => ⟨?_,fun _ revokes => ?_⟩))
    · intro _ _ same; cases same
    · cases revokes
  | rotate =>
    refine wpMap (wpMono (rotateSpec trivial inv) (fun r n _ => ⟨?_,fun _ revokes => ?_⟩))
    · intro _ _ same; cases same
    · cases revokes
  | advance =>
    refine wpMap (wpMono (advanceSpec (fun _ _ _ => trivial)) (fun r n _ => ⟨?_,fun _ revokes => ?_⟩))
    · intro _ _ same; cases same
    · cases revokes
  | revoke userID sid =>
    refine wpMap (wpMono revokeSpec (fun r n done => ⟨?_,fun target revokes => ?_⟩))
    · intro _ _ same; cases same
    unfold Revokes at revokes
    split at revokes
    · rename_i same answer
      cases same
      cases answer
      subst revokes
      exact (done rfl).2 (fun sid version s fits => of_decide_eq_true fits)
    · rename_i same _
      cases same
    · cases revokes
  | revokeAll userID excludedSID reason rounds =>
    refine wpMap (wpMono
      (@revokeAllSpec config unlimited _ userID excludedSID reason 0 rounds s) (fun r n done => ⟨?_,fun target revokes => ?_⟩))
    · intro _ _ same; cases same
    unfold Revokes at revokes
    split at revokes
    · rename_i same _
      cases same
    · rename_i answer
      cases answer
      exact (done _ rfl).1 target revokes
    · cases revokes

theorem fitsMeets {config sys move} (fits : tombstonesFit sys move) :
    Meets (agreement config unlimited (fun label s => tombstoneFits label s)) sys move := by
  cases move with
  | start | env => trivial
  | act =>
    intro p found
    simp only [tombstonesFit,found] at fits
    exact fits

theorem sessionRun (config : Config) (good : Good (agreement config unlimited (fun label s => tombstoneFits label s)) (sessionPost config) sys)
    (fits : Along (step (sessionProgram config) tick) (fun sys move => tombstonesFit sys move) sys moves)
    (h : run (step (sessionProgram config) tick) sys moves = some out) :
    Good (agreement config unlimited (fun label s => tombstoneFits label s)) (sessionPost config) out := by
  have meets := @alongWeaken _ _ _ _ (fun _ => True) _ (fun _ _ _ _ _ _ => trivial)
    (fun _ _ _ fits => @fitsMeets config _ _ fits) _ _ trivial fits
  exact (runGood (sessionSpec config) (fun s n _ => tickQuiet s n) good meets h).1

theorem revocationStands (config : Config) {start : Store} (blank : Blank start) {sid : String}
    {before after : List (Move SessionRequest Nat)} {sys out : System SessionRequest Label Store SessionReply}
    (first : run (step (sessionProgram config) tick) ⟨start,[]⟩ before = some sys)
    (second : run (step (sessionProgram config) tick) sys (.start (.get sid)::after) = some out)
    (fits : Along (step (sessionProgram config) tick) (fun sys move => tombstonesFit sys move) ⟨start,[]⟩
      (before ++ .start (.get sid)::after))
    {i : Nat} {request : SessionRequest} {reply : SessionReply} (returned : sys.answered i = some (request,reply))
    (revoked : Revokes sid request reply) {answering : SessionRequest} {answer : SessionReply}
    (answered : out.answered sys.procs.length = some (answering,answer)) :
    ∀ session, answer = .session (.ok session) → session.status ≠ .active := by
  rintro session rfl
  obtain ⟨fitsFirst,fitsSecond⟩ := alongAppend fits first
  have blankGood : Good (agreement config unlimited (fun label s => tombstoneFits label s)) (sessionPost config)
      ⟨start,[]⟩ := ⟨blankInv config blank,fun p member => by cases member⟩
  have good := sessionRun config blankGood fitsFirst first
  have goodOut := sessionRun config good fitsSecond second
  obtain ⟨_,s,invBegan,since,left,_,done⟩ := good.returned returned
  have final : Final config sys.shared sid :=
    (finalStable config unlimited _ sid).rely (relyInv invBegan since) left (done sid revoked)
  obtain ⟨rfl,_,_,_,alive,_⟩ := goodOut.startedReturned second answered
  exact absurd final (alive sid session rfl rfl)

def onceCached : Config := ⟨60,50,100,86400,id,id,fun _ => true⟩

def browser : UserSession where
  sid := "s"
  userID := 1
  version := 1
  userAuthVersion := 1
  status := .active
  refreshHash := "h"
  previousRefreshHash := ""
  previousValidUntil := 0
  loginMethod := "password"
  ip := ""
  userAgent := ""
  createdAt := 1
  lastActiveAt := 1
  expiresAt := 100000
  revokedAt := 0
  revokedReason := ""

def oneSession : Store where
  clock := 1000
  users := fun _ => none
  userKeys := fun _ => ⟨none,none,none⟩
  sessions := [browser]
  sessionCache := fun _ => none
  history := fun _ => ⟨0,0,0⟩

theorem oneSessionBlank : Blank oneSession where
  unique := by decide
  positive := by decide
  noEntries := fun _ => rfl
  noKeys := fun _ => rfl
  ids := by
    intro _ _ found
    cases found
  past := by
    intro _
    have early : (0 : Int) ≤ 1000 := by decide
    exact early

def promptRevocation : List (Move SessionRequest Nat) :=
  [.start (.revoke 1 "s" "logout"),.act 0,.act 0,.act 0,.act 0,.act 0,.act 0,.act 0]

theorem promptRevocationStands : ∃ sys out,
    run (step (sessionProgram onceCached) tick) ⟨oneSession,[]⟩ promptRevocation = some sys ∧
    sys.answered 0 = some (.revoke 1 "s" "logout",.revoked (.ok true)) ∧
    run (step (sessionProgram onceCached) tick) sys [.start (.get "s"),.act 1,.act 1] = some out ∧
    out.answered sys.procs.length = some (.get "s",.session (.error .userSessionInactive)) ∧
    ∀ session, SessionReply.session (.error .userSessionInactive) = .session (.ok session) → session.status ≠ .active := by
  have evaluated : (run (step (sessionProgram onceCached) tick) ⟨oneSession,[]⟩ promptRevocation).any (fun sys =>
      sys.answered 0 = some (.revoke 1 "s" "logout",.revoked (.ok true)) &&
      (run (step (sessionProgram onceCached) tick) sys [.start (.get "s"),.act 1,.act 1]).any (fun out =>
        out.answered sys.procs.length = some (.get "s",.session (.error .userSessionInactive)))) := by decide +kernel
  have fits : checkAlong (step (sessionProgram onceCached) tick) tombstonesFit ⟨oneSession,[]⟩
      (promptRevocation ++ [.start (.get "s"),.act 1,.act 1]) := by decide +kernel
  obtain ⟨sys,reached,holds⟩ := (any_eq_true _ _).mp evaluated
  simp only [Bool.and_eq_true,decide_eq_true_eq] at holds
  obtain ⟨out,looked,answered⟩ := (any_eq_true _ _).mp holds.2
  rw [decide_eq_true_eq] at answered
  exact ⟨sys,out,reached,holds.1,looked,answered,
    revocationStands onceCached oneSessionBlank reached looked (alongChecked fits) holds.1 rfl answered⟩

/- `RevokeUserSession` reads the session at version 1 and publishes its fence, which expires while it is paused;
`AdvanceUserSessionAuthVersion` caches version 2. The row is then revoked, but the script refuses the tombstone of
version 1. -/
def pausedRevocation : List (Move SessionRequest Nat) :=
  [.start (.revoke 1 "s" "logout"),.act 0,.act 0,.act 0,.act 0,.env 60001,
    .start (.advance 1 "s" 1 1 2),.act 1,.act 1,.act 1,.act 1,.act 1,.act 1,.act 0,.act 0,.act 0]

def staleCopy : UserSession := { browser with version := 2, userAuthVersion := 2, lastActiveAt := 61, refreshHash := "" }

theorem lateTombstoneRefused : ∃ sys out,
    run (step (sessionProgram onceCached) tick) ⟨oneSession,[]⟩ pausedRevocation = some sys ∧
    sys.answered 0 = some (.revoke 1 "s" "logout",.revoked (.ok true)) ∧
    run (step (sessionProgram onceCached) tick) sys [.start (.get "s"),.act 2,.act 2] = some out ∧
    out.answered sys.procs.length = some (.get "s",.session (.ok staleCopy)) ∧ staleCopy.status = .active := by decide +kernel

end Omnigate.Auth
