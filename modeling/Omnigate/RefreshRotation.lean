import Omnigate.RefreshSettled
import Omnigate.UserSessionFinality

/-! Runs of any number of refresh calls: the stored digest walks along the chain one compare-and-swap at a time, a
successful call hands out the successor, a reused secret ends the session, and an unknown one leaves it alone. -/
namespace Omnigate.Auth

open Interleave Machine Duty Option

attribute [local irreducible] splitRefreshToken

def seatedDuty (seat : Seat) (_ : RefreshRequest) : Duty Label Store := seatDuty seat True (Settled seat) (fun _ held => held)

variable {seat : Seat}

theorem tickSettled (n : Nat) (settled : Settled seat s) : Settled seat (tick s n) :=
  {settled with}

theorem tickLater (seat s) (n : Nat) : Later seat s (tick s n) := ⟨by simp [tick],id⟩

theorem tickDenied (denied : Denied seat (tick s n)) : Denied seat s := by
  obtain ⟨entry,found,status⟩ := denied
  obtain ⟨last,stored,lives⟩ := liveSome found
  refine ⟨entry,?_,status⟩
  have stored' : s.sessionCache seat.sid = some (entry,last) := stored
  have lives' : s.clock + n ≤ last := lives
  unfold Store.cached live
  rw [stored']
  simp only
  rw [if_neg (by omega)]

theorem seatFits (config : Config) (seat : Seat) : Fits (refreshProgram config) tick (Settled seat) (seatedDuty seat)
    (fun _ (_ : RefreshReply) _ => True) where
  holds := fun _ _ settled => settled
  keeps := fun _ _ _ _ _ _ serves => ⟨serves.settled,fun _ => serves.later⟩
  quiet := fun s n settled => ⟨tickSettled n settled,fun _ => tickLater seat s n⟩
  spec := by
    intro request s settled
    obtain ⟨row,_⟩ := settled.row
    exact eachMono (@refreshServes config seat True False (Settled seat) (fun _ held => held) row
      request.rawRefreshToken request.expectedSID request.ip request.userAgent s (fun _ _ _ _ => .inl trivial)
      (fun never => never.elim) (fun never => never.elim)) (fun _ _ _ => trivial)

abbrev Seated (seat : Seat) (sys : RefreshSystem) : Prop :=
  Kept (Settled seat) (seatedDuty seat) (fun _ (_ : RefreshReply) _ => True) sys

abbrev Chained (config : Config) (sys : RefreshSystem) : Prop :=
  Kept (fun _ => True) (refreshDuty config) (fun request reply _ => Handed config request.rawRefreshToken reply) sys

def Standing (seat : Seat) (sys : RefreshSystem) : Prop :=
  ∃ (j : Nat) (p : Process RefreshRequest Label Store RefreshReply) (act : Store → Store), sys.procs[j]? = some p ∧
    p.rest.head = some act ∧ Ends seat act

def Doomed (seat : Seat) (sys : RefreshSystem) : Prop := Dead seat sys.shared ∨ Standing seat sys

variable {config : Config} {out sys : RefreshSystem} {moves : List (Move RefreshRequest Nat)}

theorem laterRun (seated : Seated seat sys) (h : run (step (refreshProgram config) tick) sys moves = some out) :
    Later seat sys.shared out.shared := by
  have later : (seatDuty seat True (Settled seat) (fun _ held => held)).later sys.shared out.shared :=
    runLater (seatFits config seat) (fun _ _ _ _ _ _ serves => serves.later) (fun s n _ => tickLater seat s n) seated h
  exact later

theorem doomedStep {n : RefreshSystem} (seated : Seated seat sys)
    (h : step (refreshProgram config) tick sys move = some n) (doomed : Doomed seat sys) : Doomed seat n := by
  have single : run (step (refreshProgram config) tick) sys [move] = some n := by simp only [run,h,bind_some]
  have later := laterRun seated single
  rcases doomed with dead | ⟨j,p,act,found,head,ends⟩
  · exact .inl (laterDead later dead)
  cases move with
  | start =>
    cases h
    exact .inr ⟨j,p,act,by rw [List.getElem?_append_left (List.getElem?_eq_some_iff.mp found).1]; exact found,head,ends⟩
  | env => cases h; exact .inr ⟨j,p,act,found,head,ends⟩
  | act i =>
    obtain ⟨request,_,_,_,_,at_,rfl⟩ := stepAct h
    by_cases same : i = j
    · subst same
      cases some.inj (at_.symm.trans found)
      cases head
      exact .inl (.inl (ends sys.shared seated.inv))
    · exact .inr ⟨j,p,act,by rw [List.getElem?_set_ne same]; exact found,head,ends⟩

theorem doomedRun (seated : Seated seat sys) (h : run (step (refreshProgram config) tick) sys moves = some out)
    (doomed : Doomed seat sys) : Doomed seat out := by
  induction moves generalizing sys with
  | nil => cases h; exact doomed
  | cons _ moves ih =>
    obtain ⟨n,moved,rest⟩ := runCons h
    exact ih (stepKept (seatFits config seat) seated moved).1 rest (doomedStep seated moved doomed)

theorem denialStep {n : RefreshSystem} (seated : Seated seat sys)
    (h : step (refreshProgram config) tick sys move = some n) (guard : Denied seat sys.shared → Doomed seat sys) :
    Denied seat n.shared → Doomed seat n := by
  intro denied
  have acted := (stepKept (seatFits config seat) seated h).2
  cases move with
  | start =>
    rw [show n.shared = sys.shared from acted] at denied
    exact doomedStep seated h (guard denied)
  | env e =>
    rw [show n.shared = tick sys.shared e from acted] at denied
    exact doomedStep seated h (guard (tickDenied denied))
  | act i =>
    obtain ⟨p,q,_,at_,_,serves⟩ := acted
    rcases serves.denied denied with before | dead | ⟨act,head,ends⟩
    · exact doomedStep seated h (guard before)
    · exact .inl dead
    · exact .inr ⟨i,q,act,at_,head,ends⟩

theorem denialRun (seated : Seated seat sys) (h : run (step (refreshProgram config) tick) sys moves = some out)
    (guard : Denied seat sys.shared → Doomed seat sys) : Denied seat out.shared → Doomed seat out := by
  induction moves generalizing sys with
  | nil => cases h; exact guard
  | cons _ moves ih =>
    obtain ⟨n,moved,rest⟩ := runCons h
    exact ih (stepKept (seatFits config seat) seated moved).1 rest (denialStep seated moved guard)

def RotatedOn (config : Config) (sid secret : String) (k : Nat) (s : Store) : Prop :=
  ∃ k' row, s.session sid = some row ∧ OnChain config sid secret k' row ∧ k < k'

theorem reuseEnds (free : CollisionFree config seat.sid secret) (chained : Chained config sys)
    (seated : Seated seat sys) (guard : Denied seat sys.shared → Doomed seat sys) (found : sys.shared.session seat.sid = some row) (onChain : OnChain config seat.sid secret (k + 1) row)
    (active : row.status = .active) (passed : row.previousValidUntil < sys.shared.unix)
    (token : splitRefreshToken config request.rawRefreshToken = some (seat.sid,refreshChain config seat.sid secret k))
    (expected : Text.trimSpace request.expectedSID = "" ∨ Text.trimSpace request.expectedSID = seat.sid)
    (h : run (step (refreshProgram config) tick) sys (.start request::moves) = some out) (answered : out.answered sys.procs.length = some (answering,reply)) :
    Doomed seat out ∨ RotatedOn config seat.sid secret (k + 1) out.shared := by
  have digest : Reused row (hashRefreshSecret config (refreshChain config seat.sid secret k)) := by
    refine ⟨active,fun same => ?_,onChain.previous,free.nonempty _⟩
    have equal := free.chain _ _ (free.digests _ _ (onChain.stored.symm.trans same))
    omega
  have differs : hashRefreshSecret config (refreshChain config seat.sid secret k) ≠
      hashRefreshSecret config (deriveNextRefreshSecret config seat.sid (refreshChain config seat.sid secret k)) := by
    intro same
    have equal := free.chain k (k + 1) (free.digests _ _ same)
    omega
  let holds : Store → Prop := fun s => Settled seat s ∧ Sure seat row s ∧ row.previousValidUntil < s.unix
  have each := @refreshServes config seat True True holds (fun _ held => held.1) row request.rawRefreshToken
    request.expectedSID request.ip request.userAgent sys.shared (fun _ _ _ _ => .inl trivial) (fun _ _ held => held.2.1)
    (fun _ => ⟨_,token,expected,digest,fun _ held => held.2.2,free.nonempty _,differs⟩)
  obtain ⟨n,moved,rest⟩ := runCons h
  have chainedNext := (stepKept (rowFits config) chained moved).1
  have seatedNext := (stepKept (seatFits config seat) seated moved).1
  have guardNext := denialStep seated moved guard
  cases moved
  rcases runEach (seatFits config seat) (fun _ _ _ _ _ _ serves => serves.later) (fun s n _ => tickLater seat s n)
    seatedNext rest (List.getElem?_concat_length) (refl _ _) each with
    ⟨before,after,mid,rfl,reached,fails⟩ | ⟨q,s',at_,_,never⟩
  · obtain ⟨_,reached',left⟩ := runAppend rest
    cases some.inj (reached.symm.trans reached')
    have seatedMid := runKept (seatFits config seat) seatedNext reached
    have chainedMid := runKept (rowFits config) chainedNext reached
    have clock : sys.shared.clock ≤ mid.shared.clock := (laterRun seatedNext reached).clock
    have past : row.previousValidUntil < mid.shared.unix := by
      unfold Store.unix at passed ⊢
      omega
    obtain ⟨_,row',found',onChain',stays,_⟩ := chainRun free chainedNext reached found onChain
    have doomed : Doomed seat mid → Doomed seat out := doomedRun seatedMid left
    rcases stays with ⟨rfl,rfl⟩ | _ | ended
    · by_cases denied : Denied seat mid.shared
      · exact .inl (doomed (denialRun seatedNext reached guardNext denied))
      by_cases expired : seat.expiresAt ≤ mid.shared.unix
      · exact .inl (doomed (.inl (.inr expired)))
      · exact absurd ⟨seatedMid.inv,⟨found',denied,by omega⟩,past⟩ fails
    · obtain ⟨k'',row'',found'',onChain'',_⟩ := chainRun free chainedMid left found' onChain'
      exact .inr ⟨k'',row'',found'',onChain'',by omega⟩
    · exact .inl (doomed (.inl (.inl ⟨row',found',ended⟩)))
  · obtain ⟨_,returned⟩ := System.answeredProcess answered
    cases some.inj (at_.symm.trans returned)
    exact absurd trivial never

def Unrecognised (config : Config) (sid secret : String) (s : Store) : Prop :=
  ∀ row, s.session sid = some row → row.refreshHash ≠ hashRefreshSecret config secret ∧
    row.previousRefreshHash ≠ hashRefreshSecret config secret

theorem unrecognisedKeeps {mid n : RefreshSystem} (seated : Seated seat sys) (token : splitRefreshToken config request.rawRefreshToken = some (seat.sid,secret))
    (h : run (step (refreshProgram config) tick) sys (.start request::moves) = some mid)
    (unrecognised : Along (step (refreshProgram config) tick) (fun sys' move => move = .act sys.procs.length → Unrecognised config seat.sid secret sys'.shared) sys (.start request::moves ++ [.act sys.procs.length]))
    (moved : step (refreshProgram config) tick mid (.act sys.procs.length) = some n) :
    n.shared.session seat.sid = mid.shared.session seat.sid := by
  obtain ⟨row,_⟩ := seated.inv.row
  let holds : Store → Prop := fun s => Settled seat s ∧ Unrecognised config seat.sid secret s
  have each := @refreshServes config seat False False holds (fun _ held => held.1) row request.rawRefreshToken
    request.expectedSID request.ip request.userAgent sys.shared (fun sid _ token' _ => by
      cases some.inj (token.symm.trans token')
      exact .inr (fun s row held found => held.2 row found)) (fun never => never.elim) (fun never => never.elim)
  obtain ⟨started,begun,rest⟩ := runCons h
  obtain ⟨alongStart,alongLast⟩ := alongAppend unrecognised h
  have alongRest := alongStart.2 started begun
  have seatedNext := (stepKept (seatFits config seat) seated begun).1
  cases begun
  rcases runEach (seatFits config seat) (fun _ _ _ _ _ _ serves => serves.later) (fun s n _ => tickLater seat s n)
    seatedNext rest (List.getElem?_concat_length) (refl _ _) each with
    ⟨before,after,early,rfl,reached,fails⟩ | ⟨q,s',at_,left,each'⟩
  · have seatedEarly := runKept (seatFits config seat) seatedNext reached
    have known := (alongAppend alongRest reached).2.1 rfl
    exact absurd ⟨seatedEarly.inv,known⟩ fails
  have seatedMid := runKept (seatFits config seat) seatedNext rest
  obtain ⟨_,serves⟩ := eachActs at_ left each' ⟨seatedMid.inv,alongLast.1 rfl⟩ moved
  rcases serves.row with same | never
  · exact same
  · exact never.elim

def salted : Config := ⟨60,50,100,86400,fun text => "m:" ++ text,id,fun _ => true⟩

def homeUser : User := ⟨1,"root","default","",0,userStatusEnabled,100,"",1,false⟩

def atHome : Store := { oneUser with sessions := [{ browser with refreshHash := "m:h" }] }

theorem atHomeBlank : Blank atHome := {oneUserBlank with unique := by decide, positive := by decide}

def homeSeat : Seat where
  sid := "s"
  user := homeUser
  version := 1
  expiresAt := 100000
  enabled := rfl
  present := rfl
  idPositive := by decide
  authPositive := by decide
  positive := by decide

theorem homeSettled : Settled homeSeat atHome where
  unique := by decide
  row := ⟨{ browser with refreshHash := "m:h" },rfl,rfl,rfl,rfl,rfl,fun _ => rfl⟩
  entries := fun _ last stored => by cases stored
  user := rfl
  ids := fun userId user found => (oneUserBlank.ids userId user found).1
  hash := fun _ last stored => by cases stored
  version := fun version stored => by cases stored
  fence := rfl

theorem saltedChainLength (k : Nat) : (refreshChain salted "s" "h" k).length = 1 + 2 * k := by
  induction k with
  | zero => rfl
  | succ k ih =>
    show ("s" ++ "." ++ refreshChain salted "s" "h" k).length = _
    rw [String.length_append,ih]
    have two : ("s" ++ ".").length = 2 := by decide
    omega

theorem saltedFree : CollisionFree salted "s" "h" where
  digests := fun a b same => String.append_right_inj _ |>.mp same
  nonempty := fun a same => by
    have lengths := congrArg String.length same
    have two : "m:".length = 2 := by decide
    have none_ : "".length = 0 := by decide
    simp only [hashRefreshSecret,salted,String.length_append] at lengths
    omega
  chain := fun i j same => by
    have lengths := congrArg String.length same
    rw [saltedChainLength,saltedChainLength] at lengths
    omega

def ownToken : RefreshRequest := ⟨"s.h","","",""⟩

def rotatedOnce : List (Move RefreshRequest Nat) := .start ownToken::List.replicate 21 (.act 0) ++ [.env 32000]

/- `RefreshLoginSession` looks at the user before the secret: with the user disabled or at another auth version it
revokes the session whatever it is presented. -/
def lockedOut : Store := {atHome with users := fun id => if id = 1 then some {homeUser with status := 2} else none}

end Omnigate.Auth
