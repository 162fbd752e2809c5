import Omnigate.Pool
import Omnigate.SubscriptionLedger

/-! Interleaved calls on the subscription tables. Each move runs the next transaction (or listing) of one call;
transactions are serialised by the row locks, and between two moves every other call may have run. What a call changed
in the used amounts is recorded with it. -/
namespace Omnigate.SubscriptionRun

open Option

open Machine Pool SubscriptionPlan SubscriptionStore SubscriptionConsume SubscriptionLedger Table Transaction

inductive Call where
  | create (userId : Int) (plan : Plan) (source : String) (now : Int)
  | preConsume (requestId : String) (userId amount now : Int)
  | postConsume (userSubscriptionId delta : Int)
  | refund (requestId : String)
  | refunding (progress : RefundProgress)
  | resetDue (limit now : Int)
  | resetting (now : Int) (rows : List UserSubscription) (count : Nat)
  | adminResetUser (userId planId now : Int) (advanceResetTime : Bool)
  | adminResetPlan (planId now : Int) (advanceResetTime : Bool)
  | expireDue (limit now : Int)
  | expiring (now : Int) (users : List Int) (count : Nat)
  | invalidate (userSubscriptionId now : Int)
  | delete (userSubscriptionId now : Int)
  | returned (count : Nat) (err : Option String)
  deriving DecidableEq, Repr

/- What the environment decides about one move: the faults of its statements (`lockFault` outside the scripted
transaction), what the plan lookups find, which records an unlocked read sees and in which order users are visited. -/
structure Env where
  faults : List (Option String)
  lockFault : Option String
  plan : Except String Plan
  plans : UserSubscription → Except String Plan
  seen : Db → List SubscriptionPreConsumeRecord
  order : List Int → List Int

def errorOf {α : Type} : Except String α → Option String
  | .ok _ => none
  | .error e => some e

def finish {α : Type} (r : Except String α × Db) : Db × Call := (r.2,.returned 0 (errorOf r.1))

def next (cal : Calendar) (db : Db) (env : Env) : Call → Option (Db × Call)
  | .create userId plan source now =>
    some (finish (atomically (createUserSubscriptionFromPlanTx cal userId plan source now) env.faults db))
  | .preConsume requestId userId amount now =>
    some (finish (preConsumeUserSubscription cal requestId userId amount now env.seen env.plans env.faults db))
  | .postConsume id delta => some (finish (postConsumeUserSubscriptionDelta id delta env.faults db))
  | .refund requestId => some (match refundAdjust requestId env.lockFault env.faults db with
    | (.error e,after) => (after,.returned 0 (some e))
    | (.ok progress,after) => (after,.refunding progress))
  | .refunding progress => some (finish (refundFinish progress env.faults db))
  | .resetDue limit now => some (db,match env.lockFault with
    | some e => .returned 0 (some e)
    | none => .resetting now (dueSubscriptions limit now db) 0)
  | .resetting _ [] count => some (db,.returned count none)
  | .resetting now (sub::rest) count =>
    let (result,counted,after) := resetDueRow cal sub (env.plans sub) now env.faults db
    some (after,match result with
      | .error e => .returned (count + counted) (some e)
      | .ok _ => .resetting now rest (count + counted))
  | .adminResetUser userId planId now adv =>
    some (finish (adminResetUserSubscriptionsByPlan cal userId planId now adv env.plan env.faults db))
  | .adminResetPlan planId now adv =>
    some (finish (adminResetPlanSubscriptions cal planId now adv env.plan env.faults db))
  | .expireDue limit now => some (db,match env.lockFault with
    | some e => .returned 0 (some e)
    | none => .expiring now (env.order (expiringUsers limit now db)) 0)
  | .expiring _ [] count => some (db,.returned count none)
  | .expiring now (userId::rest) count =>
    let (result,affected,after) := expireUser userId now env.faults db
    some (after,match result with
      | .error e => .returned (count + affected) (some e)
      | .ok _ => .expiring now rest (count + affected))
  | .invalidate id now => some (finish (adminInvalidateUserSubscription id now env.faults db))
  | .delete id now => some (finish (adminDeleteUserSubscription id now env.faults db))
  | .returned _ _ => none

def Call.isRefund : Call → Bool
  | .refund _ => true
  | _ => false

def Call.isResetDue : Call → Bool
  | .resetDue _ _ => true
  | _ => false

def Call.isStart : Call → Bool
  | .refunding _ | .resetting _ _ _ | .expiring _ _ _ | .returned _ _ => false
  | _ => true

variable {Q : List SubscriptionPreConsumeRecord → Prop}

def usedOf (db : Db) (id : Int) : Option Int := (db.sub id).map UserSubscription.amountUsed

def changed (before after : Db) : Finset Int :=
  (before.subs.map UserSubscription.id).toFinset.filter (fun id => usedOf before id ≠ usedOf after id)

structure Entry where
  (origin call : Call)
  touched : Finset Int
  deriving DecidableEq

def begins (entry : Entry) : Bool :=
  entry.origin.isStart ∧ entry.call = entry.origin ∧ entry.touched = ∅

def act (cal : Calendar) (db : Db) (entry : Entry) (env : Env) : Option (Db × Entry) := do
  let (after,call) ← next cal db env entry.call
  some (after,⟨entry.origin,call,entry.touched ∪ changed db after⟩)

def emptyTables (users : List UserGroup) : Db := ⟨[],[],users,1⟩

theorem changedNone (h : ∀ id, usedOf after id = usedOf before id) :
    changed before after = ∅ := by
  simp [changed,h]

theorem unchanged (db) : changed db db = ∅ := changedNone (fun _ => rfl)

theorem changedOne {id} (h : ∀ other, other ≠ id → usedOf after other = usedOf before other) :
    (changed before after).card ≤ 1 := by
  have only : changed before after ⊆ {id} := by
    intro x member
    by_contra different
    exact (Finset.mem_filter.mp member).2 (h x (by simpa using different)).symm
  simpa using Finset.card_le_card only

theorem usedSave (db sub) {id} (h : id ≠ sub.id) :
    usedOf (db.putSub sub) id = usedOf db id := by
  simp [usedOf,Db.sub,Db.putSub,lookupSave,h.symm]

theorem usedUpdate (db) (p : UserSubscription → Bool) (f : UserSubscription → UserSubscription)
    (key : ∀ sub, (f sub).id = sub.id) (used : ∀ sub, (f sub).amountUsed = sub.amountUsed) (id) :
    usedOf {db with subs := updateWhere p f db.subs} id = usedOf db id := by
  simp only [usedOf,Db.sub,lookupUpdate key,map_map]
  congr 1
  funext sub
  simp only [Function.comp_apply]
  split
  · exact used sub
  · rfl

theorem expireUsed (userId now) (used : Int → Option Int) :
    Triple (fun db => ∀ id, usedOf db id = used id) (expireUserTx userId now)
      (fun _ db => ∀ id, usedOf db id = used id) := by
  have update : Triple (fun db => ∀ id, usedOf db id = used id)
      (exec (fun db => {db with subs := updateWhere (isExpiringOf userId now) expire db.subs}) : SubTx Unit)
      (fun _ db => ∀ id, usedOf db id = used id) :=
    tripleExec (fun db h id => (usedUpdate db _ expire (fun _ => rfl) (fun _ => rfl) id).trans (h id))
  refine tripleBind update (fun _ => ?_)
  exact tripleBind (keepsRevert userId now (fun subs _ _ => ∀ id, (lookup UserSubscription.id id subs).map
    UserSubscription.amountUsed = used id)) (fun _ => triplePure (fun _ h => h))

theorem resetDueUsed {id} (h : resetDueTx cal id plan now v = .ok (n,v')) :
    (n = 0 ∧ v'.db = v.db) ∨ (n = 1 ∧ ∀ other, other ≠ id → usedOf v'.db other = usedOf v.db other) := by
  obtain ⟨found,m,locking,rest⟩ := bindOk h
  have locked : Triple (fun db => db = v.db)
      (attempt (first (fun db => (db.subs.filter (isDue now)).find? (fun s => s.id = id)) recordNotFound) : SubTx _)
      (fun found db => db = v.db ∧ ∀ sub, found = .ok sub → sub.id = id) := by
    refine tripleAttempt (tripleFirst (fun sub db hit same => ⟨same,?_⟩)) (fun e db same => ⟨same,fun _ eq => nomatch eq⟩)
    intro _ eq
    cases eq
    simpa using List.find?_some hit
  obtain ⟨same,key⟩ := locked v found m rfl locking
  cases found with
  | error =>
    cases rest
    exact .inl ⟨rfl,same⟩
  | ok sub =>
    obtain ⟨_,w,reset,last⟩ := bindOk rest
    cases last
    refine .inr ⟨rfl,?_⟩
    intro other different
    rcases maybeResetCases reset with ⟨_,kept⟩ | ⟨due,saved⟩
    · rw [kept,same]
    rw [saved,same]
    refine usedSave _ _ ?_
    rw [(dueResetKeeps due).1,key sub rfl]
    exact different

theorem resetDueRowSpec (cal sub found now faults db) :
    (Ledger Q db → Ledger Q (resetDueRow cal sub found now faults db).2.2) ∧
    (∀ e, (resetDueRow cal sub found now faults db).1 = .error e → (resetDueRow cal sub found now faults db).2.2 = db) ∧
    (changed db (resetDueRow cal sub found now faults db).2.2).card ≤
      (resetDueRow cal sub found now faults db).2.1 := by
  unfold resetDueRow
  cases getSubscriptionPlanById sub.planId found with
  | error => exact ⟨fun h => h,fun _ _ => rfl,by simp [unchanged]⟩
  | ok plan =>
    have safe : Safe Q db _ := safeAtomically (resetDueLedger cal sub.id plan now) faults db
    dsimp only
    cases result : (atomically (resetDueTx cal sub.id plan now) faults db).1 with
    | error e =>
      have same := safe.failed e result
      exact ⟨safe.ledger,fun _ _ => same,by simp [same,unchanged]⟩
    | ok =>
      obtain ⟨v,body,after⟩ := atomicallyOk result
      refine ⟨safe.ledger,fun _ h => (nomatch h),?_⟩
      rw [after,body]
      rcases resetDueUsed body with ⟨rfl,same⟩ | ⟨rfl,others⟩
      · rw [same,unchanged]
        simp
      · exact changedOne others

theorem expireUserSpec (userId now faults db) : (Ledger Q db → Ledger Q (expireUser userId now faults db).2.2) ∧
      changed db (expireUser userId now faults db).2.2 = ∅ := by
  refine ⟨(safeAtomically (expireLedger userId now) faults db).ledger,changedNone ?_⟩
  exact atomicallyInvariant (expireUsed userId now (usedOf db)) (fun _ => rfl)

theorem nextLedger (grows : Grows Q) (marks : ∀ record rows, call = .refunding (.saveRecord record) → Q rows →
      Q (save SubscriptionPreConsumeRecord.requestId {record with status := .refunded} rows))
    (ledger : Ledger Q db) (moved : next cal db env call = some (after,call')) : Ledger Q after := by
  cases call with
  | create => cases moved; exact (safeAtomically (createLedger _ _ _ _ _) _ _).ledger ledger
  | preConsume => cases moved; exact (preConsumeSafe grows _ _ _ _ _ _ _ _ _).ledger ledger
  | postConsume => cases moved; exact (postConsumeSafe _ _ _ _).ledger ledger
  | refund requestId =>
    have kept : Ledger Q (refundAdjust requestId env.lockFault env.faults db).2 :=
      (refundAdjustSafe requestId env.lockFault env.faults db).ledger ledger
    rcases adjusted : refundAdjust requestId env.lockFault env.faults db with ⟨result,_⟩
    rw [adjusted] at kept
    simp only [next,adjusted] at moved
    cases result <;> cases moved <;> exact kept
  | refunding progress =>
    have safe : Safe Q db (refundFinish progress env.faults db) :=
      refundFinishSafe env.faults db (fun record rows same h => marks record rows (by rw [same]) h)
    cases moved
    exact safe.ledger ledger
  | resetDue | expireDue => cases moved; exact ledger
  | resetting now rows =>
    cases rows with
    | nil => cases moved; exact ledger
    | cons sub => cases moved; exact (resetDueRowSpec cal sub _ now _ db).1 ledger
  | adminResetUser => cases moved; exact (adminUserSafe _ _ _ _ _ _ _ _).ledger ledger
  | adminResetPlan => cases moved; exact (adminPlanSafe _ _ _ _ _ _ _).ledger ledger
  | expiring now users =>
    cases users with
    | nil => cases moved; exact ledger
    | cons userId => cases moved; exact (expireUserSpec userId now _ db).1 ledger
  | invalidate => cases moved; exact (invalidateSafe _ _ _ _).ledger ledger
  | delete => cases moved; exact (deleteSafe _ _ _ _).ledger ledger
  | returned => cases moved

def Fits (entry : Entry) : Prop := match entry.call with
  | .returned count (some _) => entry.origin.isRefund ∨
      (entry.origin.isResetDue ∧ entry.touched.card ≤ count) ∨ entry.touched = ∅
  | .returned _ none => True
  | .refunding _ => entry.origin.isRefund
  | .resetting _ _ count => entry.origin.isResetDue ∧ entry.touched.card ≤ count
  | .expiring _ _ _ => entry.touched = ∅
  | call => entry.origin = call ∧ entry.touched = ∅

theorem fitsBegins (entry) (h : begins entry) : Fits entry := by
  obtain ⟨_,call,_⟩ := entry
  simp only [begins,decide_eq_true_eq] at h
  obtain ⟨_,rfl,rfl⟩ := h
  cases call <;> simp_all [Fits,Call.isStart]

def Call.failed : Call → Bool
  | .returned _ (some _) => true
  | _ => false

structure Kept (db : Db) (entry : Entry) (after : Db) (call : Call) : Prop where
  fits : Fits ⟨entry.origin,call,entry.touched ∪ changed db after⟩
  failed : call.failed → entry.origin.isRefund ∨ changed db after = ∅

theorem keptFinish {α : Type} {entry : Entry} {r : Except String α × Db} (safe : Safe Q db r)
    (clean : entry.touched = ∅) (moved : some (finish r) = some (after,call)) : Kept db entry after call := by
  obtain ⟨rfl,rfl⟩ := Prod.mk.inj (some.inj moved)
  obtain ⟨result,after⟩ := r
  cases result with
  | ok => exact ⟨trivial,fun h => (nomatch h)⟩
  | error e =>
    have same : changed db after = ∅ := by
      rw [show after = db from safe.failed e rfl]
      exact unchanged db
    exact ⟨.inr (.inr (by simp [same,clean])),fun _ => .inr same⟩

theorem keptRefund (refund : entry.origin.isRefund)
    (moved : next cal db env (.refund requestId) = some (after,call)) : Kept db entry after call := by
  rcases adjusted : refundAdjust requestId env.lockFault env.faults db with ⟨result,_⟩
  simp only [next,adjusted] at moved
  cases result with
  | error => cases moved; exact ⟨.inl refund,fun _ => .inl refund⟩
  | ok => cases moved; exact ⟨refund,fun _ => .inl refund⟩

theorem keptRefunding (refund : entry.origin.isRefund)
    (moved : next cal db env (.refunding progress) = some (after,call)) : Kept db entry after call := by
  obtain ⟨rfl,rfl⟩ := Prod.mk.inj (some.inj moved)
  refine ⟨?_,fun _ => .inl refund⟩
  cases (refundFinish progress env.faults db).1 with
  | ok => exact trivial
  | error => exact .inl refund

theorem keptListing {env : Env} (listing) (clean : entry.touched = ∅)
    (point : Fits ⟨entry.origin,listing,∅⟩)
    (moved : some (db,match env.lockFault with
      | some e => Call.returned 0 (some e)
      | none => listing) = some (after,call)) : Kept db entry after call := by
  obtain ⟨rfl,rfl⟩ := Prod.mk.inj (some.inj moved)
  have none : entry.touched ∪ changed db db = ∅ := by simp [unchanged,clean]
  refine ⟨?_,fun _ => .inr (unchanged db)⟩
  rw [none]
  cases env.lockFault with
  | some => exact .inr (.inr rfl)
  | none => exact point

theorem keptResetting (due : entry.origin.isResetDue) (before : entry.touched.card ≤ count)
    (moved : next cal db env (.resetting now (sub::rest) count) = some (after,call)) :
    Kept db entry after call := by
  obtain ⟨_,error,counted⟩ :=
    resetDueRowSpec (Q := fun _ => True) cal sub (env.plans sub) now env.faults db
  rcases row : resetDueRow cal sub (env.plans sub) now env.faults db with ⟨result,n,tables⟩
  rw [row] at error counted
  simp only [next,row] at moved
  have total : (entry.touched ∪ changed db tables).card ≤ count + n :=
    (Finset.card_union_le _ _).trans (Nat.add_le_add before counted)
  cases result with
  | error e =>
    have same : tables = db := error e rfl
    cases moved
    exact ⟨.inr (.inl ⟨due,total⟩),fun _ => .inr (by rw [same]; exact unchanged db)⟩
  | ok => cases moved; exact ⟨⟨due,total⟩,fun h => (nomatch h)⟩

theorem keptExpiring (clean : entry.touched = ∅)
    (moved : next cal db env (.expiring now (userId::rest) count) = some (after,call)) :
    Kept db entry after call := by
  have same := (expireUserSpec (Q := fun _ => True) userId now env.faults db).2
  rcases row : expireUser userId now env.faults db with ⟨result,n,tables⟩
  rw [row] at same
  simp only [next,row] at moved
  have still : entry.touched ∪ changed db tables = ∅ := by rw [same,clean]; rfl
  cases result with
  | error => cases moved; exact ⟨.inr (.inr still),fun _ => .inr same⟩
  | ok => cases moved; exact ⟨still,fun h => (nomatch h)⟩

def anyRecords (_ : List SubscriptionPreConsumeRecord) : Prop := True

theorem anyGrows : Grows anyRecords := fun _ _ _ _ _ _ => trivial

theorem nextKept (fit : Fits entry)
    (moved : next cal db env entry.call = some (after,call)) : Kept db entry after call := by
  obtain ⟨origin,point,touched⟩ := entry
  cases point with
  | create =>
    exact keptFinish (Q := anyRecords) (safeAtomically (createLedger _ _ _ _ _) _ _) fit.2 moved
  | preConsume => exact keptFinish (preConsumeSafe anyGrows _ _ _ _ _ _ _ _ _) fit.2 moved
  | postConsume => exact keptFinish (Q := anyRecords) (postConsumeSafe _ _ _ _) fit.2 moved
  | refund requestId =>
    obtain ⟨rfl,_⟩ : origin = .refund requestId ∧ touched = ∅ := fit
    exact keptRefund rfl moved
  | refunding => exact keptRefunding fit moved
  | resetDue limit now =>
    obtain ⟨rfl,rfl⟩ : origin = .resetDue limit now ∧ touched = ∅ := fit
    exact keptListing (.resetting now (dueSubscriptions limit now db) 0) rfl ⟨rfl,Nat.le_refl 0⟩ moved
  | resetting now rows =>
    cases rows with
    | nil => cases moved; exact ⟨trivial,fun h => (nomatch h)⟩
    | cons => exact keptResetting fit.1 fit.2 moved
  | adminResetUser =>
    exact keptFinish (Q := anyRecords) (adminUserSafe _ _ _ _ _ _ _ _) fit.2 moved
  | adminResetPlan => exact keptFinish (Q := anyRecords) (adminPlanSafe _ _ _ _ _ _ _) fit.2 moved
  | expireDue limit now =>
    exact keptListing (.expiring now (env.order (expiringUsers limit now db)) 0) fit.2 rfl moved
  | expiring now users =>
    cases users with
    | nil => cases moved; exact ⟨trivial,fun h => (nomatch h)⟩
    | cons => exact keptExpiring fit moved
  | invalidate => exact keptFinish (Q := anyRecords) (invalidateSafe _ _ _ _) fit.2 moved
  | delete => exact keptFinish (Q := anyRecords) (deleteSafe _ _ _ _) fit.2 moved
  | returned => cases moved

theorem actCases (h : act cal db entry env = some (after,entry')) :
    ∃ call, next cal db env entry.call = some (after,call) ∧
      entry' = ⟨entry.origin,call,entry.touched ∪ changed db after⟩ := by
  obtain ⟨⟨_,call⟩,moved,last⟩ := bind_eq_some_iff.mp h
  cases last
  exact ⟨call,moved,rfl⟩

theorem actKeeps (cal : Calendar) (db : Db) (entry : Entry) (env : Env) (after : Db) (entry' : Entry)
    (ledger : Ledger anyRecords db) (fit : Fits entry) (moved : act cal db entry env = some (after,entry')) :
    Ledger anyRecords after ∧ Fits entry' := by
  obtain ⟨_,stepped,rfl⟩ := actCases moved
  exact ⟨nextLedger anyGrows (fun _ _ _ h => h) ledger stepped,(nextKept fit stepped).fits⟩

theorem runKeeps (h : run (step begins (act cal)) ⟨emptyTables users,[]⟩ moves = some out) :
    Ledger anyRecords out.shared ∧ ∀ entry ∈ out.procs, Fits entry := by
  have start : Ledger anyRecords (emptyTables users) := ⟨by simp [emptyTables],trivial,by simp [emptyTables]⟩
  exact runAlways (fun s l n inv moved => stepSeparate fitsBegins (actKeeps cal) inv.1 inv.2 moved)
    ⟨start,by simp⟩ h

theorem amountsStayWithinTotals (cal : Calendar) (users : List UserGroup) (moves : List (Move Entry Env))
    (out : State Db Entry) (h : run (step begins (act cal)) ⟨emptyTables users,[]⟩ moves = some out) :
    (∀ sub ∈ out.shared.subs, 0 < sub.amountTotal → 0 ≤ sub.amountUsed ∧ sub.amountUsed ≤ sub.amountTotal) ∧
    (∀ entry ∈ out.procs, ∀ count err, entry.call = .returned count (some err) → entry.origin.isRefund = false →
      if entry.origin.isResetDue then entry.touched.card ≤ count else entry.touched = ∅) ∧
    (∀ entry ∈ out.procs, ∀ env after call, next cal out.shared env entry.call = some (after,call) →
      call.failed → entry.origin.isRefund = false → changed out.shared after = ∅) := by
  obtain ⟨ledger,fits⟩ := runKeeps h
  refine ⟨?_,?_,?_⟩
  · intro sub member limited
    exact ⟨(ledger.rows sub member).nonneg,(ledger.rows sub member).within limited⟩
  · intro entry member count err returned other
    have fit := fits entry member
    simp only [Fits,returned] at fit
    rcases fit with refund | ⟨due,few⟩ | clean
    · exact absurd (refund.symm.trans other) (by decide)
    · rw [if_pos due]; exact few
    split
    · rw [clean]; exact Nat.zero_le count
    · exact clean
  · intro entry member env after call moved failed other
    rcases (nextKept (fits entry member) moved).failed failed with refund | same
    · exact absurd (refund.symm.trans other) (by decide)
    · exact same

def hourlyPlan : Plan where
  id := 1
  title := "starter"
  durationUnit := .day
  durationValue := 30
  customSeconds := 0
  allowWalletOverflow := none
  maxPurchasePerUser := 0
  upgradeGroup := ""
  downgradeGroup := ""
  totalAmount := 100
  quotaResetPeriod := "custom"
  quotaResetCustomSeconds := 3600

def envWith (faults : List (Option String)) : Env :=
  ⟨faults,none,.ok hourlyPlan,fun _ => .ok hourlyPlan,Db.records,id⟩

def starting (call : Call) : Move Entry Env := .start ⟨call,call,∅⟩

def halfReset : List (Move Entry Env) :=
  [starting (.create 7 hourlyPlan "order" 1000),.act 0 (envWith []),
   starting (.create 8 hourlyPlan "order" 1000),.act 1 (envWith []),
   starting (.preConsume "a" 7 30 1000),.act 2 (envWith []),
   starting (.preConsume "b" 8 40 1000),.act 3 (envWith []),
   starting (.resetDue 0 5000),.act 4 (envWith []),.act 4 (envWith []),.act 4 (envWith [none,some "deadlock"])]

theorem amountsStayWithinTotalsInHalfReset :
    ∃ out, run (step begins (act utc)) ⟨emptyTables [],[]⟩ halfReset = some out ∧
      (∀ sub ∈ out.shared.subs, 0 < sub.amountTotal → 0 ≤ sub.amountUsed ∧ sub.amountUsed ≤ sub.amountTotal) := by
  have runs : (run (step begins (act utc)) ⟨emptyTables [],[]⟩ halfReset).isSome := by decide +kernel
  obtain ⟨out,h⟩ := isSome_iff_exists.mp runs
  exact ⟨out,h,(amountsStayWithinTotals utc [] halfReset out h).1⟩

theorem failedResetKeepsEarlierRows :
    ∃ out, run (step begins (act utc)) ⟨emptyTables [],[]⟩ halfReset = some out ∧
      (⟨.resetDue 0 5000,.returned 1 (some "deadlock"),{1}⟩ : Entry) ∈ out.procs ∧
      usedOf out.shared 1 = some 0 ∧ usedOf out.shared 2 = some 40 := by decide +kernel

end Omnigate.SubscriptionRun
