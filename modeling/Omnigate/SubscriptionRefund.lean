import Omnigate.SubscriptionRun

/-! The refund of one pre-consumption under failing statements and retries. A history counts the adjustments committed
on account of the record. Attempts exclude each other by the record's lock; other calls run between attempts, and
between the two commits of one. -/
namespace Omnigate.SubscriptionRefund

open Option

open Machine SubscriptionPlan SubscriptionStore SubscriptionConsume SubscriptionLedger SubscriptionRun
open Table Text Transaction

structure Attempt where
  lockFault : Option String
  inner : List (Option String)
  between : List (Call × Env)
  outer : List (Option String)

def refundAlone (requestId : String) (a : Attempt) (db : Db) : Except String Unit × Db :=
  refundSubscriptionPreConsume requestId a.lockFault a.inner a.outer db

def noFaults : Attempt := ⟨none,[],[],[]⟩

def retry (requestId : String) : Nat → String → List Attempt → Db → Except String Unit × Db
  | 0,lastErr,_,db => (.error lastErr,db)
  | n+1,_,scripts,db => match refundAlone requestId (scripts.headD noFaults) db with
    | (.ok _,after) => (.ok (),after)
    | (.error e,after) => retry requestId n e scripts.tail after

def maxAttempts : Nat := 3

def refundWithRetry (requestId : String) (scripts : List Attempt) (db : Db) : Except String Unit × Db :=
  retry requestId maxAttempts "" scripts db

def others (cal : Calendar) : List (Call × Env) → Db → Db
  | [],db => db
  | (call,env)::rest,db => others cal rest (((next cal db env call).map Prod.fst).getD db)

def foreign (requestId : String) : Call → Bool
  | .refund other => other ≠ requestId
  | .refunding (.saveRecord record) => record.requestId ≠ requestId
  | _ => true

structure History where
  db : Db
  reductions : Nat
  deriving DecidableEq

def reduction : RefundProgress → Nat
  | .saveRecord record => if 0 < record.preConsumed then 1 else 0
  | .commitOnly => 0

def refund (cal : Calendar) (requestId : String) (a : Attempt) (s : History) : Except String Unit × History :=
  match refundAdjust requestId a.lockFault a.inner s.db with
  | (.error e,after) => (.error e,⟨after,s.reductions⟩)
  | (.ok progress,after) =>
    let (result,final) := refundFinish progress a.outer (others cal a.between after)
    (result,⟨final,s.reductions + reduction progress⟩)

inductive Event where
  | refund (a : Attempt)
  | other (call : Call) (env : Env)

def step (cal : Calendar) (requestId : String) (s : History) : Event → Option History
  | .refund a =>
    if a.between.all (fun c => foreign requestId c.1) then some (refund cal requestId a s).2 else none
  | .other call env =>
    if foreign requestId call then some ⟨others cal [(call,env)] s.db,s.reductions⟩ else none

def pending (requestId : String) (db : Db) : Bool :=
  trimSpace requestId ≠ "" ∧ (db.record requestId).any (fun record =>
    record.status = .consumed ∧ 0 < record.userSubscriptionId ∧ (db.sub record.userSubscriptionId).isSome)

/- The lock on the record and the inner transaction go through, and the save of the record or the outer commit does
not. -/
def torn (requestId : String) (s : History) : Event → Bool
  | .refund a => a.lockFault = none ∧ passes 3 a.inner ∧ pending requestId s.db ∧ ¬passes 2 a.outer
  | .other _ _ => false

theorem refundNobodyElse (cal requestId lockFault inner outer s) :
    ((refund cal requestId ⟨lockFault,inner,[],outer⟩ s).1,(refund cal requestId ⟨lockFault,inner,[],outer⟩ s).2.db) =
      refundAlone requestId ⟨lockFault,inner,[],outer⟩ s.db := by
  unfold refund refundAlone refundSubscriptionPreConsume
  rcases refundAdjust requestId lockFault inner s.db with ⟨result,_⟩
  cases result <;> rfl

theorem reductionAdjusts {inner}
    (h : refundAdjust requestId lockFault inner db = (.ok progress,after)) :
    ∃ record, db.record requestId = some record ∧
    ((record.status = .refunded ∧ progress = .commitOnly ∧ after = db) ∨
     (record.status = .consumed ∧ progress = .saveRecord record ∧ reduction progress = 0 ∧ after = db) ∨
     ∃ sub, record.status = .consumed ∧ progress = .saveRecord record ∧ reduction progress = 1 ∧
      db.sub record.userSubscriptionId = some sub ∧
      after = db.putSub {sub with amountUsed := clampUsed sub.amountUsed (-record.preConsumed)}) := by
  unfold refundAdjust at h
  split at h; · cases h
  split at h; · cases h
  split at h; · cases h
  rename_i record found
  refine ⟨record,found,?_⟩
  split at h
  · rename_i done
    cases h
    exact .inl ⟨done,rfl,rfl⟩
  have consumed : record.status = .consumed := by cases eq : record.status <;> simp_all
  split at h
  · rename_i nothing
    cases h
    exact .inr (.inl ⟨consumed,rfl,by simp [reduction,nothing],rfl⟩)
  rename_i positive
  split at h <;> cases h
  rename_i adjusted
  rcases postConsumeOk adjusted with _ | ⟨sub,hit,_,_,tables⟩
  · omega
  · exact .inr (.inr ⟨sub,consumed,rfl,by simp [reduction,not_le.mp positive],hit,tables⟩)

theorem refundingFrom (h : next cal db env call = some (after,.refunding progress)) :
    ∃ requestId, call = .refund requestId ∧
      refundAdjust requestId env.lockFault env.faults db = (.ok progress,after) := by
  cases call with
  | refund requestId =>
    refine ⟨requestId,rfl,?_⟩
    rcases adjusted : refundAdjust requestId env.lockFault env.faults db with ⟨result,tables⟩
    simp only [next,adjusted] at h
    cases result <;> cases h
    rfl
  | resetDue | expireDue => cases hf : env.lockFault <;> simp [next,hf] at h
  | resetting now rows =>
    cases rows with
    | nil => cases h
    | cons sub =>
      rcases row : resetDueRow cal sub (env.plans sub) now env.faults db with ⟨result,n,tables⟩
      simp only [next,row] at h
      cases result <;> cases h
  | expiring now users =>
    cases users with
    | nil => cases h
    | cons userId =>
      rcases row : expireUser userId now env.faults db with ⟨result,n,tables⟩
      simp only [next,row] at h
      cases result <;> cases h
  | _ => cases h

def PositiveRecords (rows : List SubscriptionPreConsumeRecord) : Prop := ∀ record ∈ rows, 0 < record.preConsumed

theorem storedPositive {cal}
    (h : run (Pool.step begins (act cal)) ⟨emptyTables users,[]⟩ moves = some out) :
    PositiveRecords out.shared.records := by
  have grows : Grows PositiveRecords := by
    intro rows record positive _ _ known
    exact allAdded known positive
  have keep : ∀ db entry env after entry', Ledger PositiveRecords db →
      (∀ record, entry.call = .refunding (.saveRecord record) → 0 < record.preConsumed) →
      act cal db entry env = some (after,entry') → Ledger PositiveRecords after ∧
      (∀ record, entry'.call = .refunding (.saveRecord record) → 0 < record.preConsumed) := by
    intro db entry env after entry' ledger marking moved
    obtain ⟨call,stepped,rfl⟩ := actCases moved
    refine ⟨nextLedger grows ?_ ledger stepped,?_⟩
    · intro record rows same known x member
      rcases saveMem member with rfl | old
      · exact marking record same
      · exact known x old
    rintro record rfl
    obtain ⟨_,_,adjusted⟩ := refundingFrom stepped
    obtain ⟨found,hit,outcome⟩ := reductionAdjusts adjusted
    have stored := ledger.records found (lookupSound hit).1
    rcases outcome with ⟨_,wrong,_⟩ | ⟨_,same,_⟩ | ⟨_,_,same,_⟩
    · cases wrong
    · cases same; exact stored
    · cases same; exact stored
  have start : Ledger PositiveRecords (emptyTables users) ∧
      ∀ entry ∈ ([] : List Entry), ∀ record, entry.call = .refunding (.saveRecord record) → 0 < record.preConsumed :=
    ⟨⟨by simp [emptyTables],by simp [emptyTables,PositiveRecords],by simp [emptyTables]⟩,by simp⟩
  have fresh : ∀ entry, begins entry →
      ∀ record, entry.call = .refunding (.saveRecord record) → 0 < record.preConsumed := by
    intro entry begun record same
    simp only [begins,decide_eq_true_eq] at begun
    rw [← begun.2.1,same] at begun
    exact absurd begun.1 (by simp [Call.isStart])
  exact (runAlways (fun s l n inv moved => Pool.stepSeparate fresh keep inv.1 inv.2 moved) start h).1.records

def Holds (record : SubscriptionPreConsumeRecord) (rows : List SubscriptionPreConsumeRecord) : Prop :=
  lookup SubscriptionPreConsumeRecord.requestId record.requestId rows = some record

theorem holdsGrows (record) : Grows (Holds record) := by
  intro _ added _ _ fresh known
  have different : added.requestId ≠ record.requestId := by
    intro same
    rw [same] at fresh
    exact Option.some_ne_none _ (known.symm.trans fresh)
  unfold Holds
  rw [lookupAppend different]
  exact known

variable {record : SubscriptionPreConsumeRecord}

theorem othersKeep {cal : Calendar} (allowed : ∀ c ∈ calls, foreign record.requestId c.1) (ledger : Ledger (Holds record) db) :
    Ledger (Holds record) (others cal calls db) := by
  induction calls generalizing db with
  | nil => exact ledger
  | cons c _ ih =>
    obtain ⟨call,env⟩ := c
    refine ih (fun c member => allowed c (List.mem_cons_of_mem _ member)) ?_
    cases moved : next cal db env call with
    | none => exact ledger
    | some =>
      refine nextLedger (holdsGrows record) ?_ ledger moved
      intro _ _ same known
      have apart := allowed (call,env) (by simp)
      rw [same] at apart
      unfold Holds
      rw [lookupSave,if_neg (by simpa [foreign] using apart)]
      exact known

def marked (record : SubscriptionPreConsumeRecord) : SubscriptionPreConsumeRecord :=
  {record with status := .refunded}

theorem finishMark (outer) (ledger : Ledger (Holds record) db) :
    if passes 2 outer then Ledger (Holds (marked record)) (refundFinish (.saveRecord record) outer db).2
    else (refundFinish (.saveRecord record) outer db).2 = db := by
  dsimp only [refundFinish]
  split
  · rename_i through
    obtain ⟨v,write,tables⟩ := atomicallyOk (atomicallyExecOk.mpr through)
    rw [tables,execOk write]
    refine ⟨ledger.rows,?_,ledger.nextKey⟩
    show lookup _ _ (save _ _ _) = _
    rw [lookupSave]
    simp [marked]
  · rename_i refused
    cases result : (atomically (exec (fun db => db.putRecord {record with status := .refunded}) : SubTx Unit)
        outer db).1 with
    | error => exact atomicallyError result
    | ok => exact absurd (atomicallyExecOk.mp result) refused

theorem refundStays (within : 0 < total → used ≤ total) (positive : 0 < n) :
    ¬(0 < total ∧ total < clampUsed used (-n)) := by
  unfold clampUsed
  split <;> omega

theorem adjustIff {inner} (positive : 0 < record.preConsumed) (ledger : Ledger (Holds record) db) :
    (∃ after, refundAdjust record.requestId lockFault inner db = (.ok (.saveRecord record),after)) ↔
      lockFault = none ∧ passes 3 inner ∧ pending record.requestId db := by
  have stored : db.record record.requestId = some record := ledger.records
  have room : ∀ sub, db.sub record.userSubscriptionId = some sub →
      ¬(0 < sub.amountTotal ∧ sub.amountTotal < clampUsed sub.amountUsed (-record.preConsumed)) :=
    fun sub hit => refundStays (ledger.rows sub (lookupSound hit).1).within positive
  have pendingIff : pending record.requestId db ↔ trimSpace record.requestId ≠ "" ∧
      record.status = .consumed ∧ 0 < record.userSubscriptionId ∧
        ∃ sub, db.sub record.userSubscriptionId = some sub := by
    simp [pending,stored,isSome_iff_exists]
  rw [pendingIff]
  unfold refundAdjust
  constructor
  · rintro ⟨after,h⟩
    split at h; · cases h
    rename_i named
    split at h; · cases h
    rw [stored] at h
    dsimp only at h
    split at h; · cases h
    rename_i unmarked
    rw [if_neg (not_le.mpr positive)] at h
    split at h <;> cases h
    rename_i adjusted
    have valid : 0 < record.userSubscriptionId := by
      by_contra invalid
      simp [postConsumeUserSubscriptionDelta,not_lt.mp invalid] at adjusted
    rcases postConsumeOk adjusted with _ | ⟨sub,hit,moves,_⟩
    · omega
    have through := (postConsumePasses valid moves hit (room sub hit)).mp (congrArg Prod.fst adjusted)
    refine ⟨rfl,through,named,?_,valid,sub,hit⟩
    cases status : record.status
    · rfl
    · exact absurd status unmarked
  · rintro ⟨rfl,through,named,consumed,valid,sub,hit⟩
    have adjusted := (postConsumePasses valid (by omega) hit (room sub hit)).mpr through
    refine ⟨(postConsumeUserSubscriptionDelta record.userSubscriptionId (-record.preConsumed) inner db).2,?_⟩
    rw [if_neg named]
    simp only [stored,consumed,reduceCtorEq,if_false,if_neg (not_le.mpr positive)]
    split <;> rename_i same <;> rw [same] at adjusted ⊢
    · cases adjusted

theorem tornIff (positive : 0 < record.preConsumed) (ledger : Ledger (Holds record) s.db) :
    torn record.requestId s (.refund a) ↔
      (∃ after, refundAdjust record.requestId a.lockFault a.inner s.db = (.ok (.saveRecord record),after)) ∧
        ¬passes 2 a.outer := by
  rw [adjustIff positive ledger]
  simp only [torn,decide_eq_true_eq,and_assoc]

theorem finishCommit (outer db) : (refundFinish .commitOnly outer db).2 = db := by
  have keep : Triple (fun d => d = db) (pure () : SubTx Unit) (fun _ d => d = db) := triplePure (fun _ h => h)
  exact atomicallyInvariant keep rfl

def refundedCount (status : RecordStatus) : Nat := if status = .refunded then 1 else 0

theorem eventAccount {cal} (positive : 0 < record.preConsumed)
    (ledger : Ledger (Holds record) s.db) (moved : step cal record.requestId s e = some n) :
    ∃ status, Ledger (Holds {record with status := status}) n.db ∧ n.reductions + refundedCount record.status =
        s.reductions + (torn record.requestId s e).toNat + refundedCount status := by
  cases e with
  | other =>
    obtain ⟨apart,rfl⟩ := ite_none_right_eq_some.mp moved |>.imp_right some.inj
    exact ⟨record.status,othersKeep (by simpa using apart) ledger,by simp [torn]⟩
  | refund a =>
    obtain ⟨apart,rfl⟩ := ite_none_right_eq_some.mp moved |>.imp_right some.inj
    have apart' : ∀ c ∈ a.between, foreign record.requestId c.1 := by simpa using apart
    have safe : Ledger (Holds record) (refundAdjust record.requestId a.lockFault a.inner s.db).2 :=
      (refundAdjustSafe record.requestId a.lockFault a.inner s.db).ledger ledger
    have when : torn record.requestId s (.refund a) ↔ _ := tornIff positive ledger
    unfold refund
    rcases adjusted : refundAdjust record.requestId a.lockFault a.inner s.db with ⟨result,after⟩
    rw [adjusted] at safe when
    cases result with
    | error =>
      have whole : torn record.requestId s (.refund a) = false := by simpa using when
      exact ⟨record.status,safe,by simp [whole]⟩
    | ok =>
      have mid : Ledger (Holds record) (others cal a.between after) := othersKeep apart' safe
      obtain ⟨_,hit,outcome⟩ := reductionAdjusts adjusted
      cases some.inj (hit.symm.trans ledger.records)
      rcases outcome with ⟨_,rfl,_⟩ | ⟨_,rfl,none,_⟩ | ⟨_,consumed,rfl,one,_⟩
      · have whole : torn record.requestId s (.refund a) = false := by simpa using when
        refine ⟨record.status,?_,by simp [whole,reduction]⟩
        simp only [finishCommit]
        exact mid
      · simp [reduction,positive] at none
      have finish := finishMark a.outer mid
      cases through : passes 2 a.outer with
      | true =>
        have whole : torn record.requestId s (.refund a) = false := by simpa [through] using when
        rw [through,if_pos rfl] at finish
        exact ⟨.refunded,finish,by simp [whole,one,consumed,refundedCount]⟩
      | false =>
        have lost : torn record.requestId s (.refund a) = true := by simpa [through] using when
        simp only [through,Bool.false_eq_true,if_false] at finish
        refine ⟨record.status,?_,by simp [lost,one]⟩
        simp only [finish]
        exact mid

def tornCount (cal : Calendar) (requestId : String) : History → List Event → Nat
  | _,[] => 0
  | s,e::rest => (torn requestId s e).toNat +
      ((step cal requestId s e).map (fun n => tornCount cal requestId n rest)).getD 0

theorem tornNone :
    tornCount cal requestId s events = 0 ↔
      Along (step cal requestId) (fun s e => torn requestId s e = false) s events := by
  induction events generalizing s with
  | nil => simp [tornCount,Along]
  | cons e _ ih =>
    unfold tornCount Along
    rw [Nat.add_eq_zero_iff]
    refine and_congr (by simp) ?_
    cases step cal requestId s e with
    | none => simp
    | some => simpa using ih

theorem runAccount (positive : 0 < record.preConsumed)
    (ledger : Ledger (Holds record) s.db) (h : run (step cal record.requestId) s events = some out) :
    ∃ status, Ledger (Holds {record with status := status}) out.db ∧ out.reductions + refundedCount record.status =
        s.reductions + tornCount cal record.requestId s events + refundedCount status := by
  induction events generalizing s record with
  | nil =>
    cases h
    exact ⟨record.status,ledger,by simp [tornCount]⟩
  | cons e rest ih =>
    obtain ⟨n,moved,ran⟩ := runCons h
    obtain ⟨status,kept,_⟩ := eventAccount positive ledger moved
    have again : 0 < ({record with status := status} : SubscriptionPreConsumeRecord).preConsumed := positive
    obtain ⟨status',last,total⟩ := ih again kept ran
    refine ⟨status',last,?_⟩
    have unfolded : tornCount cal record.requestId s (e::rest) =
        (torn record.requestId s e).toNat + tornCount cal record.requestId n rest := by
      simp [tornCount,moved]
    dsimp only at total
    omega

theorem reducedOnceIffNeverTorn (cal : Calendar) (record : SubscriptionPreConsumeRecord) (db : Db) (events : List Event)
    (out : History) (rows : ∀ sub ∈ db.subs, Bounded sub) (nextKey : 0 < db.nextId)
    (stored : db.record record.requestId = some record) (consumed : record.status = .consumed)
    (positive : 0 < record.preConsumed) (h : run (step cal record.requestId) ⟨db,0⟩ events = some out) :
    (out.reductions ≤ 1 ∧ (out.reductions = 1 ↔
      (out.db.record record.requestId).map SubscriptionPreConsumeRecord.status = some .refunded)) ↔
    Along (step cal record.requestId) (fun s e => torn record.requestId s e = false) ⟨db,0⟩ events := by
  have ledger : Ledger (Holds record) db := ⟨rows,stored,nextKey⟩
  obtain ⟨status,kept,account⟩ := runAccount positive ledger h
  have found : out.db.record record.requestId = some {record with status := status} := kept.records
  rw [← tornNone,found]
  simp only [consumed,refundedCount] at account
  cases status with
  | consumed | refunded => simp at account ⊢; omega

def heldRecord : SubscriptionPreConsumeRecord := ⟨"req-1",7,1,10,.consumed⟩

def heldSub : UserSubscription :=
  { newSubscription utc 7 hourlyPlan "order" 1000 2593000 "" 1 with amountUsed := 40 }

def heldTables : Db := ⟨[heldSub],[heldRecord],[],2⟩

def lostMark : Attempt := ⟨none,[],[],[some "connection reset"]⟩

theorem reducedOnceByPlainRefund :
    ∃ out, run (step utc "req-1") ⟨heldTables,0⟩ [.refund noFaults] = some out ∧ out.reductions ≤ 1 ∧
      (out.reductions = 1 ↔
        (out.db.record "req-1").map SubscriptionPreConsumeRecord.status = some .refunded) := by
  have runs : (run (step utc "req-1") ⟨heldTables,0⟩ [.refund noFaults]).isSome := by decide +kernel
  obtain ⟨out,h⟩ := isSome_iff_exists.mp runs
  have bounded : ∀ sub ∈ heldTables.subs, Bounded sub := by
    intro sub member
    cases List.mem_singleton.mp member
    exact ⟨by decide,by decide,by decide⟩
  have whole : Along (step utc "req-1") (fun s e => torn "req-1" s e = false) ⟨heldTables,0⟩
      [.refund noFaults] := ⟨by decide +kernel,fun _ _ => trivial⟩
  exact ⟨out,h,(reducedOnceIffNeverTorn utc heldRecord heldTables [.refund noFaults] out bounded
    (by decide) (by decide) rfl (by decide) h).mpr whole⟩

theorem lostMarkReducesTwice :
    (∃ out, run (step utc "req-1") ⟨heldTables,0⟩ [.refund lostMark] = some out ∧ out.reductions = 1 ∧
      (out.db.record "req-1").map SubscriptionPreConsumeRecord.status = some .consumed) ∧
    (∃ out, run (step utc "req-1") ⟨heldTables,0⟩ [.refund lostMark,.refund noFaults] = some out ∧
      out.reductions = 2 ∧ (refundWithRetry "req-1" [lostMark] heldTables).2 = out.db ∧
      usedOf heldTables 1 = some 40 ∧ usedOf out.db 1 = some 20) := by decide +kernel

end Omnigate.SubscriptionRefund
