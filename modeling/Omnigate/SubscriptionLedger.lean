import Omnigate.SubscriptionConsume

/-! What each subscription transaction does to the used amounts. The group transitions
leave every row alone; every other body keeps the rows within their total. -/
namespace Omnigate.SubscriptionLedger

open SubscriptionPlan SubscriptionStore SubscriptionConsume Table Text Transaction

structure Bounded (sub : UserSubscription) : Prop where
  keyed : 0 < sub.id
  nonneg : 0 ≤ sub.amountUsed
  within : 0 < sub.amountTotal → sub.amountUsed ≤ sub.amountTotal

structure Ledger (Q : List SubscriptionPreConsumeRecord → Prop) (db : Db) : Prop where
  rows : ∀ sub ∈ db.subs, Bounded sub
  records : Q db.records
  nextKey : 0 < db.nextId

def Grows (Q : List SubscriptionPreConsumeRecord → Prop) : Prop :=
  ∀ rows record, 0 < record.preConsumed → record.status = .consumed →
    lookup SubscriptionPreConsumeRecord.requestId record.requestId rows = none → Q rows → Q (rows ++ [record])

variable {Q : List SubscriptionPreConsumeRecord → Prop}

def KeepsRows {α : Type} (body : SubTx α) : Prop :=
  ∀ P : List UserSubscription → List SubscriptionPreConsumeRecord → Int → Prop,
    Triple (fun db => P db.subs db.records db.nextId) body (fun _ db => P db.subs db.records db.nextId)

theorem keepsBind {α β : Type} {body : SubTx α} {k : α → SubTx β} (left : KeepsRows body)
    (right : ∀ a, KeepsRows (k a)) : KeepsRows (body >>= k) :=
  fun P => tripleBind (left P) (fun a => right a P)

theorem keepsPure {α : Type} (a : α) : KeepsRows (pure a) := fun _ => triplePure (fun _ h => h)

theorem keepsFail {α : Type} (e) : KeepsRows (fail e : SubTx α) := fun _ => tripleFail

theorem keepsQuery {α : Type} (f : Db → α) : KeepsRows (query f) := fun _ => tripleQuery (fun _ h => h)

theorem keepsAttempt {α : Type} {body : SubTx α} (h : KeepsRows body) : KeepsRows (attempt body) :=
  fun P => tripleAttempt (h P) (fun _ _ hp => hp)

theorem keepsSetGroup (userId group) : KeepsRows (setGroup userId group) :=
  fun _ => tripleExec (fun _ h => h)

theorem keepsUserGroup (userId) : KeepsRows (getUserGroupByIdTx userId) := by
  unfold getUserGroupByIdTx
  split
  · exact keepsFail _
  · exact keepsQuery _

theorem keepsMoveToGroup (userId : Int) (current target : String) :
    KeepsRows (moveToGroup userId current target) := by
  unfold moveToGroup
  split
  · exact keepsPure _
  · exact keepsBind (keepsSetGroup _ _) (fun _ => keepsPure _)

theorem keepsDowngrade (sub : UserSubscription) (now : Int) :
    KeepsRows (downgradeUserGroupForSubscriptionTx sub now) := by
  unfold downgradeUserGroupForSubscriptionTx hasOtherUpgrade
  split
  · exact keepsPure _
  refine keepsBind (keepsUserGroup _) (fun _ => ?_)
  refine keepsBind (keepsBind (keepsAttempt (keepsQuery _)) (fun _ => keepsPure _)) (fun _ => ?_)
  split
  · exact keepsPure _
  · exact keepsMoveToGroup _ _ _

theorem keepsPurchaseLimit (userId : Int) (plan : Plan) : KeepsRows (checkPurchaseLimit userId plan) := by
  unfold checkPurchaseLimit
  split
  · exact keepsPure _
  refine keepsBind (keepsQuery _) (fun _ => ?_)
  split
  · exact keepsFail _
  · exact keepsPure _

theorem keepsUpgrade (userId : Int) (group : String) : KeepsRows (upgradeUserGroup userId group) := by
  unfold upgradeUserGroup
  split
  · exact keepsPure _
  refine keepsBind (keepsUserGroup _) (fun _ => ?_)
  split
  · exact keepsPure _
  · exact keepsBind (keepsSetGroup _ _) (fun _ => keepsPure _)

theorem keepsRevert (userId now : Int) : KeepsRows (revertExpiredGroup userId now) := by
  refine keepsBind (keepsAttempt (keepsQuery _)) (fun _ => ?_)
  split
  · exact keepsPure _
  refine keepsBind (keepsAttempt (keepsQuery _)) (fun _ => ?_)
  split
  · exact keepsBind (keepsUserGroup _) (fun _ => keepsMoveToGroup _ _ _)
  · exact keepsPure _

theorem keepsResult {α : Type} (r) : KeepsRows (ofResult r : SubTx α) :=
  fun _ => tripleOfResult (fun _ _ _ h => h)

theorem ledgerOfKeeps {α : Type} {body : SubTx α} (h : KeepsRows body) :
    Triple (Ledger Q) body (fun _ => Ledger Q) := by
  intro v a v' pre ran
  obtain ⟨rows,records,nextKey⟩ := h (fun subs records nextId => (∀ sub ∈ subs, Bounded sub) ∧ Q records ∧
    0 < nextId) v a v' ⟨pre.rows,pre.records,pre.nextKey⟩ ran
  exact ⟨rows,records,nextKey⟩

theorem ledgerAttempt {α : Type} {body : SubTx α} (h : Triple (Ledger Q) body (fun _ => Ledger Q)) :
    Triple (Ledger Q) (attempt body) (fun _ => Ledger Q) := tripleAttempt h (fun _ _ hp => hp)

theorem ledgerFirst {α : Type} (f : Db → Option α) :
    Triple (Ledger Q) (first f recordNotFound) (fun _ => Ledger Q) := tripleFirst (fun _ _ _ h => h)

theorem ledgerExec {f : Db → Db} (h : ∀ db, Ledger Q db → Ledger Q (f db)) :
    Triple (Ledger Q) (exec f : SubTx Unit) (fun _ => Ledger Q) := tripleExec h

theorem boundedZero {sub : UserSubscription} (keyed : 0 < sub.id) (h : sub.amountUsed = 0) : Bounded sub :=
  ⟨keyed,by omega,by omega⟩

theorem ledgerPut (h : Ledger Q db) (fit : Bounded sub) :
    Ledger Q (db.putSub sub) := by
  refine ⟨?_,h.records,h.nextKey⟩
  intro x member
  rcases saveMem member with rfl | old
  · exact fit
  · exact h.rows x old

theorem ledgerUpdate {db : Db} (h : Ledger Q db) (keep : ∀ sub, Bounded sub → Bounded (f sub)) :
    Ledger Q {db with subs := updateWhere p f db.subs} := by
  exact ⟨allUpdated h.rows (fun sub _ => keep sub),h.records,h.nextKey⟩

theorem saveLedger (fit : Bounded sub) :
    Triple (Ledger Q) (saveSub sub) (fun _ => Ledger Q) := ledgerExec (fun _ h => ledgerPut h fit)

theorem createLedger (cal : Calendar) (userId : Int) (plan : Plan) (source : String) (now : Int) :
    Triple (Ledger Q) (createUserSubscriptionFromPlanTx cal userId plan source now) (fun _ => Ledger Q) := by
  unfold createUserSubscriptionFromPlanTx
  split
  · exact tripleFail
  split
  · exact tripleFail
  refine tripleBind (ledgerOfKeeps (keepsPurchaseLimit _ _)) (fun _ => ?_)
  refine tripleBind (ledgerOfKeeps (keepsResult _)) (fun _ => ?_)
  refine tripleBind (ledgerOfKeeps (keepsUpgrade _ _)) (fun _ => ?_)
  refine tripleAlter (fun db h => ⟨?_,h.records,?_⟩)
  rotate_left
  · have := h.nextKey
    show 0 < db.nextId + 1
    omega
  exact allAdded h.rows (boundedZero h.nextKey rfl)

theorem resetBounded (cal : Calendar) (plan : Plan) (now : Int) (adv : Bool)
    (fit : Bounded sub) : Bounded (resetSubscription cal sub plan now adv) := by
  unfold resetSubscription
  split <;> exact boundedZero fit.keyed rfl

theorem resetAllLedger (cal : Calendar) (plan : Plan) (now : Int) (adv : Bool)
    {subs : List UserSubscription} (fit : ∀ sub ∈ subs, Bounded sub) :
    Triple (Ledger Q) (resetAll cal plan now adv subs) (fun _ => Ledger Q) := by
  induction subs with
  | nil => exact triplePure (fun _ h => h)
  | cons sub _ ih =>
    exact tripleBind (saveLedger (resetBounded cal plan now adv (fit sub (by simp))))
      (fun _ => ih (fun s member => fit s (List.mem_cons_of_mem _ member)))

theorem listingLedger {f : Db → List UserSubscription} (sound : ∀ db, ∀ sub ∈ f db, sub ∈ db.subs) :
    Triple (Ledger Q) (query f : SubTx _) (fun subs db => Ledger Q db ∧ ∀ sub ∈ subs, Bounded sub) :=
  tripleQuery (fun db h => ⟨h,fun sub member => h.rows sub (sound db sub member)⟩)

theorem memSorted {r : UserSubscription → UserSubscription → Prop} [DecidableRel r] {db : Db}
    (h : sub ∈ (db.subs.filter p).insertionSort r) : sub ∈ db.subs := by
  rw [List.mem_insertionSort,List.mem_filter] at h
  exact h.1

theorem adminUserLedger (cal userId plan now adv) :
    Triple (Ledger Q) (adminResetUserSubscriptionsByPlanTx cal userId plan now adv) (fun _ => Ledger Q) := by
  refine tripleBind (listingLedger (fun _ _ h => memSorted h)) (fun _ => ?_)
  intro v a _ pre h
  split at h
  · cases h
  obtain ⟨_,m,reset,last⟩ := bindOk h
  cases last
  exact resetAllLedger cal plan now adv pre.2 v _ _ pre.1 reset

theorem adminPlanLedger (cal plan now adv) :
    Triple (Ledger Q) (adminResetPlanSubscriptionsTx cal plan now adv) (fun _ => Ledger Q) := by
  refine tripleBind (listingLedger (fun _ _ h => memSorted h)) (fun _ => ?_)
  intro v a _ pre h
  obtain ⟨_,m,reset,last⟩ := bindOk h
  cases last
  exact resetAllLedger cal plan now adv pre.2 v _ _ pre.1 reset

theorem dueResetKeeps (h : dueReset cal sub plan now = some row) :
    row.id = sub.id ∧ row.amountTotal = sub.amountTotal ∧ (row.amountUsed = 0 ∨ row.amountUsed = sub.amountUsed) := by
  unfold dueReset at h
  split at h
  · cases h
  split at h
  · cases h
  dsimp only at h
  split at h
  · cases h; exact ⟨rfl,rfl,.inl rfl⟩
  · split at h <;> cases h
    exact ⟨rfl,rfl,.inr rfl⟩

theorem maybeResetCases (h : maybeResetUserSubscriptionWithPlanTx cal sub plan now v = .ok (row,v')) :
    (row = sub ∧ v'.db = v.db) ∨ (dueReset cal sub plan now = some row ∧ v'.db = v.db.putSub row) := by
  unfold maybeResetUserSubscriptionWithPlanTx at h
  cases due : dueReset cal sub plan now with
  | none =>
    rw [due] at h
    cases h
    exact .inl ⟨rfl,rfl⟩
  | some =>
    rw [due] at h
    obtain ⟨_,m,write,last⟩ := bindOk h
    cases last
    exact .inr ⟨rfl,execOk write⟩

theorem boundedReset (fit : Bounded sub) (h : dueReset cal sub plan now = some row) : Bounded row := by
  obtain ⟨key,total,used | used⟩ := dueResetKeeps h
  · exact boundedZero (by rw [key]; exact fit.keyed) used
  · exact ⟨by rw [key]; exact fit.keyed,by rw [used]; exact fit.nonneg,by rw [used,total]; exact fit.within⟩

theorem maybeResetLedger (cal : Calendar) (plan : Plan) (now : Int) (fit : Bounded sub) :
    Triple (Ledger Q) (maybeResetUserSubscriptionWithPlanTx cal sub plan now)
      (fun row db => Bounded row ∧ Ledger Q db) := by
  unfold maybeResetUserSubscriptionWithPlanTx
  split
  · exact triplePure (fun _ h => ⟨fit,h⟩)
  rename_i row due
  have good := boundedReset fit due
  exact tripleBind (saveLedger good) (fun _ => triplePure (fun _ h => ⟨good,h⟩))

theorem createRecordLedger (grows : Grows Q) (positive : 0 < record.preConsumed) (consumed : record.status = .consumed) :
    Triple (Ledger Q) (createRecord record) (fun _ => Ledger Q) := by
  refine tripleInsert (fun db n made h => ?_)
  cases known : db.record record.requestId with
  | some => rw [known] at made; cases made
  | none =>
    rw [known] at made
    cases made
    exact ⟨h.rows,grows db.records record positive consumed known h.records,h.nextKey⟩

theorem replayDuplicateLedger (requestId sub err) :
    Triple (Ledger Q) (replayDuplicate requestId sub err) (fun _ => Ledger Q) := by
  refine tripleBind (ledgerAttempt (ledgerFirst _)) (fun _ => ?_)
  split
  · exact tripleFail
  split
  · exact tripleFail
  · exact triplePure (fun _ h => h)

theorem consumeFromLedger (grows : Grows Q) (requestId : String) (userId : Int) {amount : Int} (positive : 0 < amount) (fit : Bounded sub)
    (room : ¬(0 < sub.amountTotal ∧ sub.amountTotal - sub.amountUsed < amount)) :
    Triple (Ledger Q) (consumeFrom requestId userId amount sub) (fun _ => Ledger Q) := by
  have taken : Bounded {sub with amountUsed := sub.amountUsed + amount} := by
    refine ⟨fit.keyed,?_,?_⟩
    · have := fit.nonneg
      show 0 ≤ sub.amountUsed + amount
      omega
    intro limited
    show sub.amountUsed + amount ≤ sub.amountTotal
    have : 0 < sub.amountTotal := limited
    omega
  refine tripleBind (ledgerAttempt (createRecordLedger grows positive rfl)) (fun _ => ?_)
  split
  · exact replayDuplicateLedger _ _ _
  · exact tripleBind (saveLedger taken) (fun _ => triplePure (fun _ h => h))

theorem consumeFirstLedger (grows : Grows Q) (cal : Calendar) (requestId : String) (userId : Int) {amount : Int}
    (now : Int) (plans : UserSubscription → Except String Plan) (positive : 0 < amount)
    (fit : ∀ sub ∈ subs, Bounded sub) :
    Triple (Ledger Q) (consumeFirst cal requestId userId amount now plans subs) (fun _ => Ledger Q) := by
  induction subs with
  | nil => exact tripleFail
  | cons candidate _ ih =>
    refine tripleBind (ledgerOfKeeps (keepsResult _)) (fun plan => ?_)
    refine tripleBind (maybeResetLedger cal plan now (fit candidate (by simp))) (fun sub => ?_)
    intro v a v' pre h
    split at h
    · exact ih (fun s member => fit s (List.mem_cons_of_mem _ member)) v a v' pre.2 h
    · rename_i room
      exact consumeFromLedger grows requestId userId positive pre.1 room v a v' pre.2 h

theorem candidatesBounded (h : Ledger Q db) :
    ∀ sub ∈ activeCandidates userId now db, Bounded sub := by
  intro sub member
  exact h.rows sub (memSorted member)

theorem preConsumeLedger (grows : Grows Q) (cal : Calendar) (requestId : String) (userId : Int) {amount : Int} (now : Int)
    (seen : Db → List SubscriptionPreConsumeRecord) (plans : UserSubscription → Except String Plan)
    (positive : 0 < amount) :
    Triple (Ledger Q) (preConsumeTx cal requestId userId amount now seen plans) (fun _ => Ledger Q) := by
  refine tripleBind (ledgerOfKeeps (keepsQuery _)) (fun _ => ?_)
  split
  · unfold replayRecord
    split
    · exact tripleFail
    · exact tripleBind (ledgerFirst _) (fun _ => triplePure (fun _ h => h))
  have listing : Triple (Ledger Q) (attempt (query (activeCandidates userId now)) : SubTx _)
      (fun found db => Ledger Q db ∧ ∀ subs, found = .ok subs → ∀ sub ∈ subs, Bounded sub) := by
    refine tripleAttempt (tripleQuery (fun db h => ⟨h,?_⟩)) (fun e db h => ⟨h,fun _ eq => nomatch eq⟩)
    intro subs eq
    cases eq
    exact candidatesBounded h
  refine tripleBind listing (fun found => ?_)
  split
  · exact tripleFail
  · exact tripleFail
  rename_i subs _
  intro v a v' pre h
  exact consumeFirstLedger grows cal requestId userId now plans positive (pre.2 subs rfl) v a v' pre.1 h

theorem clampNonneg (used delta) : 0 ≤ clampUsed used delta := by
  unfold clampUsed
  split <;> omega

theorem postConsumeLedger (userSubscriptionId delta : Int) :
    Triple (Ledger Q) (postConsumeTx userSubscriptionId delta) (fun _ => Ledger Q) := by
  have locking : Triple (Ledger Q) (first (fun db => db.sub userSubscriptionId) recordNotFound : SubTx _)
      (fun sub db => Ledger Q db ∧ Bounded sub) :=
    tripleFirst (fun sub db hit h => ⟨h,h.rows sub (lookupSound hit).1⟩)
  refine tripleBind locking (fun sub => ?_)
  intro v a v' pre h
  dsimp only at h
  split at h
  · cases h
  rename_i within
  have fit : Bounded {sub with amountUsed := clampUsed sub.amountUsed delta} :=
    ⟨pre.2.keyed,clampNonneg _ _,fun limited => not_lt.mp (fun above => within ⟨limited,above⟩)⟩
  exact saveLedger fit v a v' pre.1 h

theorem resetDueLedger (cal id plan now) :
    Triple (Ledger Q) (resetDueTx cal id plan now) (fun _ => Ledger Q) := by
  have locking : Triple (Ledger Q)
      (attempt (first (fun db => (db.subs.filter (isDue now)).find? (fun s => s.id = id)) recordNotFound) : SubTx _)
      (fun found db => Ledger Q db ∧ ∀ sub, found = .ok sub → Bounded sub) := by
    refine tripleAttempt (tripleFirst (fun sub db hit h => ⟨h,?_⟩)) (fun e db h => ⟨h,fun _ eq => nomatch eq⟩)
    intro _ eq
    cases eq
    exact h.rows sub (List.mem_filter.mp (List.mem_of_find?_eq_some hit)).1
  refine tripleBind locking (fun found => ?_)
  split
  · exact triplePure (fun _ h => h.1)
  rename_i locked
  intro v a _ pre h
  obtain ⟨row,m,reset,last⟩ := bindOk h
  cases last
  exact (maybeResetLedger cal plan now (pre.2 locked rfl) v row _ pre.1 reset).2

structure Safe {α : Type} (Q : List SubscriptionPreConsumeRecord → Prop) (db : Db) (r : Except String α × Db) : Prop where
  ledger : Ledger Q db → Ledger Q r.2
  failed : ∀ e, r.1 = .error e → r.2 = db

theorem safeSame {α : Type} (db : Db) (r : Except String α) : Safe Q db (r,db) := ⟨id,fun _ _ => rfl⟩

theorem safeAtomically {α : Type} {body : SubTx α} (keeps : Triple (Ledger Q) body (fun _ => Ledger Q))
    (faults db) : Safe Q db (atomically body faults db) :=
  ⟨atomicallyInvariant keeps,fun _ h => atomicallyError h⟩

theorem preConsumeSafe (grows : Grows Q) (cal requestId userId amount now seen plans faults db) :
    Safe Q db (preConsumeUserSubscription cal requestId userId amount now seen plans faults db) := by
  unfold preConsumeUserSubscription
  split; · exact safeSame _ _
  split; · exact safeSame _ _
  split; · exact safeSame _ _
  rename_i positive
  exact safeAtomically (preConsumeLedger grows cal requestId userId now seen plans (not_le.mp positive)) faults db

theorem postConsumeSafe (id delta faults db) :
    Safe Q db (postConsumeUserSubscriptionDelta id delta faults db) := by
  unfold postConsumeUserSubscriptionDelta
  split; · exact safeSame _ _
  split; · exact safeSame _ _
  exact safeAtomically (postConsumeLedger id delta) faults db

theorem postConsumeOk {id}
    (h : postConsumeUserSubscriptionDelta id delta faults db = (.ok (),after)) :
    (delta = 0 ∧ after = db) ∨ ∃ sub, db.sub id = some sub ∧ delta ≠ 0 ∧
      (0 < sub.amountTotal → clampUsed sub.amountUsed delta ≤ sub.amountTotal) ∧
      after = db.putSub {sub with amountUsed := clampUsed sub.amountUsed delta} := by
  unfold postConsumeUserSubscriptionDelta at h
  split at h; · cases h
  split at h
  · rename_i zero
    cases h
    exact .inl ⟨zero,rfl⟩
  rename_i moves
  obtain ⟨v,body,tables⟩ := atomicallyOk (congrArg Prod.fst h)
  obtain ⟨sub,m,found,rest⟩ := bindOk body
  obtain ⟨hit,same⟩ := firstOk found
  dsimp only at rest
  split at rest
  · cases rest
  rename_i within
  refine .inr ⟨sub,hit,moves,fun limited => not_lt.mp (fun above => within ⟨limited,above⟩),?_⟩
  rw [← show _ = after from congrArg Prod.snd h,tables,execOk rest,same]

theorem postConsumePasses {id} (valid : 0 < id) (moves : delta ≠ 0) (hit : db.sub id = some sub)
    (room : ¬(0 < sub.amountTotal ∧ sub.amountTotal < clampUsed sub.amountUsed delta)) :
    (postConsumeUserSubscriptionDelta id delta faults db).1 = .ok () ↔ passes 3 faults := by
  unfold postConsumeUserSubscriptionDelta
  rw [if_neg (by omega),if_neg moves]
  rcases faults with _ | ⟨_ | a,_ | ⟨_ | b,_ | ⟨_ | c,_⟩⟩⟩ <;>
    simp [passes,atomically,postConsumeTx,first,query,saveSub,exec,statement,bind,StateT.bind,Except.bind,
      modify,modifyGet,MonadStateOf.modifyGet,StateT.modifyGet,pure,Except.pure,pureTx,get,getThe,
      MonadStateOf.get,StateT.get,hit,room]

theorem adminUserSafe (cal userId planId now adv found faults db) :
    Safe Q db (adminResetUserSubscriptionsByPlan cal userId planId now adv found faults db) := by
  unfold adminResetUserSubscriptionsByPlan
  split; · exact safeSame _ _
  exact safeAtomically (tripleBind (ledgerOfKeeps (keepsResult _))
    (fun plan => adminUserLedger cal userId plan now adv)) faults db

theorem adminPlanSafe (cal planId now adv found faults db) :
    Safe Q db (adminResetPlanSubscriptions cal planId now adv found faults db) := by
  unfold adminResetPlanSubscriptions
  split; · exact safeSame _ _
  exact safeAtomically (tripleBind (ledgerOfKeeps (keepsResult _))
    (fun plan => adminPlanLedger cal plan now adv)) faults db

theorem invalidateSafe (id now faults db) : Safe Q db (adminInvalidateUserSubscription id now faults db) := by
  unfold adminInvalidateUserSubscription
  split; · exact safeSame _ _
  refine safeAtomically (tripleBind (ledgerFirst _) (fun _ => ?_)) faults db
  refine tripleBind (ledgerExec (fun _ h => ledgerUpdate h (fun _ h => {h with}))) (fun _ => ?_)
  exact tripleBind (ledgerOfKeeps (keepsDowngrade _ _)) (fun _ => triplePure (fun _ h => h))

theorem deleteSafe (id now faults db) : Safe Q db (adminDeleteUserSubscription id now faults db) := by
  unfold adminDeleteUserSubscription
  split; · exact safeSame _ _
  refine safeAtomically (tripleBind (ledgerFirst _) (fun _ => ?_)) faults db
  refine tripleBind (ledgerOfKeeps (keepsDowngrade _ _)) (fun _ => ?_)
  refine tripleBind (ledgerExec (fun db h => ⟨?_,h.records,h.nextKey⟩)) (fun _ => triplePure (fun _ h => h))
  intro s member
  exact h.rows s (List.mem_filter.mp member).1

theorem refundAdjustSafe (requestId lockFault inner db) :
    Safe Q db (refundAdjust requestId lockFault inner db) := by
  unfold refundAdjust
  split; · exact safeSame _ _
  split; · exact safeSame _ _
  split; · exact safeSame _ _
  split; · exact safeSame _ _
  split; · exact safeSame _ _
  rename_i record _ _ _
  have adjusted : Safe Q db _ := postConsumeSafe record.userSubscriptionId (-record.preConsumed) inner db
  split <;> rename_i heq <;> rw [heq] at adjusted
  · exact ⟨adjusted.ledger,fun _ _ => adjusted.failed _ rfl⟩
  · exact ⟨adjusted.ledger,fun _ h => nomatch h⟩

theorem refundFinishSafe {progress : RefundProgress} (outer db)
    (marks : ∀ record rows, progress = .saveRecord record → Q rows →
      Q (save SubscriptionPreConsumeRecord.requestId {record with status := .refunded} rows)) :
    Safe Q db (refundFinish progress outer db) := by
  cases progress with
  | commitOnly => exact safeAtomically (triplePure (fun _ h => h)) outer db
  | saveRecord record =>
    refine safeAtomically (ledgerExec ?_) outer db
    intro db h
    exact ⟨h.rows,marks record db.records rfl h.records,h.nextKey⟩

theorem expireLedger (userId now : Int) : Triple (Ledger Q) (expireUserTx userId now) (fun _ => Ledger Q) := by
  refine tripleBind (ledgerExec (fun _ h => ledgerUpdate h (fun _ h => {h with}))) (fun _ => ?_)
  exact tripleBind (ledgerOfKeeps (keepsRevert _ _)) (fun _ => triplePure (fun _ h => h))

end Omnigate.SubscriptionLedger
