import Omnigate.SubscriptionRefund

/-! What a pre-consumption under a new request id leaves behind: its record, and the
row it was taken from with the amount added to what was used before. -/
namespace Omnigate.SubscriptionHold

open SubscriptionPlan SubscriptionStore SubscriptionConsume SubscriptionLedger Table Text Transaction

def Unknown (requestId : String) (rows : List SubscriptionPreConsumeRecord) : Prop :=
  lookup SubscriptionPreConsumeRecord.requestId requestId rows = none

def Found (rows : List UserSubscription) (id used : Int) : Prop :=
  ∃ row ∈ rows, row.id = id ∧ (used = row.amountUsed ∨ used = 0)

structure Held (rows : List UserSubscription) (requestId : String) (userId amount : Int)
    (res : SubscriptionPreConsumeResult) (db : Db) : Prop where
  found : Found rows res.userSubscriptionId res.amountUsedBefore
  record : db.record requestId = some ⟨requestId,userId,res.userSubscriptionId,amount,.consumed⟩
  taken : res.preConsumed = amount
  before : 0 ≤ res.amountUsedBefore
  after : res.amountUsedAfter = res.amountUsedBefore + amount
  row : ∃ row, db.sub res.userSubscriptionId = some row ∧ Bounded row ∧ row.amountUsed = res.amountUsedAfter

theorem createRecordHolds (record) :
    Triple (Ledger (Unknown record.requestId)) (attempt (createRecord record))
      (fun made db => match made with
        | .ok _ => db.record record.requestId = some record
        | .error _ => Ledger (Unknown record.requestId) db) := by
  refine tripleAttempt (tripleInsert (fun db n made h => ?_)) (fun _ _ h => h)
  have fresh : db.record record.requestId = none := h.records
  rw [fresh] at made
  cases made
  exact lookupInserted fresh

theorem noDuplicate (requestId sub err post) :
    Triple (Ledger (Unknown requestId)) (replayDuplicate requestId sub err) post := by
  have lookup' : Triple (Ledger (Unknown requestId))
      (attempt (first (fun db => db.record requestId) recordNotFound) : SubTx _)
      (fun found _ => ∀ dup, found ≠ .ok dup) := by
    refine tripleAttempt (tripleFirst (fun dup db hit h => ?_)) (fun e _ _ dup => by simp)
    have fresh : db.record requestId = none := h.records
    exact absurd (fresh.symm.trans hit) (by simp)
  refine tripleBind lookup' (fun found => ?_)
  intro v a _ pre h
  cases found with
  | error => cases h
  | ok dup => exact absurd rfl (pre dup)

theorem resetFound (stored : sub ∈ rows) (h : maybeResetUserSubscriptionWithPlanTx cal sub plan now v = .ok (row,v')) :
    Found rows row.id row.amountUsed := by
  rcases maybeResetCases h with ⟨same,_⟩ | ⟨due,_⟩
  · rw [same]
    exact ⟨sub,stored,rfl,.inl rfl⟩
  obtain ⟨key,_,used | used⟩ := dueResetKeeps due
  · exact ⟨sub,stored,key.symm,.inr used⟩
  · exact ⟨sub,stored,key.symm,.inl used⟩

theorem consumeFromHolds (requestId : String) (userId : Int) (positive : 0 < amount) (fit : Bounded sub)
    (found : Found rows sub.id sub.amountUsed)
    (room : ¬(0 < sub.amountTotal ∧ sub.amountTotal - sub.amountUsed < amount)) :
    Triple (Ledger (Unknown requestId)) (consumeFrom requestId userId amount sub)
      (Held rows requestId userId amount) := by
  refine tripleBind (createRecordHolds ⟨requestId,userId,sub.id,amount,.consumed⟩) (fun made => ?_)
  intro v res v' pre h
  cases made with
  | error err => exact noDuplicate requestId sub err _ v res v' pre h
  | ok =>
    obtain ⟨_,m,saved,last⟩ := bindOk h
    cases last
    have nonneg := fit.nonneg
    have taken : Bounded {sub with amountUsed := sub.amountUsed + amount} := by
      refine ⟨fit.keyed,?_,?_⟩
      · show 0 ≤ sub.amountUsed + amount
        omega
      intro limited
      show sub.amountUsed + amount ≤ sub.amountTotal
      have : 0 < sub.amountTotal := limited
      omega
    refine ⟨found,?_,rfl,fit.nonneg,rfl,_,?_,taken,rfl⟩
    · rw [execOk saved]
      exact pre
    · rw [execOk saved]
      simp [Db.sub,Db.putSub,lookupSave]

theorem consumeFirstHolds (cal : Calendar) (requestId : String) (userId : Int) (now : Int) (plans : UserSubscription → Except String Plan) (positive : 0 < amount)
    (fit : ∀ sub ∈ subs, Bounded sub ∧ sub ∈ rows) :
    Triple (Ledger (Unknown requestId)) (consumeFirst cal requestId userId amount now plans subs)
      (Held rows requestId userId amount) := by
  induction subs with
  | nil => exact tripleFail
  | cons candidate _ ih =>
    obtain ⟨fits,stored⟩ := fit candidate (by simp)
    refine tripleBind (ledgerOfKeeps (keepsResult _)) (fun plan => ?_)
    intro v a v' pre h
    obtain ⟨sub,m,reset,taken⟩ := bindOk h
    have kept := maybeResetLedger cal plan now fits v sub m pre reset
    have found := resetFound stored reset
    split at taken
    · exact ih (fun s member => fit s (List.mem_cons_of_mem _ member)) m a v' kept.2 taken
    · rename_i room
      exact consumeFromHolds requestId userId positive kept.1 found room m a v' kept.2 taken

theorem preConsumeHolds (ledger : Ledger (Unknown requestId) db)
    (unseen : lookup SubscriptionPreConsumeRecord.requestId requestId (seen db) = none)
    (h : preConsumeUserSubscription cal requestId userId amount now seen plans faults db = (.ok res,after)) :
    0 < amount ∧ trimSpace requestId ≠ "" ∧ Held db.subs requestId userId amount res after := by
  unfold preConsumeUserSubscription at h
  split at h; · cases h
  split at h; · cases h
  rename_i named
  split at h; · cases h
  rename_i large
  have positive : 0 < amount := not_le.mp large
  refine ⟨positive,named,?_⟩
  obtain ⟨v,body,tables⟩ := atomicallyOk (congrArg Prod.fst h)
  obtain ⟨_,m,read,rest⟩ := bindOk body
  obtain ⟨found,same⟩ := queryOk read
  rw [unseen] at found
  cases found
  have listing : Triple (fun t => Ledger (Unknown requestId) t ∧ t = db)
      (attempt (query (activeCandidates userId now)) : SubTx _)
      (fun found t => Ledger (Unknown requestId) t ∧
        ∀ subs, found = .ok subs → ∀ sub ∈ subs, Bounded sub ∧ sub ∈ db.subs) := by
    refine tripleAttempt (tripleQuery (fun t h => ⟨h.1,?_⟩)) (fun e t h => ⟨h.1,fun _ eq => nomatch eq⟩)
    intro subs eq sub member
    cases eq
    have listed := memSorted member
    exact ⟨candidatesBounded h.1 sub member,by rw [h.2] at listed; exact listed⟩
  obtain ⟨subs,n,listed,consumed⟩ := bindOk rest
  obtain ⟨kept,fit⟩ := listing m subs n (by rw [same]; exact ⟨ledger,rfl⟩) listed
  have after' : after = v.db := (congrArg Prod.snd h).symm.trans tables
  rw [after']
  match subs,consumed with
  | .error _,consumed | .ok [],consumed => cases consumed
  | .ok (sub::more),consumed =>
    exact consumeFirstHolds cal requestId userId now plans positive (fit (sub::more) rfl) n _ _ kept consumed

end Omnigate.SubscriptionHold
