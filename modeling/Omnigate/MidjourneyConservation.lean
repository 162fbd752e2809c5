import Omnigate.MidjourneyRefund

/-! Conservation of the price of a Midjourney task: deducted or about to be, and given back or about to be exactly
when its row is in FAILURE; one lemma for each kind of step, through the totals over the store and the processes. -/
namespace Omnigate.MidjourneyRefund

open Machine MidjourneyTask Pool Table List

def payable : Proc → Prop
  | .charging _ _ quota => 0 ≤ quota
  | .returning task _ => task.quota ≠ 0
  | _ => True

def copies : Proc → List Midjourney
  | .sweeping _ pass => pass.taskM
  | .polling pass => pass.taskM
  | .returning task pass => task::pass.taskM
  | _ => []

structure Alike (row copy : Midjourney) : Prop where
  id : copy.id = row.id
  quota : copy.quota = row.quota
  userId : copy.userId = row.userId

structure Fair (w : World) (row : Midjourney) : Prop where
  nonneg : 0 ≤ row.quota
  cost : charged w row.id row.userId = row.quota
  open' : row.status ≠ "FAILURE" → returned w row.id row.userId = 0 ∧ times w row.id = 0
  closed : row.status = "FAILURE" →
    returned w row.id row.userId = row.quota ∧ times w row.id ≤ 1 ∧ settled w.procs row.id

structure Sound (w : World) : Prop where
  keys : (w.shared.rows.map Midjourney.id).Nodup
  bound : ∀ row ∈ w.shared.rows, row.id < w.shared.nextId
  fresh : ∀ task, w.shared.nextId ≤ task →
    (∀ userId, charged w task userId = 0 ∧ returned w task userId = 0) ∧ times w task = 0
  pays : ∀ p ∈ w.procs, payable p
  rows : ∀ row ∈ w.shared.rows, Fair w row
  held : ∀ p ∈ w.procs, ∀ copy ∈ copies p, ∃ row ∈ w.shared.rows, Alike row copy

theorem Alike.trans (left : Alike a b) (right : Alike b c) : Alike a c :=
  ⟨right.id.trans left.id,right.quota.trans left.quota,right.userId.trans left.userId⟩

theorem Alike.symm (h : Alike a b) : Alike b a := ⟨h.id.symm,h.quota.symm,h.userId.symm⟩

theorem Alike.refl (a) : Alike a a := ⟨rfl,rfl,rfl⟩

variable {w : World}

theorem fairKept (fair : Fair w row) (cost : charged n row.id row.userId = charged w row.id row.userId)
    (back : returned n row.id row.userId = returned w row.id row.userId) (count : times n row.id = times w row.id)
    (ends : settled w.procs row.id → settled n.procs row.id) : Fair n row := by
  refine ⟨fair.nonneg,cost.trans fair.cost,?_,?_⟩
  · rw [back,count]
    exact fair.open'
  intro isClosed
  obtain ⟨all,once,ended⟩ := fair.closed isClosed
  rw [back,count]
  exact ⟨all,once,ends ended⟩

theorem sameTask {rows : List Midjourney} (keys : (rows.map Midjourney.id).Nodup) (ina : a ∈ rows) (inb : b ∈ rows)
    (same : a.id = b.id) : a = b :=
  inj_on_of_nodup_map keys ina inb same

theorem settledSet {procs : List Proc} (h : settled procs task) (found : procs[i]? = some p)
    (submits : chargesFor task q → chargesFor task p) : settled (procs.set i q) task := by
  simp only [settled,all_eq_true] at h ⊢
  refine allSet h ?_
  have before := h p (mem_of_getElem? found)
  by_contra bad
  simp only [Bool.not_eq_true',Bool.not_eq_false] at bad before
  rw [submits bad] at before
  cases before

theorem settledCharged (h : settled w.procs task) (userId) :
    charged w task userId = deducted w.shared task userId := by
  have parts : (w.procs.map (chargePart task userId)).sum = 0 := by
    refine sum_eq_zero (fun x member => ?_)
    obtain ⟨p,inside,rfl⟩ := mem_map.mp member
    have ended := all_eq_true.mp h p inside
    cases p <;> simp_all [chargePart,chargesFor]
  simp [charged,total,parts]

theorem totalsAct {w : World} {i p s q} (found : w.procs[i]? = some p) (task userId) :
    charged ⟨s,w.procs.set i q⟩ task userId + (deducted w.shared task userId + chargePart task userId p) =
      charged w task userId + (deducted s task userId + chargePart task userId q) ∧
    returned ⟨s,w.procs.set i q⟩ task userId + (givenBack w.shared task userId + returnPart task userId p) =
      returned w task userId + (givenBack s task userId + returnPart task userId q) ∧
    times ⟨s,w.procs.set i q⟩ task + (timesBack w.shared task + returnCount task p) =
      times w task + (timesBack s task + returnCount task q) :=
  ⟨totalAct _ _ found s q,totalAct _ _ found s q,totalAct _ _ found s q⟩

inductive Treats (w : World) (p : Proc) (s : Store) (q : Proc) (row row' : Midjourney) : Prop
  | same (failure : row'.status = "FAILURE" ↔ row.status = "FAILURE")
      (back : givenBack s row.id row.userId + returnPart row.id row.userId q =
        givenBack w.shared row.id row.userId + returnPart row.id row.userId p)
      (count : timesBack s row.id + returnCount row.id q = timesBack w.shared row.id + returnCount row.id p)
  | fails (before : row.status ≠ "FAILURE") (after : row'.status = "FAILURE") (ended : settled w.procs row.id)
      (back : givenBack s row.id row.userId + returnPart row.id row.userId q =
        givenBack w.shared row.id row.userId + returnPart row.id row.userId p + row.quota)
      (count : timesBack s row.id + returnCount row.id q ≤ timesBack w.shared row.id + returnCount row.id p + 1)

section
variable {i : Nat} (sound : Sound w) (found : w.procs[i]? = some p) (pays : payable q)
  (held : ∀ copy ∈ copies q, ∃ row ∈ w.shared.rows, Alike row copy) (submits : ∀ task, chargesFor task q → chargesFor task p)

include sound found pays held submits

theorem soundAct
    (keys : s.rows.map Midjourney.id = w.shared.rows.map Midjourney.id) (next : s.nextId = w.shared.nextId)
    (cost : ∀ task userId, deducted s task userId + chargePart task userId q = deducted w.shared task userId + chargePart task userId p)
    (fresh : ∀ task, w.shared.nextId ≤ task → (∀ userId, givenBack s task userId + returnPart task userId q = givenBack w.shared task userId + returnPart task userId p) ∧ timesBack s task + returnCount task q = timesBack w.shared task + returnCount task p)
    (rows : ∀ row' ∈ s.rows, ∃ row ∈ w.shared.rows, Alike row row' ∧ Treats w p s q row row') :
    Sound ⟨s,w.procs.set i q⟩ := by
  have kept : ∀ row ∈ w.shared.rows, ∃ row' ∈ s.rows, Alike row row' := by
    intro row member
    have inside : row.id ∈ s.rows.map Midjourney.id := by
      rw [keys]
      exact mem_map_of_mem member
    obtain ⟨row',member',same⟩ := mem_map.mp inside
    obtain ⟨old,wasMember,alike,_⟩ := rows row' member'
    rw [sameTask sound.keys wasMember member (alike.id.symm.trans same)] at alike
    exact ⟨row',member',alike⟩
  have heldNow : ∀ copy, (∃ row ∈ w.shared.rows, Alike row copy) → ∃ row ∈ s.rows, Alike row copy := by
    rintro copy ⟨row,member,alike⟩
    obtain ⟨row',member',alike'⟩ := kept row member
    exact ⟨row',member',alike'.symm.trans alike⟩
  refine ⟨?_,?_,?_,?_,?_,?_⟩ <;> dsimp only
  · rw [keys]
    exact sound.keys
  · intro row' member
    obtain ⟨row,was,alike,_⟩ := rows row' member
    rw [next,alike.id]
    exact sound.bound row was
  · intro task old
    rw [next] at old
    obtain ⟨zero,_⟩ := sound.fresh task old
    refine ⟨fun userId => ?_,?_⟩
    · obtain ⟨isCost,isBack,_⟩ := @totalsAct w i p s q found task userId
      have := zero userId
      have := cost task userId
      have := (fresh task old).1 userId
      omega
    obtain ⟨_,_,isCount⟩ := @totalsAct w i p s q found task 0
    have := (fresh task old).2
    omega
  · exact allSet sound.pays pays
  · intro row' member
    obtain ⟨row,was,alike,treats⟩ := rows row' member
    have fair := sound.rows row was
    obtain ⟨isCost,isBack,isCount⟩ := @totalsAct w i p s q found row.id row.userId
    have sameCost := cost row.id row.userId
    refine ⟨?_,?_,?_,?_⟩
    · rw [alike.quota]
      exact fair.nonneg
    · rw [alike.id,alike.userId,alike.quota]
      have := fair.cost
      omega
    · intro isOpen
      rw [alike.id,alike.userId]
      cases treats with
      | same failure =>
        obtain ⟨nothing,never⟩ := fair.open' (fun before => isOpen (failure.mpr before))
        omega
      | fails before after => exact absurd after isOpen
    intro isClosed
    rw [alike.id,alike.userId,alike.quota]
    cases treats with
    | same failure =>
      obtain ⟨_,_,ended⟩ := fair.closed (failure.mp isClosed)
      exact ⟨by omega,by omega,settledSet ended found (submits row.id)⟩
    | fails before after ended =>
      obtain ⟨nothing,never⟩ := fair.open' before
      exact ⟨by omega,by omega,settledSet ended found (submits row.id)⟩
  · exact allSet (fun r old copy inside => heldNow copy (sound.held r old copy inside))
      (fun copy inside => heldNow copy (held copy inside))

theorem soundQuiet (rows : s.rows = w.shared.rows) (next : s.nextId = w.shared.nextId)
    (cost : ∀ task userId, deducted s task userId + chargePart task userId q = deducted w.shared task userId + chargePart task userId p)
    (back : ∀ task userId, givenBack s task userId + returnPart task userId q = givenBack w.shared task userId + returnPart task userId p)
    (count : ∀ task, timesBack s task + returnCount task q = timesBack w.shared task + returnCount task p) :
    Sound ⟨s,w.procs.set i q⟩ := by
  refine soundAct sound found pays held submits (by rw [rows]) next cost (fun task _ => ⟨back task,count task⟩) ?_
  rw [rows]
  exact fun row member => ⟨row,member,Alike.refl row,.same Iff.rfl (back _ _) (count _)⟩

theorem soundBulk (free : ∀ row ∈ w.shared.rows, hit row = true → uncharged w row)
    (cost : ∀ task userId, chargePart task userId q = chargePart task userId p)
    (back : ∀ task userId, returnPart task userId q = returnPart task userId p)
    (count : ∀ task, returnCount task q = returnCount task p) :
    Sound ⟨{w.shared with rows := updateWhere hit (failed failReason) w.shared.rows},w.procs.set i q⟩ := by
  have sameBack : ∀ task userId, givenBack w.shared task userId + returnPart task userId q =
      givenBack w.shared task userId + returnPart task userId p := fun task userId => by rw [back]
  have sameCount : ∀ task, timesBack w.shared task + returnCount task q = timesBack w.shared task + returnCount task p :=
    fun task => by rw [count]
  refine soundAct sound found pays held submits (@updateKeys _ _ Midjourney.id hit (failed failReason) (fun _ _ => rfl) _) rfl
    (fun task userId => congrArg (deducted w.shared task userId + ·) (cost task userId))
    (fun task _ => ⟨sameBack task,sameCount task⟩) ?_
  intro _ member
  obtain ⟨row,was,same⟩ := mem_map.mp member
  refine ⟨row,was,?_⟩
  split at same
  · rename_i hits
    subst same
    refine ⟨⟨rfl,rfl,rfl⟩,?_⟩
    by_cases before : row.status = "FAILURE"
    · exact .same ⟨fun _ => before,fun _ => rfl⟩ (sameBack _ _) (sameCount _)
    have cheap := free row was hits
    simp only [uncharged,decide_eq_true_eq] at cheap
    have price : row.quota = 0 := by
      have cost := (sound.rows row was).cost
      rw [settledCharged cheap.1,cheap.2] at cost
      exact cost.symm
    refine .fails before rfl cheap.1 ?_ ?_
    · rw [price,add_zero]
      exact sameBack _ _
    · exact (sameCount row.id).le.trans (by omega)
  · subst same
    exact ⟨Alike.refl row,.same Iff.rfl (sameBack _ _) (sameCount _)⟩

end

theorem polledAlike (task item) : Alike task (polledTask task item) := ⟨rfl,rfl,rfl⟩

def AfterWrite (task : Midjourney) (item : MidjourneyDto) (won : Bool) (q : Proc) : Prop :=
  if won ∧ shouldReturnQuota task item then ∃ rest, q = .returning (polledTask task item) rest
  else ∃ rest, q = .polling rest

section

variable (h : AfterWrite task item won q)

include h

theorem afterWriteCases :
    (task.quota ≠ 0 ∧ ∃ rest, q = .returning (polledTask task item) rest) ∨ ∃ rest, q = .polling rest := by
  unfold AfterWrite at h
  split at h
  · rename_i wins
    exact .inl ⟨(of_decide_eq_true wins.2).2,h⟩
  · exact .inr h

theorem afterWriteQuiet :
    (∀ other, chargesFor other q = false) ∧ (∀ other userId, chargePart other userId q = 0) ∧ payable q := by
  rcases afterWriteCases h with ⟨price,rest,rfl⟩ | ⟨rest,rfl⟩
  · exact ⟨fun _ => rfl,fun _ _ => rfl,price⟩
  · exact ⟨fun _ => rfl,fun _ _ => rfl,trivial⟩

theorem afterWriteElsewhere (differs : other ≠ task.id) :
    (∀ userId, returnPart other userId q = 0) ∧ returnCount other q = 0 := by
  rcases afterWriteCases h with ⟨_,rest,rfl⟩ | ⟨rest,rfl⟩
  · have : ¬task.id = other := fun same => differs same.symm
    simp [returnPart,returnCount,returnsFor,polledTask,this]
  · exact ⟨fun _ => rfl,rfl⟩

end

theorem hitTreated {pass} (alike : Alike row task) (before : row.status ≠ "FAILURE")
    (means : fails item ↔ item.status = "FAILURE") (ended : settled w.procs task.id)
    (next : AfterWrite task item true q) :
    Treats w (.polling pass) {w.shared with rows := rows} q row (polledTask task item) := by
  unfold AfterWrite at next
  cases failing : fails item with
  | false =>
    -- the item leaves the row open, and the poller goes on
    have isOpen : (polledTask task item).status ≠ "FAILURE" := fun bad => by
      rw [means.mpr bad] at failing
      cases failing
    rw [if_neg (by simp [shouldReturnQuota,failing])] at next
    obtain ⟨rest,rfl⟩ := next
    exact .same ⟨fun bad => absurd bad isOpen,fun bad => absurd bad before⟩ rfl rfl
  | true =>
    have one : returnCount row.id q ≤ 1 := by
      unfold returnCount
      split <;> omega
    refine .fails before (means.mp failing) (alike.id ▸ ended) ?_ ?_
    · by_cases price : task.quota = 0
      · rw [if_neg (by simp [shouldReturnQuota,price])] at next
        obtain ⟨rest,rfl⟩ := next
        rw [← alike.quota,price,add_zero]
        rfl
      rw [if_pos ⟨rfl,by simp [shouldReturnQuota,failing,price]⟩] at next
      obtain ⟨rest,rfl⟩ := next
      have mine : returnPart row.id row.userId (.returning (polledTask task item) rest) = task.quota :=
        if_pos ⟨alike.id,alike.userId⟩
      have none : returnPart row.id row.userId (.polling pass) = 0 := rfl
      rw [mine,none,alike.quota,add_zero]
      rfl
    · change timesBack w.shared row.id + returnCount row.id q ≤ timesBack w.shared row.id + 0 + 1
      omega

theorem soundWrite {pass : Pass} (sound : Sound w) (found : w.procs[i]? = some (.polling pass))
    (copy : task ∈ pass.taskM) (good : task.status ≠ "FAILURE") (means : fails item ↔ item.status = "FAILURE")
    (ended : settled w.procs task.id) (held : ∀ copy ∈ copies q, ∃ row ∈ w.shared.rows, Alike row copy)
    (isNext : AfterWrite task item (updateWithStatus task.status (polledTask task item) w.shared.rows).1 q) :
    Sound ⟨{w.shared with rows := (updateWithStatus task.status (polledTask task item) w.shared.rows).2},
      w.procs.set i q⟩ := by
  obtain ⟨own,isOwn,alike⟩ := sound.held _ (mem_of_getElem? found) task copy
  obtain ⟨submitsNone,costNone,pays⟩ := afterWriteQuiet isNext
  refine soundAct sound found pays held ?_ (updateKeys ?_ _) rfl ?_ ?_ ?_
  · intro other submits
    rw [submitsNone] at submits
    cases submits
  · intro row hit
    exact (of_decide_eq_true hit).1.symm
  · intro other userId
    rw [costNone]
    rfl
  · intro other _
    have differs : other ≠ task.id := by
      intro same
      have := sound.bound own isOwn
      have := alike.id
      omega
    obtain ⟨part,count⟩ := afterWriteElsewhere isNext differs
    refine ⟨fun userId => ?_,?_⟩
    · rw [part]
      rfl
    · rw [count]
      rfl
  intro _ member
  obtain ⟨row,was,same⟩ := mem_map.mp member
  refine ⟨row,was,?_⟩
  split at same
  · rename_i hit
    obtain ⟨isTask,isStatus⟩ := of_decide_eq_true hit
    obtain rfl := sameTask sound.keys was isOwn (Eq.trans isTask alike.id)
    subst same
    have won : (updateWithStatus task.status (polledTask task item) w.shared.rows).1 = true :=
      any_eq_true.mpr ⟨row,was,hit⟩
    rw [won] at isNext
    have before : row.status ≠ "FAILURE" := by
      rw [isStatus]
      exact good
    exact ⟨alike.trans (polledAlike task item),hitTreated alike before means ended isNext⟩
  rename_i miss
  subst same
  refine ⟨Alike.refl row,?_⟩
  by_cases isTask : row.id = task.id
  · have lost : (updateWithStatus task.status (polledTask task item) w.shared.rows).1 = false := by
      refine any_eq_false.mpr (fun other inside hit => miss ?_)
      rw [sameTask sound.keys was inside (isTask.trans (of_decide_eq_true hit).1.symm)]
      exact hit
    unfold AfterWrite at isNext
    rw [if_neg (by simp [lost])] at isNext
    obtain ⟨_,rfl⟩ := isNext
    exact .same Iff.rfl rfl rfl
  · obtain ⟨part,count⟩ := afterWriteElsewhere isNext isTask
    refine .same Iff.rfl ?_ ?_
    · rw [part]
      rfl
    · rw [count]
      rfl

theorem soundInsert (sound : Sound w) (found : w.procs[i]? = some (.checked job accepted quota))
    (rows : s.rows = w.shared.rows ++ [row]) (next : s.nextId = w.shared.nextId + 1)
    (money : s.transfers = w.shared.transfers) (isNew : row.id = w.shared.nextId) (price : row.quota = quota)
    (owner : row.userId = job.userId) (isOpen : row.status ≠ "FAILURE") (nonneg : 0 ≤ quota)
    (isNext : q = .charging job (some w.shared.nextId) quota ∨ q = .finished ∧ quota = 0) :
    Sound ⟨s,w.procs.set i q⟩ := by
  have noReturn : ∀ task userId, returnPart task userId q = 0 ∧ returnCount task q = 0 := by
    rcases isNext with rfl | ⟨rfl,_⟩ <;> exact fun _ _ => ⟨rfl,rfl⟩
  have elsewhere : ∀ task, task ≠ w.shared.nextId → chargesFor task q = false ∧ ∀ userId, chargePart task userId q = 0 := by
    intro task differs
    have other : w.shared.nextId ≠ task := fun same => differs same.symm
    rcases isNext with rfl | ⟨rfl,_⟩
    · simp [chargesFor,chargePart,other]
    · exact ⟨rfl,fun _ => rfl⟩
  have after : ∀ task userId, charged ⟨s,w.procs.set i q⟩ task userId = charged w task userId + chargePart task userId q ∧
      returned ⟨s,w.procs.set i q⟩ task userId = returned w task userId ∧
      times ⟨s,w.procs.set i q⟩ task = times w task := by
    intro task userId
    obtain ⟨cost,back,count⟩ := @totalsAct w i _ s q found task userId
    have same : deducted s task userId = deducted w.shared task userId := by rw [deducted,money]; rfl
    have same' : givenBack s task userId = givenBack w.shared task userId := by rw [givenBack,money]; rfl
    have same'' : timesBack s task = timesBack w.shared task := by rw [timesBack,money]; rfl
    obtain ⟨_,never⟩ := noReturn task userId
    have before : chargePart task userId (.checked job accepted quota) = 0 ∧
      returnPart task userId (.checked job accepted quota) = 0 ∧ returnCount task (.checked job accepted quota) = 0 :=
      ⟨rfl,rfl,rfl⟩
    omega
  refine ⟨?_,?_,?_,?_,?_,?_⟩ <;> dsimp only
  · rw [rows]
    refine keysAdded sound.keys (fun r member => ?_)
    have := sound.bound r member
    omega
  · rw [rows,next]
    refine allAdded (fun r old => ?_) (by omega)
    have := sound.bound r old
    omega
  · intro task old
    obtain ⟨zero,never⟩ := sound.fresh task (by omega)
    refine ⟨fun userId => ?_,?_⟩
    · rw [(after task userId).1,(after task userId).2.1,(elsewhere task (by omega)).2 userId,add_zero]
      exact zero userId
    · rw [(after task 0).2.2]
      exact never
  · refine allSet sound.pays ?_
    rcases isNext with rfl | ⟨rfl,_⟩
    · exact nonneg
    · trivial
  · rw [rows]
    refine allAdded (fun r old => ?_) ?_
    · have fair := sound.rows r old
      have bound := sound.bound r old
      obtain ⟨notCharged,noPart⟩ := elsewhere r.id (by omega)
      obtain ⟨cost,back,count⟩ := after r.id r.userId
      refine fairKept fair ?_ back count (fun ended => settledSet ended found (fun bad => ?_))
      · rw [cost,noPart,add_zero]
      · rw [notCharged] at bad
        cases bad
    obtain ⟨zero,never⟩ := sound.fresh row.id (by omega)
    obtain ⟨cost,back,count⟩ := after row.id row.userId
    refine ⟨by omega,?_,fun _ => ?_,fun bad => absurd bad isOpen⟩
    · rw [cost,(zero row.userId).1,zero_add,price]
      rcases isNext with rfl | ⟨rfl,free⟩
      · exact if_pos ⟨by rw [isNew],owner.symm⟩
      · exact free.symm
    · rw [back,count]
      exact ⟨(zero row.userId).2,never⟩
  · rw [rows]
    refine allSet (fun r old copy inside => ?_) (fun copy inside => ?_)
    · obtain ⟨kept,isKept,alike⟩ := sound.held r old copy inside
      exact ⟨kept,mem_append_left _ isKept,alike⟩
    · rcases isNext with rfl | ⟨rfl,_⟩ <;> cases inside

theorem newTaskAlike (job id quota now accepted response) :
    (newTask job id quota now accepted response).id = id ∧ (newTask job id quota now accepted response).quota = quota ∧
      (newTask job id quota now accepted response).userId = job.userId := by
  unfold newTask
  cases job.kind with
  | submit => exact submittedAlike id job.userId quota now accepted response
  | swapFace => exact ⟨rfl,rfl,rfl⟩

theorem newTaskOpen {id} (h : response.properties.bind Properties.status ≠ some "FAILURE") :
    (newTask job id quota now accepted response).status ≠ "FAILURE" := by
  unfold newTask
  cases job.kind with
  | submit => exact submittedOpen h
  | swapFace => exact (by decide : "" ≠ "FAILURE")

def idle : Proc → Bool
  | .charging _ _ _ => false
  | .returning _ _ => false
  | _ => true

theorem idleParts (h : idle p) (task userId) : chargesFor task p = false ∧ chargePart task userId p = 0 ∧
    returnPart task userId p = 0 ∧ returnCount task p = 0 ∧ payable p := by
  cases p with
  | charging | returning => cases h
  | _ => exact ⟨rfl,rfl,rfl,rfl,trivial⟩

section

variable (sound : Sound w)

include sound

theorem soundIdle (found : w.procs[i]? = some p) (before : idle p) (after : idle q)
    (held : ∀ copy ∈ copies q, ∃ row ∈ w.shared.rows, Alike row copy) : Sound ⟨w.shared,w.procs.set i q⟩ := by
  refine soundQuiet sound found (idleParts after 0 0).2.2.2.2 held ?_ rfl rfl ?_ ?_ ?_
  · intro task bad
    rw [(idleParts after task 0).1] at bad
    cases bad
  · intro task userId
    rw [(idleParts after task userId).2.1,(idleParts before task userId).2.1]
  · intro task userId
    rw [(idleParts after task userId).2.2.1,(idleParts before task userId).2.2.1]
  · intro task
    rw [(idleParts after task 0).2.2.2.1,(idleParts before task 0).2.2.2.1]

theorem soundPollItem {pass} (found : w.procs[i]? = some (.polling pass)) (isItem : pass.items = item::rest)
    (good : ∀ task item, nextItem pass now = some (task,item) → task.status ≠ "FAILURE" ∧ (fails item ↔ item.status = "FAILURE") ∧ settled w.procs task.id) :
    Sound ⟨(pollItem pass item rest now fault w.shared).1,
      w.procs.set i (pollItem pass item rest now fault w.shared).2⟩ := by
  have held := sound.held _ (mem_of_getElem? found)
  unfold pollItem
  cases copy : lookup Midjourney.mjId item.mjId pass.taskM with
  | none => exact soundIdle sound found rfl rfl held
  | some task =>
    have inside := (lookupSound copy).1
    obtain ⟨notFailed,means,ended⟩ := good task (timedOut now task item) (by simp [nextItem,isItem,copy])
    have heldNow : ∀ copy ∈ save Midjourney.mjId (polledTask task (timedOut now task item)) pass.taskM,
        ∃ row ∈ w.shared.rows, Alike row copy := by
      intro copy member
      rcases saveMem member with rfl | old
      · obtain ⟨row,isRow,alike⟩ := held task inside
        exact ⟨row,isRow,alike.trans (polledAlike task _)⟩
      · exact held copy old
    dsimp only
    split
    · exact soundIdle sound found rfl rfl held
    cases fault with
    | some => exact soundIdle sound found rfl rfl heldNow
    | none =>
      refine soundWrite sound found inside notFailed means ended ?_ ?_
      · dsimp only
        split
        · intro copy member
          rcases mem_cons.mp member with rfl | old
          · obtain ⟨row,isRow,alike⟩ := held task inside
            exact ⟨row,isRow,alike.trans (polledAlike task _)⟩
          · exact heldNow copy old
        · exact heldNow
      · unfold AfterWrite
        split <;> exact ⟨_,rfl⟩

theorem soundRespond (found : w.procs[i]? = some (.checked job accepted quota)) (nonneg : 0 ≤ quota)
    (pays : quota = 0 ∨ charges job.kind accepted statusCode response)
    (isOpen : response.properties.bind Properties.status ≠ some "FAILURE") :
    Sound ⟨(respond job accepted quota statusCode response channelFound now fault w.shared).1,
      w.procs.set i (respond job accepted quota statusCode response channelFound now fault w.shared).2⟩ := by
  -- a charge for no task: it counts for no row
  have taskless : ∀ chargesIt, Sound ⟨w.shared,w.procs.set i (chargeAfter job chargesIt none quota)⟩ := by
    intro chargesIt
    unfold chargeAfter
    split
    · refine soundQuiet sound found (by exact nonneg) (forall_mem_nil _) ?_ rfl rfl ?_ ?_ ?_
      · exact fun task bad => by simp [chargesFor] at bad
      · exact fun task _ => by simp [chargePart]
      · exact fun _ _ => rfl
      · exact fun _ => rfl
    · exact soundIdle sound found rfl rfl (forall_mem_nil _)
  unfold respond
  split
  · exact taskless _
  cases fault with
  | some => exact taskless _
  | none =>
    obtain ⟨isId,price,owner⟩ := newTaskAlike job w.shared.nextId quota now accepted response
    refine soundInsert sound found rfl rfl rfl isId price owner (newTaskOpen isOpen) nonneg ?_
    unfold chargeAfter
    dsimp only
    split
    · exact .inl rfl
    rename_i free
    rcases pays with zero | charged
    · exact .inr ⟨rfl,zero⟩
    · exact absurd charged free

theorem soundCharge (found : w.procs[i]? = some (.charging job task quota)) :
    Sound ⟨(chargeUser job task quota none w.shared).1,w.procs.set i (chargeUser job task quota none w.shared).2⟩ := by
  have nonneg : 0 ≤ quota := sound.pays _ (mem_of_getElem? found)
  have after : idle (chargeUser job task quota none w.shared).2 ∧
      copies (chargeUser job task quota none w.shared).2 = [] := by
    unfold chargeUser
    dsimp only
    split <;> exact ⟨rfl,rfl⟩
  refine soundQuiet sound found (idleParts after.1 0 0).2.2.2.2 ?_ ?_ rfl rfl ?_ ?_ ?_
  · rw [after.2]
    exact forall_mem_nil _
  · intro other bad
    rw [(idleParts after.1 other 0).1] at bad
    cases bad
  · intro other userId
    rw [(idleParts after.1 other userId).2.1]
    simp only [chargeUser,deductedTransfer,deductedBy,chargePart,Account.user.injEq,neg_neg]
    split <;> omega
  · intro other userId
    rw [(idleParts after.1 other userId).2.2.1]
    simp only [chargeUser,givenBackTransfer,givenBackBy,returnPart]
    split <;> omega
  · intro other
    rw [(idleParts after.1 other 0).2.2.2.1]
    simp only [chargeUser,timesBackTransfer,timesBackBy,returnCount,returnsFor,Bool.false_eq_true,↓reduceIte]
    rw [if_neg (fun _ => by omega),add_zero]

theorem soundChargeToken (found : w.procs[i]? = some (.chargingToken job task quota)) :
    Sound ⟨chargeToken job task quota fault w.shared,w.procs.set i .finished⟩ := by
  cases fault with
  | some => exact soundIdle sound found rfl rfl (forall_mem_nil _)
  | none =>
    refine soundQuiet sound found (by trivial) (forall_mem_nil _) (fun _ bad => by cases bad) rfl rfl ?_ ?_ ?_
    · intro other userId
      simp [chargeToken,deductedBy,chargePart]
    · intro other userId
      simp [chargeToken,givenBackBy,returnPart]
    · intro other
      simp [chargeToken,timesBackBy,ofUser,returnCount,returnsFor]

theorem soundReturn {pass} (found : w.procs[i]? = some (.returning task pass)) :
    Sound ⟨increaseUserQuota task none w.shared,w.procs.set i (.polling pass)⟩ := by
  have held := sound.held _ (mem_of_getElem? found)
  obtain ⟨row,isRow,alike⟩ := held task (by simp [copies])
  have nonneg : 0 ≤ task.quota := by
    rw [alike.quota]
    exact (sound.rows row isRow).nonneg
  have price : task.quota ≠ 0 := sound.pays _ (mem_of_getElem? found)
  unfold increaseUserQuota
  rw [if_neg (by omega)]
  refine soundQuiet sound found (by trivial) ?_ (fun _ bad => by cases bad) rfl rfl ?_ ?_ ?_
  · exact fun copy inside => held copy (mem_cons_of_mem _ inside)
  · intro other userId
    simp only [deductedTransfer,deductedBy,chargePart]
    split <;> omega
  · intro other userId
    simp only [givenBackTransfer,givenBackBy,returnPart,Option.some.injEq,Account.user.injEq]
    split <;> omega
  · intro other
    have positive : 0 < task.quota := by omega
    simp [timesBackBy,returnCount,returnsFor,ofUser,positive]

theorem soundScan (found : w.procs[i]? = some .scanning) :
    Sound ⟨w.shared,w.procs.set i (scanRows fault w.shared)⟩ := by
  unfold scanRows
  cases fault with
  | some => exact soundIdle sound found rfl rfl (forall_mem_nil _)
  | none =>
    have held : ∀ copy ∈ (scanTasks (getAllUnFinishTasks w.shared.rows)).taskM,
        ∃ row ∈ w.shared.rows, Alike row copy := by
      intro copy inside
      rcases scanCopies inside with nothing | read
      · cases nothing
      · exact ⟨copy,(mem_filter.mp read).1,Alike.refl copy⟩
    dsimp only
    split <;> exact soundIdle sound found rfl rfl held

end

theorem soundChannel {pass after} (sound : Sound w)
    (found : w.procs[i]? = some (.polling pass)) (h : askChannel pass channelId answer w.shared = some (s,after))
    (free : answer = .missing none → ∀ row ∈ w.shared.rows, row.mjId ∈ ((lookup Prod.fst channelId pass.taskChannelM).map Prod.snd).getD [] → uncharged w row) :
    Sound ⟨s,w.procs.set i (.polling after)⟩ := by
  have held := sound.held _ (mem_of_getElem? found)
  unfold askChannel at h
  cases entry : lookup Prod.fst channelId pass.taskChannelM with
  | none => rw [entry] at h; cases h
  | some =>
    rw [entry] at h free
    cases answer with
    | silent | items => cases h; exact soundIdle sound found rfl rfl held
    | missing fault =>
      cases fault with
      | some => cases h; exact soundIdle sound found rfl rfl held
      | none =>
        cases h
        refine soundBulk sound found (by trivial) (by exact held) (fun _ bad => by cases bad) (fun row was hit => ?_) (fun _ _ => rfl)
          (fun _ _ => rfl) (fun _ => rfl)
        exact free rfl row was (of_decide_eq_true hit)

theorem pairSplit {next : Store × Proc} (h : some next = some (s,q)) : s = next.1 ∧ q = next.2 := by
  cases h
  exact ⟨rfl,rfl⟩

theorem actSound {cfg} (sound : Sound w) (found : w.procs[i]? = some p)
    (good : careful w (.act i choice)) (h : act cfg w.shared p choice = some (s,q)) : Sound ⟨s,w.procs.set i q⟩ := by
  unfold careful at good
  dsimp only at good
  rw [found] at good
  unfold act at h
  split at h
  · -- the checks of a submission
    split at h
    · cases h; exact soundIdle sound found rfl rfl (forall_mem_nil _)
    split at h <;> cases h <;> exact soundIdle sound found rfl rfl (forall_mem_nil _)
  · cases h; exact soundIdle sound found rfl rfl (forall_mem_nil _)
  · obtain ⟨nonneg,pays,isOpen⟩ := of_decide_eq_true good
    obtain ⟨rfl,rfl⟩ := pairSplit h
    exact soundRespond sound found nonneg pays isOpen
  · cases of_decide_eq_true good
    obtain ⟨rfl,rfl⟩ := pairSplit h
    exact soundCharge sound found
  · cases h; exact soundChargeToken sound found
  · cases h; exact soundScan sound found
  · -- the sweep of tasks without an upstream id
    have held := sound.held _ (mem_of_getElem? found)
    split at h <;> cases h
    · exact soundIdle sound found rfl rfl held
    have free := all_eq_true.mp good
    refine soundBulk sound found (by trivial) (by exact held) (fun _ bad => by cases bad) (fun row was hit => ?_) (fun _ _ => rfl)
      (fun _ _ => rfl) (fun _ => rfl)
    exact of_decide_eq_true (free row was) (of_decide_eq_true hit)
  · split at h
    · obtain ⟨_,asked,same⟩ := Option.map_eq_some_iff.mp h
      cases same
      refine soundChannel sound found asked (fun isMissing row was hit => ?_)
      subst isMissing
      exact of_decide_eq_true (all_eq_true.mp good row was) hit
    · cases h
  · rename_i pass _ _
    cases items : pass.items with
    | nil => rw [items] at h; cases h
    | cons item =>
      rw [items] at h
      obtain ⟨rfl,rfl⟩ := pairSplit h
      refine soundPollItem sound found items (fun _ item isItem => ?_)
      dsimp only at good
      rw [isItem] at good
      exact of_decide_eq_true good
  · cases h
    cases of_decide_eq_true good
    exact soundReturn sound found
  · cases h

theorem stepSound (sound : Sound w) (good : careful w move) (h : step cfg w move = some n) : Sound n := by
  cases move with
  | act =>
    obtain ⟨p,s,q,found,acted,rfl⟩ := stepAct h
    exact actSound sound found good acted
  | start p =>
    obtain ⟨begins,rfl⟩ := stepStart h
    have begun : idle p ∧ copies p = [] := by
      cases p with
      | requested | scanning => exact ⟨rfl,rfl⟩
      | _ => cases begins
    have totals : ∀ task userId, charged ⟨w.shared,w.procs ++ [p]⟩ task userId = charged w task userId ∧
        returned ⟨w.shared,w.procs ++ [p]⟩ task userId = returned w task userId ∧
        times ⟨w.shared,w.procs ++ [p]⟩ task = times w task := by
      intro task userId
      obtain ⟨_,cost,back,count,_⟩ := idleParts begun.1 task userId
      refine ⟨?_,?_,?_⟩
      · exact (totalStart _ _ _ _ _).trans (by rw [cost,add_zero]; rfl)
      · exact (totalStart _ _ _ _ _).trans (by rw [back,add_zero]; rfl)
      · exact (totalStart _ _ _ _ _).trans (by rw [count,add_zero]; rfl)
    refine ⟨sound.keys,sound.bound,?_,?_,?_,?_⟩
    · intro task old
      obtain ⟨zero,never⟩ := sound.fresh task old
      refine ⟨fun userId => ?_,?_⟩
      · rw [(totals task userId).1,(totals task userId).2.1]
        exact zero userId
      · rw [(totals task 0).2.2]
        exact never
    · exact allAdded sound.pays (idleParts begun.1 0 0).2.2.2.2
    · intro row member
      have fair := sound.rows row member
      obtain ⟨cost,back,count⟩ := totals row.id row.userId
      refine fairKept fair cost back count (fun ended => ?_)
      simp only [settled,all_append,all_cons,all_nil,Bool.and_true,Bool.and_eq_true]
      exact ⟨ended,by rw [(idleParts begun.1 row.id 0).1]; rfl⟩
    · refine allAdded sound.held (fun copy inside => ?_)
      rw [begun.2] at inside
      cases inside

theorem returnPartNonneg (sound : Sound w) (task userId : Int) :
    0 ≤ (w.procs.map (returnPart task userId)).sum ∧ 0 ≤ (w.procs.map (returnCount task)).sum := by
  refine ⟨sumNonneg (fun p member => ?_),sumNonneg (fun p _ => ?_)⟩
  · cases p with
    | returning copy =>
      obtain ⟨row,isRow,alike⟩ := sound.held _ member copy (by simp [copies])
      have := (sound.rows row isRow).nonneg
      have := alike.quota
      simp only [returnPart]
      split <;> omega
    | _ => exact le_rfl
  · unfold returnCount
    split <;> omega

theorem soundTask (sound : Sound w) (member : row ∈ w.shared.rows) :
    givenBack w.shared row.id row.userId ≤ deducted w.shared row.id row.userId ∧ timesBack w.shared row.id ≤ 1 ∧
      (row.status = "FAILURE" → (∀ p ∈ w.procs, returnsFor row.id p = false) →
        givenBack w.shared row.id row.userId = deducted w.shared row.id row.userId) := by
  have fair := sound.rows row member
  obtain _ := returnPartNonneg sound row.id row.userId
  have isBack : returned w row.id row.userId =
    givenBack w.shared row.id row.userId + (w.procs.map (returnPart row.id row.userId)).sum := rfl
  have isCount : times w row.id = timesBack w.shared row.id + (w.procs.map (returnCount row.id)).sum := rfl
  by_cases failure : row.status = "FAILURE"
  · obtain ⟨_,_,ended⟩ := fair.closed failure
    have cost := settledCharged ended row.userId
    have price := fair.cost
    refine ⟨by omega,by omega,fun _ done => ?_⟩
    have nothing : (w.procs.map (returnPart row.id row.userId)).sum = 0 := by
      refine sum_eq_zero (fun x inside => ?_)
      obtain ⟨p,isProc,rfl⟩ := mem_map.mp inside
      have notMine := done p isProc
      cases p <;> simp_all [returnPart,returnsFor]
    omega
  · obtain ⟨nothing,_⟩ := fair.open' failure
    have := deductedNonneg w.shared row.id row.userId
    exact ⟨by omega,by omega,fun bad => absurd bad failure⟩

end Omnigate.MidjourneyRefund
