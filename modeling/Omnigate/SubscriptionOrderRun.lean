import Omnigate.SubscriptionOrders

/-! What every interleaving keeps of an order and of the number of subscriptions a user holds. The transaction that
has read an order for update owns its trade number until its end. -/
namespace Omnigate.SubscriptionOrders

open Machine Table SubscriptionPlan SubscriptionStore
open TopUp (TopUpStatus)
open Pool hiding step State

def holds : Writer → Option SubscriptionOrder
  | .expiring order => some order
  | .counting job | .upgrading job _ _ _ | .inserting job _ _ _ _ | .finishing job _ _ _ => job.order
  | .begins _ | .finished _ => none

def busy (t : String) (p : Writer) : Bool := (holds p).map SubscriptionOrder.tradeNo = some t

def view (t : String) (s : Store) : Bool × Option SubscriptionOrder × Nat :=
  (t ∈ s.lockedOrders,s.order t,s.made.count t)

inductive Effect (t : String) (s s' : Store) (p q : Writer) : Prop
  | other (before : busy t p = false) (after : busy t q = false) (same : view t s' = view t s)
  | takes (before : busy t p = false) (order : SubscriptionOrder) (stored : s.order t = some order)
      (pending : order.status = .pending) (unlocked : t ∉ s.lockedOrders) (has : holds q = some order)
      (same : view t s' = (true,(view t s).2))
  | works (before : busy t p = true) (has : holds q = holds p) (same : view t s' = view t s)
  | drops (before : busy t p = true) (after : busy t q = false) (same : view t s' = (false,(view t s).2))
  | completes (before : busy t p = true) (after : busy t q = false) (order : SubscriptionOrder)
      (done : order.status = .success) (same : view t s' = (false,some order,s.made.count t + 1))
  | expires (before : busy t p = true) (after : busy t q = false) (order : SubscriptionOrder)
      (done : order.status = .expired) (same : view t s' = (false,some order,s.made.count t))
  | buys (before : busy t p = false) (after : busy t q = false) (fresh : s.order t = none)
      (order : SubscriptionOrder) (done : order.status = .success)
      (same : view t s' = ((view t s).1,some order,s.made.count t + 1))

def freed (locks : List String) : Option SubscriptionOrder → List String
  | some order => locks.filter (· ≠ order.tradeNo)
  | none => locks

theorem releaseStore (job s) :
    (release job s).orders = s.orders ∧ (release job s).made = s.made ∧ (release job s).subs = s.subs ∧
      (release job s).lockedOrders = freed s.lockedOrders job.order := by
  unfold release
  cases job.order <;> by_cases locks : job.locksUser = true <;> simp [locks,unlockOrder,unlockUser,freed]

theorem addSubStore (job raisedFrom sub s) :
    (addSub job raisedFrom sub s).orders = s.orders ∧ (addSub job raisedFrom sub s).made = s.made ∧
      (addSub job raisedFrom sub s).subs = s.subs ++ [sub] ∧
      (addSub job raisedFrom sub s).lockedOrders = s.lockedOrders := by
  unfold addSub
  cases raisedFrom <;> simp [updateCustomer]

variable {t : String} {s s' : Store}

variable {p q : Writer}

theorem busyOf (has : holds p = some order) :
    busy t p = decide (order.tradeNo = t) := by
  simp [busy,has]

theorem idleOf (none : holds p = none) : busy t p = false := by
  simp [busy,none]

theorem dropEffect (has : holds p = held) (after : holds q = none)
    (orders : s'.orders = s.orders) (made : s'.made = s.made) (locks : s'.lockedOrders = freed s.lockedOrders held) :
    Effect t s s' p q := by
  cases held with
  | none => exact .other (idleOf has) (idleOf after) (by simp only [view,Store.order,orders,made,locks,freed])
  | some order =>
    unfold freed at locks
    by_cases mine : order.tradeNo = t
    · refine .drops (by rw [busyOf has]; simpa using mine) (idleOf after) ?_
      simp [view,Store.order,orders,made,locks,mine]
    · refine .other (by rw [busyOf has]; simpa using mine) (idleOf after) ?_
      simp [view,Store.order,orders,made,locks,Ne.symm mine]

theorem rollbackEffect (has : holds p = job.order) (h : rollback job error s = some (s',q)) : Effect t s s' p q := by
  cases h
  obtain ⟨orders,made,_,locks⟩ := releaseStore job s
  exact dropEffect has rfl orders made locks

theorem workEffect (has : holds q = holds p) (same : view t s' = view t s) : Effect t s s' p q := by
  cases mine : busy t p with
  | true => exact .works mine has same
  | false => exact .other mine (by simpa [busy,has] using mine) same

theorem lockOrderOk (h : lockOrder s tradeNo provider fault = some (.ok order)) :
    tradeNo ∉ s.lockedOrders ∧ s.order tradeNo = some order := by
  unfold lockOrder at h
  split at h
  · cases h
  rename_i unlocked
  split at h
  · rename_i stored
    split at h <;> cases h
    exact ⟨unlocked,stored⟩
  · cases h

theorem lockEffect (before : holds p = none) (unlocked : tradeNo ∉ s.lockedOrders)
    (stored : s.order tradeNo = some order) (pending : order.status = .pending) (has : holds q = some order) :
    Effect t s {s with lockedOrders := tradeNo::s.lockedOrders} p q := by
  have named : order.tradeNo = tradeNo := (lookupSound stored).2
  by_cases mine : tradeNo = t
  · subst mine
    refine .takes (idleOf before) order stored pending unlocked has ?_
    simp [view,Store.order]
  · refine .other (idleOf before) (by rw [busyOf has,named]; simpa using mine) ?_
    simp [view,Store.order,Ne.symm mine]

def Known (cfg : Setup) (job : Job) : Prop := ∃ offer, cfg.offers job.plan.id = .ok offer ∧ offer.plan = job.plan

theorem offerKnown {id} (h : getOffer cfg id = .ok offer) :
    Known cfg ⟨caller,userId,offer.plan,locksUser⟩ := by
  unfold getOffer at h
  split at h
  · cases h
  · exact ⟨offer,by rw [cfg.offerId id offer h]; exact h,rfl⟩

theorem checkOfferOk (h : checkOffer cfg planId = .ok (offer,required)) :
    getOffer cfg planId = .ok offer := by
  unfold checkOffer at h
  split at h
  · cases h
  rename_i _ isFound
  split at h
  · cases h
  split at h
  · cases h
  split at h
  · cases h
  · split at h <;> cases h
    exact isFound

inductive Begun (cfg : Setup) (s s' : Store) (q : Writer) : Prop
  | ends (error : Option String) (same : s' = s) (next : q = .finished error)
  | locks (tradeNo : String) (order : SubscriptionOrder) (unlocked : tradeNo ∉ s.lockedOrders)
      (stored : s.order tradeNo = some order) (pending : order.status = .pending)
      (same : s' = {s with lockedOrders := tradeNo::s.lockedOrders})
      (next : q = .expiring order ∨ ∃ job, q = .counting job ∧ job.order = some order ∧ Known cfg job)
  | counts (job : Job) (users : List Int) (same : s' = {s with lockedUsers := users}) (next : q = .counting job)
      (plain : job.order = none) (known : Known cfg job)

theorem beginCases (h : begin cfg s c request = some (s',q)) : Begun cfg s s' q := by
  cases request with
  | completeOrder tradeNo =>
    simp only [begin] at h
    split at h
    · cases h; exact .ends _ rfl rfl
    split at h
    · cases h
    · cases h; exact .ends _ rfl rfl
    rename_i order locked
    obtain ⟨unlocked,stored⟩ := lockOrderOk locked
    split at h
    · cases h; exact .ends _ rfl rfl
    split at h
    · cases h; exact .ends _ rfl rfl
    rename_i pending
    split at h <;> cases h
    · exact .ends _ rfl rfl
    · rename_i found
      exact .locks tradeNo order unlocked stored (not_not.mp pending) rfl (.inr ⟨_,rfl,rfl,offerKnown found⟩)
  | expireOrder tradeNo =>
    simp only [begin] at h
    split at h
    · cases h; exact .ends _ rfl rfl
    split at h
    · cases h
    · cases h; exact .ends _ rfl rfl
    rename_i order locked
    obtain ⟨unlocked,stored⟩ := lockOrderOk locked
    split at h
    · cases h; exact .ends _ rfl rfl
    rename_i pending
    cases h
    exact .locks tradeNo order unlocked stored (not_not.mp pending) rfl (.inl rfl)
  | adminBind =>
    simp only [begin] at h
    split at h
    · cases h; exact .ends _ rfl rfl
    split at h <;> cases h
    · exact .ends _ rfl rfl
    · rename_i found
      exact .counts _ s.lockedUsers rfl rfl rfl (offerKnown found)
  | purchase =>
    simp only [begin] at h
    split at h
    · cases h; exact .ends _ rfl rfl
    split at h
    · cases h; exact .ends _ rfl rfl
    rename_i found
    split at h
    · cases h
    split at h
    · cases h; exact .ends _ rfl rfl
    · cases h; exact .ends _ rfl rfl
    split at h <;> cases h
    · exact .ends _ rfl rfl
    · exact .counts _ _ rfl rfl rfl (offerKnown (checkOfferOk found))

theorem beginEffect (h : begin cfg s c request = some (s',q)) :
    Effect t s s' (.begins request) q := by
  cases beginCases h with
  | ends _ same next =>
    subst same next
    exact .other rfl rfl rfl
  | locks _ _ unlocked stored pending same next =>
    subst same
    rcases next with rfl | ⟨job,rfl,mine,_⟩
    · exact lockEffect rfl unlocked stored pending rfl
    · exact lockEffect rfl unlocked stored pending mine
  | counts job _ same next plain =>
    subst same next
    exact workEffect plain rfl

def Admitted (cfg : Setup) (job : Job) (counted : Nat) : Prop :=
  Known cfg job ∧ (0 < job.plan.maxPurchasePerUser → (counted : Int) < job.plan.maxPurchasePerUser)

def Within (cfg : Setup) : Writer → Prop
  | .counting job => Known cfg job
  | .upgrading job counted _ _ | .inserting job counted _ _ _ => Admitted cfg job counted
  | .finishing job counted _ sub => Admitted cfg job counted ∧ sub.userId = job.userId ∧ sub.planId = job.plan.id
  | .begins _ | .expiring _ | .finished _ => True

inductive Goes (cfg : Setup) (job : Job) (s s' : Store) (p q : Writer) : Prop
  | back (error) (undone : rollback job error s = some (s',q))
  | on (has : holds q = holds p) (same : ∀ t, view t s' = view t s) (subs : s'.subs = s.subs)
      (within : Within cfg p → Within cfg q)

theorem countGoes (h : count cfg s c job = some (s',q)) : Goes cfg job s s' (.counting job) q := by
  unfold count at h
  dsimp only at h
  split at h
  · exact .back _ h
  split at h
  · exact .back _ h
  split at h
  · exact .back _ h
  split at h
  · exact .back _ h
  rename_i below
  split at h
  · exact .back _ h
  cases h
  exact .on rfl (fun _ => rfl) rfl (fun known => ⟨known,fun limited => not_le.mp (fun full => below ⟨limited,full⟩)⟩)

theorem upgradeGoes (cfg) (h : upgrade s c job counted nowUnix endUnix = some (s',q)) :
    Goes cfg job s s' (.upgrading job counted nowUnix endUnix) q := by
  unfold upgrade at h
  dsimp only at h
  split at h
  · cases h
    exact .on rfl (fun _ => rfl) rfl id
  split at h
  · exact .back _ h
  · cases h
    exact .on rfl (fun _ => rfl) rfl id
  split at h
  · cases h
    exact .on rfl (fun _ => rfl) rfl id
  · split at h <;> cases h
    exact .on rfl (fun _ => rfl) rfl id

theorem insertGoes (h : insert cfg s c job counted nowUnix endUnix raisedFrom = some (s',q)) :
    Goes cfg job s s' (.inserting job counted nowUnix endUnix raisedFrom) q := by
  unfold insert at h
  split at h
  · exact .back _ h
  · cases h
    exact .on rfl (fun _ => rfl) rfl (fun admitted => ⟨admitted,rfl,rfl⟩)

theorem goesEffect (has : holds p = job.order) (goes : Goes cfg job s s' p q) : Effect t s s' p q := by
  cases goes with
  | back _ undone => exact rollbackEffect has undone
  | on has same => exact workEffect has (same t)

theorem expireEffect (h : expire s c order = some (s',q)) : Effect t s s' (.expiring order) q := by
  unfold expire at h
  split at h
  · cases h
    exact dropEffect rfl rfl rfl rfl rfl
  cases h
  by_cases mine : order.tradeNo = t
  · refine .expires (by rw [busyOf rfl]; simpa using mine) rfl {order with status := .expired, completeTime := c.now}
      rfl ?_
    simp [view,Store.order,unlockOrder,lookupSave,mine]
  · refine .other (by rw [busyOf rfl]; simpa using mine) rfl ?_
    simp [view,Store.order,unlockOrder,lookupSave,mine,Ne.symm mine]

theorem completeEffect {t s after p order saved}
    (has : holds p = some order) (named : saved.tradeNo = order.tradeNo) (done : saved.status = .success)
    (orders : after.orders = save SubscriptionOrder.tradeNo saved s.orders) (made : after.made = order.tradeNo::s.made)
    (locks : after.lockedOrders = freed s.lockedOrders (some order)) : Effect t s after p (.finished none) := by
  unfold freed at locks
  by_cases mine : order.tradeNo = t
  · refine .completes (by rw [busyOf has]; simpa using mine) rfl saved done ?_
    simp [view,Store.order,orders,made,locks,lookupSave,named,mine]
  · refine .other (by rw [busyOf has]; simpa using mine) rfl ?_
    simp [view,Store.order,orders,made,locks,lookupSave,named,mine,Ne.symm mine,List.count_cons_of_ne mine]

theorem purchaseEffect {t s after p bought}
    (has : holds p = none) (fresh : s.order bought.tradeNo = none) (done : bought.status = .success)
    (orders : after.orders = s.orders ++ [bought]) (made : after.made = bought.tradeNo::s.made)
    (locks : after.lockedOrders = s.lockedOrders) : Effect t s after p (.finished none) := by
  by_cases mine : bought.tradeNo = t
  · subst mine
    have absent : List.find? (fun r => decide (r.tradeNo = bought.tradeNo)) s.orders = none := fresh
    refine .buys (idleOf has) rfl fresh bought done ?_
    simp [view,Store.order,lookup,orders,made,locks,absent]
  · refine .other (idleOf has) rfl ?_
    simp [view,Store.order,lookup,orders,made,locks,mine,List.count_cons_of_ne mine]

theorem finishEffect (h : finish s c job raisedFrom sub = some (s',q)) :
    Effect t s s' (.finishing job counted raisedFrom sub) q := by
  unfold finish at h
  split at h
  · exact rollbackEffect rfl h
  split at h
  · exact rollbackEffect rfl h
  rename_i after committed
  cases h
  obtain ⟨orders,made,_,locks⟩ := releaseStore job after
  unfold commit at committed
  split at committed
  · cases committed
    obtain ⟨addOrders,addMade,_,addLocks⟩ := addSubStore job raisedFrom sub s
    refine dropEffect rfl rfl (orders.trans addOrders) (made.trans addMade) ?_
    rw [locks,addLocks]
    rfl
  · rename_i order payload method isOrder
    split at committed
    · cases committed
    rename_i receipts _
    cases committed
    have mine : job.order = some order := by unfold Job.order; rw [isOrder]
    obtain ⟨addOrders,addMade,_,addLocks⟩ := addSubStore job raisedFrom sub
      {s with
        receipts := receipts
        orders := save SubscriptionOrder.tradeNo (completed c.now payload method order) s.orders
        made := order.tradeNo::s.made }
    refine @completeEffect t s _ _ order (completed c.now payload method order) mine rfl rfl
      (orders.trans addOrders) (made.trans addMade) ?_
    rw [locks,addLocks,mine]
  · rename_i requiredQuota priceAmount isBalance
    split at committed
    · cases committed
    rename_i isFresh
    cases committed
    have plain : job.order = none := by unfold Job.order; rw [isBalance]
    have fresh : s.order c.tradeNo = none := by simpa using isFresh
    obtain ⟨addOrders,addMade,_,addLocks⟩ := addSubStore job raisedFrom sub
      { (if 0 < requiredQuota then
          updateCustomer job.userId (fun user => {user with quota := user.quota - requiredQuota}) s else s) with
        orders := s.orders ++ [balanceOrder c job requiredQuota priceAmount]
        made := c.tradeNo::s.made }
    refine @purchaseEffect t s _ _ (balanceOrder c job requiredQuota priceAmount) plain fresh rfl
      (orders.trans addOrders) (made.trans addMade) ?_
    rw [locks,addLocks,plain]
    by_cases paid : 0 < requiredQuota <;> simp [paid,updateCustomer,freed]

theorem actEffect (h : act cfg s p c = some (s',q)) : Effect t s s' p q := by
  cases p with
  | begins => exact beginEffect h
  | expiring => exact expireEffect h
  | counting => exact goesEffect rfl (countGoes h)
  | upgrading => exact goesEffect rfl (upgradeGoes cfg h)
  | inserting => exact goesEffect rfl (insertGoes h)
  | finishing => exact finishEffect h
  | finished => cases h

structure Rested (t : String) (s : Store) : Prop where
  unlocked : t ∉ s.lockedOrders
  once : s.made.count t ≤ 1
  unmade : ∀ order, s.order t = some order → order.status = .pending → s.made.count t = 0
  absent : s.order t = none → s.made.count t = 0

structure InHand (t : String) (s : Store) (p : Writer) : Prop where
  locked : t ∈ s.lockedOrders
  stored : s.order t = holds p
  pending : ∀ order, holds p = some order → order.status = .pending
  unmade : s.made.count t = 0

def Owned (t : String) : Pool.State Store Writer → Prop := Pool.Owned (busy t) (Rested t) (InHand t)

theorem viewParts (h : view t s = (locked,order,n)) :
    (t ∈ s.lockedOrders ↔ locked = true) ∧ s.order t = order ∧ s.made.count t = n := by
  simp only [view,Prod.mk.injEq] at h
  exact ⟨by rw [← h.1]; simp,h.2.1,h.2.2⟩

theorem restedSame (rested : Rested t s) (same : view t s' = view t s) : Rested t s' := by
  obtain ⟨locks,orders,count⟩ := viewParts same
  refine ⟨?_,?_,?_,?_⟩
  · rw [locks]
    simpa using rested.unlocked
  · rw [count]; exact rested.once
  · rw [orders,count]; exact rested.unmade
  · rw [orders,count]; exact rested.absent

theorem inHandSame (inHand : InHand t s p) (same : view t s' = view t s) (has : holds q = holds p) :
    InHand t s' q := by
  obtain ⟨locks,orders,count⟩ := viewParts same
  refine ⟨?_,?_,?_,?_⟩
  · rw [locks]
    simpa using inHand.locked
  · rw [orders,has]; exact inHand.stored
  · rw [has]; exact inHand.pending
  · rw [count]; exact inHand.unmade

theorem restedDone (same : view t s = (false,some order,n)) (few : n ≤ 1)
    (done : order.status = .pending → n = 0) : Rested t s := by
  obtain ⟨locks,orders,count⟩ := viewParts same
  refine ⟨by simp [locks],by rw [count]; exact few,?_,?_⟩
  · intro _ isStored pending
    cases Option.some.inj (isStored.symm.trans orders)
    rw [count]
    exact done pending
  · intro absent
    cases absent.symm.trans orders

theorem stepOwned (owned : Owned t pool) (h : step cfg pool move = some n) : Owned t n := by
  cases move with
  | start p =>
    obtain ⟨isBegin,rfl⟩ := stepStart h
    refine startOwned owned ?_
    cases p <;> first | rfl | cases isBegin
  | act =>
    obtain ⟨p,s,q,found,moved,rfl⟩ := stepAct h
    have effect := actEffect (t := t) moved
    refine actOwned owned found ?_ ?_ ?_
    · intro rested idle
      cases effect with
      | other before after same => exact Or.inl ⟨after,restedSame rested same⟩
      | takes before order stored pending unlocked has same =>
        obtain ⟨locks,orders,count⟩ := viewParts same
        have named : order.tradeNo = t := (lookupSound stored).2
        refine Or.inr ⟨by rw [busyOf has]; simpa using named,?_,?_,?_,?_⟩
        · simpa using locks
        · rw [orders,has]; exact stored
        · intro _ isHeld
          cases Option.some.inj (has.symm.trans isHeld)
          exact pending
        · rw [count]
          exact rested.unmade order stored pending
      | buys before after fresh order done same =>
        have open' : (view t pool.shared).1 = false := by simpa [view] using rested.unlocked
        rw [open',rested.absent fresh] at same
        exact Or.inl ⟨after,restedDone same le_rfl (fun pending => by rw [done] at pending; cases pending)⟩
      | works before | drops before | completes before | expires before => rw [idle] at before; cases before
    · intro r _ inHand works idle
      cases effect with
      | other before after same => exact ⟨after,inHandSame inHand same rfl⟩
      | takes before order stored pending unlocked => exact absurd inHand.locked unlocked
      | buys before after fresh =>
        have nothing := inHand.stored.symm.trans fresh
        rw [idleOf nothing] at works
        cases works
      | works before | drops before | completes before | expires before => rw [idle] at before; cases before
    · intro inHand works
      cases effect with
      | other before | takes before | buys before => rw [works] at before; cases before
      | works before has same =>
        have still : busy t q = true := by simpa [busy,has] using before
        exact Or.inr ⟨still,inHandSame inHand same has⟩
      | drops before after same =>
        have given : (view t pool.shared).2 = (holds p,0) := Prod.ext inHand.stored inHand.unmade
        rw [given] at same
        cases has : holds p with
        | none => rw [idleOf has] at before; cases before
        | some =>
          rw [has] at same
          exact Or.inl ⟨after,restedDone same (Nat.zero_le 1) (fun _ => rfl)⟩
      | completes before after order done same =>
        rw [inHand.unmade] at same
        exact Or.inl ⟨after,restedDone same le_rfl (fun pending => by rw [done] at pending; cases pending)⟩
      | expires before after order done same =>
        rw [inHand.unmade] at same
        exact Or.inl ⟨after,restedDone same (Nat.zero_le 1) (fun _ => rfl)⟩

theorem ownedOnce (owned : Owned t pool) : pool.shared.made.count t ≤ 1 := by
  cases owned with
  | free _ rested => exact rested.once
  | held i p _ _ _ inHand => rw [inHand.unmade]; exact Nat.zero_le 1

def closed (status : TopUpStatus) : Prop := status = .success ∨ status = .expired

theorem stepClosed (owned : Owned t pool) (h : step cfg pool move = some n)
    (stored : pool.shared.order t = some order) (isClosed : closed order.status) :
    ∃ later, n.shared.order t = some later ∧ later.status = order.status := by
  cases move with
  | start =>
    obtain ⟨_,rfl⟩ := stepStart h
    exact ⟨order,stored,rfl⟩
  | act i =>
    obtain ⟨p,s,q,found,moved,rfl⟩ := stepAct h
    have kept : s.order t = pool.shared.order t → ∃ later, s.order t = some later ∧ later.status = order.status :=
      fun same => ⟨order,same.trans stored,rfl⟩
    have idle : busy t p = false := by
      cases owned with
      | free others => exact others p (List.mem_of_getElem? found)
      | held j r at' works alone inHand =>
        by_contra mine
        have same := alone i p found (by simpa using mine)
        rw [← same,found] at at'
        cases at'
        have pending := inHand.pending order (inHand.stored.symm.trans stored)
        rcases isClosed with isSuccess | isExpired
        · rw [pending] at isSuccess; cases isSuccess
        · rw [pending] at isExpired; cases isExpired
    cases actEffect (t := t) moved with
    | other before after same | takes before held _ pending _ _ same => exact kept (viewParts same).2.1
    | buys before after fresh => cases stored.symm.trans fresh
    | works before | drops before | completes before | expires before => rw [idle] at before; cases before

theorem runOwned (owned : Owned t pool) (ran : run (step cfg) pool moves = some out) :
    Owned t out :=
  runAlways (fun _ _ _ owned moved => stepOwned owned moved) owned ran

theorem runClosed (owned : Owned t pool) (ran : run (step cfg) pool moves = some out)
    (stored : pool.shared.order t = some order) (isClosed : closed order.status) :
    ∃ later, out.shared.order t = some later ∧ later.status = order.status := by
  have keep : ∀ s l n, (Owned t s ∧ ∃ later, s.shared.order t = some later ∧ later.status = order.status) →
      step cfg s l = some n → Owned t n ∧ ∃ later, n.shared.order t = some later ∧ later.status = order.status := by
    rintro s l n ⟨owned,later,isStored,same⟩ moved
    obtain ⟨last,isLast,lastSame⟩ := stepClosed owned moved isStored (by rw [same]; exact isClosed)
    exact ⟨stepOwned owned moved,last,isLast,lastSame.trans same⟩
  exact (runAlways keep ⟨owned,order,stored,rfl⟩ ran).2

theorem rollbackSubs (h : rollback job error s = some (s',q)) :
    s'.subs = s.subs ∧ ∃ e, q = .finished e := by
  cases h
  exact ⟨(releaseStore job s).2.2.1,_,rfl⟩

theorem goesWithin (within : Within cfg p) (goes : Goes cfg job s s' p q) : Within cfg q ∧ s'.subs = s.subs := by
  cases goes with
  | back _ undone =>
    obtain ⟨same,_,rfl⟩ := rollbackSubs undone
    exact ⟨trivial,same⟩
  | on _ _ subs kept => exact ⟨kept within,subs⟩

theorem commitSubs (h : commit c job raisedFrom sub s = .ok after) :
    after.subs = s.subs ++ [sub] := by
  unfold commit at h
  split at h
  · cases h
    exact (addSubStore job raisedFrom sub s).2.2.1
  · split at h <;> cases h
    exact (addSubStore job raisedFrom sub _).2.2.1
  split at h
  · cases h
  cases h
  rw [(addSubStore job raisedFrom sub _).2.2.1]
  split <;> rfl

theorem beginWithin (h : begin cfg s c request = some (s',q)) :
    s'.subs = s.subs ∧ Within cfg q := by
  cases beginCases h with
  | ends _ same next =>
    subst same next
    exact ⟨rfl,trivial⟩
  | locks _ _ _ _ _ same next =>
    subst same
    rcases next with rfl | ⟨job,rfl,_,known⟩
    · exact ⟨rfl,trivial⟩
    · exact ⟨rfl,known⟩
  | counts job _ same next _ known =>
    subst same next
    exact ⟨rfl,known⟩

theorem actWithin (within : Within cfg p) (h : act cfg s p c = some (s',q)) :
    Within cfg q ∧ (s'.subs = s.subs ∨ ∃ job counted raisedFrom sub,
      p = .finishing job counted raisedFrom sub ∧ c.fault = none ∧ s'.subs = s.subs ++ [sub]) := by
  cases p with
  | begins => obtain ⟨same,after⟩ := beginWithin h; exact ⟨after,Or.inl same⟩
  | expiring =>
    simp only [act,expire] at h
    split at h <;> cases h <;> exact ⟨trivial,Or.inl rfl⟩
  | counting => exact (goesWithin within (countGoes h)).imp_right .inl
  | upgrading => exact (goesWithin within (upgradeGoes cfg h)).imp_right .inl
  | inserting => exact (goesWithin within (insertGoes h)).imp_right .inl
  | finishing job counted raisedFrom sub =>
    simp only [act,finish] at h
    split at h
    · obtain ⟨same,_,rfl⟩ := rollbackSubs h
      exact ⟨trivial,Or.inl same⟩
    rename_i noFault
    split at h
    · obtain ⟨same,_,rfl⟩ := rollbackSubs h
      exact ⟨trivial,Or.inl same⟩
    rename_i after committed
    cases h
    refine ⟨trivial,Or.inr ⟨job,counted,raisedFrom,sub,rfl,noFault,?_⟩⟩
    rw [(releaseStore job after).2.2.1,commitSubs committed]
  | finished => cases h

def fresh (pool : Pool.State Store Writer) : Move Writer Choice → Bool
  | .start _ => true
  | .act i c => match pool.procs[i]? with
    | some (.finishing job counted _ _) =>
      0 < job.plan.maxPurchasePerUser → c.fault = none → pool.shared.held job.userId job.plan.id = counted
    | _ => true

structure Limited (cfg : Setup) (userId planId : Int) (m : Int) (pool : Pool.State Store Writer) : Prop where
  procs : ∀ p ∈ pool.procs, Within cfg p
  few : (pool.shared.held userId planId : Int) ≤ m

theorem stepLimited (onOffer : cfg.offers planId = .ok offer) (limit : 0 < offer.plan.maxPurchasePerUser)
    (limited : Limited cfg userId planId offer.plan.maxPurchasePerUser pool) (isFresh : fresh pool move)
    (h : step cfg pool move = some n) : Limited cfg userId planId offer.plan.maxPurchasePerUser n := by
  cases move with
  | start p =>
    obtain ⟨_,rfl⟩ := stepStart h
    exact ⟨allAdded limited.procs (by cases p <;> trivial),limited.few⟩
  | act =>
    obtain ⟨p,s,q,found,moved,rfl⟩ := stepAct h
    have within := limited.procs p (List.mem_of_getElem? found)
    obtain ⟨after,rows⟩ := actWithin within moved
    refine ⟨allSet limited.procs after,?_⟩
    rcases rows with same | ⟨job,counted,_,sub,rfl,noFault,added⟩
    · have few := limited.few
      unfold Store.held at few ⊢
      rw [same]
      exact few
    obtain ⟨⟨known,below⟩,sameUser,samePlan⟩ := within
    by_cases mine : sub.userId = userId ∧ sub.planId = planId
    · obtain ⟨isUser,isPlan⟩ := mine
      have planIs : job.plan.id = planId := samePlan.symm.trans isPlan
      have userIs : job.userId = userId := sameUser.symm.trans isUser
      obtain ⟨known,isKnown,samePlan⟩ := known
      rw [planIs] at isKnown
      cases Except.ok.inj (isKnown.symm.trans onOffer)
      rw [← samePlan] at below
      have counts : pool.shared.held userId planId = counted := by
        simp only [fresh,found,decide_eq_true_eq,noFault,forall_const] at isFresh
        rw [← samePlan] at isFresh
        have told := isFresh limit
        rw [samePlan,planIs,userIs] at told
        exact told
      have grown : s.held userId planId = pool.shared.held userId planId + 1 := by
        unfold Store.held
        rw [added]
        simp [isUser,isPlan]
      dsimp only
      omega
    · have same : s.held userId planId = pool.shared.held userId planId := by
        unfold Store.held
        rw [added]
        simp [mine]
      rw [same]
      exact limited.few

theorem startOwnedAll (unlocked : db.lockedOrders = []) (none : db.made = []) (t) :
    Owned t (start db) := by
  refine .free (fun p member => by cases member) ⟨?_,?_,?_,?_⟩ <;> simp [start,unlocked,none]

theorem ordersKeptAndLimited {cfg db moves out} (unlocked : db.lockedOrders = []) (none : db.made = [])
    (ran : run (step cfg) (start db) moves = some out) :
    (∀ tradeNo, out.shared.made.count tradeNo ≤ 1) ∧
      (∀ xs ys mid tradeNo order, moves = xs ++ ys → run (step cfg) (start db) xs = some mid →
        mid.shared.order tradeNo = some order → closed order.status →
        ∃ later, out.shared.order tradeNo = some later ∧ later.status = order.status) ∧
      (Along (step cfg) (fun pool move => fresh pool move) (start db) moves →
        ∀ userId planId offer, cfg.offers planId = .ok offer → 0 < offer.plan.maxPurchasePerUser →
          (db.held userId planId : Int) ≤ offer.plan.maxPurchasePerUser →
          (out.shared.held userId planId : Int) ≤ offer.plan.maxPurchasePerUser) := by
  refine ⟨?_,?_,?_⟩
  · intro tradeNo
    exact ownedOnce (runOwned (startOwnedAll unlocked none tradeNo) ran)
  · intro xs ys mid tradeNo order parts before stored isClosed
    rw [parts] at ran
    obtain ⟨_,first,rest⟩ := runAppend ran
    cases Option.some.inj (first.symm.trans before)
    exact runClosed (runOwned (startOwnedAll unlocked none tradeNo) before) rest stored isClosed
  intro allFresh userId planId offer onOffer limit few
  have limited : Limited cfg userId planId offer.plan.maxPurchasePerUser (start db) := by
    refine ⟨?_,few⟩
    intro p member
    cases member
  exact (runInvariant (fun _ _ _ limited isFresh moved => stepLimited onOffer limit limited isFresh moved)
    limited allFresh ran).few

def oncePlan : Plan :=
  { id := 7, title := "once", durationUnit := .custom, durationValue := 0, customSeconds := 3600,
    allowWalletOverflow := some true, maxPurchasePerUser := 1, upgradeGroup := "vip", downgradeGroup := "",
    totalAmount := 100, quotaResetPeriod := "never", quotaResetCustomSeconds := 0 }

def onceOffer : Offer := ⟨oncePlan,true,2,some true⟩

def onceSetup : Setup where
  cal := utc
  quotaPerUnit := 10
  offers id := if id = 7 then .ok onceOffer else .error recordNotFound
  offerId id offer h := by
    split at h <;> cases h
    rename_i same
    exact same.symm

def pendingOrder : SubscriptionOrder := ⟨3,7,2,"A","alipay","epay",.pending,0,0,""⟩

def oneCustomer : Store :=
  { subs := [], nextId := 1, orders := [pendingOrder], receipts := [], customers := [⟨3,"default",50⟩] }

def ok (i : Nat) : Move Writer Choice := .act i {now := 1000}

def duplicateNotice : List (Move Writer Choice) :=
  [.start (.begins (.completeOrder "A" "" "epay" "")),.start (.begins (.completeOrder "A" "" "epay" "")),
   ok 0,ok 0,ok 0,ok 0,ok 0,ok 1,.start (.begins (.adminBind 3 7)),ok 2,ok 2]

theorem limitKeptAfterDuplicateNotice :
    ∃ out, run (step onceSetup) (start oneCustomer) duplicateNotice = some out ∧
      out.procs = [.finished none,.finished none,.finished (some "已达到该套餐购买上限")] ∧
      out.shared.made.count "A" ≤ 1 ∧ (out.shared.held 3 7 : Int) ≤ 1 ∧ out.shared.held 3 7 = 1 := by
  have runs : (run (step onceSetup) (start oneCustomer) duplicateNotice).map
      (fun out => (out.procs,out.shared.held 3 7)) =
      some ([.finished none,.finished none,.finished (some "已达到该套餐购买上限")],1) := by decide +kernel
  obtain ⟨out,ran,facts⟩ := Option.map_eq_some_iff.mp runs
  simp only [Prod.mk.injEq] at facts
  have allFresh : Along (step onceSetup) (fun pool move => fresh pool move) (start oneCustomer) duplicateNotice :=
    alongChecked (by decide +kernel)
  obtain ⟨once,_,few⟩ := @ordersKeptAndLimited onceSetup oneCustomer _ _ rfl rfl ran
  have limit : (0 : Int) < onceOffer.plan.maxPurchasePerUser := by decide
  exact ⟨out,ran,facts.1,once "A",few allFresh 3 7 onceOffer rfl limit (by decide),facts.2⟩

def twoBindings : List (Move Writer Choice) :=
  [.start (.begins (.adminBind 3 7)),.start (.begins (.adminBind 3 7)),ok 0,ok 1,ok 0,ok 1,ok 0,ok 0,ok 0,ok 1,ok 1,ok 1]

theorem boundTwiceOverLimit :
    ∃ out, run (step onceSetup) (start oneCustomer) twoBindings = some out ∧
      onceSetup.offers 7 = .ok onceOffer ∧ onceOffer.plan.maxPurchasePerUser = 1 ∧
      out.procs = [.finished none,.finished none] ∧ out.shared.held 3 7 = 2 := by decide +kernel

end Omnigate.SubscriptionOrders
