import Omnigate.Pool
import Omnigate.TopUp

/-! One epay order under any interleaving of gateway notifications, on any number of instances, and manual
completions. A notification runs read, save and credit as separate statements under a lock of its own instance; a
manual completion is one transaction. A handler that stops gives its lock up. -/
namespace Omnigate.TopUpRun

open Machine TopUp Table Option
open Pool hiding step State

structure Setup where
  quotaPerUnit : ℚ
  tradeNo : String

/- `credits` counts how often the user's quota was raised on account of the order. -/
structure Till where
  db : Shop
  locked : List Nat
  credits : Nat

inductive Handler where
  | waiting (server : Nat) (paymentMethod : String)
  | reading (server : Nat) (paymentMethod : String)
  | saving (server : Nat) (paymentMethod : String) (topUp : Order)
  | crediting (server : Nat) (topUp : Order)
  | manual
  | finished
  deriving DecidableEq

inductive Choice where
  | go (fault : Option String)
  | tx (now : Int) (faults : List (Option String))
  | stop
  deriving DecidableEq

def unlockOrder (server : Nat) (s : Till) : Till := {s with locked := s.locked.erase server}

def leave (s : Till) : Handler → Till
  | .reading server _ | .saving server _ _ | .crediting server _ => unlockOrder server s
  | .waiting _ _ | .manual | .finished => s

def statusOf (cfg : Setup) (db : Shop) : Option TopUpStatus := (db.order cfg.tradeNo).map Order.status

def act (cfg : Setup) (s : Till) (p : Handler) (c : Choice) : Option (Till × Handler) :=
  match p,c with
  | .finished,_ => none
  | _,.stop => some (leave s p,.finished)
  | .waiting server paymentMethod,.go _ =>
    if server ∈ s.locked then none
    else some ({s with locked := server::s.locked},.reading server paymentMethod)
  | .reading server paymentMethod,.go fault => match fault,s.db.order cfg.tradeNo with
    | none,some topUp =>
      if epayAccepts topUp then some (s,.saving server paymentMethod topUp)
      else some (unlockOrder server s,.finished)
    | _,_ => some (unlockOrder server s,.finished)
  | .saving server paymentMethod topUp,.go fault => match fault with
    | some _ => some (unlockOrder server s,.finished)
    | none => some ({s with db := saveOrder (epayCompleted paymentMethod topUp) s.db},.crediting server topUp)
  | .crediting server topUp,.go fault =>
    if amountQuota cfg.quotaPerUnit topUp < 0 ∨ fault ≠ none then some (unlockOrder server s,.finished)
    else
      let paid := updateUser topUp.userId (addQuota (amountQuota cfg.quotaPerUnit topUp)) s.db
      some ({unlockOrder server s with db := paid, credits := s.credits + 1},.finished)
  | .manual,.tx now faults => match manualCompleteTopUp cfg.quotaPerUnit now cfg.tradeNo faults s.db with
    | (.error _,after) => some ({s with db := after},.finished)
    | (.ok _,after) =>
      let raised := if statusOf cfg s.db = some .pending then 1 else 0
      some ({s with db := after, credits := s.credits + raised},.finished)
  | _,_ => none

def begins : Handler → Bool
  | .waiting _ _ | .manual => true
  | _ => false

def step (cfg : Setup) (pool : Pool.State Till Handler) (move : Move Handler Choice) :
    Option (Pool.State Till Handler) :=
  Pool.step begins (act cfg) pool move

def start (db : Shop) : Pool.State Till Handler := ⟨⟨db,[],0⟩,[]⟩

/- A notification that saves finds the order still pending, and one that has saved comes to its credit: the update
goes through and the quota is not negative. -/
def careful (cfg : Setup) (pool : Pool.State Till Handler) : Move Handler Choice → Bool
  | .start _ => true
  | .act i c => match pool.procs[i]? with
    | some (.saving _ _ _) => c = .go none → statusOf cfg pool.shared.db = some .pending
    | some (.crediting _ topUp) => c = .go none ∧ 0 ≤ amountQuota cfg.quotaPerUnit topUp
    | _ => true

structure SameOrder (o0 o : Order) : Prop where
  id : o.id = o0.id
  userId : o.userId = o0.userId
  amount : o.amount = o0.amount
  tradeNo : o.tradeNo = o0.tradeNo
  provider : o.paymentProvider = o0.paymentProvider

structure Shelf (o0 : Order) (db : Shop) : Prop where
  keys : ∀ r ∈ db.orders, r.tradeNo = o0.tradeNo ↔ r.id = o0.id
  stored : ∃ o, db.order o0.tradeNo = some o ∧ SameOrder o0 o

theorem orderById {o0 : Order} (keys : ∀ r ∈ rows, r.tradeNo = o0.tradeNo ↔ r.id = o0.id) :
    lookup Order.tradeNo o0.tradeNo rows = lookup Order.id o0.id rows := by
  unfold lookup
  induction rows with
  | nil => rfl
  | cons r _ ih =>
    have here := keys r (by simp)
    have later := ih (fun x member => keys x (List.mem_cons_of_mem _ member))
    simp only [List.find?_cons,here,later]

theorem shelfSaved {o0 o : Order} (shelf : Shelf o0 db) (same : SameOrder o0 o) :
    Shelf o0 (saveOrder o db) ∧ (saveOrder o db).order o0.tradeNo = some o := by
  have keys : ∀ r ∈ (saveOrder o db).orders, r.tradeNo = o0.tradeNo ↔ r.id = o0.id := by
    intro r member
    rcases saveMem member with rfl | old
    · simp [same.tradeNo,same.id]
    · exact shelf.keys r old
  have hit : (saveOrder o db).order o0.tradeNo = some o := by
    have byId := orderById keys
    unfold Shop.order
    rw [byId]
    unfold saveOrder
    rw [lookupSave,if_pos same.id]
  exact ⟨⟨keys,o,hit,same⟩,hit⟩

structure Kept (cfg : Setup) (o0 : Order) (db0 : Shop) (s : Till) : Prop where
  shelf : Shelf o0 s.db
  quota : (s.db.user o0.userId).map User.quota =
    (db0.user o0.userId).map (fun user => user.quota + s.credits * amountQuota cfg.quotaPerUnit o0)

def Fits (o0 : Order) : Handler → Prop
  | .saving _ _ topUp | .crediting _ topUp => SameOrder o0 topUp
  | _ => True

def crediting : Handler → Bool
  | .crediting _ _ => true
  | _ => false

inductive Effect (cfg : Setup) (s s' : Till) (p q : Handler) (c : Choice) : Prop
  | quiet (before : crediting p = false) (after : crediting q = false)
      (status : statusOf cfg s'.db = statusOf cfg s.db) (credits : s'.credits = s.credits)
  | saves (server : Nat) (paymentMethod : String) (topUp : Order) (is : p = .saving server paymentMethod topUp)
      (goes : c = .go none) (after : crediting q = true) (status : statusOf cfg s'.db = some .success)
      (credits : s'.credits = s.credits)
  | pays (before : crediting p = true) (after : crediting q = false)
      (status : statusOf cfg s'.db = statusOf cfg s.db) (credits : s'.credits = s.credits + 1)
  | lost (server : Nat) (topUp : Order) (is : p = .crediting server topUp)
      (fails : c ≠ .go none ∨ amountQuota cfg.quotaPerUnit topUp < 0)
  | completes (before : crediting p = false) (after : crediting q = false)
      (pending : statusOf cfg s.db = some .pending) (status : statusOf cfg s'.db = some .success)
      (credits : s'.credits = s.credits + 1)

variable {s s' : Till}

theorem keptSame (kept : Kept cfg o0 db0 s) (db : s'.db = s.db) (credits : s'.credits = s.credits) :
    Kept cfg o0 db0 s' :=
  ⟨by rw [db]; exact kept.shelf,by rw [db,credits]; exact kept.quota⟩

theorem leaveSame (s p) : (leave s p).db = s.db ∧ (leave s p).credits = s.credits := by
  cases p <;> exact ⟨rfl,rfl⟩

theorem sameQuota (same : SameOrder o0 o) : amountQuota q o = amountQuota q o0 := by
  unfold amountQuota
  rw [same.amount]

theorem quotaRaised {cfg : Setup} {db0 db : Shop} {credits : Nat} (quota : (db.user o0.userId).map User.quota =
      (db0.user o0.userId).map (fun user => user.quota + credits * amountQuota cfg.quotaPerUnit o0)) :
    ((updateUser o0.userId (addQuota (amountQuota cfg.quotaPerUnit o0)) db).user o0.userId).map User.quota =
      (db0.user o0.userId).map (fun user =>
        user.quota + ((credits + 1 : Nat) : Int) * amountQuota cfg.quotaPerUnit o0) := by
  have stable : ∀ user, (addQuota (amountQuota cfg.quotaPerUnit o0) user).id = user.id := fun _ => rfl
  rw [userUpdated stable]
  have moved : (db.user o0.userId).map (fun user => user.quota + amountQuota cfg.quotaPerUnit o0) =
      ((db.user o0.userId).map User.quota).map (fun quota => quota + amountQuota cfg.quotaPerUnit o0) := by
    rw [map_map]
    rfl
  rw [map_map]
  refine moved.trans ?_
  rw [quota,map_map]
  congr 1
  funext user
  simp only [Function.comp_apply,Nat.cast_add,Nat.cast_one]
  ring

theorem statusSaved (named : cfg.tradeNo = o0.tradeNo) (shelf : Shelf o0 db)
    (same : SameOrder o0 o) : statusOf cfg (saveOrder o db) = some o.status := by
  unfold statusOf
  rw [named,(shelfSaved shelf same).2]
  rfl

theorem manualEffect {q : Handler} (named : cfg.tradeNo = o0.tradeNo) (provider : o0.paymentProvider = .epay)
    (kept : Kept cfg o0 db0 s) (h : act cfg s .manual (.tx now faults) = some (s',q)) :
    Kept cfg o0 db0 s' ∧ Fits o0 q ∧ Effect cfg s s' .manual q (.tx now faults) := by
  obtain ⟨o,hit,same⟩ := kept.shelf.stored
  have found : s.db.order cfg.tradeNo = some o := by rw [named]; exact hit
  simp only [act] at h
  rcases manual : manualCompleteTopUp cfg.quotaPerUnit now cfg.tradeNo faults s.db with ⟨r,after⟩
  rw [manual] at h
  rcases manualCases found manual with ⟨rfl,idle⟩ | ⟨rfl,pending,tables⟩
  · cases r with
    | error =>
      cases h
      exact ⟨keptSame kept rfl rfl,trivial,.quiet rfl rfl rfl rfl⟩
    | ok =>
      have settled : statusOf cfg s.db ≠ some .pending := by
        simp only [statusOf,found,map_some,ne_eq,Option.some.injEq]
        exact idle rfl
      simp only [if_neg settled] at h
      cases h
      exact ⟨keptSame kept rfl rfl,trivial,.quiet rfl rfl rfl rfl⟩
  have before : statusOf cfg s.db = some .pending := by simp [statusOf,found,pending]
  have amount : manualQuota cfg.quotaPerUnit o = amountQuota cfg.quotaPerUnit o0 := by
    simp [manualQuota,same.provider,provider,sameQuota same]
  have saved : SameOrder o0 (completed now o) := {same with}
  simp only [if_pos before] at h
  cases h
  rw [amount,same.userId] at tables
  have shelf := (shelfSaved kept.shelf saved).1
  refine ⟨⟨?_,?_⟩,trivial,.completes rfl rfl before ?_ rfl⟩
  · show Shelf o0 after
    rw [tables]
    exact ⟨shelf.keys,shelf.stored⟩
  · show (after.user o0.userId).map User.quota = _
    rw [tables]
    exact quotaRaised kept.quota
  · show statusOf cfg after = _
    rw [tables]
    exact statusSaved named kept.shelf saved

theorem savingEffect (named : cfg.tradeNo = o0.tradeNo) (kept : Kept cfg o0 db0 s) (fits : SameOrder o0 topUp)
    (h : act cfg s (.saving server paymentMethod topUp) (.go fault) = some (s',q)) :
    Kept cfg o0 db0 s' ∧ Fits o0 q ∧ Effect cfg s s' (.saving server paymentMethod topUp) q (.go fault) := by
  have saved : SameOrder o0 (epayCompleted paymentMethod topUp) :=
    {fits with}
  cases fault with
  | some =>
    cases h
    exact ⟨keptSame kept rfl rfl,trivial,.quiet rfl rfl rfl rfl⟩
  | none =>
    cases h
    refine ⟨⟨(shelfSaved kept.shelf saved).1,kept.quota⟩,fits,?_⟩
    exact .saves server paymentMethod topUp rfl rfl rfl (statusSaved named kept.shelf saved) rfl

theorem creditingEffect {q : Handler} (named : cfg.tradeNo = o0.tradeNo) (kept : Kept cfg o0 db0 s)
    (fits : SameOrder o0 topUp) (h : act cfg s (.crediting server topUp) (.go fault) = some (s',q)) :
    Kept cfg o0 db0 s' ∧ Fits o0 q ∧ Effect cfg s s' (.crediting server topUp) q (.go fault) := by
  simp only [act] at h
  by_cases fails : amountQuota cfg.quotaPerUnit topUp < 0 ∨ fault ≠ none
  · rw [if_pos fails] at h
    cases h
    refine ⟨keptSame kept rfl rfl,trivial,.lost server topUp rfl ?_⟩
    rcases fails with negative | fault'
    · exact .inr negative
    · exact .inl (fun same => fault' (Choice.go.inj same))
  rw [if_neg fails] at h
  cases h
  refine ⟨⟨⟨kept.shelf.keys,kept.shelf.stored⟩,?_⟩,trivial,.pays rfl rfl ?_ rfl⟩
  · dsimp only
    rw [fits.userId,sameQuota fits]
    exact quotaRaised kept.quota
  · unfold statusOf
    rw [named]
    rfl

theorem readingEffect (named : cfg.tradeNo = o0.tradeNo)
    (kept : Kept cfg o0 db0 s) (h : act cfg s (.reading server paymentMethod) (.go fault) = some (s',q)) :
    Kept cfg o0 db0 s' ∧ Fits o0 q ∧ Effect cfg s s' (.reading server paymentMethod) q (.go fault) := by
  obtain ⟨o,hit,same⟩ := kept.shelf.stored
  simp only [act,named,hit] at h
  cases fault with
  | some =>
    cases h
    exact ⟨keptSame kept rfl rfl,trivial,.quiet rfl rfl rfl rfl⟩
  | none =>
    dsimp only at h
    split at h
    · cases h
      exact ⟨kept,same,.quiet rfl rfl rfl rfl⟩
    · cases h
      exact ⟨keptSame kept rfl rfl,trivial,.quiet rfl rfl rfl rfl⟩

theorem stopEffect (kept : Kept cfg o0 db0 s) (h : act cfg s p .stop = some (s',q)) :
    Kept cfg o0 db0 s' ∧ Fits o0 q ∧ Effect cfg s s' p q .stop := by
  obtain ⟨db,credits⟩ := leaveSame s p
  cases p with
  | finished => cases h
  | crediting server topUp =>
    cases h
    exact ⟨keptSame kept db credits,trivial,.lost server topUp rfl (.inl (fun wrong => nomatch wrong))⟩
  | waiting | reading | saving | manual =>
    cases h
    exact ⟨keptSame kept db credits,trivial,.quiet rfl rfl (by rw [db]) credits⟩

theorem actEffect (named : cfg.tradeNo = o0.tradeNo) (provider : o0.paymentProvider = .epay) (kept : Kept cfg o0 db0 s)
    (fits : Fits o0 p) (h : act cfg s p c = some (s',q)) : Kept cfg o0 db0 s' ∧ Fits o0 q ∧ Effect cfg s s' p q c := by
  cases c with
  | stop => exact stopEffect kept h
  | tx =>
    cases p with
    | manual => exact manualEffect named provider kept h
    | waiting | reading | saving | crediting | finished => cases h
  | go =>
    cases p with
    | waiting =>
      simp only [act] at h
      split at h
      · cases h
      · cases h
        exact ⟨keptSame kept rfl rfl,trivial,.quiet rfl rfl rfl rfl⟩
    | reading => exact readingEffect named kept h
    | saving => exact savingEffect named kept fits h
    | crediting => exact creditingEffect named kept fits h
    | manual | finished => cases h

def Settled (cfg : Setup) (s : Till) : Prop :=
  (statusOf cfg s.db = some .pending ∧ s.credits = 0) ∨ (statusOf cfg s.db = some .success ∧ s.credits = 1)

def Owed (cfg : Setup) (s : Till) (_ : Handler) : Prop := statusOf cfg s.db = some .success ∧ s.credits = 0

structure Sound (cfg : Setup) (o0 : Order) (db0 : Shop) (pool : Pool.State Till Handler) : Prop where
  kept : Kept cfg o0 db0 pool.shared
  fits : ∀ p ∈ pool.procs, Fits o0 p
  owned : Owned crediting (Settled cfg) (Owed cfg) pool

theorem settledPending (settled : Settled cfg s) (pending : statusOf cfg s.db = some .pending) :
    s.credits = 0 := by
  rcases settled with ⟨_,none⟩ | ⟨success,_⟩
  · exact none
  · rw [pending] at success
    cases success

theorem owedNotPending (owed : Owed cfg s p) : statusOf cfg s.db ≠ some .pending := by
  rw [owed.1]
  decide

variable {pool : Pool.State Till Handler}

theorem effectOwned (owned : Owned crediting (Settled cfg) (Owed cfg) pool)
    (found : pool.procs[i]? = some p) (care : careful cfg pool (.act i c)) (effect : Effect cfg pool.shared s' p q c) :
    Owned crediting (Settled cfg) (Owed cfg) ⟨s',pool.procs.set i q⟩ := by
  cases effect with
  | quiet before after status credits =>
    refine actOwned owned found (fun settled _ => .inl ⟨after,by rwa [Settled,status,credits]⟩) ?_ ?_
    · intro r _ owed _ _
      exact ⟨after,status.trans owed.1,credits.trans owed.2⟩
    intro _ works
    rw [before] at works
    cases works
  | saves server _ topUp is goes after status credits =>
    subst is goes
    have pending : statusOf cfg pool.shared.db = some .pending := by simpa [careful,found] using care
    refine actOwned owned found (fun settled _ => .inr ⟨after,status,?_⟩) ?_ (fun _ works => nomatch works)
    · rw [credits]
      exact settledPending settled pending
    · intro r _ owed _ _
      exact absurd pending (owedNotPending owed)
  | pays before after status credits =>
    refine actOwned owned found ?_ ?_ (fun owed _ => .inl ⟨after,.inr ⟨status.trans owed.1,?_⟩⟩)
    · intro _ idle
      rw [before] at idle
      cases idle
    · intro _ _ _ _ idle
      rw [before] at idle
      cases idle
    · rw [credits,owed.2]
  | lost server topUp is fails =>
    subst is
    obtain ⟨goes,_⟩ : c = .go none ∧ 0 ≤ amountQuota cfg.quotaPerUnit topUp := by simpa [careful,found] using care
    rcases fails with stops | _
    · exact absurd goes stops
    · omega
  | completes before after pending status credits =>
    refine actOwned owned found (fun settled _ => .inl ⟨after,.inr ⟨status,?_⟩⟩) ?_ ?_
    · rw [credits,settledPending settled pending]
    · intro r _ owed _ _
      exact absurd pending (owedNotPending owed)
    intro _ works
    rw [before] at works
    cases works

theorem freshFits {o0 p} (begins' : begins p) : Fits o0 p ∧ crediting p = false := by
  cases p with
  | waiting | manual => exact ⟨trivial,rfl⟩
  | reading | saving | crediting | finished => cases begins'

theorem stepSound (named : cfg.tradeNo = o0.tradeNo)
    (provider : o0.paymentProvider = .epay) (sound : Sound cfg o0 db0 pool) (care : careful cfg pool move)
    (h : step cfg pool move = some n) : Sound cfg o0 db0 n := by
  have both := stepSeparate (fun p fresh => (freshFits fresh).1)
    (fun s p c s' q kept fits moved =>
      have all := actEffect named provider kept fits moved
      ⟨all.1,all.2.1⟩) sound.kept sound.fits h
  refine ⟨both.1,both.2,?_⟩
  cases move with
  | start p =>
    obtain ⟨fresh,rfl⟩ := stepStart h
    exact startOwned sound.owned (@freshFits o0 p fresh).2
  | act =>
    obtain ⟨p,s',q,found,moved,rfl⟩ := stepAct h
    have fits := sound.fits p (List.mem_of_getElem? found)
    exact effectOwned sound.owned found care (actEffect named provider sound.kept fits moved).2.2

theorem startSound (named : cfg.tradeNo = o0.tradeNo) (pending : o0.status = .pending)
    (hit : db0.order o0.tradeNo = some o0) (keys : ∀ r ∈ db0.orders, r.tradeNo = o0.tradeNo ↔ r.id = o0.id) :
    Sound cfg o0 db0 (start db0) := by
  refine ⟨⟨⟨keys,o0,hit,⟨rfl,rfl,rfl,rfl,rfl⟩⟩,?_⟩,?_,.free ?_ (.inl ⟨?_,rfl⟩)⟩
  · simp [start]
  · intro p member
    cases member
  · intro p member
    cases member
  · simp [start,statusOf,named,hit,pending]

theorem creditedOnce {cfg o0 moves out} {db0 : Shop} (named : cfg.tradeNo = o0.tradeNo)
    (provider : o0.paymentProvider = .epay) (pending : o0.status = .pending)
    (hit : db0.order o0.tradeNo = some o0) (keys : ∀ r ∈ db0.orders, r.tradeNo = o0.tradeNo ↔ r.id = o0.id)
    (care : Along (step cfg) (fun pool move => careful cfg pool move) (start db0) moves)
    (h : run (step cfg) (start db0) moves = some out) :
    out.shared.credits ≤ 1 ∧ (out.shared.db.user o0.userId).map User.quota = (db0.user o0.userId).map
        (fun user => user.quota + out.shared.credits * amountQuota cfg.quotaPerUnit o0) ∧
      ((∀ p ∈ out.procs, p = .finished) → (statusOf cfg out.shared.db = some .success ↔ out.shared.credits = 1)) := by
  have sound : Sound cfg o0 db0 out :=
    runInvariant (fun _ _ _ sound care moved => stepSound named provider sound care moved)
      (startSound named pending hit keys) care h
  refine ⟨?_,sound.kept.quota,?_⟩
  · cases sound.owned with
    | free _ settled => rcases settled with ⟨_,none⟩ | ⟨_,one⟩ <;> omega
    | held _ _ _ _ _ owed =>
      have none := owed.2
      omega
  intro done
  cases sound.owned with
  | free _ settled =>
    rcases settled with ⟨status,none⟩ | ⟨status,one⟩
    · simp [status,none]
    · simp [status,one]
  | held i p found works =>
    rw [done p (List.mem_of_getElem? found)] at works
    cases works

def epayOrder : Order := pendingOrder .epay 10 10

def epaySetup : Setup := ⟨500000,"USR7NO1"⟩

def duplicates : List (Move Handler Choice) :=
  [.start (.waiting 0 "alipay"),.start (.waiting 1 "alipay"),.start .manual,
    .act 0 (.go none),.act 0 (.go none),.act 0 (.go none),.act 0 (.go none),
    .act 1 (.go none),.act 1 (.go none),.act 2 (.tx 5 [])]

theorem creditedOnceAmongDuplicates :
    ∃ out, run (step epaySetup) (start (shopWith epayOrder)) duplicates = some out ∧
      out.shared.credits = 1 ∧ out.procs = [.finished,.finished,.finished] ∧
      statusOf epaySetup out.shared.db = some .success ∧
      (out.shared.db.user 7).map User.quota = some 5000100 := by
  have runs : (run (step epaySetup) (start (shopWith epayOrder)) duplicates).map
      (fun out => (out.shared.credits,out.procs)) = some (1,[.finished,.finished,.finished]) := by
    decide +kernel
  obtain ⟨out,h,facts⟩ := map_eq_some_iff.mp runs
  simp only [Prod.mk.injEq] at facts
  obtain ⟨one,done⟩ := facts
  have care : Along (step epaySetup) (fun pool move => careful epaySetup pool move)
      (start (shopWith epayOrder)) duplicates := alongChecked (by decide +kernel)
  have hit : (shopWith epayOrder).order epayOrder.tradeNo = some epayOrder := by decide +kernel
  have keys : ∀ r ∈ (shopWith epayOrder).orders, r.tradeNo = epayOrder.tradeNo ↔ r.id = epayOrder.id := by decide
  have all := creditedOnce rfl rfl rfl hit keys care h
  refine ⟨out,h,one,done,(all.2.2 (fun p member => ?_)).mpr one,?_⟩
  · rw [done] at member
    simpa using member
  have quota := all.2.1
  rw [one] at quota
  exact quota.trans (by decide +kernel)

theorem creditedTwiceAndNever : (∃ out, run (step epaySetup) (start (shopWith epayOrder))
        [.start (.waiting 0 "alipay"),.start (.waiting 1 "alipay"),
          .act 0 (.go none),.act 1 (.go none),.act 0 (.go none),.act 1 (.go none),
          .act 0 (.go none),.act 0 (.go none),.act 1 (.go none),.act 1 (.go none)] = some out ∧
      out.shared.credits = 2 ∧ (out.shared.db.user 7).map User.quota = some 10000100) ∧
    ∃ out, run (step epaySetup) (start (shopWith epayOrder))
        [.start (.waiting 0 "alipay"),.act 0 (.go none),.act 0 (.go none),.act 0 (.go none),.act 0 .stop,
          .start (.waiting 0 "alipay"),.act 1 (.go none),.act 1 (.go none),
          .start .manual,.act 2 (.tx 5 [])] = some out ∧
      out.procs = [.finished,.finished,.finished] ∧ statusOf epaySetup out.shared.db = some .success ∧
      out.shared.credits = 0 ∧ (out.shared.db.user 7).map User.quota = some 100 := by decide +kernel

/- What the lock is worth: with all notifications on one instance and no manual completion the order is never credited
twice. -/
def solo (server : Nat) : Move Handler Choice → Bool
  | .start (.waiting at' _) => at' = server
  | .start _ => false
  | .act _ _ => true

def Local (server : Nat) : Handler → Prop
  | .waiting at' _ | .reading at' _ | .saving at' _ _ | .crediting at' _ => at' = server
  | .manual => False
  | .finished => True

def holdsLock : Handler → Bool
  | .reading _ _ | .saving _ _ _ | .crediting _ _ => true
  | .waiting _ _ | .manual | .finished => false

def Bounded (cfg : Setup) (s : Till) : Prop :=
  (statusOf cfg s.db = some .pending ∧ s.credits = 0) ∨ (statusOf cfg s.db = some .success ∧ s.credits ≤ 1)

def Unlocked (cfg : Setup) (s : Till) : Prop := s.locked = [] ∧ Bounded cfg s

def Locked (cfg : Setup) (server : Nat) (s : Till) (p : Handler) : Prop :=
  s.locked = [server] ∧ match p with
    | .saving _ _ _ => statusOf cfg s.db = some .pending ∧ s.credits = 0
    | .crediting _ _ => statusOf cfg s.db = some .success ∧ s.credits = 0
    | _ => Bounded cfg s

theorem lockedBounded (locked : Locked cfg server s p) : Bounded cfg s := by
  cases p with
  | saving => exact .inl locked.2
  | crediting => exact .inr ⟨locked.2.1,by have none := locked.2.2; omega⟩
  | waiting | reading | manual | finished => exact locked.2

theorem unlocked (held : s.locked = [server]) (bounded : Bounded cfg s) :
    Unlocked cfg (unlockOrder server s) :=
  ⟨by simp [unlockOrder,held],bounded⟩

theorem lockedReads (locked : Locked cfg server s (.reading server paymentMethod))
    (h : act cfg s (.reading server paymentMethod) (.go fault) = some (s',q)) :
    holdsLock q = false ∧ Unlocked cfg s' ∨ holdsLock q = true ∧ Locked cfg server s' q := by
  obtain ⟨held,bounded⟩ := locked
  simp only [act] at h
  split at h
  · rename_i _ found
    split at h
    · rename_i accepts
      cases h
      have pending : statusOf cfg s.db = some .pending := by
        simp only [epayAccepts,decide_eq_true_eq] at accepts
        simp [statusOf,found,accepts.2]
      refine .inr ⟨rfl,held,pending,?_⟩
      rcases bounded with ⟨_,none⟩ | ⟨success,_⟩
      · exact none
      · rw [pending] at success
        cases success
    · cases h
      exact .inl ⟨rfl,unlocked held bounded⟩
  · cases h
    exact .inl ⟨rfl,unlocked held bounded⟩

theorem lockedActs (named : cfg.tradeNo = o0.tradeNo) (kept : Kept cfg o0 db0 s) (fits : Fits o0 p)
    (here : Local server p) (holds : holdsLock p) (locked : Locked cfg server s p) (h : act cfg s p c = some (s',q)) :
    holdsLock q = false ∧ Unlocked cfg s' ∨ holdsLock q = true ∧ Locked cfg server s' q := by
  have bounded := lockedBounded locked
  cases c with
  | tx =>
    cases p with
    | waiting | manual | finished => cases holds
    | reading | saving | crediting => cases h
  | stop =>
    cases p with
    | waiting | manual | finished => cases holds
    | reading | saving | crediting =>
      cases here
      cases h
      exact .inl ⟨rfl,unlocked locked.1 bounded⟩
  | go fault =>
    cases p with
    | waiting | manual | finished => cases holds
    | reading =>
      cases here
      exact lockedReads locked h
    | saving _ paymentMethod topUp =>
      cases here
      cases fault with
      | some =>
        cases h
        exact .inl ⟨rfl,unlocked locked.1 bounded⟩
      | none =>
        have saved : SameOrder o0 (epayCompleted paymentMethod topUp) :=
          {fits with}
        cases h
        exact .inr ⟨rfl,locked.1,statusSaved named kept.shelf saved,locked.2.2⟩
    | crediting =>
      cases here
      simp only [act] at h
      split at h
      · cases h
        exact .inl ⟨rfl,unlocked locked.1 bounded⟩
      cases h
      have none := locked.2.2
      exact .inl ⟨rfl,by simp [unlockOrder,locked.1],.inr ⟨locked.2.1,by dsimp only; omega⟩⟩

structure Alone (cfg : Setup) (o0 : Order) (db0 : Shop) (server : Nat) (pool : Pool.State Till Handler) : Prop where
  kept : Kept cfg o0 db0 pool.shared
  fits : ∀ p ∈ pool.procs, Fits o0 p ∧ Local server p
  owned : Owned holdsLock (Unlocked cfg) (Locked cfg server) pool

theorem localActs (here : Local server p) (h : act cfg s p c = some (s',q)) :
    Local server q := by
  cases p with
  | manual => cases here
  | finished => cases h
  | waiting | saving | reading | crediting =>
    cases c with
    | stop => cases h; trivial
    | tx => cases h
    | go =>
      simp only [act] at h
      repeat' split at h
      all_goals cases h
      all_goals first | exact here | trivial

theorem waitingActs (here : Local server p) (idle : holdsLock p = false) (h : act cfg s p c = some (s',q)) :
    (holdsLock q = false ∧ s' = s) ∨
      (holdsLock q = true ∧ server ∉ s.locked ∧ s' = {s with locked := server::s.locked} ∧
        ∃ paymentMethod, q = .reading server paymentMethod) := by
  cases p with
  | manual => cases here
  | finished => cases h
  | reading | saving | crediting => cases idle
  | waiting _ paymentMethod =>
    cases here
    cases c with
    | stop => cases h; exact .inl ⟨rfl,rfl⟩
    | tx => cases h
    | go =>
      simp only [act] at h
      split at h
      · cases h
      rename_i outside
      cases h
      exact .inr ⟨rfl,outside,rfl,paymentMethod,rfl⟩

theorem stepAlone (named : cfg.tradeNo = o0.tradeNo)
    (provider : o0.paymentProvider = .epay) (alone : Alone cfg o0 db0 server pool) (only : solo server move)
    (h : step cfg pool move = some n) : Alone cfg o0 db0 server n := by
  cases move with
  | start p =>
    obtain ⟨_,rfl⟩ := stepStart h
    have fit : Fits o0 p ∧ Local server p ∧ holdsLock p = false := by
      cases p with
      | waiting => exact ⟨trivial,by simpa [solo,Local] using only,rfl⟩
      | reading | saving | crediting | manual | finished => cases only
    exact ⟨alone.kept,allAdded alone.fits ⟨fit.1,fit.2.1⟩,startOwned alone.owned fit.2.2⟩
  | act =>
    obtain ⟨p,_,q,found,moved,rfl⟩ := stepAct h
    obtain ⟨fits,here⟩ := alone.fits p (List.mem_of_getElem? found)
    obtain ⟨kept,fits',_⟩ := actEffect named provider alone.kept fits moved
    refine ⟨kept,allSet alone.fits ⟨fits',localActs here moved⟩,actOwned alone.owned found ?_ ?_ ?_⟩
    · intro free idle
      rcases waitingActs here idle moved with ⟨idle',rfl⟩ | ⟨holds,_,rfl,_,rfl⟩
      · exact .inl ⟨idle',free⟩
      · exact .inr ⟨holds,by simp [free.1],free.2⟩
    · intro r _ locked _ idle
      rcases waitingActs here idle moved with ⟨idle',rfl⟩ | ⟨_,outside,_⟩
      · exact ⟨idle',locked⟩
      · exact absurd (by simp [locked.1]) outside
    · intro locked holds
      exact lockedActs named alone.kept fits here holds locked moved

theorem lockedAtMostOnce (named : cfg.tradeNo = o0.tradeNo)
    (provider : o0.paymentProvider = .epay) (pending : o0.status = .pending)
    (hit : db0.order o0.tradeNo = some o0) (keys : ∀ r ∈ db0.orders, r.tradeNo = o0.tradeNo ↔ r.id = o0.id)
    (only : Along (step cfg) (fun _ move => solo server move) (start db0) moves)
    (h : run (step cfg) (start db0) moves = some out) :
    (statusOf cfg out.shared.db = some .pending ∧ out.shared.credits = 0) ∨
      (statusOf cfg out.shared.db = some .success ∧ out.shared.credits ≤ 1) := by
  have sound : Sound cfg o0 db0 (start db0) := startSound named pending hit keys
  have begun : Alone cfg o0 db0 server (start db0) := by
    refine ⟨sound.kept,?_,.free ?_ ⟨rfl,.inl ⟨?_,rfl⟩⟩⟩
    · intro p member
      cases member
    · intro p member
      cases member
    · simp [start,statusOf,named,hit,pending]
  have alone : Alone cfg o0 db0 server out :=
    runInvariant (fun _ _ _ alone only moved => stepAlone named provider alone only moved) begun only h
  cases alone.owned with
  | free _ shared => exact shared.2
  | held _ _ _ _ _ locked => exact lockedBounded locked

def redelivered : List (Move Handler Choice) :=
  [.start (.waiting 0 "alipay"),.start (.waiting 0 "alipay")] ++ List.replicate 4 (.act 0 (.go none)) ++
    List.replicate 2 (.act 1 (.go none))

theorem lockedRedelivered :
    ∃ out, run (step epaySetup) (start (shopWith epayOrder)) redelivered = some out ∧ out.shared.credits ≤ 1 := by
  have hit : (shopWith epayOrder).order epayOrder.tradeNo = some epayOrder := by decide +kernel
  have alone : ∀ move ∈ redelivered, solo 0 move := by decide
  have runs : (run (step epaySetup) (start (shopWith epayOrder)) redelivered).isSome := by decide +kernel
  obtain ⟨out,h⟩ := Option.isSome_iff_exists.mp runs
  have once := lockedAtMostOnce rfl rfl rfl hit (by decide) (alongAll alone _) h
  exact ⟨out,h,by omega⟩

end Omnigate.TopUpRun
