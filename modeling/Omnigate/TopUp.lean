import Omnigate.QuotaMath
import Omnigate.Table
import Omnigate.Transaction

/-! Top-up orders and the functions that complete them: the notification of epay, the recharge of each other provider
and the manual completion. Floats and decimals are exact. -/
namespace Omnigate.TopUp

open QuotaMath Table Transaction

inductive PaymentProvider where
  | epay | stripe | creem | waffo | waffoPancake | balance
  | other (text : String)
  deriving DecidableEq, Repr

inductive TopUpStatus where
  | pending | success | failed | expired
  | other (text : String)
  deriving DecidableEq, Repr

structure Order where
  (id userId amount : Int)
  money : ℚ
  (tradeNo paymentMethod : String)
  paymentProvider : PaymentProvider
  completeTime : Int
  status : TopUpStatus
  deriving DecidableEq

structure User where
  (id quota : Int)
  (email stripeCustomer : String)
  deriving DecidableEq

structure Shop where
  orders : List Order
  users : List User
  deriving DecidableEq

def Shop.order (tradeNo : String) (db : Shop) : Option Order := lookup Order.tradeNo tradeNo db.orders

def Shop.user (id : Int) (db : Shop) : Option User := lookup User.id id db.users

def saveOrder (o : Order) (db : Shop) : Shop := {db with orders := save Order.id o db.orders}

def updateUser (id : Int) (change : User → User) (db : Shop) : Shop :=
  {db with users := updateWhere (fun user => user.id = id) change db.users}

def addQuota (quota : Int) (user : User) : User := {user with quota := user.quota + quota}

abbrev ShopTx := Tx Shop String

/- Any error of the lookup is reported as a missing order. -/
def lockOrder (tradeNo : String) : ShopTx Order := do
  match ← attempt (first (Shop.order tradeNo) "record not found") with
  | .ok o => return o
  | .error _ => fail "充值订单不存在"

def completed (now : Int) (o : Order) : Order := {o with completeTime := now, status := .success}

def complete (now : Int) (o : Order) (change : User → User) : ShopTx Unit := do
  exec (saveOrder (completed now o))
  exec (updateUser o.userId change)

def amountQuota (quotaPerUnit : ℚ) (o : Order) : Int := truncate (o.amount * quotaPerUnit)

def moneyQuota (quotaPerUnit : ℚ) (o : Order) : Int := truncate (o.money * quotaPerUnit)

def manualQuota (quotaPerUnit : ℚ) (o : Order) : Int :=
  if o.paymentProvider = .stripe then moneyQuota quotaPerUnit o else amountQuota quotaPerUnit o

def manualTx (quotaPerUnit : ℚ) (now : Int) (tradeNo : String) : ShopTx Unit := do
  let o ← lockOrder tradeNo
  if o.status = .success then return ()
  else if o.status ≠ .pending then fail "订单状态不是待支付，无法补单"
  else if manualQuota quotaPerUnit o ≤ 0 then fail "无效的充值额度"
  else complete now o (addQuota (manualQuota quotaPerUnit o))

def manualCompleteTopUp (quotaPerUnit : ℚ) (now : Int) (tradeNo : String) (faults : List (Option String))
    (db : Shop) : Except String Unit × Shop :=
  if tradeNo = "" then (.error "未提供订单号",db) else atomically (manualTx quotaPerUnit now tradeNo) faults db

def rechargeFailed : String := "充值失败，请稍后重试"

def recharging (tradeNo : String) (body : ShopTx Unit) (faults : List (Option String)) (db : Shop) :
    Except String Unit × Shop :=
  if tradeNo = "" then (.error "未提供支付单号",db)
  else match atomically body faults db with
    | (.error _,after) => (.error rechargeFailed,after)
    | (.ok _,after) => (.ok (),after)

def paymentMethodMismatch : String := "payment method mismatch"

def rechargeTx (quotaPerUnit : ℚ) (now : Int) (referenceId customerId : String) : ShopTx Unit := do
  let o ← lockOrder referenceId
  if o.paymentProvider ≠ .stripe then fail paymentMethodMismatch
  else if o.status ≠ .pending then fail "充值订单状态错误"
  else complete now o (fun user => {addQuota (moneyQuota quotaPerUnit o) user with stripeCustomer := customerId})

def recharge (quotaPerUnit : ℚ) (now : Int) (referenceId customerId : String) (faults : List (Option String))
    (db : Shop) : Except String Unit × Shop :=
  recharging referenceId (rechargeTx quotaPerUnit now referenceId customerId) faults db

def creemEmail (userId : Int) (customerEmail : String) : ShopTx (Option String) := do
  if customerEmail = "" then return none
  else
    let user ← first (Shop.user userId) "record not found"
    return if user.email = "" then some customerEmail else none

def creemChange (amount : Int) (email : Option String) (user : User) : User :=
  {addQuota amount user with email := email.getD user.email}

def completeCreem (now : Int) (o : Order) (customerEmail : String) : ShopTx Unit := do
  exec (saveOrder (completed now o))
  let email ← creemEmail o.userId customerEmail
  exec (updateUser o.userId (creemChange o.amount email))

def rechargeCreemTx (now : Int) (referenceId customerEmail : String) : ShopTx Unit := do
  let o ← lockOrder referenceId
  if o.paymentProvider ≠ .creem then fail paymentMethodMismatch
  else if o.status ≠ .pending then fail "充值订单状态错误"
  else completeCreem now o customerEmail

def rechargeCreem (now : Int) (referenceId customerEmail : String) (faults : List (Option String)) (db : Shop) :
    Except String Unit × Shop :=
  recharging referenceId (rechargeCreemTx now referenceId customerEmail) faults db

def rechargeByAmountTx (provider : PaymentProvider) (quotaPerUnit : ℚ) (now : Int) (tradeNo : String) :
    ShopTx Unit := do
  let o ← lockOrder tradeNo
  if o.paymentProvider ≠ provider then fail paymentMethodMismatch
  else if o.status = .success then return ()
  else if o.status ≠ .pending then fail "充值订单状态错误"
  else if amountQuota quotaPerUnit o ≤ 0 then fail "无效的充值额度"
  else complete now o (addQuota (amountQuota quotaPerUnit o))

def rechargeWaffo (quotaPerUnit : ℚ) (now : Int) (tradeNo : String) (faults : List (Option String)) (db : Shop) :
    Except String Unit × Shop :=
  recharging tradeNo (rechargeByAmountTx .waffo quotaPerUnit now tradeNo) faults db

def rechargeWaffoPancake (quotaPerUnit : ℚ) (now : Int) (tradeNo : String) (faults : List (Option String))
    (db : Shop) : Except String Unit × Shop :=
  recharging tradeNo (rechargeByAmountTx .waffoPancake quotaPerUnit now tradeNo) faults db

/- What epay's notification does with an order it has read: nothing unless it is pending
and of this provider. -/
def epayAccepts (o : Order) : Bool := o.paymentProvider = .epay ∧ o.status = .pending

def epayCompleted (paymentMethod : String) (o : Order) : Order :=
  {o with paymentMethod := paymentMethod, status := .success}

structure NotifyFaults where
  (read save credit : Option String)

def epayNotify (quotaPerUnit : ℚ) (tradeNo paymentMethod : String) (f : NotifyFaults) (db : Shop) : Shop :=
  match f.read,db.order tradeNo with
  | none,some o =>
    if epayAccepts o ∧ f.save = none then
      let saved := saveOrder (epayCompleted paymentMethod o) db
      if amountQuota quotaPerUnit o < 0 ∨ f.credit ≠ none then saved
      else updateUser o.userId (addQuota (amountQuota quotaPerUnit o)) saved
    else db
  | _,_ => db

variable {db : Shop} {o : Order}

theorem lockOrderClear (hit : db.order tradeNo = some o) :
    lockOrder tradeNo ⟨db,[]⟩ = .ok (o,⟨db,[]⟩) := by
  simp [lockOrder,attempt,first,query,statement,bind,StateT.bind,Except.bind,pure,Except.pure,pureTx,get,getThe,
    MonadStateOf.get,StateT.get,hit]

theorem atomicallyLocked {body : Order → ShopTx Unit} (hit : db.order tradeNo = some o) :
    atomically (do body (← lockOrder tradeNo)) [] db = atomically (body o) [] db := by
  refine atomicallyCongr ?_
  show (lockOrder tradeNo ⟨db,[]⟩ >>= fun p => body p.1 p.2) = body o ⟨db,[]⟩
  rw [lockOrderClear hit]
  rfl

def credited (userId : Int) (before after : Shop) : Int :=
  ((after.user userId).map User.quota).getD 0 - ((before.user userId).map User.quota).getD 0

theorem userSaved (id o db) : (saveOrder o db).user id = db.user id := rfl

theorem userUpdated {id} (stable : ∀ user, (change user).id = user.id) (db) :
    (updateUser id change db).user id = (db.user id).map change := by
  unfold Shop.user updateUser
  simp only [lookupUpdateKey stable,if_true]

theorem creditedNothing (userId db) : credited userId db db = 0 := by simp [credited]

theorem creditedBy {quota : Int} (stable : ∀ user, (change user).id = user.id)
    (grows : ∀ user, (change user).quota = user.quota + quota) (o saved : Order) (db : Shop) :
    credited o.userId db (updateUser o.userId change (saveOrder saved db)) =
      if (db.user o.userId).isSome then quota else 0 := by
  unfold credited
  rw [userUpdated stable,userSaved]
  cases db.user o.userId with
  | none => rfl
  | some => simp [grows]

theorem positiveCredits (quota now : Int) (e) (o : Order) (db : Shop) :
    credited o.userId db (atomically (if quota ≤ 0 then fail e else complete now o (addQuota quota)) [] db).2 =
      if (db.user o.userId).isSome then max 0 quota else 0 := by
  split
  · rename_i none
    rw [max_eq_left none,ite_self]
    exact creditedNothing o.userId db
  rename_i some
  rw [max_eq_right (not_le.mp some).le]
  refine creditedBy ?_ ?_ o (completed now o) db <;> exact fun user => rfl

theorem manualCredits (named : tradeNo ≠ "") (hit : db.order tradeNo = some o) (pending : o.status = .pending) :
    credited o.userId db (manualCompleteTopUp quotaPerUnit now tradeNo [] db).2 =
      if (db.user o.userId).isSome then max 0 (manualQuota quotaPerUnit o) else 0 := by
  unfold manualCompleteTopUp manualTx
  rw [if_neg named,atomicallyLocked hit]
  simp only [pending,reduceCtorEq,if_false,ne_eq,not_true_eq_false]
  exact positiveCredits _ now _ o db

theorem rechargingCredits {body : Order → ShopTx Unit} (named : tradeNo ≠ "") (hit : db.order tradeNo = some o) :
    credited o.userId db (recharging tradeNo (do body (← lockOrder tradeNo)) [] db).2 =
      credited o.userId db (atomically (body o) [] db).2 := by
  unfold recharging
  rw [if_neg named,atomicallyLocked hit]
  rcases atomically (body o) [] db with ⟨r,_⟩
  cases r <;> rfl

theorem rechargeCredits (named : tradeNo ≠ "")
    (hit : db.order tradeNo = some o) (pending : o.status = .pending) (provider : o.paymentProvider = .stripe) :
    credited o.userId db (recharge quotaPerUnit now tradeNo customerId [] db).2 =
      if (db.user o.userId).isSome then moneyQuota quotaPerUnit o else 0 := by
  unfold recharge rechargeTx
  rw [rechargingCredits named hit]
  simp only [provider,pending,ne_eq,not_true_eq_false,if_false]
  refine creditedBy ?_ ?_ o _ db <;> exact fun user => rfl

theorem completeCreemClear (now o customerEmail db) :
    (db.user o.userId = none ∧ atomically (completeCreem now o customerEmail) [] db = (.error "record not found",db)) ∨
      ∃ email, atomically (completeCreem now o customerEmail) [] db =
        (.ok (),updateUser o.userId (creemChange o.amount email) (saveOrder (completed now o) db)) := by
  by_cases anonymous : customerEmail = ""
  · refine .inr ⟨none,?_⟩
    simp only [completeCreem,creemEmail,anonymous,if_true]
    rfl
  have same : (saveOrder (completed now o) db).user o.userId = db.user o.userId := rfl
  cases stored : db.user o.userId with
  | none =>
    rw [stored] at same
    refine .inl ⟨rfl,?_⟩
    simp [completeCreem,creemEmail,anonymous,atomically,exec,first,query,statement,bind,StateT.bind,Except.bind,
      modify,modifyGet,MonadStateOf.modifyGet,StateT.modifyGet,pure,Except.pure,pureTx,get,getThe,
      MonadStateOf.get,StateT.get,same,fail]
  | some user =>
    rw [stored] at same
    refine .inr ⟨if user.email = "" then some customerEmail else none,?_⟩
    simp [completeCreem,creemEmail,anonymous,atomically,exec,first,query,statement,bind,StateT.bind,Except.bind,
      modify,modifyGet,MonadStateOf.modifyGet,StateT.modifyGet,pure,Except.pure,pureTx,get,getThe,
      MonadStateOf.get,StateT.get,same]

theorem creemCredits (named : tradeNo ≠ "") (hit : db.order tradeNo = some o)
    (pending : o.status = .pending) (provider : o.paymentProvider = .creem) :
    credited o.userId db (rechargeCreem now tradeNo customerEmail [] db).2 =
      if (db.user o.userId).isSome then o.amount else 0 := by
  unfold rechargeCreem rechargeCreemTx
  rw [rechargingCredits named hit]
  simp only [provider,pending,ne_eq,not_true_eq_false,if_false]
  rcases completeCreemClear now o customerEmail db with ⟨missing,runs⟩ | ⟨_,runs⟩
  · rw [runs,creditedNothing,missing]
    rfl
  rw [runs]
  refine creditedBy ?_ ?_ o _ db <;> exact fun user => rfl

theorem byAmountCredits (named : tradeNo ≠ "") (hit : db.order tradeNo = some o)
    (pending : o.status = .pending) (same : o.paymentProvider = provider) :
    credited o.userId db (recharging tradeNo (rechargeByAmountTx provider quotaPerUnit now tradeNo) [] db).2 =
      if (db.user o.userId).isSome then max 0 (amountQuota quotaPerUnit o) else 0 := by
  unfold rechargeByAmountTx
  rw [rechargingCredits named hit]
  simp only [same,pending,ne_eq,not_true_eq_false,reduceCtorEq,if_false]
  exact positiveCredits _ now _ o db

def noNotifyFaults : NotifyFaults := ⟨none,none,none⟩

theorem epayCredits (hit : db.order tradeNo = some o)
    (pending : o.status = .pending) (provider : o.paymentProvider = .epay) :
    credited o.userId db (epayNotify quotaPerUnit tradeNo paymentMethod noNotifyFaults db) =
      if (db.user o.userId).isSome then max 0 (amountQuota quotaPerUnit o) else 0 := by
  have accepts : epayAccepts o := by simp [epayAccepts,pending,provider]
  simp only [epayNotify,noNotifyFaults,hit,accepts,and_self,if_true,ne_eq,not_true_eq_false,or_false]
  split
  · rename_i negative
    rw [max_eq_left negative.le]
    simp [credited,userSaved]
  rename_i nonneg
  rw [max_eq_right (not_lt.mp nonneg)]
  refine creditedBy ?_ ?_ o _ db <;> exact fun user => rfl

theorem lockOrderOk (h : lockOrder tradeNo v = .ok (o,v')) :
    v.db.order tradeNo = some o ∧ v'.db = v.db := by
  obtain ⟨found,m,tried,rest⟩ := bindOk h
  cases found with
  | error => cases rest
  | ok =>
    cases rest
    exact firstOk (attemptOk tried)

theorem manualCases (hit : db.order tradeNo = some o)
    (h : manualCompleteTopUp quotaPerUnit now tradeNo faults db = (r,after)) :
    (after = db ∧ (r = .ok () → o.status ≠ .pending)) ∨ (r = .ok () ∧ o.status = .pending ∧
        after = updateUser o.userId (addQuota (manualQuota quotaPerUnit o)) (saveOrder (completed now o) db)) := by
  unfold manualCompleteTopUp at h
  split at h
  · cases h
    exact .inl ⟨rfl,fun wrong => nomatch wrong⟩
  cases r with
  | error =>
    have same := atomicallyError (congrArg Prod.fst h)
    rw [h] at same
    exact .inl ⟨same,fun wrong => nomatch wrong⟩
  | ok =>
    obtain ⟨v,body,tables⟩ := atomicallyOk (congrArg Prod.fst h)
    rw [h] at tables
    obtain ⟨_,m,locked,rest⟩ := bindOk body
    obtain ⟨found,same⟩ := lockOrderOk locked
    cases Option.some.inj (hit.symm.trans found)
    split at rest
    · rename_i done
      cases rest
      exact .inl ⟨tables.trans same,fun _ => by rw [done]; simp⟩
    split at rest
    · cases rest
    rename_i pending
    split at rest
    · cases rest
    obtain ⟨_,_,saved,last⟩ := bindOk rest
    exact .inr ⟨rfl,not_not.mp pending,tables.trans (by rw [execOk last,execOk saved,same])⟩

structure Completion where
  quotaPerUnit : ℚ
  now : Int
  (paymentMethod customerId customerEmail : String)

def completeByProvider (c : Completion) (provider : PaymentProvider) (tradeNo : String) (db : Shop) : Option Shop :=
  match provider with
  | .epay => some (epayNotify c.quotaPerUnit tradeNo c.paymentMethod noNotifyFaults db)
  | .stripe => some (recharge c.quotaPerUnit c.now tradeNo c.customerId [] db).2
  | .creem => some (rechargeCreem c.now tradeNo c.customerEmail [] db).2
  | .waffo => some (rechargeWaffo c.quotaPerUnit c.now tradeNo [] db).2
  | .waffoPancake => some (rechargeWaffoPancake c.quotaPerUnit c.now tradeNo [] db).2
  | .balance | .other _ => none

/- The orders both completions credit alike: a Stripe order of non-negative money, a Creem order whose amount is the
same as a quota and as a number of units, and any order of the other three. -/
def sameMeaning (quotaPerUnit : ℚ) (o : Order) : Bool :=
  match o.paymentProvider with
  | .stripe => 0 ≤ moneyQuota quotaPerUnit o
  | .creem => max 0 (amountQuota quotaPerUnit o) = o.amount
  | _ => true

theorem manualAgreesIff {c : Completion} {now : Int} {tradeNo : String} {db after : Shop} {o : Order}
    (named : tradeNo ≠ "") (hit : db.order tradeNo = some o) (pending : o.status = .pending)
    (own : completeByProvider c o.paymentProvider tradeNo db = some after) :
    credited o.userId db (manualCompleteTopUp c.quotaPerUnit now tradeNo [] db).2 = credited o.userId db after ↔
      db.user o.userId = none ∨ sameMeaning c.quotaPerUnit o := by
  rw [manualCredits named hit pending]
  have missing : db.user o.userId = none ↔ (db.user o.userId).isSome = false := by
    cases db.user o.userId <;> simp
  rw [missing]
  unfold manualQuota sameMeaning
  cases provider : o.paymentProvider with
  | epay =>
    rw [provider] at own
    cases own
    rw [epayCredits hit pending provider]
    simp
  | stripe =>
    rw [provider] at own
    cases own
    rw [rechargeCredits named hit pending provider]
    cases (db.user o.userId).isSome <;> simp
  | creem =>
    rw [provider] at own
    cases own
    rw [creemCredits named hit pending provider]
    cases (db.user o.userId).isSome <;> simp
  | waffo =>
    rw [provider] at own
    cases own
    rw [rechargeWaffo,byAmountCredits named hit pending provider]
    simp
  | waffoPancake =>
    rw [provider] at own
    cases own
    rw [rechargeWaffoPancake,byAmountCredits named hit pending provider]
    simp
  | balance | other => rw [provider] at own; cases own

def pendingOrder (provider : PaymentProvider) (amount : Int) (money : ℚ) : Order :=
  ⟨1,7,amount,money,"USR7NO1","",provider,0,.pending⟩

def shopWith (o : Order) : Shop := ⟨[o],[⟨7,100,"",""⟩]⟩

def completion : Completion := ⟨500000,2000,"alipay","cus_1","payer"⟩

theorem manualAgreesOnStripe :
    ∃ after, completeByProvider completion .stripe "USR7NO1" (shopWith (pendingOrder .stripe 10 (999 / 100))) =
        some after ∧
      credited 7 (shopWith (pendingOrder .stripe 10 (999 / 100)))
        (manualCompleteTopUp 500000 2000 "USR7NO1" [] (shopWith (pendingOrder .stripe 10 (999 / 100)))).2 =
      credited 7 (shopWith (pendingOrder .stripe 10 (999 / 100))) after ∧
      credited 7 (shopWith (pendingOrder .stripe 10 (999 / 100))) after = 4995000 := by
  have means : sameMeaning 500000 (pendingOrder .stripe 10 (999 / 100)) := by decide +kernel
  have hit : (shopWith (pendingOrder .stripe 10 (999 / 100))).order "USR7NO1" =
      some (pendingOrder .stripe 10 (999 / 100)) := by decide +kernel
  have amount : credited 7 (shopWith (pendingOrder .stripe 10 (999 / 100)))
      (recharge 500000 2000 "USR7NO1" "cus_1" [] (shopWith (pendingOrder .stripe 10 (999 / 100)))).2 = 4995000 := by
    decide +kernel
  have agrees := (@manualAgreesIff completion 2000 "USR7NO1" _ _ _ (by decide) hit rfl rfl).mpr (.inr means)
  exact ⟨_,rfl,agrees,amount⟩

theorem manualMultipliesCreemQuota :
    ∃ after, completeByProvider completion .creem "USR7NO1" (shopWith (pendingOrder .creem 1000000 2)) = some after ∧
      credited 7 (shopWith (pendingOrder .creem 1000000 2)) after = 1000000 ∧
      credited 7 (shopWith (pendingOrder .creem 1000000 2))
        (manualCompleteTopUp 500000 2000 "USR7NO1" [] (shopWith (pendingOrder .creem 1000000 2))).2 =
        500000000000 := by decide +kernel

end Omnigate.TopUp
