import Omnigate.Pool
import Omnigate.SubscriptionStore
import Omnigate.TopUp

/-! Subscription orders under any interleaving of completions, expiries, admin bindings and balance purchases. A
transaction runs statement by statement: a row read for update stays locked to the end, the count of a user's
subscriptions reads what is committed, and the writes appear with the commit. Orders and receipts are keyed by their
unique trade number. -/
namespace Omnigate.SubscriptionOrders

open Machine Table SubscriptionPlan SubscriptionStore Text
open TopUp (TopUpStatus)
open Pool hiding step State

structure Offer where
  plan : Plan
  enabled : Bool
  priceAmount : ℚ
  allowBalancePay : Option Bool
  deriving DecidableEq

structure Setup where
  cal : Calendar
  quotaPerUnit : ℚ
  offers : Int → Except String Offer
  offerId : ∀ id offer, offers id = .ok offer → offer.plan.id = id

structure SubscriptionOrder where
  (userId planId : Int)
  money : ℚ
  (tradeNo paymentMethod paymentProvider : String)
  status : TopUpStatus
  (createTime completeTime : Int)
  providerPayload : String
  deriving DecidableEq

structure Receipt where
  (userId amount : Int)
  money : ℚ
  (tradeNo paymentMethod : String)
  (createTime completeTime : Int)
  status : TopUpStatus
  deriving DecidableEq

structure Customer where
  id : Int
  group : String
  quota : Int
  deriving DecidableEq, Repr

/- `made` lists the trade number of an order once for each subscription created for it. -/
structure Store where
  subs : List UserSubscription
  nextId : Int
  orders : List SubscriptionOrder
  receipts : List Receipt
  customers : List Customer
  lockedOrders : List String := []
  lockedUsers : List Int := []
  made : List String := []

def Store.order (s : Store) (tradeNo : String) : Option SubscriptionOrder :=
  lookup SubscriptionOrder.tradeNo tradeNo s.orders

def Store.customer (s : Store) (id : Int) : Option Customer := lookup Customer.id id s.customers

def Store.held (s : Store) (userId planId : Int) : Nat :=
  s.subs.countP (fun sub => sub.userId = userId ∧ sub.planId = planId)

inductive Request where
  | completeOrder (tradeNo providerPayload expectedPaymentProvider actualPaymentMethod : String)
  | expireOrder (tradeNo expectedPaymentProvider : String)
  | adminBind (userId planId : Int)
  | purchase (userId planId : Int)
  deriving DecidableEq, Repr

inductive Caller where
  | order (order : SubscriptionOrder) (providerPayload actualPaymentMethod : String)
  | admin
  | balance (requiredQuota : Int) (priceAmount : ℚ)
  deriving DecidableEq

def Caller.source : Caller → String
  | .order _ _ _ => "order"
  | .admin => "admin"
  | .balance _ _ => "balance"

structure Job where
  caller : Caller
  userId : Int
  plan : Plan
  locksUser : Bool
  deriving DecidableEq

def Job.order (job : Job) : Option SubscriptionOrder :=
  match job.caller with
  | .order order _ _ => some order
  | _ => none

/- CreateUserSubscriptionFromPlanTx is counting, upgrading and inserting; what its caller still writes and the commit
are finishing. -/
inductive Writer where
  | begins (request : Request)
  | expiring (order : SubscriptionOrder)
  | counting (job : Job)
  | upgrading (job : Job) (counted : Nat) (nowUnix endUnix : Int)
  | inserting (job : Job) (counted : Nat) (nowUnix endUnix : Int) (raisedFrom : Option String)
  | finishing (job : Job) (counted : Nat) (raisedFrom : Option String) (sub : UserSubscription)
  | finished (error : Option String)
  deriving DecidableEq

structure Choice where
  fault : Option String := none
  now : Int := 0
  tradeNo : String := ""
  deriving DecidableEq, Repr

def unlockOrder (tradeNo : String) (s : Store) : Store :=
  {s with lockedOrders := s.lockedOrders.filter (· ≠ tradeNo)}

def unlockUser (userId : Int) (s : Store) : Store := {s with lockedUsers := s.lockedUsers.filter (· ≠ userId)}

def release (job : Job) (s : Store) : Store :=
  let unlocked := if job.locksUser then unlockUser job.userId s else s
  match job.order with
  | some order => unlockOrder order.tradeNo unlocked
  | none => unlocked

def rollback (job : Job) (error : String) (s : Store) : Option (Store × Writer) :=
  some (release job s,.finished (some error))

def notFound : String := "subscription order not found"
def methodMismatch : String := "payment method mismatch"
def statusInvalid : String := "subscription order status invalid"

def lockOrder (s : Store) (tradeNo expectedPaymentProvider : String) (fault : Option String) :
    Option (Except String SubscriptionOrder) :=
  if tradeNo ∈ s.lockedOrders then none
  else match fault,s.order tradeNo with
    | none,some order =>
      if expectedPaymentProvider ≠ "" ∧ order.paymentProvider ≠ expectedPaymentProvider then some (.error methodMismatch)
      else some (.ok order)
    | _,_ => some (.error notFound)

def calcSubscriptionBalanceQuota (quotaPerUnit priceAmount : ℚ) : Except String Int :=
  if priceAmount ≤ 0 then .ok 0
  else if quotaPerUnit ≤ 0 then .error "额度单位配置错误"
  else .ok ⌈priceAmount * quotaPerUnit⌉

def getOffer (cfg : Setup) (id : Int) : Except String Offer :=
  if id ≤ 0 then .error "invalid plan id" else cfg.offers id

def checkOffer (cfg : Setup) (planId : Int) : Except String (Offer × Int) :=
  match getOffer cfg planId with
  | .error e => .error e
  | .ok offer =>
    if ¬offer.enabled then .error "套餐未启用"
    else if offer.priceAmount < 0 then .error "套餐价格不能为负数"
    else if offer.allowBalancePay = some false then .error "该套餐不允许使用余额兑换"
    else match calcSubscriptionBalanceQuota cfg.quotaPerUnit offer.priceAmount with
      | .error e => .error e
      | .ok required => .ok (offer,required)

def begin (cfg : Setup) (s : Store) (c : Choice) : Request → Option (Store × Writer)
  | .completeOrder tradeNo providerPayload expectedPaymentProvider actualPaymentMethod =>
    if tradeNo = "" then some (s,.finished (some "tradeNo is empty"))
    else match lockOrder s tradeNo expectedPaymentProvider c.fault with
      | none => none
      | some (.error e) => some (s,.finished (some e))
      | some (.ok order) =>
        if order.status = .success then some (s,.finished none)
        else if order.status ≠ .pending then some (s,.finished (some statusInvalid))
        else match getOffer cfg order.planId with
          | .error e => some (s,.finished (some e))
          | .ok offer => some ({s with lockedOrders := tradeNo::s.lockedOrders},
              .counting ⟨.order order providerPayload actualPaymentMethod,order.userId,offer.plan,false⟩)
  | .expireOrder tradeNo expectedPaymentProvider =>
    if tradeNo = "" then some (s,.finished (some "tradeNo is empty"))
    else match lockOrder s tradeNo expectedPaymentProvider c.fault with
      | none => none
      | some (.error e) => some (s,.finished (some e))
      | some (.ok order) =>
        if order.status ≠ .pending then some (s,.finished none)
        else some ({s with lockedOrders := tradeNo::s.lockedOrders},.expiring order)
  | .adminBind userId planId =>
    if userId ≤ 0 ∨ planId ≤ 0 then some (s,.finished (some "invalid userId or planId"))
    else match getOffer cfg planId with
      | .error e => some (s,.finished (some e))
      | .ok offer => some (s,.counting ⟨.admin,userId,offer.plan,false⟩)
  | .purchase userId planId =>
    if userId ≤ 0 ∨ planId ≤ 0 then some (s,.finished (some "invalid userId or planId"))
    else match checkOffer cfg planId with
      | .error e => some (s,.finished (some e))
      | .ok (offer,required) =>
        if userId ∈ s.lockedUsers then none
        else match c.fault,s.customer userId with
          | some e,_ => some (s,.finished (some e))
          | none,none => some (s,.finished (some recordNotFound))
          | none,some user =>
            if 0 < required ∧ user.quota < required then some (s,.finished (some "余额不足"))
            else some ({s with lockedUsers := userId::s.lockedUsers},
              .counting ⟨.balance required offer.priceAmount,userId,offer.plan,true⟩)

def count (cfg : Setup) (s : Store) (c : Choice) (job : Job) : Option (Store × Writer) :=
  let counted := s.held job.userId job.plan.id
  if job.plan.id = 0 then rollback job "invalid plan" s
  else if job.userId ≤ 0 then rollback job "invalid user id" s
  else match c.fault with
    | some e => rollback job e s
    | none =>
      if 0 < job.plan.maxPurchasePerUser ∧ job.plan.maxPurchasePerUser ≤ counted then
        rollback job "已达到该套餐购买上限" s
      else match calcPlanEndTime cfg.cal c.now job.plan with
        | .error e => rollback job e s
        | .ok endUnix => some (s,.upgrading job counted c.now endUnix)

/- A user that has no row is not locked and has the empty group. -/
def upgrade (s : Store) (c : Choice) (job : Job) (counted : Nat) (nowUnix endUnix : Int) : Option (Store × Writer) :=
  let upgradeGroup := trimSpace job.plan.upgradeGroup
  if upgradeGroup = "" then some (s,.inserting job counted nowUnix endUnix none)
  else match c.fault,s.customer job.userId with
    | some e,_ => rollback job e s
    | none,none => some (s,.inserting job counted nowUnix endUnix (some ""))
    | none,some user =>
      let raisedFrom := if user.group = upgradeGroup then none else some user.group
      if job.locksUser then some (s,.inserting job counted nowUnix endUnix raisedFrom)
      else if job.userId ∈ s.lockedUsers then none
      else some ({s with lockedUsers := job.userId::s.lockedUsers},
        .inserting {job with locksUser := true} counted nowUnix endUnix raisedFrom)

def insert (cfg : Setup) (s : Store) (c : Choice) (job : Job) (counted : Nat) (nowUnix endUnix : Int)
    (raisedFrom : Option String) : Option (Store × Writer) :=
  match c.fault with
  | some e => rollback job e s
  | none =>
    let sub := newSubscription cfg.cal job.userId job.plan job.caller.source nowUnix endUnix (raisedFrom.getD "") s.nextId
    some ({s with nextId := s.nextId + 1},.finishing job counted raisedFrom sub)

def upsertSubscriptionTopUpTx (now : Int) (order : SubscriptionOrder) (receipts : List Receipt) :
    Except String (List Receipt) :=
  match lookup Receipt.tradeNo order.tradeNo receipts with
  | none => .ok (receipts ++
      [⟨order.userId,0,order.money,order.tradeNo,order.paymentMethod,order.createTime,now,.success⟩])
  | some topUp =>
    if topUp.paymentMethod ≠ "" ∧ topUp.paymentMethod ≠ order.paymentMethod then .error methodMismatch
    else .ok (save Receipt.tradeNo {topUp with
      money := order.money, paymentMethod := order.paymentMethod,
      createTime := if topUp.createTime = 0 then order.createTime else topUp.createTime,
      completeTime := now, status := .success } receipts)

def completed (now : Int) (providerPayload actualPaymentMethod : String) (order : SubscriptionOrder) : SubscriptionOrder :=
  {order with
    status := .success, completeTime := now,
    providerPayload := if providerPayload ≠ "" then providerPayload else order.providerPayload,
    paymentMethod := if actualPaymentMethod ≠ "" then actualPaymentMethod else order.paymentMethod }

def balanceOrder (c : Choice) (job : Job) (requiredQuota : Int) (priceAmount : ℚ) : SubscriptionOrder :=
  ⟨job.userId,job.plan.id,priceAmount,c.tradeNo,"balance","balance",.success,c.now,c.now,
    "charged_quota=" ++ toString requiredQuota⟩

def updateCustomer (id : Int) (change : Customer → Customer) (s : Store) : Store :=
  {s with customers := updateWhere (fun user => user.id = id) change s.customers}

def addSub (job : Job) (raisedFrom : Option String) (sub : UserSubscription) (s : Store) : Store :=
  let added := {s with subs := s.subs ++ [sub]}
  match raisedFrom with
  | none => added
  | some _ => updateCustomer job.userId (fun user => {user with group := trimSpace job.plan.upgradeGroup}) added

/- Everything the transaction wrote; the trade number of a balance order must be new. -/
def commit (c : Choice) (job : Job) (raisedFrom : Option String) (sub : UserSubscription) (s : Store) :
    Except String Store :=
  match job.caller with
  | .admin => .ok (addSub job raisedFrom sub s)
  | .order order providerPayload actualPaymentMethod =>
    match upsertSubscriptionTopUpTx c.now order s.receipts with
    | .error e => .error e
    | .ok receipts =>
      let saved := save SubscriptionOrder.tradeNo (completed c.now providerPayload actualPaymentMethod order) s.orders
      .ok (addSub job raisedFrom sub {s with receipts := receipts, orders := saved, made := order.tradeNo::s.made})
  | .balance requiredQuota priceAmount =>
    if (s.order c.tradeNo).isSome then .error "duplicate trade_no"
    else
      let paid := if 0 < requiredQuota then
        updateCustomer job.userId (fun user => {user with quota := user.quota - requiredQuota}) s else s
      .ok (addSub job raisedFrom sub {paid with
        orders := s.orders ++ [balanceOrder c job requiredQuota priceAmount], made := c.tradeNo::s.made })

def finish (s : Store) (c : Choice) (job : Job) (raisedFrom : Option String) (sub : UserSubscription) :
    Option (Store × Writer) :=
  match c.fault with
  | some e => rollback job e s
  | none => match commit c job raisedFrom sub s with
    | .error e => rollback job e s
    | .ok after => some (release job after,.finished none)

def expire (s : Store) (c : Choice) (order : SubscriptionOrder) : Option (Store × Writer) :=
  match c.fault with
  | some e => some (unlockOrder order.tradeNo s,.finished (some e))
  | none =>
    let expired := {order with status := .expired, completeTime := c.now}
    some (unlockOrder order.tradeNo {s with orders := save SubscriptionOrder.tradeNo expired s.orders},.finished none)

def act (cfg : Setup) (s : Store) (p : Writer) (c : Choice) : Option (Store × Writer) :=
  match p with
  | .begins request => begin cfg s c request
  | .expiring order => expire s c order
  | .counting job => count cfg s c job
  | .upgrading job counted nowUnix endUnix => upgrade s c job counted nowUnix endUnix
  | .inserting job counted nowUnix endUnix raisedFrom => insert cfg s c job counted nowUnix endUnix raisedFrom
  | .finishing job _ raisedFrom sub => finish s c job raisedFrom sub
  | .finished _ => none

def begins : Writer → Bool
  | .begins _ => true
  | _ => false

def step (cfg : Setup) (pool : Pool.State Store Writer) (move : Move Writer Choice) :
    Option (Pool.State Store Writer) :=
  Pool.step begins (act cfg) pool move

def start (s : Store) : Pool.State Store Writer := ⟨s,[]⟩

end Omnigate.SubscriptionOrders
