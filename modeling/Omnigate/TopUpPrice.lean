import Omnigate.TopUp

/-! The request of an epay top-up and its price. In token display the amount is a number of tokens, which the price
divides by the quota per unit exactly and the order in whole units. Money is exact; the gateway is told it with two
decimals. -/
namespace Omnigate.TopUp

open QuotaMath

structure PaySettings where
  displayTokens : Bool
  (quotaPerUnit price : ℚ)
  topupGroupRatio : String → ℚ
  amountDiscount : Int → Option ℚ
  minTopUp : Int
  payMethods : List String

structure EpayRequest where
  amount : Int
  paymentMethod : String

def groupRatio (cfg : PaySettings) (group : String) : ℚ :=
  if cfg.topupGroupRatio group = 0 then 1 else cfg.topupGroupRatio group

def discount (cfg : PaySettings) (amount : Int) : ℚ :=
  match cfg.amountDiscount amount with
  | some ds => if 0 < ds then ds else 1
  | none => 1

def getPayMoney (cfg : PaySettings) (amount : Int) (group : String) : ℚ :=
  (if cfg.displayTokens then amount / cfg.quotaPerUnit else amount) * cfg.price * groupRatio cfg group *
    discount cfg amount

def getMinTopup (cfg : PaySettings) : Int :=
  if cfg.displayTokens then truncate (cfg.minTopUp * cfg.quotaPerUnit) else cfg.minTopUp

def orderAmount (cfg : PaySettings) (amount : Int) : Int :=
  if cfg.displayTokens then truncate (amount / cfg.quotaPerUnit) else amount

/- What the other parties answer: the parsed body, the user's group, a configured client, whether the gateway takes
the purchase and the order is stored. -/
structure EpayAnswers where
  body : Option EpayRequest
  group : Option String
  (client purchased inserted : Bool)

def newEpayOrder (cfg : PaySettings) (userId orderId : Int) (tradeNo : String) (req : EpayRequest) (group : String) : Order :=
  ⟨orderId,userId,orderAmount cfg req.amount,getPayMoney cfg req.amount group,tradeNo,req.paymentMethod,.epay,0,.pending⟩

def requestEpay (cfg : PaySettings) (userId orderId : Int) (tradeNo : String) (a : EpayAnswers) : Except String Order :=
  match a.body with
  | none => .error "参数错误"
  | some req =>
    if req.amount < getMinTopup cfg then .error ("充值数量不能小于 " ++ toString (getMinTopup cfg))
    else match a.group with
      | none => .error "获取用户分组失败"
      | some group =>
        if getPayMoney cfg req.amount group < 1/100 then .error "充值金额过低"
        else if req.paymentMethod ∉ cfg.payMethods then .error "支付方式不存在"
        else if a.client = false then .error "当前管理员未配置支付信息"
        else if a.purchased = false then .error "拉起支付失败"
        else if a.inserted = false then .error "创建订单失败"
        else .ok (newEpayOrder cfg userId orderId tradeNo req group)

theorem requestAccepted (h : requestEpay cfg userId orderId tradeNo a = .ok o) (body : a.body = some req)
    (named : a.group = some group) :
    1/100 ≤ getPayMoney cfg req.amount group ∧ o = newEpayOrder cfg userId orderId tradeNo req group := by
  simp only [requestEpay,body,named] at h
  split at h
  · cases h
  split at h
  · cases h
  rename_i enough
  refine ⟨not_lt.mp enough,?_⟩
  repeat' split at h
  all_goals cases h
  rfl

theorem truncateExact (x : ℚ) : ((max 0 (truncate x) : Int) : ℚ) = x ↔ 0 ≤ x ∧ ∃ n : Int, x = n := by
  constructor
  · intro same
    exact ⟨by rw [← same]; exact Int.cast_nonneg (le_max_left _ _),_,same.symm⟩
  · rintro ⟨nonneg,n,rfl⟩
    rw [truncateInt,max_eq_right (Int.cast_nonneg_iff.mp nonneg)]

theorem truncateUnits {q : ℚ} (positive : 0 < q) (r : Int) :
    max 0 (truncate (truncate (r / q) * q)) = r ↔ 0 ≤ r ∧ ∃ n : Int, (r : ℚ) = n * q := by
  constructor
  · intro same
    have nonneg : 0 ≤ r := same ▸ le_max_left _ _
    have units : truncate (r / q) = ⌊r / q⌋ := if_pos (by positivity)
    have below : ⌊r / q⌋ * q ≤ r := by
      have := mul_le_mul_of_nonneg_right (Int.floor_le ((r : ℚ) / q)) positive.le
      rwa [div_mul_cancel₀ _ positive.ne'] at this
    have start : (0 : ℚ) ≤ ⌊r / q⌋ * q := mul_nonneg (Int.cast_nonneg (Int.floor_nonneg.mpr (by positivity))) positive.le
    rw [units,truncate,if_pos start,max_eq_right (Int.floor_nonneg.mpr start)] at same
    have above := Int.floor_le (⌊r / q⌋ * q : ℚ)
    rw [same] at above
    exact ⟨nonneg,_,le_antisymm above below⟩
  · rintro ⟨nonneg,n,whole⟩
    rw [whole,mul_div_cancel_right₀ _ positive.ne',truncateInt,← whole,truncateInt,max_eq_right nonneg]

/- The price is that of the credited quota exactly for whole units in token display, and for a whole number of quota
otherwise. -/
theorem epayPriceIff {cfg userId orderId tradeNo a o req group paymentMethod} {db : Shop} (positive : 0 < cfg.quotaPerUnit)
    (body : a.body = some req) (named : a.group = some group)
    (accepted : requestEpay cfg userId orderId tradeNo a = .ok o) (stored : db.order tradeNo = some o)
    (user : (db.user userId).isSome) :
    o.money = credited userId db (epayNotify cfg.quotaPerUnit tradeNo paymentMethod noNotifyFaults db) /
        cfg.quotaPerUnit * cfg.price * groupRatio cfg group * discount cfg req.amount ↔
      0 < req.amount ∧ if cfg.displayTokens then ∃ n : Int, (req.amount : ℚ) = n * cfg.quotaPerUnit
        else ∃ n : Int, req.amount * cfg.quotaPerUnit = n := by
  obtain ⟨enough,rfl⟩ := requestAccepted accepted body named
  have credit : credited userId db (epayNotify cfg.quotaPerUnit tradeNo paymentMethod noNotifyFaults db) =
      if (db.user userId).isSome then max 0 (truncate (orderAmount cfg req.amount * cfg.quotaPerUnit)) else 0 :=
    epayCredits stored rfl rfl
  rw [credit,if_pos user]
  -- a price that is accepted is not zero, so its factors cancel
  have cancel : ∀ d c : ℚ, 1/100 ≤ d * cfg.price * groupRatio cfg group * discount cfg req.amount →
      (d * cfg.price * groupRatio cfg group * discount cfg req.amount =
        c / cfg.quotaPerUnit * cfg.price * groupRatio cfg group * discount cfg req.amount ↔ c = d * cfg.quotaPerUnit) := by
    intro d c enough
    simp only [mul_assoc] at enough ⊢
    have nonzero : cfg.price * (groupRatio cfg group * discount cfg req.amount) ≠ 0 := by
      intro zero
      norm_num [zero] at enough
    rw [mul_left_inj' nonzero,eq_div_iff positive.ne',eq_comm]
  unfold getPayMoney at enough
  have some_ : req.amount ≠ 0 := by
    intro zero
    norm_num [zero] at enough
  show getPayMoney cfg req.amount group = _ ↔ _
  unfold getPayMoney
  rw [cancel _ _ enough,orderAmount]
  split
  · rw [div_mul_cancel₀ _ positive.ne',Int.cast_inj,truncateUnits positive]
    exact and_congr_left' ⟨fun nonneg => lt_of_le_of_ne nonneg some_.symm,le_of_lt⟩
  · rw [truncateExact]
    refine and_congr_left' ⟨fun nonneg => ?_,fun _ => by positivity⟩
    have := nonneg_of_mul_nonneg_left nonneg positive
    exact lt_of_le_of_ne (Int.cast_nonneg_iff.mp this) some_.symm

def tokenShop : PaySettings := ⟨true,500000,7,fun _ => 1,fun _ => none,1,["alipay"]⟩

def asked (amount : Int) : EpayAnswers := ⟨some ⟨amount,"alipay"⟩,some "default",true,true,true⟩

def asOrder (amount : Int) : Order := newEpayOrder tokenShop 7 1 "USR7NO1" ⟨amount,"alipay"⟩ "default"

def ordered (amount : Int) : Shop := ⟨[asOrder amount],[⟨7,0,"",""⟩]⟩

theorem twoUnits : (asOrder 1000000).money =
    credited 7 (ordered 1000000) (epayNotify 500000 "USR7NO1" "alipay" noNotifyFaults (ordered 1000000)) / 500000 * 7 * 1 * 1 :=
  (@epayPriceIff tokenShop 7 1 "USR7NO1" (asked 1000000) _ _ _ "alipay" (ordered 1000000) (by decide +kernel) rfl rfl
    (by decide +kernel) rfl rfl).mpr ⟨by decide,2,by decide +kernel⟩

theorem almostTwoUnits : requestEpay tokenShop 7 1 "USR7NO1" (asked 999999) = .ok (asOrder 999999) ∧
    (asOrder 999999).money = 6999993/500000 ∧
    credited 7 (ordered 999999) (epayNotify 500000 "USR7NO1" "alipay" noNotifyFaults (ordered 999999)) = 500000 := by
  decide +kernel

end Omnigate.TopUp
