import Omnigate.SubscriptionConsume

/-! The period chain of a subscription. A subscription is scheduled when its next reset is the boundary after the base
its last reset left, with the chain cut off at the end time. -/
namespace Omnigate.SubscriptionConsume

open SubscriptionPlan SubscriptionStore

variable {cal : Calendar} {plan : Plan} {endUnix now t : Int} {sub : UserSubscription}

inductive Boundary (cal : Calendar) (plan : Plan) (t : Int) : Int → Prop
  | first {b} (h : nextBoundary cal t plan = some b) : Boundary cal plan t b
  | next {b c} (earlier : Boundary cal plan t b) (h : nextBoundary cal b plan = some c) : Boundary cal plan t c

theorem boundaryFirst (h : Boundary cal plan t b) : ∃ n, nextBoundary cal t plan = some n ∧ n ≤ b := by
  induction h with
  | first h => exact ⟨_,h,le_refl _⟩
  | next _ h ih =>
    obtain ⟨n,found,le⟩ := ih
    exact ⟨n,found,le.trans (nextBoundaryLater h).le⟩

theorem calcNextIff {base next} (positive : 0 < next) : calcNextResetTime cal base plan endUnix = next ↔
      nextBoundary cal base plan = some next ∧ ¬ (0 < endUnix ∧ endUnix < next) := by
  unfold calcNextResetTime
  cases nextBoundary cal base plan with
  | none => simp [positive.ne]
  | some =>
    simp only [Option.some.injEq]
    split
    · constructor
      · intro h; omega
      · rintro ⟨rfl,open_⟩; contradiction
    rename_i open_
    constructor
    · rintro rfl; exact ⟨rfl,open_⟩
    · exact fun h => h.1

theorem advanceSpec (at_ : next = calcNextResetTime cal base plan endUnix)
    (h : advance cal plan endUnix now base next = r) :
    r.2 = calcNextResetTime cal r.1 plan endUnix ∧ base ≤ r.1 ∧
      (0 < next ∧ next ≤ now → next ≤ r.1 ∧ r.1 ≤ now ∧ ∀ t, base = t ∨ Boundary cal plan t base → Boundary cal plan t r.1) := by
  induction base, next using advance.induct cal plan endUnix now with
  | case1 base next due ih =>
    rw [advance,if_pos due] at h
    obtain ⟨scheduled,later,walk⟩ := ih rfl h
    have found := ((calcNextIff due.1).mp at_.symm).1
    have reached : ∀ t, base = t ∨ Boundary cal plan t base → Boundary cal plan t next := by
      rintro t (rfl | earlier)
      · exact .first found
      · exact .next earlier found
    refine ⟨scheduled,(nextBoundaryLater found).le.trans later,fun _ => ⟨later,?_⟩⟩
    by_cases again : 0 < calcNextResetTime cal next plan endUnix ∧ calcNextResetTime cal next plan endUnix ≤ now
    · exact ⟨(walk again).2.1,fun t chain => (walk again).2.2 t (.inr (reached t chain))⟩
    rw [advance,if_neg again] at h
    cases h
    exact ⟨due.2,reached⟩
  | case2 base next done =>
    rw [advance,if_neg done] at h
    cases h
    exact ⟨at_,le_refl _,fun due => absurd due done⟩

theorem advanceAgain (order : t₁ ≤ t₂) (h : advance cal plan endUnix t₁ base next = r) :
    advance cal plan endUnix t₂ r.1 r.2 = advance cal plan endUnix t₂ base next := by
  induction base, next using advance.induct cal plan endUnix t₁ with
  | case1 base next due ih =>
    rw [advance,if_pos due] at h
    rw [ih h,advance.eq_def cal plan endUnix t₂ base next,if_pos ⟨due.1,due.2.trans order⟩]
  | case2 base next done =>
    rw [advance,if_neg done] at h
    rw [← h]

def renew (cal : Calendar) (plan : Plan) (now : Int) (sub : UserSubscription) : UserSubscription :=
  (dueReset cal sub plan now).getD sub

theorem maybeResetRuns (cal plan now sub db) : ∃ after,
    maybeResetUserSubscriptionWithPlanTx cal sub plan now ⟨db,[]⟩ = .ok (renew cal plan now sub,⟨after,[]⟩) := by
  unfold maybeResetUserSubscriptionWithPlanTx renew
  cases dueReset cal sub plan now with
  | none => exact ⟨db,rfl⟩
  | some row => exact ⟨db.putSub row,rfl⟩

structure Scheduled (cal : Calendar) (plan : Plan) (sub : UserSubscription) : Prop where
  next : sub.nextResetTime = calcNextResetTime cal (resetBase sub) plan sub.endTime
  nonneg : 0 ≤ resetBase sub

def caughtUp (cal : Calendar) (plan : Plan) (now : Int) (sub : UserSubscription) : UserSubscription :=
  let r := advance cal plan sub.endTime now (resetBase sub) sub.nextResetTime
  {sub with amountUsed := 0, lastResetTime := r.1, nextResetTime := r.2}

theorem dueScheduled (fits : Scheduled cal plan sub) (now : Int) :
    dueReset cal sub plan now = if isDue now sub then some (caughtUp cal plan now sub) else none := by
  simp only [dueReset,caughtUp,isDue,decide_eq_true_eq,← fits.next]
  split
  · rw [if_neg (by omega)]
  split
  case isTrue never =>
    have none_ : nextBoundary cal (resetBase sub) plan = none := by simp only [nextBoundary,never]
    have zero : sub.nextResetTime = 0 := by rw [fits.next,calcNextResetTime,none_]
    rw [if_neg (by omega)]
  split
  · rfl
  · rw [if_neg (by omega)]

theorem renewDue (fits : Scheduled cal plan sub) (due : isDue now sub) :
    renew cal plan now sub = caughtUp cal plan now sub := by
  rw [renew,dueScheduled fits,if_pos due]
  rfl

theorem renewIdle (fits : Scheduled cal plan sub) (idle : ¬ isDue now sub) : renew cal plan now sub = sub := by
  rw [renew,dueScheduled fits,if_neg idle]
  rfl

theorem caughtUpBase (fits : Scheduled cal plan sub) (due : isDue now sub) :
    resetBase (caughtUp cal plan now sub) = (caughtUp cal plan now sub).lastResetTime ∧
      0 < (caughtUp cal plan now sub).lastResetTime := by
  have due : 0 < sub.nextResetTime ∧ sub.nextResetTime ≤ now := of_decide_eq_true due
  have positive : 0 < (caughtUp cal plan now sub).lastResetTime :=
    due.1.trans_le ((advanceSpec fits.next rfl).2.2 due).1
  exact ⟨if_neg (not_le.mpr positive),positive⟩

theorem renewScheduled (now : Int) (fits : Scheduled cal plan sub) : Scheduled cal plan (renew cal plan now sub) := by
  by_cases due : isDue now sub
  · obtain ⟨base,positive⟩ := caughtUpBase fits due
    rw [renewDue fits due]
    exact ⟨by rw [base]; exact (advanceSpec fits.next rfl).1,by rw [base]; exact positive.le⟩
  · rw [renewIdle fits due]
    exact fits

inductive Cycled (cal : Calendar) (plan : Plan) : UserSubscription → Prop
  | created {start} (userId : Int) (source : String) (end_ : Int) (prevGroup : String) (id : Int) (clock : 0 ≤ start) :
      Cycled cal plan (newSubscription cal userId plan source start end_ prevGroup id)
  | used {s} (amount : Int) (h : Cycled cal plan s) : Cycled cal plan {s with amountUsed := amount}
  | reset {s} (moment : Int) (h : Cycled cal plan s) : Cycled cal plan (renew cal plan moment s)

theorem cycledScheduled (h : Cycled cal plan sub) : Scheduled cal plan sub := by
  induction h with
  | @created start userId source endUnix prevGroup id clock =>
    have base : resetBase (newSubscription cal userId plan source start endUnix prevGroup id) = start := by
      simp only [resetBase,newSubscription]
      split <;> split <;> omega
    exact ⟨by rw [base]; rfl,by rw [base]; exact clock⟩
  | used _ _ ih => exact ⟨ih.next,ih.nonneg⟩
  | reset now _ ih => exact renewScheduled now ih

theorem renewTwice (fits : Scheduled cal plan sub) (order : t₁ ≤ t₂) :
    renew cal plan t₂ (renew cal plan t₁ sub) = renew cal plan t₂ sub := by
  by_cases due : isDue t₁ sub
  case neg => rw [renewIdle fits due]
  have later : isDue t₂ sub := by
    have : 0 < sub.nextResetTime ∧ sub.nextResetTime ≤ t₁ := of_decide_eq_true due
    exact decide_eq_true ⟨this.1,this.2.trans order⟩
  have between := renewScheduled t₁ fits
  rw [renewDue fits due] at between ⊢
  have composed : caughtUp cal plan t₂ (caughtUp cal plan t₁ sub) = caughtUp cal plan t₂ sub := by
    rw [caughtUp,(caughtUpBase fits due).1,caughtUp,caughtUp]
    rw [advanceAgain order rfl]
  rw [renewDue fits later,← composed]
  by_cases again : isDue t₂ (caughtUp cal plan t₁ sub)
  · exact renewDue between again
  · rw [renewIdle between again,caughtUp.eq_def cal plan t₂,advance,if_neg (fun h => again (decide_eq_true h)),
      (caughtUpBase fits due).1]
    rfl

def passed (cal : Calendar) (plan : Plan) (now : Int) (sub : UserSubscription) : Bool :=
  (nextBoundary cal (resetBase sub) plan).any (· ≤ now)

theorem dueIffPassed (fits : Scheduled cal plan sub) (before : now ≤ sub.endTime) :
    isDue now sub = passed cal plan now sub := by
  rw [Bool.eq_iff_iff,passed,Option.any_eq_true]
  simp only [isDue,decide_eq_true_eq]
  constructor
  · rintro ⟨positive,le⟩
    exact ⟨_,((calcNextIff positive).mp fits.next.symm).1,le⟩
  · rintro ⟨b,found,le⟩
    have later := nextBoundaryLater found
    have nonneg := fits.nonneg
    rw [fits.next,(@calcNextIff cal plan sub.endTime _ b (by omega)).mpr ⟨found,by omega⟩]
    omega

/- Resetting on the way changes nothing: the later run alone leaves the same row, and the usage is dropped exactly
when the first boundary of the chain is not after it. -/
theorem resetPathIndependent {t₁ t₂} (state : Cycled cal plan sub) (order : t₁ ≤ t₂) (before : t₂ ≤ sub.endTime) (db : Db) :
    ∃ once row v v₁ v₂, maybeResetUserSubscriptionWithPlanTx cal sub plan t₁ ⟨db,[]⟩ = .ok (once,v) ∧
      maybeResetUserSubscriptionWithPlanTx cal once plan t₂ v = .ok (row,v₁) ∧
      maybeResetUserSubscriptionWithPlanTx cal sub plan t₂ ⟨db,[]⟩ = .ok (row,v₂) ∧
      row.amountUsed = if passed cal plan t₂ sub then 0 else sub.amountUsed := by
  have fits := cycledScheduled state
  obtain ⟨after,first⟩ := maybeResetRuns cal plan t₁ sub db
  obtain ⟨_,second⟩ := maybeResetRuns cal plan t₂ (renew cal plan t₁ sub) after
  obtain ⟨_,direct⟩ := maybeResetRuns cal plan t₂ sub db
  rw [renewTwice fits order] at second
  refine ⟨_,_,_,_,_,first,second,direct,?_⟩
  rw [← dueIffPassed fits before]
  split
  · rename_i due
    rw [renewDue fits due]
    rfl
  · rename_i idle
    rw [renewIdle fits idle]

def daily : Plan := ⟨1,"",.day,30,0,none,0,"","",1000,"daily",0⟩

def bought : UserSubscription := {newSubscription utc 7 daily "order" 1000 2593000 "" 1 with amountUsed := 400}

theorem thirdAndSixthDay : ∃ once row v v₁ v₂,
    maybeResetUserSubscriptionWithPlanTx utc bought daily 200000 ⟨⟨[bought],[],[],2⟩,[]⟩ = .ok (once,v) ∧
    maybeResetUserSubscriptionWithPlanTx utc once daily 500000 v = .ok (row,v₁) ∧
    maybeResetUserSubscriptionWithPlanTx utc bought daily 500000 ⟨⟨[bought],[],[],2⟩,[]⟩ = .ok (row,v₂) ∧
    row.amountUsed = if passed utc daily 500000 bought then 0 else 400 :=
  resetPathIndependent (.used 400 (.created 7 "order" 2593000 "" 1 (by decide))) (by decide) (by decide) _

def Resets (cal : Calendar) (plan : Plan) (now : Int) (sub : UserSubscription) : Prop :=
  ∃ row, dueReset cal sub plan now = some row ∧ resetBase sub < row.lastResetTime

inductive Reached (cal : Calendar) (plan : Plan) (t : Int) (row : UserSubscription) : UserSubscription → Prop
  | here : Reached cal plan t row row
  | used {s} (amount : Int) (h : Reached cal plan t row s) : Reached cal plan t row {s with amountUsed := amount}
  | checked {s moment} (later : t ≤ moment) (h : Reached cal plan t row s) : Reached cal plan t row (renew cal plan moment s)

def OnChain (cal : Calendar) (plan : Plan) (t : Int) (sub : UserSubscription) : Prop :=
  Scheduled cal plan sub ∧ (resetBase sub = t ∨ Boundary cal plan t (resetBase sub))

theorem caughtUpOnChain (on : OnChain cal plan t sub) (due : isDue now sub) :
    Boundary cal plan t (caughtUp cal plan now sub).lastResetTime ∧ (caughtUp cal plan now sub).lastResetTime ≤ now := by
  obtain ⟨_,le,chain⟩ := (advanceSpec on.1.next rfl).2.2 (of_decide_eq_true due)
  exact ⟨chain t on.2,le⟩

theorem reachedOnChain (start : OnChain cal plan t row) (h : Reached cal plan t row sub) : OnChain cal plan t sub := by
  induction h with
  | here => exact start
  | used _ _ ih => exact ⟨⟨ih.1.next,ih.1.nonneg⟩,ih.2⟩
  | @checked sub now _ _ ih =>
    refine ⟨renewScheduled now ih.1,?_⟩
    by_cases due : isDue now sub
    · rw [renewDue ih.1 due,(caughtUpBase ih.1 due).1]
      exact .inr (caughtUpOnChain ih due).1
    · rw [renewIdle ih.1 due]
      exact ih.2

theorem dueEnded (ended : calcNextResetTime cal (resetBase sub) plan sub.endTime ≤ 0) :
    dueReset cal sub plan now = none := by
  unfold dueReset
  split
  · rfl
  split
  · rfl
  rw [if_neg (by omega),if_neg (by omega)]

theorem reachedEnded (ended : calcNextResetTime cal (resetBase row) plan row.endTime ≤ 0)
    (h : Reached cal plan t row sub) : calcNextResetTime cal (resetBase sub) plan sub.endTime ≤ 0 := by
  induction h with
  | here => exact ended
  | used _ _ ih => exact ih
  | checked _ _ ih =>
    rw [renew,dueEnded ih]
    exact ih

theorem resetsUnscheduled {b} (none_ : sub.nextResetTime = 0) (next : calcNextResetTime cal (resetBase sub) plan sub.endTime = b)
    (due : 0 < b ∧ b ≤ now) : Resets cal plan now sub := by
  have period : normalizeResetPeriod plan.quotaResetPeriod ≠ .never := by
    intro never
    simp only [calcNextResetTime,nextBoundary,never] at next
    omega
  unfold Resets dueReset
  rw [if_neg (by omega),if_neg period,next]
  rw [if_pos due]
  have later := calcNextResetLater (next ▸ due.1)
  exact ⟨_,rfl,(next ▸ later).trans_le ((advanceSpec next.symm rfl).2.2 due).1⟩

/- After an administrative reset at `t` the automatic ones keep to the chain from `t`, unless it has no boundary
before the end while the one from the start has. -/
theorem adminResetRestartsIff (clock : 0 < t) (sub : UserSubscription) :
    (∀ row now, Reached cal plan t (resetSubscription cal sub plan t true) row → t ≤ now → Resets cal plan now row →
        ∃ b, Boundary cal plan t b ∧ b ≤ now) ↔
      0 < calcNextResetTime cal t plan sub.endTime ∨ calcNextResetTime cal sub.startTime plan sub.endTime ≤ 0 := by
  by_cases ahead : 0 < calcNextResetTime cal t plan sub.endTime
  · have base : resetBase (resetSubscription cal sub plan t true) = t := by
      simp only [resetBase,resetSubscription,if_true,if_pos ahead]
      exact if_neg (by omega)
    have start : OnChain cal plan t (resetSubscription cal sub plan t true) :=
      ⟨⟨by rw [base]; rfl,by rw [base]; exact clock.le⟩,.inl base⟩
    refine iff_of_true (fun row now reached _ resets => ?_) (.inl ahead)
    obtain ⟨_,reset,_⟩ := resets
    have on := reachedOnChain start reached
    rw [dueScheduled on.1] at reset
    split at reset <;> cases reset
    exact ⟨_,caughtUpOnChain on ‹_›⟩
  have base : resetBase (resetSubscription cal sub plan t true) = sub.startTime := by
    simp only [resetBase,resetSubscription,if_true,if_neg ahead]
    exact if_pos (le_refl 0)
  simp only [ahead,false_or]
  constructor
  · intro all
    by_contra stale
    have none_ : (resetSubscription cal sub plan t true).nextResetTime = 0 := by
      show calcNextResetTime cal t plan sub.endTime = 0
      unfold calcNextResetTime at ahead ⊢
      split
      · rfl
      rename_i found
      have later := nextBoundaryLater found
      simp only [found] at ahead
      split_ifs at ahead ⊢ <;> omega
    have resets : Resets cal plan (max t (calcNextResetTime cal sub.startTime plan sub.endTime))
        (resetSubscription cal sub plan t true) :=
      resetsUnscheduled none_ (congrArg (calcNextResetTime cal · plan sub.endTime) base) ⟨not_le.mp stale,le_max_right _ _⟩
    obtain ⟨b,chain,le⟩ := all _ _ .here (le_max_left _ _) resets
    obtain ⟨n,found,_⟩ := boundaryFirst chain
    have later := nextBoundaryLater found
    have within := ((calcNextIff (not_le.mp stale)).mp rfl).2
    -- the first boundary of the chain from `t` lies beyond the end, the one from the start does not
    have beyond : 0 < sub.endTime ∧ sub.endTime < n := by
      by_contra open_
      exact ahead (((calcNextIff (by omega)).mpr ⟨found,open_⟩).symm ▸ (by omega))
    omega
  · rintro ended row now reached _ ⟨_,reset,_⟩
    have over_ : calcNextResetTime cal (resetBase (resetSubscription cal sub plan t true)) plan sub.endTime ≤ 0 := by
      rw [base]; exact ended
    rw [dueEnded (reachedEnded over_ reached)] at reset
    cases reset

theorem restartedOnThirdDay : 0 < calcNextResetTime utc 200000 daily bought.endTime ∧
    ∀ row now, Reached utc daily 200000 (resetSubscription utc bought daily 200000 true) row →
      200000 ≤ now → Resets utc daily now row → ∃ b, Boundary utc daily 200000 b ∧ b ≤ now := by
  have first : 0 < calcNextResetTime utc 200000 daily bought.endTime := by decide +kernel
  exact ⟨first,(adminResetRestartsIff (by decide) bought).mpr (.inl first)⟩

def hundred : Plan := {daily with quotaResetPeriod := "custom", quotaResetCustomSeconds := 100}

theorem resetFromTheStart :
    let row := resetSubscription utc (newSubscription utc 7 hundred "order" 1000 1250 "" 1) hundred 1200 true
    Resets utc hundred 1210 {row with amountUsed := 5} ∧ ¬ ∃ b, Boundary utc hundred 1200 b ∧ b ≤ 1210 := by
  refine ⟨@resetsUnscheduled _ _ _ _ 1100 (by decide +kernel) (by decide +kernel) (by decide),?_⟩
  rintro ⟨b,chain,_⟩
  obtain ⟨n,found,_⟩ := boundaryFirst chain
  have : nextBoundary utc 1200 hundred = some 1300 := by decide +kernel
  rw [this] at found
  cases found
  omega

end Omnigate.SubscriptionConsume
