import Mathlib.Data.List.Count
import Omnigate.Machine
import Omnigate.Table

/-! The rate limits: a token bucket kept by a script in Redis, and queues of request times kept in memory. -/
namespace Omnigate.RateLimit

open List Machine

structure Bucket where
  stored : Option (Int × Int) := none
  accepted : List Int := []
  deriving DecidableEq, Repr

def refilled (rate capacity now : Int) : Option (Int × Int) → Int
  | none => capacity
  | some (tokens,lastTime) => min capacity (tokens + (now - lastTime) * rate)

def allow (requested rate capacity : Int) (b : Bucket) (now : Int) : Bucket :=
  let tokens := refilled rate capacity now b.stored
  if requested ≤ tokens then ⟨some (tokens - requested,now),b.accepted ++ [now]⟩ else ⟨some (tokens,now),b.accepted⟩

def allowTotal (n d : Nat) : Bucket → Int → Bucket := allow d n (n * d)

/- `credit` bounds what was taken since a second from above, `filled` from below. -/
structure Level (n d : Nat) (b : Bucket) (tokens now : Int) : Prop where
  bounds : 0 ≤ tokens ∧ tokens ≤ n * d
  past : ∀ a ∈ b.accepted, a ≤ now
  credit : ∀ s ≤ now, (d * b.accepted.countP (s ≤ ·) : Int) + tokens ≤ n * d + n * (now - s)
  filled : ∀ s ≤ now, min (n * d : Int) (n * (now - s)) ≤ tokens + d * b.accepted.countP (s < ·)
  spread : ∀ s t : Int, 0 ≤ t → (d * b.accepted.countP (fun a => s ≤ a ∧ a ≤ s + t) : Int) ≤ n * d + n * t

theorem levelTaken {b : Bucket} (level : Level n d b tokens now) (enough : (d : Int) ≤ tokens) :
    Level n d ⟨stored,b.accepted ++ [now]⟩ (tokens - d) now := by
  obtain ⟨bounds,past,credit,filled,spread⟩ := level
  refine ⟨⟨by omega,by omega⟩,?_,?_,?_,?_⟩
  · exact Table.allAdded past le_rfl
  · intro s low
    have before := credit s low
    simp only [countP_append,countP_singleton,low,decide_true,if_true]
    push_cast
    linarith
  · intro s low
    have before := filled s low
    simp only [countP_append,countP_singleton,decide_eq_true_eq]
    split
    · push_cast
      linarith
    · obtain rfl : s = now := by omega
      simp only [sub_self,mul_zero]
      exact (min_le_right _ _).trans (by positivity)
  · intro s t nonneg
    have before := spread s t nonneg
    simp only [countP_append,countP_singleton,decide_eq_true_eq]
    split
    · rename_i inside
      have since := credit s inside.1
      have fewer : b.accepted.countP (fun a => s ≤ a ∧ a ≤ s + t) ≤ b.accepted.countP (s ≤ ·) :=
        countP_mono_left (by simp +contextual)
      have less : (n : Int) * (now - s) ≤ n * t := mul_le_mul_of_nonneg_left (by omega) (by omega)
      have few : (d * b.accepted.countP (fun a => s ≤ a ∧ a ≤ s + t) : Int) ≤ d * b.accepted.countP (s ≤ ·) :=
        mul_le_mul_of_nonneg_left (by exact_mod_cast fewer) (by omega)
      push_cast
      linarith
    · exact before

theorem levelLater {b : Bucket} (level : Level n d b tokens last) (later : last ≤ now) :
    Level n d b (min (n * d) (tokens + (now - last) * n)) now := by
  obtain ⟨bounds,past,credit,filled,spread⟩ := level
  have grown : 0 ≤ (now - last) * (n : Int) := mul_nonneg (by omega) (by omega)
  have none_ : ∀ s, last < s → b.accepted.countP (s ≤ ·) = 0 ∧ b.accepted.countP (s < ·) = 0 := by
    intro s after
    constructor <;> exact countP_eq_zero.mpr fun a member => by have := past a member; simp; omega
  refine ⟨⟨le_min (by positivity) (by linarith [bounds.1]),min_le_left _ _⟩,fun a member => (past a member).trans later,?_,?_,spread⟩
  · intro s low
    by_cases early : s ≤ last
    · have before := credit s early
      have := min_le_right (n * d : Int) (tokens + (now - last) * n)
      linarith
    · rw [(none_ s (by omega)).1]
      have := min_le_left (n * d : Int) (tokens + (now - last) * n)
      have more : 0 ≤ (n : Int) * (now - s) := mul_nonneg (by omega) (by omega)
      push_cast
      linarith
  · intro s low
    by_cases early : s ≤ last
    · have before := filled s early
      have taken : 0 ≤ (d * b.accepted.countP (s < ·) : Int) := by positivity
      rcases min_choice (n * d : Int) (tokens + (now - last) * n) with same | same <;> rw [same]
      · exact (min_le_left _ _).trans (by linarith)
      rcases min_choice (n * d : Int) (n * (last - s)) with was | was <;> rw [was] at before
      · exact (min_le_left _ _).trans (by linarith)
      · exact (min_le_right _ _).trans (by linarith)
    · rw [(none_ s (by omega)).2]
      have less : (n : Int) * (now - s) ≤ (now - last) * n := by
        rw [mul_comm]
        exact mul_le_mul_of_nonneg_right (by omega) (by omega)
      push_cast
      simp only [mul_zero,add_zero]
      exact min_le_min_left _ (by linarith [bounds.1])

theorem levelStart (n d : Nat) (now : Int) : Level n d {} (n * d) now := by
  refine ⟨⟨by positivity,le_rfl⟩,by simp,fun s low => ?_,fun s low => by simp,fun s t nonneg => ?_⟩
  · have : 0 ≤ (n : Int) * (now - s) := mul_nonneg (by omega) (by omega)
    simp
    linarith
  · simp
    positivity

theorem calledLevel (level : Level n d b (refilled n (n * d) now b.stored) now) :
    ∃ tokens, (allowTotal n d b now).stored = some (tokens,now) ∧ Level n d (allowTotal n d b now) tokens now := by
  unfold allowTotal allow
  dsimp only
  split
  · rename_i enough
    exact ⟨_,rfl,levelTaken level enough⟩
  · exact ⟨_,rfl,{level with}⟩

theorem runLevel (n d : Nat) {times : List Int} (ordered : times.Pairwise (· ≤ ·)) (runs : times.foldl (allowTotal n d) {} = b) :
    (∀ tokens last, b.stored = some (tokens,last) → 0 ≤ tokens ∧ tokens ≤ n * d) ∧
      ∀ s, (∀ t ∈ times, t ≤ s) → Level n d b (refilled n (n * d) s b.stored) s := by
  induction times using reverseRecOn generalizing b with
  | nil => cases runs; exact ⟨fun _ _ wrong => (by cases wrong),fun s _ => levelStart n d s⟩
  | append_singleton times t ih =>
    rw [foldl_append] at runs
    obtain ⟨ordered,_,before⟩ := pairwise_append.mp ordered
    obtain ⟨tokens,stored,level⟩ := calledLevel ((ih ordered rfl).2 t (fun x member => before x member t (mem_singleton_self t)))
    obtain rfl : allowTotal n d (times.foldl (allowTotal n d) {}) t = b := runs
    constructor
    · intro tokens' last same
      cases stored.symm.trans same
      exact level.bounds
    · intro s after
      rw [stored]
      exact levelLater level (after t (by simp))

theorem tokenBucketBounds {n d : Nat} {times : List Int} {b} (window : 1 ≤ d) (ordered : times.Pairwise (· ≤ ·))
    (runs : times.foldl (allowTotal n d) {} = b) :
    (∀ tokens last, b.stored = some (tokens,last) → 0 ≤ tokens ∧ tokens ≤ n * d) ∧
      (∀ s t : Int, 0 ≤ t → (b.accepted.countP (fun a => s ≤ a ∧ a ≤ s + t) : Int) ≤ n + n * t / d) ∧
      ∀ s, (∀ t ∈ times, t ≤ s) → b.accepted.countP (fun a => s - d < a ∧ a ≤ s) < n →
        (allowTotal n d b s).accepted = b.accepted ++ [s] := by
  obtain ⟨bounds,levels⟩ := runLevel n d ordered runs
  refine ⟨bounds,fun s t nonneg => ?_,fun s after fewer => ?_⟩
  · obtain ⟨last,after⟩ := times.toFinset.exists_le
    have spread := (levels last (by simpa using after)).spread s t nonneg
    have share := (Int.le_ediv_iff_mul_le (by omega : (0 : Int) < d)).mpr
      (by linarith : (b.accepted.countP (fun a => s ≤ a ∧ a ≤ s + t) - n : Int) * d ≤ n * t)
    omega
  · have level := levels s after
    have low := level.filled (s - d) (by omega)
    have same : b.accepted.countP (s - d < ·) = b.accepted.countP (fun a => s - d < a ∧ a ≤ s) :=
      countP_congr fun a member => by simp [level.past a member]
    rw [same,sub_sub_cancel,min_self] at low
    have most : (d * b.accepted.countP (fun a => s - d < a ∧ a ≤ s) : Int) ≤ d * (n - 1) :=
      mul_le_mul_of_nonneg_left (by omega) (by omega)
    have enough : (d : Int) ≤ refilled n (n * d) s b.stored := by linarith
    rw [allowTotal,allow]
    simp only [enough,if_true]

theorem twoInTenSeconds : (allowTotal 2 10 ([0,0,4,9].foldl (allowTotal 2 10) {}) 10).accepted = [0,0,9,10] := by
  have third := (tokenBucketBounds (by decide) (by decide) (rfl : [0,0,4,9].foldl (allowTotal 2 10) {} = _)).2.2
  exact third 10 (by decide) (by decide)

/- `Request` on the queue of one key, oldest time first. -/
def request (now : Int) (maxRequestNum : Nat) (duration : Int) : Option (List Int) → Bool × List Int
  | none => (true,[now])
  | some queue =>
    if queue.length < maxRequestNum then (true,queue ++ [now])
    else match queue with
      | [] => (false,[])
      | oldest::rest => if duration ≤ now - oldest then (true,rest ++ [now]) else (false,queue)

def alive (now duration : Int) (queue : List Int) : Bool := queue.getLast?.any (fun last => now - last ≤ duration)

/- The shared limiter. `expirationDuration` is what the first `Init` was given; its cleaner sleeps until `wake`. -/
structure Limiter where
  now : Int
  expirationDuration : Option Int := none
  wake : Int := 0
  store : String → Option (List Int) := fun _ => none
  accepted : String → List Int := fun _ => []

inductive Event where
  | tick (seconds : Nat)
  | init (expirationDuration : Int)
  | clearExpiredItems
  | request (key : String) (maxRequestNum : Nat) (duration : Int)
  deriving DecidableEq, Repr

def step (l : Limiter) : Event → Option Limiter
  | .tick seconds => some {l with now := l.now + seconds}
  | .init duration =>
    some (if l.expirationDuration = none then {l with expirationDuration := some duration, wake := l.now + duration} else l)
  | .clearExpiredItems => l.expirationDuration.bind fun duration =>
    if 0 < duration ∧ l.wake ≤ l.now then
      some {l with store := fun key => (l.store key).filter (alive l.now duration), wake := l.now + duration}
    else none
  | .request key maxRequestNum duration =>
    -- without a first call of Init there is no map to write to
    if l.expirationDuration = none then none
    else
      let (allowed,queue) := request l.now maxRequestNum duration (l.store key)
      some {l with
        store := Function.update l.store key (some queue)
        accepted := if allowed then Function.update l.accepted key (l.accepted key ++ [l.now]) else l.accepted }

def asksFor (key : String) (m : Nat) (d : Int) : Event → Prop
  | .request key' m' d' => key' = key → m' = m ∧ d' = d
  | _ => True

/- The first duration either starts no cleaner or lets a queue live as long as the window. -/
def outlasts (d : Int) (l : Limiter) : Event → Prop
  | .init duration => l.expirationDuration = none → duration ≤ 0 ∨ d ≤ duration + 1
  | _ => True

/- What is accepted and no longer in the queue has left every window that reaches the present. -/
structure Counted (key : String) (m : Nat) (d : Int) (l : Limiter) : Prop where
  lasts : ∀ duration, l.expirationDuration = some duration → duration ≤ 0 ∨ d ≤ duration + 1
  sorted : (l.accepted key).Pairwise (· ≤ ·)
  past : ∀ a ∈ l.accepted key, a ≤ l.now
  queued : ∃ old, l.accepted key = old ++ (l.store key).getD [] ∧ ∀ a ∈ old, a + d ≤ l.now
  short : ((l.store key).getD []).length ≤ m
  windows : ∀ t, (l.accepted key).countP (fun a => t ≤ a ∧ a < t + d) ≤ m

theorem requestCases (some_ : 1 ≤ m) (short : (stored.getD []).length ≤ m) (h : request now m d stored = (allowed,queue)) :
    (allowed = false ∧ stored = some queue) ∨ (allowed = true ∧ ∃ dropped rest, stored.getD [] = dropped ++ rest ∧
      queue = rest ++ [now] ∧ rest.length < m ∧ ∀ a ∈ dropped, a + d ≤ now) := by
  unfold request at h
  split at h
  · cases h
    exact .inr ⟨rfl,[],[],rfl,rfl,some_,by simp⟩
  split at h
  · rename_i room
    cases h
    exact .inr ⟨rfl,[],_,rfl,rfl,room,by simp⟩
  split at h
  · cases h
    exact .inl ⟨rfl,rfl⟩
  split at h <;> cases h
  · rename_i oldest rest _ passed
    exact .inr ⟨rfl,[oldest],rest,rfl,rfl,short,by simpa using by omega⟩
  · exact .inl ⟨rfl,rfl⟩

theorem acceptedCounted (counted : Counted key m d l) (parts : (l.store key).getD [] = dropped ++ rest)
    (room : rest.length < m) (left : ∀ a ∈ dropped, a + d ≤ l.now) :
    Counted key m d {l with
      store := Function.update l.store key (some (rest ++ [l.now]))
      accepted := Function.update l.accepted key (l.accepted key ++ [l.now]) } := by
  obtain ⟨lasts,sorted,past,⟨old,whole,gone⟩,_,windows⟩ := counted
  rw [parts] at whole
  have gone' : ∀ a ∈ old ++ dropped, a + d ≤ l.now := fun a member => (mem_append.mp member).elim (gone a) (left a)
  have whole' : l.accepted key ++ [l.now] = (old ++ dropped) ++ (rest ++ [l.now]) := by simp [whole]
  refine ⟨lasts,?_,?_,⟨old ++ dropped,?_,gone'⟩,?_,fun t => ?_⟩ <;> simp only [Function.update_self,Option.getD_some]
  · exact pairwise_append.mpr ⟨sorted,pairwise_singleton _ _,by simpa using past⟩
  · simpa [or_imp,forall_and] using past
  · exact whole'
  · simpa using room
  by_cases inside : l.now < t + d
  · have none_ : (old ++ dropped).countP (fun a => t ≤ a ∧ a < t + d) = 0 :=
      countP_eq_zero.mpr fun a member => by have := gone' a member; simp; omega
    rw [whole',countP_append,none_,Nat.zero_add]
    refine countP_le_length.trans ?_
    simpa using room
  · rw [countP_append,countP_singleton,if_neg (by simp [inside])]
    exact windows t

theorem clearedQueue {stored : Option (List Int)} {now duration} (sorted : (stored.getD []).Pairwise (· ≤ ·)) :
    (stored.filter (alive now duration)).getD [] = stored.getD [] ∨
      (stored.filter (alive now duration)).getD [] = [] ∧ ∀ a ∈ stored.getD [], duration < now - a := by
  cases stored with
  | none => exact .inl rfl
  | some queue =>
    cases kept : alive now duration queue with
    | true => exact .inl (by simp [Option.filter,kept])
    | false =>
      refine .inr ⟨by simp [Option.filter,kept],fun a member => ?_⟩
      rw [Option.getD_some] at sorted member
      have last := sorted.rel_getLast member
      rw [alive,getLast?_eq_some_getLast (ne_nil_of_mem member)] at kept
      simp only [Option.any_some,decide_eq_false_iff_not,not_le] at kept
      omega

theorem stepCounted (some_ : 1 ≤ m) (counted : Counted key m d l) (asks : asksFor key m d event) (lasts : outlasts d l event)
    (h : step l event = some n) : Counted key m d n := by
  cases event with
  | tick seconds =>
    cases h
    obtain ⟨lasts,sorted,past,⟨old,whole,gone⟩,short,windows⟩ := counted
    have later : l.now ≤ l.now + seconds := by omega
    exact ⟨lasts,sorted,fun a member => (past a member).trans later,
      ⟨old,whole,fun a member => (gone a member).trans later⟩,short,windows⟩
  | init duration =>
    cases h
    split
    · rename_i first
      refine {counted with lasts := fun _ same => ?_}
      cases same
      exact lasts first
    · exact counted
  | clearExpiredItems =>
    obtain ⟨duration,isDuration,h⟩ := Option.bind_eq_some_iff.mp h
    split at h <;> cases h
    rename_i due
    obtain ⟨lasts,sorted,past,⟨old,whole,gone⟩,short,windows⟩ := counted
    have inOrder : (old ++ (l.store key).getD []).Pairwise (· ≤ ·) := whole ▸ sorted
    rcases @clearedQueue _ l.now duration (pairwise_append.mp inOrder).2.1 with same | ⟨none_,passed⟩
    · exact ⟨lasts,sorted,past,⟨old,by rw [same]; exact whole,gone⟩,by rw [same]; exact short,windows⟩
    · refine ⟨lasts,sorted,past,⟨l.accepted key,by rw [none_,append_nil],fun a member => ?_⟩,by simp [none_],windows⟩
      rcases mem_append.mp (whole ▸ member) with before | queued
      · exact gone a before
      · have := passed a queued
        have := lasts duration isDuration
        dsimp only
        omega
  | request key' m' d' =>
    simp only [step] at h
    split at h
    · cases h
    cases h
    rcases asked : request l.now m' d' (l.store key') with ⟨allowed,queue⟩
    by_cases mine : key' = key
    · subst mine
      obtain ⟨rfl,rfl⟩ := asks rfl
      rcases requestCases some_ counted.short asked with ⟨rfl,same⟩ | ⟨rfl,dropped,rest,parts,rfl,room,left⟩
      · rw [← same,Function.update_eq_self]
        exact counted
      · exact acceptedCounted counted parts room left
    · have elsewhere : ∀ {α : Type} (f : String → α) v, Function.update f key' v key = f key :=
        fun f v => Function.update_of_ne (Ne.symm mine) v f
      obtain ⟨lasts,sorted,past,queued,short,windows⟩ := counted
      cases allowed <;> constructor <;> simp only [Bool.false_eq_true,if_true,if_false,elsewhere] <;> assumption

theorem windowsKept {key : String} {m : Nat} {d start : Int} (some_ : 1 ≤ m)
    (asks : ∀ event ∈ events, asksFor key m d event) (lasts : Along step (outlasts d) {now := start} events)
    (h : run step {now := start} events = some out) (t : Int) :
    (out.accepted key).countP (fun a => t ≤ a ∧ a < t + d) ≤ m := by
  have first : Counted key m d {now := start} := ⟨by simp,by simp,by simp,⟨[],rfl,by simp⟩,by simp,by simp⟩
  exact (runInvariant (fun l event n counted ok moved => stepCounted some_ counted ok.1 ok.2 moved) first
    (alongBoth (alongAll asks _) lasts) h).windows t

def twoRequests : List Event := [.init 60,.request "u" 1 60,.tick 59,.request "u" 1 60,.tick 1,.request "u" 1 60]

theorem oneEachMinute : ∃ out, run step {now := 0} twoRequests = some out ∧ out.accepted "u" = [0,60] ∧
    (out.accepted "u").countP (fun a => 0 ≤ a ∧ a < 0 + 60) ≤ 1 := by
  obtain ⟨out,ran,times⟩ : ∃ out, run step {now := 0} twoRequests = some out ∧ out.accepted "u" = [0,60] := by decide
  exact ⟨out,ran,times,windowsKept le_rfl (by simp [twoRequests,asksFor]) (by simp [twoRequests,Along,step,outlasts]) ran 0⟩

theorem cleanedTooEarly : ∃ out, run step {now := 0} [.init 1200,.tick 1199,.request "MRRL1" 1 3600,.tick 1,.clearExpiredItems,
      .tick 1200,.clearExpiredItems,.request "MRRL1" 1 3600] = some out ∧ out.accepted "MRRL1" = [1199,2400] ∧
    (out.accepted "MRRL1").countP (fun a => 1199 ≤ a ∧ a < 1199 + 3600) = 2 := by
  decide +kernel

end Omnigate.RateLimit
