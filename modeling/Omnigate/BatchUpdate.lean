import Omnigate.BalanceWriters

/-! Batch mode against direct mode. Only quota calls and flush passes run, in any number and interleaving, and no
statement fails. Nothing is lost between the tables, the live stores and the stores of the passes; at rest after a
last pass the tables are those of the same calls in direct mode. `accessed_time` is no balance column. -/
namespace Omnigate.BatchUpdate

open BalanceWriters Balances Machine List Option
open Pool hiding step State

def plain : Move Writer Choice → Bool
  | .start (.calling _) | .start (.checking _) => true
  | .start _ => false
  | .act _ c => c.fault = none

def Plain : Writer → Prop
  | .calling _ | .recording _ | .checking _ | .swapping _ _ | .flushing _ | .finished => True
  | .inviting _ | .savingInvite _ | .transferring _ _ | .updating _ _ | .editing _ | .savingToken _ _ => False

def callsOf (moves : List (Move Writer Choice)) : List Call :=
  moves.filterMap (fun move => match move with
    | .start (.calling call) => some call
    | _ => none)

def AllPlain (pool : Pool.State Ledger Writer) : Prop := ∀ p ∈ pool.procs, Plain p

theorem actPlain (fits : Plain p) (h : act cfg s p c = some (s',q)) : Plain q := by
  cases p with
  | inviting | savingInvite | transferring | updating | editing | savingToken => cases fits
  | finished => cases h
  | recording records => cases records <;> cases h <;> trivial
  | swapping left => cases left <;> cases h <;> trivial
  | checking left =>
    cases left with
    | nil => cases h; trivial
    | cons =>
      simp only [act,Option.some.injEq,Prod.mk.injEq] at h
      rw [← h.2]
      split <;> trivial
  | calling | flushing =>
    simp only [act,settle] at h
    repeat' split at h
    all_goals cases h
    all_goals trivial

theorem stepPlain (all : AllPlain pool) (fine : plain move) (h : step cfg pool move = some n) : AllPlain n := by
  cases move with
  | start p =>
    obtain ⟨_,rfl⟩ := stepStart h
    refine Table.allAdded all ?_
    cases p with
    | calling | checking => trivial
    | recording | swapping | flushing | inviting | savingInvite | transferring | updating | editing | savingToken
    | finished => cases fine
  | act =>
    obtain ⟨p,_,q,found,moved,rfl⟩ := stepAct h
    exact Table.allSet all (actPlain (all p (mem_of_getElem? found)) moved)

theorem plainQuiet (all : AllPlain pool) (fine : plain move) :
    disturbsAt column k pool move = false := by
  cases move with
  | start => rfl
  | act i c =>
    cases found : pool.procs[i]? with
    | none => simp [disturbsAt,found]
    | some p =>
      have fits := all p (mem_of_getElem? found)
      have works : c.fault = none := of_decide_eq_true fine
      cases p with
      | inviting | savingInvite | transferring | updating | editing | savingToken => cases fits
      | calling | recording | checking | swapping | finished => simp [disturbsAt,found,disturbs]
      | flushing =>
        simp only [disturbsAt,found,disturbs]
        split
        · rfl
        · simp [works]

theorem startPlain (db) : AllPlain (start db) := fun _ member => nomatch member

theorem runPlainBalanced (stored : db.stored column k = some v0)
    (fine : Along (step cfg) (fun _ move => plain move) (start db) moves)
    (h : run (step cfg) (start db) moves = some out) : Balanced column k v0 out := by
  have quiet : Along (step cfg) (fun pool move => disturbsAt column k pool move = false) (start db) moves :=
    alongWeaken (fun _ _ _ all fine moved => stepPlain all fine moved) (fun _ _ all fine => plainQuiet all fine)
      (startPlain db) fine
  exact runBalanced stored quiet h

def owed (column : Column) (k : Int) : Writer → Int
  | .calling call =>
    if call.accepted then if k = call.id then (callEntry call).delta column else 0 else 0
  | .recording records => (records.map (fun r => if k = r.id then share r.type column * r.value else 0)).sum
  | _ => 0

theorem owedRecords (column k call) :
    owed column k (.recording call.records) = if k = call.id then (callEntry call).delta column else 0 := by
  cases call with
  | updateUserUsedQuotaAndRequestCount id =>
    by_cases this : k = id <;> simp [owed,Call.records,Call.id,callEntry,this]
  | increaseUserQuota | decreaseUserQuota | increaseTokenQuota | decreaseTokenQuota | updateChannelUsedQuota =>
    simp [owed,Call.records,Call.id,callEntry]

theorem actOwed (fits : Plain p) (works : c.fault = none) (h : act cfg s p c = some (s',q)) :
    logged column k s'.done + owed column k q = logged column k s.done + owed column k p := by
  cases p with
  | inviting | savingInvite | transferring | updating | editing | savingToken => cases fits
  | finished => cases h
  | calling call =>
    simp only [act,settle,works,ne_eq,not_true_eq_false,if_false] at h
    split at h
    · rename_i refused
      cases h
      simp [owed,refused]
    rename_i accepted
    simp only [not_not] at accepted
    split at h
    · cases h
      rw [owedRecords]
      simp [owed,accepted]
    cases h
    have due : owed column k (.calling call) = if k = call.id then (callEntry call).delta column else 0 :=
      if_pos accepted
    rw [loggedAppend,due]
    exact add_zero _
  | recording records =>
    cases records with
    | nil => cases h; rfl
    | cons =>
      cases h
      rw [loggedAppend]
      simp only [owed,recordEntry,map_cons,sum_cons]
      omega
  | checking left =>
    cases left with
    | nil => cases h; rfl
    | cons =>
      obtain ⟨rfl,rfl⟩ := h
      split <;> rfl
  | swapping left => cases left <;> cases h <;> rfl
  | flushing =>
    simp only [act] at h
    split at h
    · cases h; rfl
    · split at h <;> cases h
      rfl

def asked (column : Column) (k : Int) (moves : List (Move Writer Choice)) : Int :=
  (moves.map (fun move => match move with
    | .start p => owed column k p
    | .act _ _ => 0)).sum

theorem askedCalls (fine : ∀ move ∈ moves, plain move) :
    asked column k moves = ((callsOf moves).map (fun call => owed column k (.calling call))).sum := by
  induction moves with
  | nil => rfl
  | cons move _ ih =>
    have later := ih (fun m member => fine m (mem_cons_of_mem _ member))
    have first := fine move (by simp)
    unfold asked callsOf at later ⊢
    cases move with
    | act => simpa using later
    | start p =>
      cases p with
      | calling => simpa using later
      | checking => simpa [owed] using later
      | recording | swapping | flushing | inviting | savingInvite | transferring | updating | editing | savingToken
      | finished => cases first

def askedSoFar (column : Column) (k : Int) (pool : Pool.State Ledger Writer) : Int :=
  total (fun s => logged column k s.done) (owed column k) pool

theorem stepAsked {cfg column k move pool n} (all : AllPlain pool) (fine : plain move)
    (h : step cfg pool move = some n) :
    askedSoFar column k n = askedSoFar column k pool + asked column k [move] := by
  cases move with
  | start =>
    obtain ⟨_,rfl⟩ := stepStart h
    unfold askedSoFar
    rw [totalStart]
    simp [asked,total]
  | act i c =>
    obtain ⟨p,s',q,found,moved,rfl⟩ := stepAct h
    have works : c.fault = none := of_decide_eq_true fine
    have same : logged column k s'.done + owed column k q = logged column k pool.shared.done + owed column k p :=
      actOwed (all p (mem_of_getElem? found)) works moved
    have moves := totalAct (fun s : Ledger => logged column k s.done) (owed column k) found s' q
    unfold askedSoFar
    simp only [asked,map_cons,map_nil,sum_cons,sum_nil]
    omega

theorem runAsked (fine : Along (step cfg) (fun _ move => plain move) (start db) moves)
    (h : run (step cfg) (start db) moves = some out) : askedSoFar column k out = asked column k moves := by
  have sums := runTally (fun pool move n all fine moved =>
      ⟨stepPlain all fine moved,@stepAsked cfg column k move pool n all fine moved⟩) (startPlain db) fine h
  rw [tallySum h] at sums
  have none : askedSoFar column k (start db) = 0 := rfl
  have each : (moves.map (fun move => asked column k [move])).sum = asked column k moves := by
    simp [asked]
  rw [sums,none,each,zero_add]

def adding (pool : Pool.State Ledger Writer) : Move Writer Choice → Bool
  | .start (.calling _) => true
  | .start _ => false
  | .act i _ => match pool.procs[i]? with
    | some (.calling _) | some (.recording _) => true
    | _ => false

def Clears (live : Stores) : Writer → Prop
  | .checking left | .swapping left _ => ∀ type ∉ left, live type = []
  | .flushing _ | .finished => ∀ type, live type = []
  | _ => False

def Cleared (i : Nat) (pool : Pool.State Ledger Writer) : Prop :=
  ∃ p, pool.procs[i]? = some p ∧ Clears pool.shared.live p

theorem clearsShrink (shrinks : ∀ type, live type = [] → live' type = [])
    (clears : Clears live p) : Clears live' p := by
  cases p with
  | calling | recording | inviting | savingInvite | transferring | updating | editing | savingToken => cases clears
  | checking | swapping => exact fun type outside => shrinks type (clears type outside)
  | flushing | finished => exact fun type => shrinks type (clears type)

def addsNothing : Writer → Bool
  | .calling _ | .recording _ => false
  | _ => true

theorem actShrinks (quiet : addsNothing p) (h : act cfg s p c = some (s',q))
    (empty : s.live type = []) : s'.live type = [] := by
  cases p with
  | calling | recording => cases quiet
  | finished => cases h
  | checking left => cases left <;> cases h <;> exact empty
  | swapping left =>
    cases left with
    | nil => cases h; exact empty
    | cons swapped =>
      cases h
      by_cases same : type = swapped
      · simp [same]
      · simp [same,empty]
  | flushing | inviting | savingInvite | transferring | updating | editing | savingToken =>
    simp only [act,settle] at h
    repeat' split at h
    all_goals cases h
    all_goals exact empty

theorem clearsActs (clears : Clears s.live p) (h : act cfg s p c = some (s',q)) :
    Clears s'.live q := by
  cases p with
  | calling | recording | inviting | savingInvite | transferring | updating | editing | savingToken => cases clears
  | finished => cases h
  | checking left =>
    cases left with
    | nil =>
      cases h
      exact fun type => clears type (by simp)
    | cons type =>
      obtain ⟨rfl,rfl⟩ := h
      by_cases filled : s.live type ≠ []
      · rw [if_pos filled]
        intro other outside
        exact absurd (show other ∈ batchUpdateTypes by cases other <;> decide) outside
      rw [if_neg filled]
      intro other outside
      by_cases same : other = type
      · rw [same]
        exact not_not.mp filled
      · exact clears other (by simp [same,outside])
  | swapping left =>
    cases left with
    | nil =>
      cases h
      exact fun type => clears type (by simp)
    | cons type =>
      cases h
      intro other outside
      by_cases same : other = type
      · simp [same]
      · simpa [same] using clears other (by simp [same,outside])
  | flushing =>
    have keeps := fun type => actShrinks rfl h (clears type)
    simp only [act] at h
    split at h
    · cases h; exact keeps
    · split at h <;> cases h
      exact keeps

theorem stepCleared (cleared : Cleared i pool)
    (quiet : adding pool move = false) (h : step cfg pool move = some n) : Cleared i n := by
  obtain ⟨r,there,clears⟩ := cleared
  have bound : i < pool.procs.length := (List.getElem?_eq_some_iff.mp there).1
  cases move with
  | start =>
    obtain ⟨_,rfl⟩ := stepStart h
    exact ⟨r,by rw [List.getElem?_append_left bound]; exact there,clears⟩
  | act j =>
    obtain ⟨p,_,q,found,moved,rfl⟩ := stepAct h
    by_cases this : j = i
    · subst this
      cases some.inj (there.symm.trans found)
      exact ⟨q,by simp [bound],clearsActs clears moved⟩
    have idle : addsNothing p := by
      cases p with
      | calling | recording => simp [adding,found] at quiet
      | checking | swapping | flushing | inviting | savingInvite | transferring | updating | editing | savingToken
      | finished => rfl
    refine ⟨r,by rw [List.getElem?_set_ne this]; exact there,?_⟩
    exact clearsShrink (fun _ empty => actShrinks idle moved empty) clears

theorem settledColumn (stored : db.stored column k = some v0) (fine : ∀ move ∈ moves, plain move)
    (h : run (step cfg) (start db) moves = some out) (rest : atRest out) (empty : ∀ type, out.shared.live type = []) :
    out.shared.db.stored column k =
      some (v0 + ((callsOf moves).map (fun call => owed column k (.calling call))).sum) := by
  have along := @alongAll _ _ (step cfg) _ _ fine (start db)
  have sound := runPlainBalanced stored along h
  have asks : askedSoFar column k out = asked column k moves := runAsked along h
  unfold askedSoFar at asks
  rw [restTotal rest rfl,askedCalls fine] at asks
  rw [balancedRest sound rest empty,← asks]

def AllDirect (pool : Pool.State Ledger Writer) : Prop :=
  (∀ type, pool.shared.live type = []) ∧ ∀ p ∈ pool.procs, ∀ records, p ≠ .recording records

theorem actDirect (direct : cfg.batchUpdateEnabled = false)
    (fits : ∀ records, p ≠ .recording records) (empty : ∀ type, s.live type = []) (h : act cfg s p c = some (s',q)) :
    (∀ type, s'.live type = []) ∧ ∀ records, q ≠ .recording records := by
  cases p with
  | finished => cases h
  | recording records => exact absurd rfl (fits records)
  | calling call =>
    have off : call.batched cfg = false := by cases call <;> simp [Call.batched,direct]
    simp only [act,settle,off,Bool.false_eq_true,if_false] at h
    split at h
    · cases h
      exact ⟨empty,by simp⟩
    · split at h <;> cases h <;> exact ⟨empty,by simp⟩
  | checking left =>
    refine ⟨fun type => actShrinks rfl h (empty type),?_⟩
    cases left with
    | nil => cases h; simp
    | cons =>
      simp only [act,Option.some.injEq,Prod.mk.injEq] at h
      rw [← h.2]
      split <;> simp
  | swapping left =>
    refine ⟨fun type => actShrinks rfl h (empty type),?_⟩
    cases left <;> cases h <;> simp
  | flushing | inviting | savingInvite | transferring | updating | editing | savingToken =>
    refine ⟨fun type => actShrinks rfl h (empty type),?_⟩
    simp only [act,settle] at h
    repeat' split at h
    all_goals cases h
    all_goals simp

theorem runDirect (direct : cfg.batchUpdateEnabled = false)
    (h : run (step cfg) (start db) moves = some out) : AllDirect out := by
  have keep : ∀ pool move n, AllDirect pool → step cfg pool move = some n → AllDirect n := by
    intro pool move n all moved
    have fresh : ∀ p, begins p → ∀ records, p ≠ .recording records := by
      rintro p begun records rfl
      cases begun
    exact stepSeparate fresh
      (fun s p c _ q empty fits moved => actDirect direct fits empty moved) all.1 all.2 moved
  have begun : AllDirect (start db) := by
    refine ⟨fun _ => rfl,fun _ member => ?_⟩
    cases member
  exact runAlways keep begun h

theorem passBegins
    (h : step cfg pool (.start (.checking batchUpdateTypes)) = some mid) : Cleared pool.procs.length mid := by
  obtain ⟨_,rfl⟩ := stepStart h
  refine ⟨.checking batchUpdateTypes,by simp,fun type outside => ?_⟩
  exact absurd (show type ∈ batchUpdateTypes by cases type <;> decide) outside

theorem passEmpties (begun : step cfg pool (.start (.checking batchUpdateTypes)) = some mid)
    (alone : Along (step cfg) (fun pool move => adding pool move = false) mid later)
    (h : run (step cfg) mid later = some out) (rest : atRest out) : ∀ type, out.shared.live type = [] := by
  have cleared : Cleared pool.procs.length out :=
    runInvariant (fun _ _ _ cleared quiet moved => stepCleared cleared quiet moved) (passBegins begun) alone h
  obtain ⟨p,there,clears⟩ := cleared
  rw [rest p (mem_of_getElem? there)] at clears
  exact clears

theorem batchRefinesDirect {cfg : Config} {db : Books} {column k v0} (stored : db.stored column k = some v0) :
    (∀ moves out, (∀ move ∈ moves, plain move) → run (step cfg) (start db) moves = some out →
      ∃ v, out.shared.db.stored column k = some v ∧
        v + waiting column k out.shared.live + (out.procs.map (fun p => waiting column k (holds p))).sum =
          v0 + logged column k out.shared.done) ∧
    ∀ earlier later moves pool mid out out', run (step cfg) (start db) earlier = some pool →
      step cfg pool (.start (.checking batchUpdateTypes)) = some mid →
      run (step cfg) mid later = some out →
      (∀ move ∈ earlier ++ .start (.checking batchUpdateTypes)::later, plain move) →
      Along (step cfg) (fun pool move => adding pool move = false) mid later →
      atRest out →
      run (step {cfg with batchUpdateEnabled := false}) (start db) moves = some out' →
      (∀ move ∈ moves, plain move) →
      (callsOf moves).Perm (callsOf (earlier ++ .start (.checking batchUpdateTypes)::later)) →
      atRest out' →
      out.shared.db.stored column k = out'.shared.db.stored column k := by
  constructor
  · intro moves out fine h
    exact balancedSum (runPlainBalanced stored (@alongAll _ _ (step cfg) _ _ fine (start db)) h)
  intro earlier later moves pool mid out out' before begun after fine alone rest direct fine' same rest'
  have whole : run (step cfg) (start db) (earlier ++ .start (.checking batchUpdateTypes)::later) = some out :=
    runJoin before (by simp [run,begun,after])
  have batch := settledColumn stored fine whole rest (passEmpties begun alone after rest)
  have plainly := settledColumn stored fine' direct rest' (runDirect rfl direct).1
  rw [batch,plainly]
  congr 2
  exact ((same.map _).sum_eq).symm

def someUser (id quota affQuota : Int) : User :=
  ⟨id,quota,0,0,0,affQuota,affQuota,0,"amy","hash","Amy","","default","",1,1,1⟩

def batchMode : Config := ⟨true,100,500000,fun _ => "",fun password => .ok password⟩

def directMode : Config := {batchMode with batchUpdateEnabled := false}

def oneUser : Books := ⟨[someUser 7 100 0],[],[]⟩

def working : Choice := ⟨0,7,none⟩

def busyStart : List (Move Writer Choice) :=
  [.start (.calling (.decreaseUserQuota 7 30 false)),.act 0 working,.act 0 working,
    .start (.checking batchUpdateTypes),.act 1 working,.act 1 working,.act 1 working,
    .start (.calling (.updateUserUsedQuotaAndRequestCount 7 30)),.act 2 working,.act 2 working,
    .act 1 working,.act 1 working,.act 1 working,.act 1 working,.act 2 working,.act 2 working,
    .act 0 working,.act 1 working,.act 1 working]

def lastPass : List (Move Writer Choice) := List.replicate 13 (.act 3 working)

def directCalls : List (Move Writer Choice) :=
  [.start (.calling (.updateUserUsedQuotaAndRequestCount 7 30)),.act 0 working,
    .start (.calling (.decreaseUserQuota 7 30 false)),.act 1 working]

def isFinished : Writer → Bool
  | .finished => true
  | _ => false

theorem restChecked (all : pool.procs.all isFinished) : atRest pool := by
  intro p member
  have finished := all_eq_true.mp all p member
  cases p with
  | finished => rfl
  | calling | recording | checking | swapping | flushing | inviting | savingInvite | transferring | updating
  | editing | savingToken => cases finished

theorem batchRefinesDirectInBusyRun :
    ∃ pool mid out out', run (step batchMode) (start oneUser) busyStart = some pool ∧
      step batchMode pool (.start (.checking batchUpdateTypes)) = some mid ∧
      run (step batchMode) mid lastPass = some out ∧
      run (step {batchMode with batchUpdateEnabled := false}) (start oneUser) directCalls = some out' ∧
      out.shared.db.stored (.user .requestCount) 7 = out'.shared.db.stored (.user .requestCount) 7 ∧
      pool.shared.db.stored (.user .requestCount) 7 ≠ out'.shared.db.stored (.user .requestCount) 7 := by
  have runs : ((run (step batchMode) (start oneUser) busyStart).bind (fun pool =>
      (step batchMode pool (.start (.checking batchUpdateTypes))).bind (fun mid =>
        (run (step batchMode) mid lastPass).map (fun out =>
          (pool.shared.db.stored (.user .requestCount) 7,out.procs.all isFinished,
            checkAlong (step batchMode) (fun pool move => !adding pool move) mid lastPass))))) =
      some (some 0,true,true) := by decide +kernel
  have direct : (run (step {batchMode with batchUpdateEnabled := false}) (start oneUser) directCalls).map
      (fun out => (out.procs.all isFinished,out.shared.db.stored (.user .requestCount) 7)) = some (true,some 1) := by
    decide +kernel
  obtain ⟨pool,before,runs⟩ := bind_eq_some_iff.mp runs
  obtain ⟨mid,begun,runs⟩ := bind_eq_some_iff.mp runs
  obtain ⟨out,after,facts⟩ := map_eq_some_iff.mp runs
  obtain ⟨out',plainly,facts'⟩ := map_eq_some_iff.mp direct
  simp only [Prod.mk.injEq] at facts facts'
  obtain ⟨early,rest,alone⟩ := facts
  have quiet : Along (step batchMode) (fun pool move => adding pool move = false) mid lastPass := by
    simpa using alongChecked alone
  have stored : oneUser.stored (.user .requestCount) 7 = some 0 := by decide +kernel
  have same := (batchRefinesDirect stored).2 busyStart lastPass directCalls pool mid out out' before begun after
    (by decide) quiet (restChecked rest) plainly (by decide) (by decide) (restChecked facts'.1)
  refine ⟨pool,mid,out,out',before,begun,after,plainly,same,?_⟩
  rw [early,facts'.2]
  decide

end Omnigate.BatchUpdate
