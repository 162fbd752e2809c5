import Omnigate.MidjourneyConservation

/-! Refunds of Midjourney tasks over whole runs: under what conditions on the answers of the upstream they are
sound, and runs in which they are not. -/
namespace Omnigate.MidjourneyRefund

open Machine MidjourneyTask Pool Table List Option

def owing (p : Proc) : Prop := ∀ t, owed p = some t → t.amount ≤ 0

structure OneWay (w : World) : Prop where
  transfers : ∀ t ∈ w.shared.transfers, t.amount ≤ 0
  procs : ∀ p ∈ w.procs, owing p

theorem owesNothing (none : owed p = none) : owing p := by
  intro t isOwed
  rw [none] at isOwed
  cases isOwed

theorem owingAfter (nonneg : 0 ≤ quota) : owing (chargeAfter job chargesIt task quota) := by
  unfold chargeAfter
  split
  · intro t isOwed
    cases isOwed
    exact neg_nonpos.mpr nonneg
  · exact owesNothing rfl

theorem actOwing {choice} (owes : owing p) (found : w.procs[i]? = some p)
    (good : unreturned w (.act i choice)) (h : act cfg w.shared p choice = some (s,q)) : owing q := by
  unfold unreturned at good
  dsimp only at good
  rw [found] at good
  unfold act at h
  split at h
  · split at h
    · cases h; exact owesNothing rfl
    · split at h <;> cases h <;> exact owesNothing rfl
  · cases h; exact owesNothing rfl
  · obtain ⟨_,isNext⟩ := Prod.ext_iff.mp (some.inj h)
    rw [← show _ = q from isNext]
    have nonneg := of_decide_eq_true good
    unfold respond
    split
    · exact owingAfter nonneg
    · split <;> exact owingAfter nonneg
  · obtain ⟨_,isNext⟩ := Prod.ext_iff.mp (some.inj h)
    rw [← show _ = q from isNext]
    unfold chargeUser
    split
    · exact owesNothing rfl
    split
    · exact owesNothing rfl
    intro t isOwed
    have paid := owes _ rfl
    cases isOwed
    exact paid
  · cases h; exact owesNothing rfl
  · cases h
    unfold scanRows
    split
    · exact owesNothing rfl
    · dsimp only
      split <;> exact owesNothing rfl
  · split at h <;> cases h <;> exact owesNothing rfl
  · split at h
    · obtain ⟨_,_,same⟩ := map_eq_some_iff.mp h
      cases same
      exact owesNothing rfl
    · cases h
  · rename_i pass now _
    cases items : pass.items with
    | nil => rw [items] at h; cases h
    | cons item =>
      rw [items] at h
      obtain ⟨_,isNext⟩ := Prod.ext_iff.mp (some.inj h)
      rw [← show _ = q from isNext]
      unfold pollItem
      cases copy : lookup Midjourney.mjId item.mjId pass.taskM with
      | none => exact owesNothing rfl
      | some task =>
        have next : nextItem pass now = some (task,timedOut now task item) := by simp [nextItem,items,copy]
        dsimp only at good
        rw [next] at good
        have keeps : shouldReturnQuota task (timedOut now task item) = false := by simpa using good
        dsimp only
        split
        · exact owesNothing rfl
        split
        · exact owesNothing rfl
        rw [if_neg (by simp [keeps])]
        exact owesNothing rfl
  · cases h; exact owesNothing rfl
  · cases h

theorem stepOneWay (oneWay : OneWay w) (good : unreturned w move) (h : step cfg w move = some n) : OneWay n := by
  cases move with
  | start p =>
    obtain ⟨begins,rfl⟩ := stepStart h
    refine ⟨oneWay.transfers,allAdded oneWay.procs ?_⟩
    cases p with
    | requested | scanning => exact owesNothing rfl
    | _ => cases begins
  | act =>
    obtain ⟨p,s,q,found,acted,rfl⟩ := stepAct h
    have owes := oneWay.procs p (mem_of_getElem? found)
    refine ⟨?_,allSet oneWay.procs (actOwing owes found good acted)⟩
    cases actMoves acted with
    | nothing transfers =>
      rw [transfers]
      exact oneWay.transfers
    | one made isOwed transfers =>
      rw [transfers]
      exact allAdded oneWay.transfers (owes made isOwed)

theorem oneWayBack (oneWay : OneWay w) (task userId : Int) :
    tokenBack w.shared task = givenBack w.shared task userId := by
  have noToken : tokenBack w.shared task = 0 := by
    refine sum_eq_zero (fun x inside => ?_)
    obtain ⟨t,member,rfl⟩ := mem_map.mp inside
    have out := oneWay.transfers t member
    unfold tokenBackBy
    split <;> omega
  have noUser : givenBack w.shared task userId = 0 := by
    refine sum_eq_zero (fun x inside => ?_)
    obtain ⟨t,member,rfl⟩ := mem_map.mp inside
    have out := oneWay.transfers t member
    unfold givenBackBy
    split <;> omega
  rw [noToken,noUser]

def empty (w : World) : Bool := w.shared.rows = [] ∧ w.shared.transfers = [] ∧ w.procs.length = 0

theorem emptySound (h : empty w) : Sound w := by
  obtain ⟨rows,transfers,procs⟩ := of_decide_eq_true h
  have noProcs := length_eq_zero_iff.mp procs
  refine ⟨?_,?_,?_,?_,?_,?_⟩
  · simp [rows]
  · simp [rows]
  · intro _ _
    simp [charged,returned,times,total,deducted,givenBack,timesBack,transfers,noProcs]
  · simp [noProcs]
  · simp [rows]
  · simp [noProcs]

theorem refundsConserved {cfg : Setup} {w out : World} {moves} (begins : empty w) (h : run (step cfg) w moves = some out) :
    (Along (step cfg) (fun w move => careful w move) w moves → ∀ row ∈ out.shared.rows,
      givenBack out.shared row.id row.userId ≤ deducted out.shared row.id row.userId ∧ timesBack out.shared row.id ≤ 1 ∧
      (row.status = "FAILURE" → (∀ p ∈ out.procs, returnsFor row.id p = false) →
        givenBack out.shared row.id row.userId = deducted out.shared row.id row.userId)) ∧
    (Along (step cfg) (fun w move => unreturned w move) w moves → ∀ row ∈ out.shared.rows,
      tokenBack out.shared row.id = givenBack out.shared row.id row.userId) := by
  constructor
  · intro good row member
    have sound := runInvariant (fun w move n sound ok moved => stepSound sound ok moved) (emptySound begins) good h
    exact soundTask sound member
  intro good row _
  obtain ⟨_,transfers,procs⟩ := of_decide_eq_true begins
  have start : OneWay w := by
    refine ⟨?_,?_⟩
    · simp [transfers]
    · simp [length_eq_zero_iff.mp procs]
  have oneWay := runInvariant (fun w move n oneWay ok moved => stepOneWay oneWay ok moved) start good h
  exact oneWayBack oneWay row.id row.userId

def plainSetup : Setup := ⟨.ok,fun _ => none,true⟩

def imagine (prompt : String) : Job :=
  ⟨.submit .imagine ⟨prompt,"","",0,"",""⟩,1,7,false,3,0,.ok 500⟩

def emptyWorld : World := ⟨⟨[],1,fun _ => 10000,[]⟩,[]⟩

def response (code : Int) (result : String) : MidjourneyResponse := ⟨code,"",none,result⟩

def submission (i : Nat) (code : Int) (result : String) : List (Move Proc Choice) :=
  [.start (.requested (imagine "a cat")),.act i (.check (.ok true) (.ok 10000)),
    .act i (.respond 200 (response code result) true 1000 none)]

def payment (i : Nat) : List (Move Proc Choice) := [.act i (.statement none),.act i (.statement none)]

def pollResult (mjId status progress failReason : String) : MidjourneyDto :=
  ⟨mjId,"","",1000,1000,2000,"","",none,status,progress,failReason⟩

def pollOnce (i : Nat) (result : MidjourneyDto) : List (Move Proc Choice) :=
  [.start .scanning,.act i (.statement none),.act i (.channel 3 (.items [result])),.act i (.item 3000 none)]

def failedOnce : List (Move Proc Choice) :=
  submission 0 1 "m1" ++ payment 0 ++ pollOnce 1 (pollResult "m1" "FAILURE" "100%" "banned") ++ [.act 1 (.statement none)]

def succeeded : List (Move Proc Choice) :=
  submission 0 1 "m1" ++ payment 0 ++ pollOnce 1 (pollResult "m1" "SUCCESS" "100%" "")

theorem refundedOnceAndKept :
    (∃ out row, run (step plainSetup) emptyWorld failedOnce = some out ∧ out.shared.rows = [row] ∧
      row.status = "FAILURE" ∧ deducted out.shared row.id row.userId = 500 ∧
      givenBack out.shared row.id row.userId = 500 ∧ timesBack out.shared row.id ≤ 1) ∧
    ∃ out row, run (step plainSetup) emptyWorld succeeded = some out ∧ out.shared.rows = [row] ∧
      deducted out.shared row.id row.userId = 500 ∧
      tokenBack out.shared row.id = givenBack out.shared row.id row.userId := by
  constructor
  · have runs : (run (step plainSetup) emptyWorld failedOnce).map (fun out =>
        (out.shared.rows.map (fun row => (row.status,deducted out.shared row.id row.userId,
          out.procs.all (fun p => !returnsFor row.id p))))) = some [("FAILURE",500,true)] := by decide +kernel
    obtain ⟨out,ran,facts⟩ := map_eq_some_iff.mp runs
    obtain ⟨row,isRow,fact⟩ := map_eq_singleton_iff.mp facts
    simp only [Prod.mk.injEq] at fact
    obtain ⟨_,once,whole⟩ := (refundsConserved (by decide) ran).1 (alongChecked (by decide +kernel)) row (by simp [isRow])
    have done : ∀ p ∈ out.procs, returnsFor row.id p = false :=
      fun p member => by simpa using all_eq_true.mp fact.2.2 p member
    exact ⟨out,row,ran,isRow,fact.1,fact.2.1,(whole fact.1 done).trans fact.2.1,once⟩
  · have runs : (run (step plainSetup) emptyWorld succeeded).map (fun out =>
        (out.shared.rows.map (fun row => deducted out.shared row.id row.userId))) = some [500] := by decide +kernel
    obtain ⟨out,ran,facts⟩ := map_eq_some_iff.mp runs
    obtain ⟨row,isRow,fact⟩ := map_eq_singleton_iff.mp facts
    exact ⟨out,row,ran,isRow,fact,(refundsConserved (by decide) ran).2 (alongChecked (by decide +kernel)) row
      (by simp [isRow])⟩

def conflicting : List (Move Proc Choice) :=
  submission 0 23 "full" ++ submission 1 1 "" ++ payment 1 ++ submission 2 1 "fails" ++ payment 2 ++
    submission 3 1 "stays" ++ payment 3 ++
    [.start .scanning,.act 4 (.statement none),.start .scanning,.act 5 (.statement none),.act 4 (.statement none),
      .act 4 (.channel 3 (.items [pollResult "full" "FAILURE" "100%" "full",
        pollResult "fails" "FAILURE" "100%" "banned",pollResult "stays" "" "50%" "slow"])),
      .act 4 (.item 3000 none),.act 4 (.statement none),.act 4 (.item 3000 none),.act 4 (.statement none),
      .act 4 (.item 3000 none),.act 4 (.statement none),.act 5 (.statement none),
      .act 5 (.channel 3 (.items [pollResult "stays" "" "50%" "slow"])),.act 5 (.item 3000 none),
      .act 5 (.statement none)]

structure Bill where
  id : Int
  status : String
  (deducted givenBack timesBack tokenBack : Int)
  deriving DecidableEq, Repr

def bill (s : Store) (row : Midjourney) : Bill :=
  ⟨row.id,row.status,deducted s row.id row.userId,givenBack s row.id row.userId,timesBack s row.id,tokenBack s row.id⟩

theorem fourTasksMisrefunded :
    ∃ out, empty emptyWorld ∧ run (step plainSetup) emptyWorld conflicting = some out ∧
      (out.procs.all fun p => !returnsFor 2 p) ∧ out.shared.rows.map (bill out.shared) =
        [⟨1,"FAILURE",0,500,1,0⟩,⟨2,"FAILURE",500,0,0,0⟩,⟨3,"FAILURE",500,500,1,0⟩,⟨4,"",500,1000,2,0⟩] := by decide +kernel

end Omnigate.MidjourneyRefund
