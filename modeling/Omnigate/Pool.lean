import Omnigate.Machine
import Omnigate.Table

/-! Interleaved processes over a shared state. A process is its program counter with its local data; one move starts a
process or lets one take its next atomic step, with a choice of the environment. A process not scheduled again has
crashed. -/
namespace Omnigate.Pool

open Machine List Option

structure State (σ π : Type) where
  shared : σ
  procs : List π

inductive Move (π ι : Type) where
  | start (p : π)
  | act (i : Nat) (choice : ι)

variable {σ π ι : Type} {initial : π → Bool} {act : σ → π → ι → Option (σ × π)}

def step (initial : π → Bool) (act : σ → π → ι → Option (σ × π)) (pool : State σ π) :
    Move π ι → Option (State σ π)
  | .start p => if initial p then some ⟨pool.shared,pool.procs ++ [p]⟩ else none
  | .act i choice => do
    let p ← pool.procs[i]?
    let (shared,next) ← act pool.shared p choice
    some ⟨shared,pool.procs.set i next⟩

theorem stepStart (h : step initial act pool (.start p : Move π ι) = some n) :
    initial p ∧ n = ⟨pool.shared,pool.procs ++ [p]⟩ := by
  obtain ⟨begins,same⟩ := ite_none_right_eq_some.mp h
  exact ⟨begins,(some.inj same).symm⟩

theorem stepAct {choice} (h : step initial act pool (.act i choice) = some n) :
    ∃ p s q, pool.procs[i]? = some p ∧ act pool.shared p choice = some (s,q) ∧ n = ⟨s,pool.procs.set i q⟩ := by
  obtain ⟨p,found,rest⟩ := bind_eq_some_iff.mp h
  obtain ⟨⟨s,q⟩,moved,last⟩ := bind_eq_some_iff.mp rest
  cases last
  exact ⟨p,s,q,found,moved,rfl⟩

theorem runStart (begins : initial p)
    (later : run (step initial act) ⟨pool.shared,pool.procs ++ [p]⟩ moves = some out) :
    run (step initial act) pool (.start p::moves) = some out := by
  have begun : step initial act pool (.start p : Move π ι) = some ⟨pool.shared,pool.procs ++ [p]⟩ := if_pos begins
  simp only [run,begun,bind_some,later]

theorem runAct {choice} (found : pool.procs[i]? = some p)
    (moved : act pool.shared p choice = some (s,q))
    (later : run (step initial act) ⟨s,pool.procs.set i q⟩ moves = some out) :
    run (step initial act) pool (.act i choice::moves) = some out := by
  have acted : step initial act pool (.act i choice) = some ⟨s,pool.procs.set i q⟩ := by simp [step,found,moved]
  simp only [run,acted,bind_some,later]

/- An invariant of the shared state and one of each process alone: the rule for properties that other processes cannot
break. -/
theorem stepSeparate {shared : σ → Prop} {fits : π → Prop} (fresh : ∀ p, initial p → fits p)
    (keep : ∀ s p c s' q, shared s → fits p → act s p c = some (s',q) → shared s' ∧ fits q)
    (hs : shared pool.shared) (hp : ∀ p ∈ pool.procs, fits p)
    (h : step initial act pool move = some n) : shared n.shared ∧ ∀ p ∈ n.procs, fits p := by
  cases move with
  | start p =>
    obtain ⟨begins,rfl⟩ := stepStart h
    exact ⟨hs,Table.allAdded hp (fresh p begins)⟩
  | act =>
    obtain ⟨p,s,q,found,moved,rfl⟩ := stepAct h
    obtain ⟨hs',fit⟩ := keep _ _ _ _ _ hs (hp p (mem_of_getElem? found)) moved
    exact ⟨hs',Table.allSet hp fit⟩

/- The rule for properties of processes against the shared state: a step establishes them for its process and keeps
them for the others. -/
theorem stepStable {good : σ → Prop} {each : σ → π → Prop} (h : step initial act pool move = some n)
    (hs : good pool.shared) (hp : ∀ p ∈ pool.procs, each pool.shared p) (fresh : ∀ p, initial p → each pool.shared p)
    (acts : ∀ i p choice s q, move = .act i choice → pool.procs[i]? = some p → act pool.shared p choice = some (s,q) →
      good s ∧ each s q ∧ ∀ (j : Nat) r, j ≠ i → pool.procs[j]? = some r → each s r) :
    good n.shared ∧ ∀ p ∈ n.procs, each n.shared p := by
  cases move with
  | start p =>
    obtain ⟨begins,rfl⟩ := stepStart h
    exact ⟨hs,Table.allAdded hp (fresh p begins)⟩
  | act i choice =>
    obtain ⟨p,s,q,found,moved,rfl⟩ := stepAct h
    obtain ⟨kept,own,others⟩ := acts i p choice s q rfl found moved
    refine ⟨kept,fun r member => ?_⟩
    obtain ⟨j,at'⟩ := mem_iff_getElem?.mp member
    by_cases same : j = i
    · subst same
      rw [List.getElem?_set_self (List.getElem?_eq_some_iff.mp found).1] at at'
      exact some.inj at' ▸ own
    · rw [List.getElem?_set_ne (Ne.symm same)] at at'
      exact others j r same at'

def total (value : σ → Int) (part : π → Int) (pool : State σ π) : Int :=
  value pool.shared + (pool.procs.map part).sum

theorem totalStart (value : σ → Int) (part : π → Int) (s : σ) (procs) (p : π) :
    total value part ⟨s,procs ++ [p]⟩ = total value part ⟨s,procs⟩ + part p := by
  simp [total,add_assoc]

theorem totalAct (value : σ → Int) (part : π → Int) (found : pool.procs[i]? = some p)
    (s : σ) (q : π) : total value part ⟨s,pool.procs.set i q⟩ + (value pool.shared + part p) =
      total value part pool + (value s + part q) := by
  have parts : ∀ {procs : List π} {i : Nat}, procs[i]? = some p →
      ((procs.set i q).map part).sum + part p = (procs.map part).sum + part q := by
    intro procs
    induction procs with
    | nil => intro i found; cases found
    | cons r _ ih =>
      intro i found
      cases i with
      | zero =>
        cases found
        simp only [set_cons_zero,map_cons,sum_cons]
        omega
      | succ =>
        have later := ih (by simpa using found)
        simp only [set_cons_succ,map_cons,sum_cons]
        omega
  have moved := parts found
  unfold total
  dsimp only
  omega

/- Ownership: nobody is busy and the shared state is free, or exactly one process is and the shared state is as it
left it. -/
inductive Owned (busy : π → Bool) (free : σ → Prop) (own : σ → π → Prop) (pool : State σ π) : Prop
  | free (idle : ∀ p ∈ pool.procs, busy p = false) (shared : free pool.shared)
  | held (i : Nat) (p : π) (found : pool.procs[i]? = some p) (works : busy p)
      (alone : ∀ j q, pool.procs[j]? = some q → busy q → j = i) (shared : own pool.shared p)

variable {busy : π → Bool} {free : σ → Prop} {own : σ → π → Prop}

theorem startOwned (owned : Owned busy free own pool) (idle : busy p = false) :
    Owned busy free own ⟨pool.shared,pool.procs ++ [p]⟩ := by
  cases owned with
  | free others shared =>
    exact .free (Table.allAdded others idle) shared
  | held i r found works alone shared =>
    have bound : i < pool.procs.length := (List.getElem?_eq_some_iff.mp found).1
    refine .held i r (by rw [List.getElem?_append_left bound]; exact found) works (fun j q at' works' => ?_) shared
    by_cases old : j < pool.procs.length
    · rw [List.getElem?_append_left old] at at'
      exact alone j q at' works'
    have new : q ∈ [p] := by
      rw [List.getElem?_append_right (not_lt.mp old)] at at'
      exact mem_of_getElem? at'
    rw [mem_singleton.mp new,idle] at works'
    cases works'

theorem actOwned (owned : Owned busy free own pool) (found : pool.procs[i]? = some p)
    (taken : free pool.shared → busy p = false → busy q = false ∧ free s ∨ busy q = true ∧ own s q)
    (left : ∀ r ∈ pool.procs, own pool.shared r → busy r → busy p = false → busy q = false ∧ own s r)
    (kept : own pool.shared p → busy p → busy q = false ∧ free s ∨ busy q = true ∧ own s q) :
    Owned busy free own ⟨s,pool.procs.set i q⟩ := by
  have bound : i < pool.procs.length := (List.getElem?_eq_some_iff.mp found).1
  have here : (pool.procs.set i q)[i]? = some q := by simp [bound]
  have there : ∀ {j}, j ≠ i → (pool.procs.set i q)[j]? = pool.procs[j]? :=
    fun other => List.getElem?_set_ne (fun eq => other eq.symm)
  -- the acting process was the only candidate for being busy
  have settle : (∀ j r, pool.procs[j]? = some r → busy r → j = i) →
      busy q = false ∧ free s ∨ busy q = true ∧ own s q → Owned busy free own ⟨s,pool.procs.set i q⟩ := by
    intro only outcome
    rcases outcome with ⟨idle,shared⟩ | ⟨works,shared⟩
    · refine .free (fun r member => ?_) shared
      obtain ⟨j,at'⟩ := mem_iff_getElem?.mp member
      by_cases same : j = i
      · rw [same,here] at at'
        cases at'
        exact idle
      rw [there same] at at'
      by_contra busy'
      exact same (only j r at' (by simpa using busy'))
    refine .held i q here works (fun j r at' works' => ?_) shared
    by_contra same
    rw [there same] at at'
    exact same (only j r at' works')
  cases owned with
  | free others shared =>
    have idle := others p (mem_of_getElem? found)
    refine settle (fun j r at' works => ?_) (taken shared idle)
    rw [others r (mem_of_getElem? at')] at works
    cases works
  | held k r at' works alone shared =>
    by_cases same : k = i
    · rw [same,found] at at'
      cases at'
      rw [same] at alone
      exact settle alone (kept shared works)
    have idle : busy p = false := by
      by_contra busy'
      exact same (alone i p found (by simpa using busy')).symm
    obtain ⟨idle',shared'⟩ := left r (mem_of_getElem? at') shared works idle
    refine .held k r (by rw [there same]; exact at') works (fun j t at'' works' => ?_) shared'
    by_cases acting : j = i
    · rw [acting,here] at at''
      cases at''
      rw [idle'] at works'
      cases works'
    · rw [there acting] at at''
      exact alone j t at'' works'

section
variable {κ : Type} {holds : π → Option κ} {locked : σ → κ → Prop}

/- A key is locked just when a process holds it, and then one process only. -/
structure Exclusive (holds : π → Option κ) (locked : σ → κ → Prop) (pool : State σ π) : Prop where
  held : ∀ (i : Nat) p k, pool.procs[i]? = some p → holds p = some k → locked pool.shared k
  alone : ∀ (i j : Nat) p q k, pool.procs[i]? = some p → pool.procs[j]? = some q → holds p = some k → holds q = some k →
    i = j
  owner : ∀ k, locked pool.shared k → ∃ (i : Nat) (p : π), pool.procs[i]? = some p ∧ holds p = some k

theorem concatElem {p q : π} (h : (procs ++ [p])[j]? = some q) :
    procs[j]? = some q ∨ j = procs.length ∧ q = p := by
  by_cases old : j < procs.length
  · rw [List.getElem?_append_left old] at h
    exact .inl h
  rw [List.getElem?_append_right (by omega),List.getElem?_singleton] at h
  split at h
  · cases h
    exact .inr ⟨by omega,rfl⟩
  · cases h

theorem setElem {procs : List π} (found : procs[i]? = some p) (h : (procs.set i q)[j]? = some r) :
    j = i ∧ r = q ∨ j ≠ i ∧ procs[j]? = some r := by
  by_cases same : i = j
  · subst same
    rw [List.getElem?_set_self (List.getElem?_eq_some_iff.mp found).1] at h
    exact .inl ⟨rfl,(some.inj h).symm⟩
  · rw [List.getElem?_set_ne same] at h
    exact .inr ⟨Ne.symm same,h⟩

theorem emptyExclusive {s : σ} (free : ∀ k, ¬locked s k) : Exclusive holds locked ⟨s,[]⟩ where
  held := fun _ _ _ at' => by cases at'
  alone := fun _ _ _ _ _ at' => by cases at'
  owner := fun k taken => absurd taken (free k)

theorem startExclusive (exclusive : Exclusive holds locked pool) (empty : holds p = none) :
    Exclusive holds locked ⟨pool.shared,pool.procs ++ [p]⟩ where
  held := by
    intro i q k at' holding
    rcases concatElem at' with old | ⟨_,rfl⟩
    · exact exclusive.held i q k old holding
    · rw [empty] at holding; cases holding
  alone := by
    intro i j q r k at' at'' holding holding'
    rcases concatElem at' with old | ⟨_,rfl⟩
    · rcases concatElem at'' with old' | ⟨_,rfl⟩
      · exact exclusive.alone i j q r k old old' holding holding'
      · rw [empty] at holding'; cases holding'
    · rw [empty] at holding; cases holding
  owner := by
    intro k taken
    obtain ⟨i,q,at',holding⟩ := exclusive.owner k taken
    exact ⟨i,q,by rw [List.getElem?_append_left (List.getElem?_eq_some_iff.mp at').1]; exact at',holding⟩

theorem actExclusive {pool : State σ π} (exclusive : Exclusive holds locked pool)
    (found : pool.procs[i]? = some p)
    (taken : ∀ k, locked s k ↔ (locked pool.shared k ∧ holds p ≠ some k) ∨ holds q = some k)
    (fresh : ∀ k, holds q = some k → holds p = some k ∨ ¬ locked pool.shared k) :
    Exclusive holds locked ⟨s,pool.procs.set i q⟩ := by
  have others : ∀ (j : Nat) r k, j ≠ i → pool.procs[j]? = some r → holds r = some k → holds p ≠ some k := by
    intro j r k other at' holding same
    exact other (exclusive.alone j i r p k at' found holding same)
  refine ⟨?_,?_,?_⟩
  · intro j r k at' holding
    rcases setElem found at' with ⟨_,rfl⟩ | ⟨other,old⟩
    · exact (taken k).mpr (.inr holding)
    · exact (taken k).mpr (.inl ⟨exclusive.held j r k old holding,others j r k other old holding⟩)
  · have apart : ∀ (j : Nat) r k, j ≠ i → pool.procs[j]? = some r → holds r = some k → holds q ≠ some k := by
      intro j r k other old holding same
      rcases fresh k same with mine | free
      · exact others j r k other old holding mine
      · exact free (exclusive.held j r k old holding)
    intro j j' r r' k at' at'' holding holding'
    rcases setElem found at' with ⟨rfl,rfl⟩ | ⟨other,old⟩
    · rcases setElem found at'' with ⟨rfl,rfl⟩ | ⟨other',old'⟩
      · rfl
      · exact absurd holding (apart j' r' k other' old' holding')
    rcases setElem found at'' with ⟨rfl,rfl⟩ | ⟨other',old'⟩
    · exact absurd holding' (apart j r k other old holding)
    · exact exclusive.alone j j' r r' k old old' holding holding'
  · intro k now
    rcases (taken k).mp now with ⟨before,notMine⟩ | mine
    · obtain ⟨j,r,at',holding⟩ := exclusive.owner k before
      have other : i ≠ j := by
        rintro rfl
        cases some.inj (found.symm.trans at')
        exact notMine holding
      exact ⟨j,r,by rw [List.getElem?_set_ne other]; exact at',holding⟩
    · exact ⟨i,q,List.getElem?_set_self (List.getElem?_eq_some_iff.mp found).1,mine⟩

end

end Omnigate.Pool
