import Mathlib.Tactic

/-! Runs of a deterministic labelled machine. A label carries every choice of the
environment (who acts, what it is told, which statement fails), so a run is a list
of labels; a label that is not enabled ends the run with `none`. -/
namespace Omnigate.Machine

open List Option

variable {σ ι : Type} {step : σ → ι → Option σ} {ok : σ → ι → Prop}

def run (step : σ → ι → Option σ) : σ → List ι → Option σ
  | s,[] => some s
  | s,l::ls => (step s l).bind (fun n => run step n ls)

theorem runCons (h : run step s (l::ls) = some out) :
    ∃ n, step s l = some n ∧ run step n ls = some out := Option.bind_eq_some_iff.mp h

theorem runAppend (h : run step s (xs ++ ys) = some out) :
    ∃ mid, run step s xs = some mid ∧ run step mid ys = some out := by
  induction xs generalizing s with
  | nil => exact ⟨s,rfl,h⟩
  | cons l _ ih =>
    obtain ⟨n,hn,rest⟩ := runCons h
    obtain ⟨mid,left,right⟩ := ih rest
    exact ⟨mid,by simp [run,hn,left],right⟩

theorem runJoin (left : run step s xs = some mid) (right : run step mid ys = some out) :
    run step s (xs ++ ys) = some out := by
  induction xs generalizing s with
  | nil => cases left; exact right
  | cons l _ ih =>
    obtain ⟨n,hn,rest⟩ := runCons left
    simp [run,hn,ih rest]

theorem runBind (s : σ) (xs ys) :
    run step s (xs ++ ys) = (run step s xs).bind (fun mid => run step mid ys) := by
  induction xs generalizing s with
  | nil => rfl
  | cons l _ ih =>
    simp only [cons_append,run,Option.bind_assoc]
    exact congrArg _ (funext ih)

instance decideSome {x : Option σ} {p : σ → Prop} [DecidablePred p] : Decidable (∃ out, x = some out ∧ p out) :=
  decidable_of_iff (∃ out ∈ x, p out) Iff.rfl

instance decideAside {c : Prop} {p : σ → Prop} [Decidable c] [Decidable (∃ out, p out)] : Decidable (∃ out, c ∧ p out) :=
  decidable_of_iff _ exists_and_left.symm

instance decideThen {x : Option σ} {p : σ → ι → Prop} [∀ mid, Decidable (∃ out, p mid out)] :
    Decidable (∃ mid out, x = some mid ∧ p mid out) :=
  decidable_of_iff (∃ mid, x = some mid ∧ ∃ out, p mid out) (by simp only [exists_and_left])

/- `Along ok s ls`: each label of the run meets `ok` in the state it is taken from. -/
def Along (step : σ → ι → Option σ) (ok : σ → ι → Prop) : σ → List ι → Prop
  | _,[] => True
  | s,l::ls => ok s l ∧ ∀ n, step s l = some n → Along step ok n ls

theorem alongAppend (h : Along step ok s (xs ++ ys))
    (left : run step s xs = some mid) : Along step ok s xs ∧ Along step ok mid ys := by
  induction xs generalizing s with
  | nil => cases left; exact ⟨trivial,h⟩
  | cons l _ ih =>
    obtain ⟨n,hn,rest⟩ := runCons left
    obtain ⟨a,b⟩ := ih (h.2 n hn) rest
    refine ⟨⟨h.1,?_⟩,b⟩
    intro m hm
    cases some.inj (hn.symm.trans hm)
    exact a

theorem alongSteps (h : run step s ls = some out)
    (each : ∀ xs l ys mid n, ls = xs ++ l::ys → run step s xs = some mid → step mid l = some n → ok mid l) :
    Along step ok s ls := by
  induction ls generalizing s with
  | nil => trivial
  | cons l ls ih =>
    obtain ⟨n,hn,rest⟩ := runCons h
    refine ⟨each [] l ls s n rfl rfl hn,?_⟩
    intro m hm
    cases some.inj (hn.symm.trans hm)
    refine ih rest (fun xs l' ys mid last split left moved => ?_)
    exact each (l::xs) l' ys mid last (by rw [split]; rfl) (by simp [run,hn,left]) moved

theorem alongTrue (s : σ) (ls) : Along step (fun _ _ => True) s ls := by
  induction ls generalizing s with
  | nil => trivial
  | cons l ls ih => exact ⟨trivial,fun n _ => ih n⟩

theorem alongAll {each : ι → Prop} {ls} (all : ∀ l ∈ ls, each l) (s : σ) :
    Along step (fun _ l => each l) s ls := by
  induction ls generalizing s with
  | nil => trivial
  | cons l ls ih =>
    exact ⟨all l (by simp),fun n _ => ih (fun x member => all x (mem_cons_of_mem _ member)) n⟩

theorem alongBoth {also : σ → ι → Prop} {s ls} (left : Along step ok s ls) (right : Along step also s ls) :
    Along step (fun s l => ok s l ∧ also s l) s ls := by
  induction ls generalizing s with
  | nil => trivial
  | cons l ls ih => exact ⟨⟨left.1,right.1⟩,fun n moved => ih (left.2 n moved) (right.2 n moved)⟩

def checkAlong (step : σ → ι → Option σ) (ok : σ → ι → Bool) : σ → List ι → Bool
  | _,[] => true
  | s,l::ls => ok s l && match step s l with
    | none => true
    | some n => checkAlong step ok n ls

theorem alongChecked (h : checkAlong step check s ls) :
    Along step (fun s l => check s l) s ls := by
  induction ls generalizing s with
  | nil => trivial
  | cons l ls ih =>
    simp only [checkAlong,Bool.and_eq_true] at h
    refine ⟨h.1,fun n moved => ih ?_⟩
    have later := h.2
    rw [moved] at later
    exact later

theorem alongWeaken {inv : σ → Prop} {weaker : σ → ι → Prop}
    (keep : ∀ s l n, inv s → ok s l → step s l = some n → inv n)
    (weaken : ∀ s l, inv s → ok s l → weaker s l) {s ls} (start : inv s) (good : Along step ok s ls) :
    Along step weaker s ls := by
  induction ls generalizing s with
  | nil => trivial
  | cons l ls ih =>
    exact ⟨weaken s l start good.1,fun n moved => ih (keep s l n start good.1 moved) (good.2 n moved)⟩

theorem runInvariant {inv : σ → Prop} (keep : ∀ s l n, inv s → ok s l → step s l = some n → inv n)
    {s ls out} (start : inv s) (good : Along step ok s ls) (h : run step s ls = some out) :
    inv out := by
  induction ls generalizing s with
  | nil => cases h; exact start
  | cons l ls ih =>
    obtain ⟨n,hn,rest⟩ := runCons h
    exact ih (keep s l n start good.1 hn) (good.2 n hn) rest

theorem runAlways {inv : σ → Prop} (keep : ∀ s l n, inv s → step s l = some n → inv n)
    {s ls out} (start : inv s) (h : run step s ls = some out) : inv out :=
  runInvariant (fun s l n hs _ moved => keep s l n hs moved) start (alongTrue s ls) h

theorem runPast {inv : List ι → σ → Prop}
    (keep : ∀ past s l n, inv past s → step s l = some n → inv (past ++ [l]) n)
    {past s ls out} (start : inv past s) (h : run step s ls = some out) : inv (past ++ ls) out := by
  induction ls generalizing past s with
  | nil => cases h; simpa using start
  | cons l ls ih =>
    obtain ⟨n,moved,rest⟩ := runCons h
    simpa using ih (keep past s l n start moved) rest

def tally (step : σ → ι → Option σ) (amount : σ → ι → Int) : σ → List ι → Int
  | _,[] => 0
  | s,l::ls => amount s l + match step s l with
    | none => 0
    | some n => tally step amount n ls

theorem runTally {inv : σ → Prop} {value : σ → Int} {amount}
    (keep : ∀ s l n, inv s → ok s l → step s l = some n → inv n ∧ value n = value s + amount s l)
    {s ls out} (start : inv s) (good : Along step ok s ls) (h : run step s ls = some out) :
    value out = value s + tally step amount s ls := by
  induction ls generalizing s with
  | nil => cases h; simp [tally]
  | cons l ls ih =>
    obtain ⟨n,hn,rest⟩ := runCons h
    obtain ⟨kept,_⟩ := keep s l n start good.1 hn
    have later := ih kept (good.2 n hn) rest
    simp only [tally,hn]
    omega

theorem tallySum (h : run step s ls = some out) :
    tally step (fun _ l => amount l) s ls = (ls.map amount).sum := by
  induction ls generalizing s with
  | nil => rfl
  | cons l ls ih =>
    obtain ⟨n,hn,rest⟩ := runCons h
    simp only [tally,hn,map_cons,sum_cons,ih rest]

end Omnigate.Machine
