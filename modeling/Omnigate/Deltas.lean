import Omnigate.Table

/-! Maps of amounts that wait to be added to something, and families of such maps. What a family holds for a key is a
weighted sum over its maps, so one law covers any change of one map. -/
namespace Omnigate.Deltas

open Table

variable {κ τ : Type} [DecidableEq κ]

def held (k : κ) (m : List (κ × Int)) : Int := ((lookup Prod.fst k m).map Prod.snd).getD 0

def add (k : κ) (value : Int) : List (κ × Int) → List (κ × Int)
  | [] => [(k,value)]
  | (key,old)::rest => if key = k then (key,old + value)::rest else (key,old)::add k value rest

def drop (k : κ) (m : List (κ × Int)) : List (κ × Int) := m.filter (fun e => e.1 ≠ k)

def keys (m : List (κ × Int)) : List κ := m.map Prod.fst

@[simp] theorem heldNil (k : κ) : held k [] = 0 := rfl

@[simp] theorem heldCons (k key : κ) (value) (rest : List (κ × Int)) :
    held k ((key,value)::rest) = if key = k then value else held k rest := by
  by_cases same : key = k <;> simp [held,lookup,same]

theorem heldAdd (k key : κ) (value) (m : List (κ × Int)) :
    held k (add key value m) = held k m + if key = k then value else 0 := by
  induction m with
  | nil => simp [add]
  | cons e _ ih =>
    obtain ⟨first,_⟩ := e
    by_cases hit : first = key
    · rw [add,if_pos hit,heldCons,heldCons,hit]
      by_cases same : key = k <;> simp [same]
    simp only [add,if_neg hit,heldCons]
    by_cases here : first = k
    · have other : ¬key = k := fun same => hit (here.trans same.symm)
      simp [here,other]
    · rw [if_neg here,if_neg here,ih]

theorem heldDrop (k key : κ) (m : List (κ × Int)) : held k (drop key m) = if key = k then 0 else held k m := by
  induction m with
  | nil => simp [drop]
  | cons e rest ih =>
    obtain ⟨first,old⟩ := e
    by_cases hit : first = key
    · have gone : drop key ((first,old)::rest) = drop key rest := by simp [drop,hit]
      rw [gone,ih,heldCons,hit]
      by_cases same : key = k <;> simp [same]
    have stays : drop key ((first,old)::rest) = (first,old)::drop key rest := by simp [drop,hit]
    rw [stays,heldCons,heldCons,ih]
    by_cases here : first = k
    · have other : ¬key = k := fun same => hit (here.trans same.symm)
      simp [here,other]
    · simp [here]

variable [Fintype τ]

def weigh (weight : τ → Int) (k : κ) (family : τ → List (κ × Int)) : Int :=
  ∑ t, weight t * held k (family t)

@[simp] theorem weighEmpty (weight : τ → Int) (k : κ) : weigh weight k (fun _ => []) = 0 := by
  simp [weigh]

theorem weighUpdate [DecidableEq τ] (weight : τ → Int) (k : κ) (family : τ → List (κ × Int)) (t : τ) (m : List (κ × Int)) :
    weigh weight k (Function.update family t m) =
      weigh weight k family + weight t * (held k m - held k (family t)) := by
  have outside : ∑ x ∈ Finset.univ.erase t, weight x * held k (Function.update family t m x) =
      ∑ x ∈ Finset.univ.erase t, weight x * held k (family x) := by
    refine Finset.sum_congr rfl (fun x member => ?_)
    rw [Function.update_of_ne (Finset.ne_of_mem_erase member)]
  unfold weigh
  rw [← Finset.add_sum_erase _ _ (Finset.mem_univ t),← Finset.add_sum_erase _ _ (Finset.mem_univ t),outside,
    Function.update_self]
  ring

end Omnigate.Deltas
