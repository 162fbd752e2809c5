import Mathlib.Dynamics.PeriodicPts.Defs
import Mathlib.Tactic

/-! Following a function from a value: the iterates come to a fixed point or run into a cycle of two or more
values. The trail of a walk is what it has met so far. -/
namespace Omnigate.Orbit

open Function List

variable {α : Type} {f : α → α} {x y z : α}

def Ends (f : α → α) (x y : α) : Prop := (∃ n, f^[n] x = y) ∧ f y = y

def Cycles (f : α → α) (x : α) : Prop := ∃ n, 2 ≤ minimalPeriod f (f^[n] x)

theorem endsStays (ends : Ends f x y) : ∃ n, ∀ k, f^[k + n] x = y := by
  obtain ⟨⟨n,reached⟩,fixed⟩ := ends
  refine ⟨n,fun k => ?_⟩
  rw [iterate_add_apply,reached]
  exact iterate_fixed fixed k

theorem endsUnique (first : Ends f x y) (second : Ends f x z) : y = z := by
  obtain ⟨n,stays⟩ := endsStays first
  obtain ⟨m,stays'⟩ := endsStays second
  rw [← stays m,← stays' n,Nat.add_comm]

theorem endsNotCycles (ends : Ends f x y) : ¬ Cycles f x := by
  rintro ⟨k,long⟩
  obtain ⟨n,stays⟩ := endsStays ends
  -- a multiple of the period leads beyond the place from which on the iterates stay
  have back : f^[minimalPeriod f (f^[k] x) * n] (f^[k] x) = f^[k] x := (isPeriodicPt_minimalPeriod f _).mul_const n
  have far : minimalPeriod f (f^[k] x) * n + k = (minimalPeriod f (f^[k] x) * n + k - n) + n := by
    have : n ≤ minimalPeriod f (f^[k] x) * n := Nat.le_mul_of_pos_left n (by omega)
    omega
  rw [← iterate_add_apply,far,stays] at back
  rw [← back,minimalPeriod_eq_one_iff_isFixedPt.mpr ends.2] at long
  omega

structure Trail (f : α → α) (x : α) (i : Nat) (met : List α) (current : α) : Prop where
  here : f^[i] x = current
  all : ∀ y, y ∈ met ↔ ∃ j ≤ i, f^[j] x = y
  once : met.Nodup
  length : met.length = i + 1

theorem trailStart (f : α → α) (x : α) : Trail f x 0 [x] x :=
  ⟨rfl,fun y => by simp [eq_comm],nodup_singleton x,rfl⟩

theorem trailNext (trail : Trail f x i met current) (fresh : f current ∉ met) :
    Trail f x (i + 1) (f current::met) (f current) := by
  have next : f^[i + 1] x = f current := by rw [iterate_succ_apply',trail.here]
  refine ⟨next,fun y => ?_,nodup_cons.mpr ⟨fresh,trail.once⟩,by simp [trail.length]⟩
  rw [mem_cons,trail.all]
  constructor
  · rintro (rfl | ⟨j,le,rfl⟩)
    · exact ⟨i + 1,le_refl _,next⟩
    · exact ⟨j,by omega,rfl⟩
  rintro ⟨j,le,rfl⟩
  by_cases last : j = i + 1
  · exact .inl (last ▸ next)
  · exact .inr ⟨j,by omega,rfl⟩

theorem trailCycles (trail : Trail f x i met current) (met' : f current ∈ met)
    (moves : f current ≠ current) : Cycles f x := by
  obtain ⟨j,_,same⟩ := (trail.all _).mp met'
  refine ⟨j,?_⟩
  have again : IsPeriodicPt f (i + 1 - j) (f^[j] x) := by
    show f^[i + 1 - j] (f^[j] x) = f^[j] x
    rw [← iterate_add_apply,show i + 1 - j + j = i + 1 by omega,iterate_succ_apply',trail.here,same]
  have positive := again.minimalPeriod_pos (by omega)
  by_contra short
  have fixed : IsFixedPt f (f^[j] x) := minimalPeriod_eq_one_iff_isFixedPt.mp (by omega)
  have stays : current = f^[j] x := by
    rw [← trail.here,show i = (i - j) + j by omega,iterate_add_apply]
    exact iterate_fixed fixed _
  exact moves (stays ▸ fixed)

end Omnigate.Orbit
