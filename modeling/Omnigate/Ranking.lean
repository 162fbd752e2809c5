import Mathlib.Data.List.Sort
import Mathlib.Tactic

/-! The levels of a list of integers: its distinct values from the highest down. The value at a
position is the one that as many distinct values exceed. -/
namespace Omnigate.Ranking

open List

def levels (values : List Int) : List Int := values.dedup.insertionSort (· ≥ ·)

def Level (values : List Int) (k : Nat) (v : Int) : Prop :=
  v ∈ values ∧ (values.toFinset.filter (v < ·)).card = min k (values.toFinset.card - 1)

instance (values k v) : Decidable (Level values k v) := by unfold Level; infer_instance

theorem levelsPerm (values) : (levels values).Perm values.dedup := perm_insertionSort _ _

theorem memLevels : v ∈ levels values ↔ v ∈ values := by
  rw [(levelsPerm values).mem_iff,mem_dedup]

theorem levelsLength (values) : (levels values).length = values.toFinset.card := by
  rw [(levelsPerm values).length_eq,card_toFinset]

theorem levelsDescend (values) : (levels values).Pairwise (· > ·) := by
  have sorted : (levels values).Pairwise (· ≥ ·) := pairwise_insertionSort (· ≥ ·) values.dedup
  have distinct : (levels values).Pairwise (· ≠ ·) := (levelsPerm values).nodup_iff.mpr values.nodup_dedup
  exact (sorted.and distinct).imp (fun both => lt_of_le_of_ne both.1 (Ne.symm both.2))

theorem descendingAt {l : List Int} (descending : l.Pairwise (· > ·)) :
    l[k]? = some v ↔ v ∈ l ∧ (l.toFinset.filter (v < ·)).card = k := by
  induction l generalizing k with
  | nil => simp
  | cons a t ih =>
    obtain ⟨below,rest⟩ := pairwise_cons.mp descending
    have apart : a ∉ t := fun inside => lt_irrefl _ (below a inside)
    have above : ∀ w, (a::t).toFinset.filter (w < ·) =
        if w < a then insert a (t.toFinset.filter (w < ·)) else t.toFinset.filter (w < ·) := by
      intro w
      rw [toFinset_cons,Finset.filter_insert]
    have none_ : (t.toFinset.filter (a < ·)).card = 0 := by
      rw [Finset.card_eq_zero,Finset.filter_eq_empty_iff]
      intro w inside
      exact not_lt.mpr (le_of_lt (below w (mem_toFinset.mp inside)))
    have counted : ∀ w ∈ t, ((a::t).toFinset.filter (w < ·)).card = (t.toFinset.filter (w < ·)).card + 1 := by
      intro w inside
      rw [above,if_pos (below w inside),Finset.card_insert_of_notMem]
      simp [apart]
    cases k with
    | zero =>
      constructor
      · intro same
        cases same
        exact ⟨mem_cons_self,by rw [above,if_neg (lt_irrefl _),none_]⟩
      rintro ⟨member,zero⟩
      rcases mem_cons.mp member with rfl | inside
      · rfl
      · rw [counted v inside] at zero
        omega
    | succ =>
      rw [List.getElem?_cons_succ,ih rest]
      constructor
      · rintro ⟨inside,same⟩
        exact ⟨mem_cons_of_mem _ inside,by rw [counted v inside,same]⟩
      rintro ⟨member,same⟩
      rcases mem_cons.mp member with rfl | inside
      · rw [above,if_neg (lt_irrefl _),none_] at same
        omega
      · rw [counted v inside] at same
        exact ⟨inside,by omega⟩

theorem levelsAt {values : List Int} :
    (levels values)[min k ((levels values).length - 1)]? = some v ↔ Level values k v := by
  have same : (levels values).toFinset = values.toFinset := by
    ext w
    rw [mem_toFinset,mem_toFinset,memLevels]
  rw [descendingAt (levelsDescend values),memLevels,same,levelsLength]
  rfl

theorem levelCongr (same : ∀ v, v ∈ left ↔ v ∈ right) : Level left k v ↔ Level right k v := by
  have sets : left.toFinset = right.toFinset := by
    ext w
    rw [mem_toFinset,mem_toFinset,same]
  unfold Level
  rw [same,sets]

theorem levelUnique (left : Level values k v) (right : Level values k w) : v = w :=
  Option.some.inj ((levelsAt.mpr left).symm.trans (levelsAt.mpr right))

theorem levelExists (some_ : values ≠ []) (k : Nat) : ∃ v, Level values k v := by
  have positive : 0 < (levels values).length := by
    obtain ⟨v,member⟩ := exists_mem_of_ne_nil values some_
    exact length_pos_of_mem (memLevels.mpr member)
  have bound : min k ((levels values).length - 1) < (levels values).length := by omega
  exact ⟨_,levelsAt.mp (List.getElem?_eq_getElem bound)⟩

theorem levelZero : Level values 0 v ↔ v ∈ values ∧ ∀ w ∈ values, w ≤ v := by
  simp [Level,Finset.filter_eq_empty_iff]

theorem levelConstant (member : v ∈ values) (same : ∀ w ∈ values, w = v) (k : Nat) :
    Level values k v := by
  obtain ⟨w,level⟩ := levelExists (ne_nil_of_mem member) k
  exact same w level.1 ▸ level

end Omnigate.Ranking
