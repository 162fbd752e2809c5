import Mathlib.Tactic

/-! Texts that arrive in pieces.  Every piece has a label; a text is joined from the pieces whose labels are
selected, in the order they came. -/
namespace Omnigate.Fragments

open List

def joined : List String → String
  | [] => ""
  | s::rest => s ++ joined rest

@[simp] theorem joinedNil : joined [] = "" := rfl

@[simp] theorem joinedCons (s rest) : joined (s::rest) = s ++ joined rest := rfl

theorem joinedAppend (xs ys) : joined (xs ++ ys) = joined xs ++ joined ys := by
  induction xs with
  | nil => simp
  | cons x xs ih => simp [ih,String.append_assoc]

variable {α β : Type}

def joinedWhere (p : α → Bool) (text : α → String) (pieces : List α) : String :=
  joined ((pieces.filter p).map text)

theorem joinedWhereCons (p : α → Bool) (text : α → String) (x : α) (rest) :
    joinedWhere p text (x::rest) = (if p x then text x else "") ++ joinedWhere p text rest := by
  unfold joinedWhere
  cases known : p x <;> simp [known]

theorem joinedWhereMap (p : β → Bool) (text : β → String) (f : α → β) (xs) :
    joinedWhere p text (xs.map f) = joinedWhere (fun x => p (f x)) (fun x => text (f x)) xs := by
  induction xs with
  | nil => rfl
  | cons x xs ih => rw [map_cons,joinedWhereCons,joinedWhereCons,ih]

theorem appendLonger (shorter : c.length ≤ b.length) (same : c = a ++ b) : a = "" ∧ b = c := by
  have lengths := congrArg String.length same
  rw [String.length_append] at lengths
  have empty : a = "" := String.length_eq_zero_iff.mp (by omega)
  subst empty
  exact ⟨rfl,by rw [same,String.empty_append]⟩

theorem joinedWhereShorter (text : α → String) (less : ∀ x, p x → q x) (pieces) :
    (joinedWhere p text pieces).length ≤ (joinedWhere q text pieces).length := by
  induction pieces with
  | nil => exact Nat.le_refl _
  | cons x _ ih =>
    rw [joinedWhereCons,joinedWhereCons,String.length_append,String.length_append]
    cases chosen : p x with
    | true =>
      rw [less x chosen]
      simpa using ih
    | false =>
      simp only [Bool.false_eq_true,if_false,String.length_empty]
      omega

theorem joinedWhereIff (text : α → String) (less : ∀ x, p x → q x) (pieces) :
    joinedWhere p text pieces = joinedWhere q text pieces ↔
      ∀ x ∈ pieces, q x = true → p x = false → text x = "" := by
  induction pieces with
  | nil => simp [joinedWhere]
  | cons x rest ih =>
    rw [joinedWhereCons,joinedWhereCons]
    constructor
    · intro same
      cases chosen : p x with
      | true =>
        rw [chosen,less x chosen] at same
        have restSame := String.append_right_inj _ |>.mp same
        intro y member
        rcases mem_cons.mp member with rfl | inside
        · intro _ out
          rw [chosen] at out
          cases out
        · exact ih.mp restSame y inside
      | false =>
        rw [chosen] at same
        obtain ⟨empty,restSame⟩ := appendLonger (joinedWhereShorter text less rest) same
        intro y member
        rcases mem_cons.mp member with rfl | inside
        · intro wanted _
          rwa [if_pos wanted] at empty
        · exact ih.mp restSame.symm y inside
    · intro nothing
      have restSame := ih.mpr (fun y inside => nothing y (mem_cons_of_mem _ inside))
      rw [restSame]
      cases chosen : p x with
      | true => rw [less x chosen]
      | false =>
        cases wanted : q x with
        | true => rw [nothing x (mem_cons_self) wanted chosen]; rfl
        | false => rfl

end Omnigate.Fragments
