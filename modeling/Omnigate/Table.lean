import Mathlib.Tactic

/-! Keyed tables as lists of rows. `save` is a whole-row save (update the row with
that key, insert when there is none), `updateWhere` a column update with a filter. -/
namespace Omnigate.Table

open List

variable {ρ κ : Type} [DecidableEq κ] {key : ρ → κ}

def lookup (key : ρ → κ) (k : κ) (rows : List ρ) : Option ρ := rows.find? (fun r => key r = k)

def save (key : ρ → κ) (row : ρ) : List ρ → List ρ
  | [] => [row]
  | r::rest => if key r = key row then row::rest else r::save key row rest

def updateWhere (p : ρ → Bool) (f : ρ → ρ) (rows : List ρ) : List ρ :=
  rows.map (fun r => if p r then f r else r)

section

variable {p : ρ → Prop} {rows : List ρ}

omit [DecidableEq κ]

theorem allAdded (old : ∀ r ∈ rows, p r) (new : p row) : ∀ r ∈ rows ++ [row], p r :=
  forall_mem_append.mpr ⟨old,forall_mem_singleton.mpr new⟩

theorem allSet (old : ∀ r ∈ rows, p r) (new : p row) : ∀ r ∈ rows.set i row, p r :=
  fun r member => (mem_or_eq_of_mem_set member).elim (old r) (fun same => same ▸ new)

theorem allUpdated {hit : ρ → Bool} {f} (old : ∀ r ∈ rows, p r) (new : ∀ r, hit r → p r → p (f r)) :
    ∀ r ∈ updateWhere hit f rows, p r := by
  refine forall_mem_map.mpr (fun r member => ?_)
  split
  · rename_i here
    exact new r here (old r member)
  · exact old r member

theorem updateMem {hit : ρ → Bool} {f} (h : r ∈ updateWhere hit f rows) :
    (∃ old ∈ rows, hit old = true ∧ r = f old) ∨ (r ∈ rows ∧ hit r = false) := by
  obtain ⟨old,member,same⟩ := mem_map.mp h
  split at same
  · rename_i here
    exact .inl ⟨old,member,here,same.symm⟩
  rename_i miss
  subst same
  exact .inr ⟨member,by simpa using miss⟩

theorem addedMem (h : r ∈ rows ++ [row]) : r ∈ rows ∨ r = row := by
  simpa using h

theorem keysAdded (unique : (rows.map key).Nodup) (fresh : ∀ r ∈ rows, key r ≠ key row) :
    ((rows ++ [row]).map key).Nodup := by
  rw [map_append,map_singleton,nodup_append]
  refine ⟨unique,nodup_singleton _,?_⟩
  intro x old y new
  obtain ⟨r,member,rfl⟩ := mem_map.mp old
  rw [mem_singleton.mp new]
  exact fresh r member

end

theorem lookupSound (h : lookup key k rows = some r) :
    r ∈ rows ∧ key r = k :=
  ⟨mem_of_find?_eq_some h,by simpa using List.find?_some h⟩

theorem lookupUnique (unique : (rows.map key).Nodup) (member : r ∈ rows) :
    lookup key (key r) rows = some r := by
  induction rows with
  | nil => cases member
  | cons x _ ih =>
    obtain ⟨fresh,later⟩ := nodup_cons.mp unique
    rcases mem_cons.mp member with rfl | inside
    · simp [lookup]
    · have other : key x ≠ key r := fun same => fresh (same ▸ mem_map_of_mem inside)
      simpa [lookup,other] using ih later inside

omit [DecidableEq κ] in
theorem updateKeys {p f} (stable : ∀ r, p r → key (f r) = key r) (rows) :
    (updateWhere p f rows).map key = rows.map key := by
  simp only [updateWhere,map_map]
  refine map_congr_left (fun r _ => ?_)
  simp only [Function.comp_apply]
  split
  · rename_i hit
    exact stable r hit
  · rfl

theorem lookupSave (k : κ) (row : ρ) (rows) :
    lookup key k (save key row rows) = if key row = k then some row else lookup key k rows := by
  induction rows with
  | nil => by_cases same : key row = k <;> simp [save,lookup,same]
  | cons r _ ih =>
    by_cases hit : key r = key row
    · by_cases same : key row = k <;> simp [save,lookup,hit,same]
    simp only [save,if_neg hit,lookup,List.find?_cons] at ih ⊢
    by_cases here : key r = k
    · have other : key row ≠ k := fun same => hit (here.trans same.symm)
      simp [here,other]
    · simpa [here] using ih

theorem saveMem (h : x ∈ save key row rows) : x = row ∨ x ∈ rows := by
  induction rows with
  | nil => exact .inl (by simpa [save] using h)
  | cons r _ ih =>
    unfold save at h
    split at h
    · rcases mem_cons.mp h with same | inside
      · exact .inl same
      · exact .inr (mem_cons_of_mem _ inside)
    · rcases mem_cons.mp h with same | inside
      · exact .inr (by simp [same])
      · exact (ih inside).imp_right (mem_cons_of_mem _)

theorem lookupUpdateHit (stable : ∀ r, p r → key (f r) = key r) (k : κ) (rows) :
    lookup key k (updateWhere p f rows) = (lookup key k rows).map (fun r => if p r then f r else r) := by
  have same : ∀ r, key (if p r then f r else r) = key r := by
    intro r; split
    · rename_i hit
      exact stable r hit
    · rfl
  simp only [lookup,updateWhere,List.find?_map,Function.comp_def,same]

theorem lookupUpdate (stable : ∀ r, key (f r) = key r) (k : κ) (rows) :
    lookup key k (updateWhere p f rows) = (lookup key k rows).map (fun r => if p r then f r else r) :=
  lookupUpdateHit (fun r _ => stable r) k rows

theorem lookupUpdateKey (stable : ∀ r, key (f r) = key r) (k id : κ) (rows) :
    lookup key k (updateWhere (fun r => key r = id) f rows) = (lookup key k rows).map (fun r => if k = id then f r else r) := by
  rw [lookupUpdate stable]
  cases found : lookup key k rows with
  | none => rfl
  | some => simp [(lookupSound found).2]

theorem lookupAppend (fresh : key row ≠ k) :
    lookup key k (rows ++ [row]) = lookup key k rows := by
  simp [lookup,List.find?_append,fresh]

theorem lookupInserted (fresh : lookup key (key row) rows = none) :
    lookup key (key row) (rows ++ [row]) = some row := by
  simp only [lookup] at fresh
  simp [lookup,List.find?_append,fresh]

theorem lookupNone : lookup key k rows = none ↔ ∀ r ∈ rows, key r ≠ k := by
  simp [lookup]

theorem saveFresh (fresh : ∀ r ∈ rows, key r ≠ key row) : save key row rows = rows ++ [row] := by
  induction rows with
  | nil => rfl
  | cons r _ ih =>
    rw [save,if_neg (fresh r mem_cons_self),ih (fun x inside => fresh x (mem_cons_of_mem _ inside)),cons_append]

theorem saveLast (fresh : ∀ r ∈ rows, key r ≠ key row) (same : key last = key row) :
    save key row (rows ++ [last]) = rows ++ [row] := by
  induction rows with
  | nil => simp [save,same]
  | cons r _ ih =>
    rw [cons_append,save,if_neg (fresh r mem_cons_self),
      ih (fun x inside => fresh x (mem_cons_of_mem _ inside)),cons_append]

theorem saveStored (stored : lookup key (key row) rows = some row) :
    save key row rows = rows := by
  induction rows with
  | nil => cases stored
  | cons r _ ih =>
    by_cases hit : key r = key row
    · have first : r = row := by simpa [lookup,hit] using stored
      rw [save,if_pos hit,first]
    · rw [save,if_neg hit,ih (by simpa [lookup,hit] using stored)]

variable {σ μ : Type} [DecidableEq μ] {key' : σ → μ}

theorem lookupMap (f : ρ → σ) (k : μ) (rows) :
    lookup key' k (rows.map f) = (lookup (fun r => key' (f r)) k rows).map f := by
  simp [lookup,List.find?_map]

theorem saveMap (f : ρ → σ) (alike : ∀ r ∈ rows, key' (f r) = key' (f row) ↔ key r = key row) :
    save key' (f row) (rows.map f) = (save key row rows).map f := by
  induction rows with
  | nil => rfl
  | cons r _ ih =>
    have here := alike r mem_cons_self
    rw [map_cons,save,save]
    by_cases hit : key r = key row
    · rw [if_pos hit,if_pos (here.mpr hit),map_cons]
    · rw [if_neg hit,if_neg (fun same => hit (here.mp same)),map_cons,
        ih (fun x inside => alike x (mem_cons_of_mem _ inside))]

theorem saveKept {τ : Type} (g : ρ → τ) (stored : lookup key (key row) rows = some old)
    (kept : g row = g old) : (save key row rows).map g = rows.map g := by
  induction rows with
  | nil => cases stored
  | cons r _ ih =>
    by_cases hit : key r = key row
    · have first : r = old := by simpa [lookup,hit] using stored
      rw [save,if_pos hit,map_cons,map_cons,kept,first]
    · rw [save,if_neg hit,map_cons,map_cons,ih (by simpa [lookup,hit] using stored)]

end Omnigate.Table
