import Omnigate.Machine

/-! Streams of numbered blocks. One event begins the stream, blocks are opened in the order of their numbers and may
be open side by side, an update names an open block and its kind, and a summary follows when all are closed, just
before the end. -/
namespace Omnigate.BlockStream

open Machine List

inductive Event (κ : Type) where
  | begins
  | opens (index : Int) (kind : κ)
  | updates (index : Int) (kind : κ)
  | closes (index : Int)
  | summary
  | ends
  deriving DecidableEq, Repr

inductive Phase where
  | fresh | body | summed | ended
  deriving DecidableEq, Repr

structure State (κ : Type) where
  phase : Phase
  count : Int
  blocks : List (Int × κ)
  deriving DecidableEq, Repr

variable {κ : Type} [DecidableEq κ]

def initial : State κ := ⟨.fresh,0,[]⟩

def accept (s : State κ) : Event κ → Option (State κ)
  | .begins => if s.phase = .fresh then some {s with phase := .body} else none
  | .opens index kind =>
    if s.phase = .body ∧ index = s.count then some ⟨.body,s.count + 1,s.blocks ++ [(index,kind)]⟩ else none
  | .updates index kind => if s.phase = .body ∧ (index,kind) ∈ s.blocks then some s else none
  | .closes index =>
    if s.phase = .body ∧ index ∈ s.blocks.map Prod.fst then
      some {s with blocks := s.blocks.filter (fun block => block.1 ≠ index)}
    else none
  | .summary => if s.phase = .body ∧ s.blocks = [] then some {s with phase := .summed} else none
  | .ends => if s.phase = .summed then some {s with phase := .ended} else none

def wellFormed (events : List (Event κ)) : Bool :=
  match run accept initial events with
  | none => false
  | some s => s.phase = .ended

theorem wellFormedBegins {events : List (Event κ)} (h : wellFormed events) : ∃ rest, events = .begins::rest := by
  cases events with
  | nil => cases h
  | cons e rest =>
    cases e with
    | begins => exact ⟨rest,rfl⟩
    | _ => simp [wellFormed,run,accept,initial] at h

theorem wellFormedPhase (events : List (Event κ)) :
    wellFormed events = decide ((run accept initial events).map State.phase = some .ended) := by
  unfold wellFormed
  cases run accept initial events with
  | none => rfl
  | some => simp

def blocksFrom (kind : κ) : Int → Nat → List (Int × κ)
  | _,0 => []
  | base,n+1 => (base,kind)::blocksFrom kind (base + 1) n

omit [DecidableEq κ] in
theorem memBlocksFrom {kind : κ} {base : Int} {n : Nat} :
    (index,other) ∈ blocksFrom kind base n ↔ other = kind ∧ base ≤ index ∧ index < base + n := by
  induction n generalizing base with
  | zero => simp [blocksFrom]
  | succ n ih =>
    simp only [blocksFrom,mem_cons,Prod.mk.injEq,ih,Nat.cast_add,Nat.cast_one]
    constructor
    · rintro (⟨rfl,rfl⟩ | ⟨same,low,high⟩)
      · exact ⟨rfl,by omega,by omega⟩
      · exact ⟨same,by omega,by omega⟩
    rintro ⟨same,low,high⟩
    by_cases first : index = base
    · exact .inl ⟨first,same⟩
    · exact .inr ⟨same,by omega,by omega⟩

omit [DecidableEq κ] in
theorem blocksFromNext (kind : κ) (base) (n : Nat) :
    blocksFrom kind base n ++ [(base + n,kind)] = blocksFrom kind base (n + 1) := by
  induction n generalizing base with
  | zero => simp [blocksFrom]
  | succ n ih =>
    have later := ih (base + 1)
    have same : base + 1 + n = base + (n + 1 : Nat) := by push_cast; omega
    rw [same] at later
    simp only [blocksFrom,cons_append] at later ⊢
    rw [later]

theorem acceptCloses (kind : κ) (count base) (n m : Nat) :
    run accept ⟨.body,count,blocksFrom kind base n⟩ ((List.range m).map (fun offset : Nat => .closes (base + offset))) =
      if m ≤ n then some ⟨.body,count,blocksFrom kind (base + m) (n - m)⟩ else none := by
  induction m generalizing base n with
  | zero => simp [run]
  | succ m ih =>
    have shift : (List.range (m + 1)).map (fun offset : Nat => (Event.closes (base + offset) : Event κ)) =
        .closes base::(List.range m).map (fun offset : Nat => .closes (base + 1 + offset)) := by
      rw [range_succ_eq_map,map_cons,map_map]
      congr 1
      · simp
      refine map_congr_left (fun offset _ => ?_)
      simp only [Function.comp_apply,Nat.succ_eq_add_one,Nat.cast_add,Nat.cast_one]
      congr 1
      omega
    rw [shift]
    cases n with
    | zero => simp [run,accept,blocksFrom]
    | succ n =>
      have rest : (blocksFrom kind (base + 1) n).filter (fun block => !decide (block.1 = base)) =
          blocksFrom kind (base + 1) n := by
        refine filter_eq_self.mpr ?_
        rintro _ member
        obtain _ := memBlocksFrom.mp member
        simp only [Bool.not_eq_true',decide_eq_false_iff_not]
        omega
      have first : accept ⟨.body,count,blocksFrom kind base (n + 1)⟩ (.closes base) =
          some ⟨.body,count,blocksFrom kind (base + 1) n⟩ := by
        simp [accept,blocksFrom,rest]
      have next : base + 1 + m = base + (m + 1 : Nat) := by
        push_cast
        omega
      simp only [run,first,Option.bind_some,ih,next,Nat.add_le_add_iff_right,Nat.add_sub_add_right]

end Omnigate.BlockStream
