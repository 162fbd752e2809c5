import Omnigate.BatchUpdate

/-! The four balance columns of one user row among all who write users: quota calls in
both modes with their passes, inviter rewards, transfers and profile updates with a copy of
any age. -/
namespace Omnigate.UserBalances

open BalanceWriters Balances BatchUpdate Machine Option
open Pool hiding step State

/- An inviter's row is saved over the balances it was loaded with, a profile update carries the stored `aff_quota`,
and no flush statement for the user fails. -/
def careful (id : Int) (pool : Pool.State Ledger Writer) (move : Move Writer Choice) : Bool :=
  ¬(disturbsAt (.user .quota) id pool move ∨ disturbsAt (.user .usedQuota) id pool move ∨
    disturbsAt (.user .requestCount) id pool move ∨ disturbsAt (.user .affQuota) id pool move)

theorem carefulQuiet {id} (care : careful id pool move) (column) :
    disturbsAt (.user column) id pool move = false := by
  simp only [careful,decide_eq_true_eq,not_or,Bool.not_eq_true] at care
  obtain ⟨quota,used,count,aff⟩ := care
  cases column
  · exact quota
  · exact used
  · exact count
  · exact aff

theorem userBalancesKept {cfg moves out column id v0} {db : Books} (stored : db.stored (.user column) id = some v0)
    (care : Along (step cfg) (fun pool move => careful id pool move) (start db) moves)
    (h : run (step cfg) (start db) moves = some out) :
    (∃ v, out.shared.db.stored (.user column) id = some v ∧ v + waiting (.user column) id out.shared.live +
          (out.procs.map (fun p => waiting (.user column) id (holds p))).sum =
        v0 + logged (.user column) id out.shared.done) ∧
    (atRest out → (∀ type, out.shared.live type = []) →
      out.shared.db.stored (.user column) id = some (v0 + logged (.user column) id out.shared.done)) := by
  have quiet : Along (step cfg) (fun pool move => disturbsAt (.user column) id pool move = false) (start db) moves :=
    alongWeaken (fun _ _ _ _ _ _ => trivial) (fun _ _ (_ : True) care => carefulQuiet care column) trivial care
  have sound := runBalanced stored quiet h
  exact ⟨balancedSum sound,balancedRest sound⟩

def inviter : Books := ⟨[someUser 7 100 600000],[],[]⟩

def renamed (user : User) : User := { user with displayName := "Amy B." }

def inTurn : List (Move Writer Choice) :=
  [.start (.inviting 7),.act 0 working,.act 0 working,.start (.calling (.decreaseUserQuota 7 30 true)),.act 1 working,
    .start (.transferring 7 500000),.act 2 working,
    .start (.updating (renamed (someUser 7 100 100100)) false),.act 3 working]

theorem userBalancesKeptInTurn :
    ∃ out, run (step directMode) (start inviter) inTurn = some out ∧
      out.shared.db.stored (.user .quota) 7 = some 500070 ∧
      out.shared.db.stored (.user .affQuota) 7 = some 100100 := by
  have runs : (run (step directMode) (start inviter) inTurn).map
      (fun out => (out.procs.all isFinished,batchUpdateTypes.all (fun type => out.shared.live type = []),
        logged (.user .quota) 7 out.shared.done,logged (.user .affQuota) 7 out.shared.done)) =
      some (true,true,499970,-499900) := by decide +kernel
  obtain ⟨out,h,facts⟩ := map_eq_some_iff.mp runs
  simp only [Prod.mk.injEq] at facts
  obtain ⟨rest,live,quota,aff⟩ := facts
  have empty : ∀ type, out.shared.live type = [] := by
    intro type
    have all := List.all_eq_true.mp live type (by cases type <;> decide)
    exact of_decide_eq_true all
  have care : Along (step directMode) (fun pool move => careful 7 pool move) (start inviter) inTurn :=
    alongChecked (by decide +kernel)
  have first : inviter.stored (.user .quota) 7 = some 100 := by decide +kernel
  have second : inviter.stored (.user .affQuota) 7 = some 600000 := by decide +kernel
  refine ⟨out,h,?_,?_⟩
  · rw [(userBalancesKept first care h).2 (restChecked rest) empty,quota]
    decide
  · rw [(userBalancesKept second care h).2 (restChecked rest) empty,aff]
    decide

theorem chargeAndTransferAreUndone : (∃ out, run (step directMode) (start inviter)
        [.start (.inviting 7),.act 0 working,.start (.calling (.decreaseUserQuota 7 30 true)),.act 1 working,
          .act 0 working] = some out ∧
      out.shared.db.stored (.user .quota) 7 = some 100 ∧ logged (.user .quota) 7 out.shared.done = -30) ∧
    ∃ out, run (step directMode) (start inviter)
        [.start (.transferring 7 500000),.act 0 working,
          .start (.updating (renamed (someUser 7 100 600000)) false),.act 1 working] = some out ∧
      out.shared.db.stored (.user .quota) 7 = some 500100 ∧
      out.shared.db.stored (.user .affQuota) 7 = some 600000 := by decide +kernel

end Omnigate.UserBalances
