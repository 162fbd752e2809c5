import Omnigate.BatchUpdate

/-! The sum of what a token has left and what it has used. Charges and refunds move quota
between the two columns, at once or through the batch stores; an edit writes one of them
back from the copy it loaded. -/
namespace Omnigate.TokenBalances

open BalanceWriters Balances BatchUpdate Machine Table Option
open Pool hiding step State

def tokenSum (k : Int) (db : Books) : Option Int :=
  (lookup Token.id k db.tokens).map (fun token => token.remainQuota + token.usedQuota)

def setsQuota (pool : Pool.State Ledger Writer) : Move Writer Choice → Bool
  | .start _ => false
  | .act i c => match pool.procs[i]? with
    | some (.savingToken _ statusOnly) => ¬statusOnly ∧ c.fault = none
    | _ => false

/- A status-only write carries the remaining quota that is stored. -/
def careful (pool : Pool.State Ledger Writer) : Move Writer Choice → Bool
  | .start _ => true
  | .act i c => match pool.procs[i]? with
    | some (.savingToken token true) => c.fault = none →
      (lookup Token.id token.id pool.shared.db.tokens).all (fun row => row.remainQuota = token.remainQuota)
    | _ => true

theorem sumOfStored (k db) :
    tokenSum k db = (db.stored (.token .remainQuota) k).bind (fun remain =>
      (db.stored (.token .usedQuota) k).map (fun used => remain + used)) := by
  simp only [tokenSum,Books.stored]
  cases lookup Token.id k db.tokens <;> rfl

theorem addsSum {id} (adds : Adds db id delta db')
    (even : delta (.token .remainQuota) + delta (.token .usedQuota) = 0) (k) :
    tokenSum k db' = tokenSum k db := by
  rw [sumOfStored,sumOfStored,adds,adds]
  cases db.stored (.token .remainQuota) k with
  | none => rfl
  | some =>
    cases db.stored (.token .usedQuota) k with
    | none => rfl
    | some =>
      simp only [map_some,bind_some,Option.some.injEq]
      split <;> omega

theorem flushSum (h : flush now key stores db = some (db',left)) (k) :
    tokenSum k db' = tokenSum k db := by
  unfold flush at h
  split at h
  · split at h <;> cases h
    refine addsSum (increaseTokenQuotaAdds _ _ _ _) ?_ k
    simp [share]
  split at h
  · split at h <;> cases h
    rfl
  split at h <;> cases h
  unfold updateUserQuotaUsedQuotaAndRequestCount
  split <;> rfl

theorem actSum (other : ∀ token statusOnly, p ≠ .savingToken token statusOnly)
    (h : act cfg s p c = some (s',q)) (k) : tokenSum k s'.db = tokenSum k s.db := by
  cases p with
  | finished => cases h
  | savingToken token statusOnly => exact absurd rfl (other token statusOnly)
  | recording records => cases records <;> cases h <;> rfl
  | checking left | swapping left => cases left <;> cases h <;> rfl
  | calling call =>
    simp only [act,settle] at h
    split at h
    · cases h; rfl
    split at h
    · cases h; rfl
    split at h
    · cases h; rfl
    · cases h
      exact addsSum (directlyAdds c.now call s.db) (by cases call <;> simp [callEntry,Call.records,share]) k
  | flushing =>
    simp only [act] at h
    split at h
    · cases h; rfl
    split at h
    · cases h
    rename_i flushed
    cases h
    split
    · exact flushSum flushed k
    · rfl
  | inviting | editing =>
    simp only [act] at h
    split at h <;> cases h <;> rfl
  | savingInvite =>
    simp only [act,settle] at h
    split at h <;> cases h <;> rfl
  | transferring =>
    simp only [act,settle] at h
    split at h
    · rename_i ok
      cases h
      obtain ⟨_,_,rfl⟩ := transferOk ok
      rfl
    · cases h; rfl
  | updating =>
    simp only [act] at h
    split at h
    · rename_i ok
      cases h
      rw [sumOfStored,sumOfStored,profileStored ok,profileStored ok]
      simp
    · cases h; rfl

theorem writtenSum (token db k) :
    tokenSum k (changeToken token.id (tokenWritten token) db) = (lookup Token.id k db.tokens).map (fun row =>
        (if k = token.id then token.remainQuota else row.remainQuota) + row.usedQuota) := by
  have keys : ∀ row, (tokenWritten token row).id = row.id := fun _ => rfl
  unfold tokenSum changeToken
  rw [lookupUpdateKey keys,map_map]
  by_cases this : k = token.id <;> simp only [this,if_true,if_false] <;> rfl

theorem writtenSumIff (token db) :
    (∀ k, tokenSum k (changeToken token.id (tokenWritten token) db) = tokenSum k db) ↔
      (lookup Token.id token.id db.tokens).all (fun row => row.remainQuota = token.remainQuota) := by
  constructor
  · intro same
    have here := same token.id
    rw [writtenSum] at here
    unfold tokenSum at here
    cases found : lookup Token.id token.id db.tokens with
    | none => rfl
    | some =>
      simp only [found,map_some,if_true,Option.some.injEq] at here
      simp only [all_some,decide_eq_true_eq]
      omega
  · intro carried k
    rw [writtenSum]
    unfold tokenSum
    cases found : lookup Token.id k db.tokens with
    | none => rfl
    | some =>
      by_cases this : k = token.id
      · rw [← this,found] at carried
        simp only [all_some,decide_eq_true_eq] at carried
        simp [this,carried]
      · simp [this]

theorem stepSumIff (h : step cfg pool move = some n) (other : setsQuota pool move = false) :
    (∀ k, tokenSum k n.shared.db = tokenSum k pool.shared.db) ↔ careful pool move := by
  cases move with
  | start =>
    obtain ⟨_,rfl⟩ := stepStart h
    exact ⟨fun _ => rfl,fun _ _ => rfl⟩
  | act i c =>
    obtain ⟨p,_,q,found,moved,rfl⟩ := stepAct h
    cases p with
    | savingToken _ statusOnly =>
      simp only [act] at moved
      split at moved
      · rename_i fails
        cases moved
        have care : careful pool (.act i c) := by
          cases statusOnly <;> simp [careful,found,fails]
        exact ⟨fun _ => care,fun _ _ => rfl⟩
      rename_i works
      cases moved
      have onlyStatus : statusOnly = true := by
        simpa [setsQuota,found,not_not.mp works] using other
      subst onlyStatus
      rw [writtenSumIff]
      simp [careful,found,not_not.mp works]
    | calling | recording | checking | swapping | flushing | inviting | savingInvite | transferring | updating
    | editing | finished =>
      have keeps := actSum (by simp) moved
      exact ⟨fun _ => by simp [careful,found],fun _ => keeps⟩

theorem sumChangesByQuotaEditsIff {cfg moves out} {db : Books} (h : run (step cfg) (start db) moves = some out) :
    (∀ earlier move later mid post, moves = earlier ++ move::later → run (step cfg) (start db) earlier = some mid →
      step cfg mid move = some post → ∀ k, tokenSum k post.shared.db ≠ tokenSum k mid.shared.db → setsQuota mid move) ↔
    Along (step cfg) (fun pool move => careful pool move) (start db) moves := by
  constructor
  · intro only
    refine alongSteps h (fun earlier move later mid post split before moved => ?_)
    by_cases sets : setsQuota mid move
    · cases move with
      | start => cases sets
      | act i c =>
        cases found : mid.procs[i]? with
        | none => simp [setsQuota,found] at sets
        | some p =>
          cases p with
          | savingToken _ statusOnly =>
            have edit : statusOnly = false := by
              have both : statusOnly = false ∧ c.fault = none := by simpa [setsQuota,found] using sets
              exact both.1
            simp [careful,found,edit]
          | calling | recording | checking | swapping | flushing | inviting | savingInvite | transferring | updating
          | editing | finished => simp [careful,found]
    rw [← stepSumIff moved (Bool.not_eq_true _ ▸ sets)]
    intro k
    by_contra changed
    exact sets (only earlier move later mid post split before moved k changed)
  · rintro care earlier move later mid post rfl before moved k changed
    by_contra sets
    have here := (alongAppend care before).2.1
    exact changed ((stepSumIff moved (by simpa using sets)).mpr here k)

def someToken (remainQuota usedQuota : Int) : Token :=
  ⟨3,7,.enabled,"key",0,-1,remainQuota,false,false,"",none,usedQuota,"",false⟩

def oneToken : Books := ⟨[],[someToken 100 0],[]⟩

def disable : TokenRequest := ⟨7,true,{someToken 0 0 with status := .disabled}⟩

theorem sumKeptByLaterDisable :
    ∃ out, run (step directMode) (start oneToken)
        [.start (.calling (.decreaseTokenQuota 3 30)),.act 0 working,
          .start (.editing disable),.act 1 working,.act 1 working] = some out ∧
      ∀ earlier move later mid post, [.start (.calling (.decreaseTokenQuota 3 30)),.act 0 working,
          .start (.editing disable),.act 1 working,.act 1 working] = earlier ++ move::later →
        run (step directMode) (start oneToken) earlier = some mid →
        step directMode mid move = some post →
        ∀ k, tokenSum k post.shared.db ≠ tokenSum k mid.shared.db → setsQuota mid move := by
  have runs : (run (step directMode) (start oneToken)
      [.start (.calling (.decreaseTokenQuota 3 30)),.act 0 working,
        .start (.editing disable),.act 1 working,.act 1 working]).isSome := by decide +kernel
  obtain ⟨out,h⟩ := isSome_iff_exists.mp runs
  exact ⟨out,h,(sumChangesByQuotaEditsIff h).mpr (alongChecked (by decide +kernel))⟩

theorem disableUndoesCharge :
    ∃ mid post, run (step directMode) (start oneToken)
        [.start (.editing disable),.act 0 working,
          .start (.calling (.decreaseTokenQuota 3 30)),.act 1 working] = some mid ∧
      step directMode mid (.act 0 working) = some post ∧
      tokenSum 3 mid.shared.db = some 100 ∧ tokenSum 3 post.shared.db = some 130 ∧
      setsQuota mid (.act 0 working) = false := by decide +kernel

end Omnigate.TokenBalances
