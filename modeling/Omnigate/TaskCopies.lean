import Omnigate.TaskTerminal

/-! What the copies in memory are worth while finished rows stay finished and no poller comes back to a finished copy:
an unfinished copy has the quota that was charged, and refunds and settlements are made for a row that has failed or
succeeded. -/
namespace Omnigate.TaskCopies

open Accounts Machine TaskBilling TaskPolling TaskRow TaskWorkers TaskTerminal List Option
open Pool hiding step State

def Copy (q : Int) (s : Board) : Worker → Prop
  | .ready _ | .hold (.bulk _) _ | .done => True
  | .hold .reconcile _ | .restoring _ => s.row.status = .failure
  | .hold _ task => ¬terminal task.status → task.quota = q
  | .refunding job task | .marking job task => s.row.status = .failure ∧ (job ≠ .reconcile → terminal task.status)
  | .settling task _ | .adjusting task _ | .recording task => s.row.status = .success ∧ terminal task.status

def polls : Job → Bool
  | .video | .suno | .timeout => true
  | _ => false

def careful (s : Board) (worker : Worker) (env : Env) : Bool :=
  !breaks s worker env && match worker with
    | .hold job task => !(polls job && terminal task.status)
    | _ => true

structure Sound (q : Int) (s : State) : Prop where
  live : ¬terminal s.shared.row.status → s.shared.row.quota = q
  copies : ∀ p ∈ s.procs, Copy q s.shared p

theorem copyFrame (steady : terminal s.row.status → s'.row.status = s.row.status) (h : Copy q s p) : Copy q s' p := by
  have kept : ∀ {st}, terminal st → s.row.status = st → s'.row.status = st := by
    intro st ends same
    rw [steady (by rw [same]; exact ends),same]
  cases p with
  | hold job =>
    cases job with
    | reconcile => exact kept rfl h
    | _ => exact h
  | restoring => exact kept rfl h
  | refunding | marking | settling | adjusting | recording => exact ⟨kept rfl h.1,h.2⟩
  | _ => trivial

theorem restCopy (ends : terminal task.status) : Copy q s (rest job task) := by
  cases job with
  | video | suno => exact fun live => absurd ends live
  | _ => trivial

theorem writeCopy (writes : job.writes) (live : ¬terminal task.status)
    (copy : task.quota = q) (h : act cfg s (.hold job task) env = some (s',w)) : Copy q s' w := by
  have fits := answeredFits cfg env task writes
  obtain ⟨_,persisted,rfl⟩ := actHold writes h
  generalize answered cfg job env task = o at fits persisted
  have rested : ∀ board, Copy q board (rest job o.task) := by
    intro board
    have poller : job = .timeout ∨ o.task.quota = q := by
      rcases fits.quota with kept | ⟨timeout,_⟩
      · exact .inr (kept.trans copy)
      · exact .inl timeout
    cases job with
    | video | suno =>
      rcases poller with wrong | quota
      · cases wrong
      · exact fun _ => quota
    | timeout | fetch => trivial
    | reconcile | bulk => cases writes
  rcases persistCases persisted with ⟨_,_,⟨open',rfl⟩ | rfl⟩ | ⟨_,_,_,rfl,rfl | ⟨_,rfl⟩⟩
  · have noSettle : ¬o.settle := fun settle => open' (fits.settles live settle).2.1
    have noRefund : ¬o.refund := fun refund => open' (fits.refunds live refund).1
    rw [bill,if_neg noSettle,if_neg noRefund]
    exact rested _
  · exact rested _
  · unfold bill
    split
    · rename_i settle
      have success := (fits.settles live settle).2.2
      exact ⟨success,by rw [success]; rfl⟩
    split
    · rename_i refund
      have failed := (fits.refunds live refund).2.1
      exact ⟨failed,fun _ => by rw [failed]; rfl⟩
    · exact rested _
  · exact rested _

theorem fetchDone (h : act cfg s (.hold .fetch task) env = some (s',w)) : w = .done := by
  have unbilled : (answered cfg .fetch env task).settle = false ∧ (answered cfg .fetch env task).refund = false := by
    show (tryRealtimeFetch cfg.site env.answer task).settle = false ∧
      (tryRealtimeFetch cfg.site env.answer task).refund = false
    unfold tryRealtimeFetch
    split <;> exact ⟨rfl,rfl⟩
  obtain ⟨_,persisted,_⟩ := actHold rfl h
  have billed : ∀ info, bill .fetch (answered cfg .fetch env task) info = .done := by
    intro info
    simp [bill,unbilled.1,unbilled.2,rest]
  rcases persistCases persisted with ⟨_,_,⟨_,rfl⟩ | rfl⟩ | ⟨_,_,_,_,rfl | ⟨_,rfl⟩⟩
  all_goals first | exact billed _ | rfl

theorem carefulSteady (h : careful s worker env) : breaks s worker env = false := by
  simp only [careful,Bool.and_eq_true,Bool.not_eq_true'] at h
  exact h.1

theorem carefulLive (h : careful s (.hold job task) env) (poller : polls job) :
    ¬terminal task.status := by
  simp only [careful,poller,Bool.true_and,Bool.and_eq_true,Bool.not_eq_true'] at h
  simp [h.2]

theorem copyNext (live : ¬terminal s.row.status → s.row.quota = q) (copy : Copy q s p)
    (cares : careful s p env) (h : act cfg s p env = some (s',w)) : Copy q s' w := by
  cases p with
  | ready job =>
    cases h
    split
    · rename_i loaded
      cases job with
      | reconcile =>
        simp only [eligible,unrefundedFailed,decide_eq_true_eq] at loaded
        exact loaded.2.1
      | bulk => trivial
      | video | suno | timeout | fetch => exact live
    · trivial
  | hold job =>
    cases job with
    | reconcile =>
      have kept := actReconcile h
      rcases (claimingCases h).2 with rfl | rfl
      · exact ⟨kept.trans copy,fun direct => absurd rfl direct⟩
      · trivial
    | bulk => cases h; trivial
    | video | suno | timeout =>
      have unfinished := carefulLive cares rfl
      exact writeCopy rfl unfinished (copy unfinished) h
    | fetch => rw [fetchDone h]; trivial
  | refunding job task =>
    have rested : Copy q s' (rest job task) := by
      by_cases sweep : job = .reconcile
      · subst sweep; trivial
      · exact restCopy (copy.2 sweep)
    rcases refundingCases h with ⟨_,_,rfl⟩ | ⟨_,_,rfl,rfl⟩ | ⟨_,_,rfl,rfl⟩
    · exact rested
    · exact copy
    split
    · exact copy.1
    · exact rested
  | marking job =>
    cases h
    by_cases sweep : job = .reconcile
    · subst sweep; trivial
    · exact restCopy (copy.2 sweep)
  | restoring => cases h; trivial
  | settling =>
    obtain ⟨_,rfl,⟨_,rfl⟩ | ⟨_,_,rfl⟩⟩ := settlingCases h
    · exact fun live => absurd copy.2 live
    · exact copy
  | adjusting =>
    rcases adjustingCases h with ⟨_,_,rfl,rfl⟩ | ⟨_,_,rfl,rfl⟩
    · exact copy
    · exact fun live => absurd copy.2 live
  | recording =>
    cases h
    exact fun live => absurd copy.2 live
  | done => cases h

theorem writeLive (writes : job.writes) (quota : s.row.quota = q)
    (copy : ¬terminal task.status → task.quota = q) (before : ¬terminal s.row.status)
    (after : ¬terminal s'.row.status) (h : act cfg s (.hold job task) env = some (s',w)) : s'.row.quota = q := by
  have fits := answeredFits cfg env task writes
  obtain ⟨_,persisted,rfl⟩ := actHold writes h
  rcases persistCases persisted with ⟨rfl,_⟩ | ⟨write,_,same,rfl,_⟩
  · exact quota
  rcases fits.quota with kept | ⟨timeout,_⟩
  · exact kept.trans (copy (by rw [← same]; exact before))
  subst timeout
  have failed : (answered cfg .timeout env task).task.status = .failure := fits.written write
  exact absurd (by show terminal (answered cfg .timeout env task).task.status; rw [failed]; rfl) after

theorem liveNext (live : ¬terminal s.row.status → s.row.quota = q) (copy : Copy q s p)
    (cares : careful s p env) (h : act cfg s p env = some (s',w)) : ¬terminal s'.row.status → s'.row.quota = q := by
  intro open'
  have before : ¬terminal s.row.status := by
    intro finished
    rw [(actSteady h finished).mpr (carefulSteady cares)] at open'
    exact open' finished
  have marked : ∀ {st}, s.row.status = st → terminal st → False := by
    intro st same finished
    rw [same] at before
    exact before finished
  cases p with
  | ready => cases h; exact live before
  | hold job =>
    cases job with
    | reconcile => exact (marked copy rfl).elim
    | bulk =>
      cases h
      unfold taskBulkUpdateByID at open' ⊢
      cases fault : env.stmt.fault with
      | some => exact live before
      | none => rw [fault] at open'; exact absurd rfl open'
    | video | suno | timeout | fetch => exact writeLive rfl (live before) copy before open' h
  | refunding | marking | settling | adjusting | recording =>
    exact (marked copy.1 rfl).elim
  | restoring => exact (marked copy rfl).elim
  | done => cases h

def stepCareful (s : State) : Move Worker Env → Bool
  | .start _ => true
  | .act i env => match s.procs[i]? with
    | some worker => careful s.shared worker env
    | none => true

theorem soundKept (sound : Sound q s) (cares : stepCareful s move) (h : step cfg s move = some n) : Sound q n := by
  cases move with
  | start p =>
    obtain ⟨begun,rfl⟩ := stepStart h
    refine ⟨sound.live,Table.allAdded sound.copies ?_⟩
    cases p with
    | ready => trivial
    | _ => cases begun
  | act =>
    obtain ⟨p,_,w,found,moved,rfl⟩ := stepAct h
    simp only [stepCareful,found] at cares
    have copy := sound.copies p (mem_of_getElem? found)
    refine ⟨liveNext sound.live copy cares moved,Table.allSet (fun r old => ?_) (copyNext sound.live copy cares moved)⟩
    exact copyFrame (fun finished => (actSteady moved finished).mpr (carefulSteady cares)) (sound.copies r old)

theorem soundStart : Sound row.quota (start row world) :=
  ⟨fun _ => rfl,fun p none => by cases none⟩

end Omnigate.TaskCopies
