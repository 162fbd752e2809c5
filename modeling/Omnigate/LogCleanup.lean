import Omnigate.Machine

/-! The clean-up of old logs on a relational database. Rows older than the target may be inserted at any moment; a
statement on the log table and the update of the task's state that follows it are one step. -/
namespace Omnigate.LogCleanup

open List Machine

structure LogCleanupState where
  (total processed progress remaining : Int := 0)

structure LogCleanupPayload where
  (targetTimestamp batchSize : Int)

def logCleanupProgress (processed total : Int) : Int :=
  if total ≤ 0 then 100
  else if processed ≤ 0 then 0
  else if total ≤ processed then 100
  else processed * 100 / total

def syncLogCleanupStateFromRemaining (state : LogCleanupState) (remaining : Int) : LogCleanupState :=
  let (total,processed) := if state.total ≤ 0 then (remaining,0)
    else (state.total,if state.processed < state.total - remaining then state.total - remaining else state.processed)
  let processed := if processed < 0 then 0 else processed
  ⟨total,processed,logCleanupProgress processed total,remaining⟩

/- The state after a batch that deleted rows. -/
def deletedBatch (state : LogCleanupState) (rowsAffected : Int) : LogCleanupState :=
  let processed := state.processed + rowsAffected
  let total := if state.total < processed then processed else state.total
  ⟨total,processed,logCleanupProgress processed total,
    if rowsAffected < state.remaining then state.remaining - rowsAffected else 0⟩

def logCleanupBatchSize : Int := 100

def LogCleanupPayload.limit (payload : LogCleanupPayload) : Nat :=
  (if payload.batchSize ≤ 0 then logCleanupBatchSize else payload.batchSize).toNat

/- A task that cannot store its state is `lost`: it returns and leaves its row to the expiry of the lease. -/
inductive Point where
  | counting
  | deleting (progressed : Bool)
  | finishing
  | reporting
  | succeeded (deletedCount : Int)
  | failed (err : String)
  | lost

/- `counted` is the last count and `deleted` what the task has deleted. -/
structure Cleanup where
  (rows counted deleted : Nat)
  state : LogCleanupState
  point : Point
  stored : List LogCleanupState

inductive Fault where
  | query (err : String)
  | store
  deriving DecidableEq

inductive Move where
  | insert
  | act (fault : Option Fault)
  deriving DecidableEq

def act (payload : LogCleanupPayload) (s : Cleanup) : Option Cleanup := match s.point with
  | .counting =>
    let state := syncLogCleanupStateFromRemaining s.state s.rows
    some {s with counted := s.rows, state := state, stored := s.stored ++ [state],
                 point := if state.remaining = 0 then .finishing else .deleting false}
  | .deleting progressed =>
    let affected := min s.rows payload.limit
    if affected = 0 then
      some {s with point := if progressed then .counting else .failed "no log rows were deleted"}
    else
      let state := deletedBatch s.state affected
      some {s with rows := s.rows - affected, deleted := s.deleted + affected, state := state,
                   stored := s.stored ++ [state], point := if 0 < state.remaining then .deleting true else .counting}
  | .finishing =>
    let total := if s.state.total < s.state.processed then s.state.processed else s.state.total
    let state := {s.state with total := total, progress := 100, remaining := 0}
    some {s with state := state, stored := s.stored ++ [state], point := .reporting}
  | .reporting => some {s with point := .succeeded s.state.processed}
  | .succeeded _ | .failed _ | .lost => none

def step (payload : LogCleanupPayload) (s : Cleanup) : Move → Option Cleanup
  | .insert => some {s with rows := s.rows + 1}
  | .act none => act payload s
  | .act (some .store) => (act payload s).map (fun n => {n with point := .lost, stored := s.stored})
  | .act (some (.query err)) => match s.point with
    | .counting | .deleting _ => some {s with point := .failed err}
    | _ => none

def runLogCleanupTask (payload : LogCleanupPayload) (rows : Nat) : Cleanup :=
  ⟨rows,0,0,{},if payload.targetTimestamp ≤ 0 then .failed "target timestamp is required" else .counting,[]⟩

def Fits (state : LogCleanupState) : Prop :=
  0 ≤ state.processed ∧ state.processed ≤ state.total ∧ 0 ≤ state.progress ∧ state.progress ≤ 100

def Paced (state : LogCleanupState) : Prop :=
  0 < state.total ∧ state.progress = logCleanupProgress state.processed state.total

def Stands (payload : LogCleanupPayload) (past : List Move) (s : Cleanup) : Point → Prop
  | .counting => s.state = {} ∨ Paced s.state
  | .deleting _ => Paced s.state ∧ 0 < s.state.remaining ∧ s.state.remaining ≤ s.rows
  | .finishing | .reporting => s.counted = 0
  | .succeeded n => n = s.deleted ∧ s.counted = 0
  | .failed err => payload.targetTimestamp ≤ 0 ∨ .act (some (.query err)) ∈ past
  | .lost => .act (some .store) ∈ past

/- A round of the loop is a count and at least one row deleted. -/
def Point.spent : Point → Nat
  | .counting => 0
  | .deleting _ | .finishing => 1
  | .reporting => 2
  | _ => 3

theorem spentWithin (point : Point) : point.spent ≤ 3 := by cases point <;> simp [Point.spent]

/- The rows of the first count have been deleted or are still there, so a recount never raises `processed`. -/
structure Kept (s : Cleanup) : Prop where
  deleted : s.state.processed = s.deleted
  covered : s.state.total ≤ s.deleted + s.rows
  fits : Fits s.state
  stored : ∀ state ∈ s.stored, Fits state ∧ state.progress ≤ s.state.progress
  rising : s.stored.Pairwise (fun a b => a.progress ≤ b.progress)

structure Sound (payload : LogCleanupPayload) (rows : Nat) (past : List Move) (s : Cleanup) : Prop where
  kept : Kept s
  stands : Stands payload past s s.point
  spent : past.length ≤ past.count .insert + 2 * s.deleted + s.point.spent
  conserved : s.rows + s.deleted = rows + past.count .insert

theorem progressWithin (processed total) :
    0 ≤ logCleanupProgress processed total ∧ logCleanupProgress processed total ≤ 100 := by
  unfold logCleanupProgress
  split; · omega
  split; · omega
  split; · omega
  exact ⟨Int.ediv_nonneg (by omega) (by omega),Int.ediv_le_of_le_mul (by omega) (by omega)⟩

theorem progressRises (less : processed ≤ later) (total : Int) :
    logCleanupProgress processed total ≤ logCleanupProgress later total := by
  have low := progressWithin processed total
  have high := progressWithin later total
  unfold logCleanupProgress at *
  split_ifs at * <;> try omega
  exact Int.ediv_le_ediv (by omega) (by omega)

theorem progressFull (total : Int) : logCleanupProgress total total = 100 := by simp [logCleanupProgress]

theorem keptNext {n : Cleanup} (kept : Kept s) (more : n.stored = s.stored ++ [n.state])
    (rise : s.state.progress ≤ n.state.progress)
    (fits : Fits n.state) (deleted : n.state.processed = n.deleted) (covered : n.state.total ≤ n.deleted + n.rows) :
    Kept n := by
  have older : ∀ old ∈ s.stored, Fits old ∧ old.progress ≤ n.state.progress := fun old member =>
    (kept.stored old member).imp_right (fun less => less.trans rise)
  refine ⟨deleted,covered,fits,?_,?_⟩ <;> rw [more]
  · simpa [or_imp,forall_and,fits] using older
  · simpa [pairwise_append] using ⟨kept.rising,fun old member => (older old member).2⟩

theorem countKept (kept : Kept s) (stands : s.state = {} ∨ Paced s.state)
    (counted : state = syncLogCleanupStateFromRemaining s.state s.rows) (point) :
    Kept ⟨s.rows,s.rows,s.deleted,state,point,s.stored ++ [state]⟩ ∧ (0 < s.rows → Paced state) := by
  have ⟨deleted,covered,fits,_,_⟩ := kept
  subst counted
  rcases stands with fresh|paced
  · have none_ : s.deleted = 0 := by simpa [fresh] using deleted.symm
    have within := progressWithin 0 s.rows
    refine ⟨keptNext kept rfl ?_ ?_ ?_ ?_,?_⟩ <;>
      simp [fresh,syncLogCleanupStateFromRemaining,none_,Fits,Paced,within]
  · have same : syncLogCleanupStateFromRemaining s.state s.rows = {s.state with remaining := s.rows} := by
      have above : ¬s.state.processed < s.state.total - s.rows := by omega
      simp only [syncLogCleanupStateFromRemaining,paced.1.not_ge,if_false,above,fits.1.not_gt,← paced.2]
    rw [same]
    exact ⟨keptNext kept rfl (le_refl _) fits deleted covered,fun _ => paced⟩

theorem batchKept (kept : Kept s) (paced : Paced s.state) (within : s.state.remaining ≤ s.rows) (few : affected ≤ s.rows)
    (after : state = deletedBatch s.state affected) (point) :
    Kept ⟨s.rows - affected,s.counted,s.deleted + affected,state,point,s.stored ++ [state]⟩ ∧ Paced state ∧
      state.remaining ≤ (s.rows - affected : Nat) := by
  have ⟨deleted,covered,⟨low,bound,_⟩,_,_⟩ := kept
  obtain ⟨positive,pace⟩ := paced
  have progress : state.progress = logCleanupProgress state.processed state.total := by rw [after]; rfl
  have processed : state.processed = s.state.processed + affected := by rw [after]; rfl
  have total : state.total = max s.state.total state.processed := by grind [deletedBatch]
  have left : state.remaining = max 0 (s.state.remaining - affected) := by grind [deletedBatch]
  have rise : s.state.progress ≤ state.progress := by
    rw [pace,progress,total]
    rcases le_total state.processed s.state.total with less|more
    · rw [max_eq_left less]; exact progressRises (by omega) _
    · rw [max_eq_right more,progressFull]; exact (progressWithin _ _).2
  have fits : Fits state := ⟨by omega,by omega,progress ▸ progressWithin _ _⟩
  exact ⟨keptNext kept rfl rise fits (by dsimp only; omega) (by dsimp only; omega),⟨by omega,progress⟩,by omega⟩

theorem actSound (sound : Sound payload rows past s) (moved : act payload s = some n) (fault) :
    Sound payload rows (past ++ [.act fault]) n ∧ s.stored <+ n.stored := by
  have ⟨kept,stands,spent,conserved⟩ := sound
  have inserts : (past ++ [Move.act fault]).count .insert = past.count .insert := by simp
  have longer : (past ++ [Move.act fault]).length = past.length + 1 := by simp
  unfold act at moved
  split at moved <;> rename_i at_ <;> rw [at_] at stands spent <;> dsimp only [Point.spent] at spent
  · obtain ⟨kept',pace⟩ := countKept kept stands rfl _
    cases moved
    refine ⟨⟨kept',?_,?_,inserts ▸ conserved⟩,sublist_append_left _ _⟩
    all_goals dsimp only; split <;> rename_i left
    · exact Int.ofNat_eq_zero.mp left
    · have some_ : s.rows ≠ 0 := fun none_ => left (congrArg Int.ofNat none_)
      exact ⟨pace (Nat.pos_of_ne_zero some_),Int.natCast_pos.mpr (Nat.pos_of_ne_zero some_),le_refl _⟩
    all_goals dsimp only [Point.spent]; omega
  · have positive : 0 < payload.limit := by grind [LogCleanupPayload.limit,logCleanupBatchSize]
    have some_ : min s.rows payload.limit ≠ 0 := by have := stands.2; omega
    obtain ⟨kept',pace,left⟩ := batchKept kept stands.1 stands.2.2 (Nat.min_le_left s.rows payload.limit) rfl _
    rw [if_neg some_] at moved
    cases moved
    refine ⟨⟨kept',?_,?_,by dsimp only; omega⟩,sublist_append_left _ _⟩
    all_goals dsimp only; split
    · exact ⟨pace,‹_›,left⟩
    · exact .inr pace
    all_goals dsimp only [Point.spent]; omega
  · have ⟨low,bound,_,high⟩ := kept.fits
    rw [if_neg bound.not_gt] at moved
    cases moved
    refine ⟨⟨keptNext kept rfl high ⟨low,bound,?_,?_⟩ kept.deleted kept.covered,stands,?_,inserts ▸ conserved⟩,
      sublist_append_left _ _⟩
    · simp
    · simp
    · dsimp only [Point.spent]; omega
  · cases moved
    exact ⟨⟨{kept with},⟨kept.deleted,stands⟩,by dsimp only [Point.spent]; omega,inserts ▸ conserved⟩,.refl _⟩
  all_goals cases moved

theorem stepSound (sound : Sound payload rows past s) (moved : step payload s move = some n) :
    Sound payload rows (past ++ [move]) n := by
  have ⟨kept,stands,spent,conserved⟩ := sound
  unfold step at moved
  split at moved
  · cases moved
    refine ⟨{kept with covered := ?_},?_,by simp; omega,by simp; omega⟩
    · have := kept.covered
      dsimp only; omega
    · revert stands
      dsimp only
      cases s.point <;> grind [Stands]
  · exact (actSound sound moved none).1
  · obtain ⟨mid,acted,rfl⟩ := Option.map_eq_some_iff.mp moved
    obtain ⟨next,older⟩ := actSound sound acted (some .store)
    refine ⟨{next.kept with stored := ?_, rising := kept.rising},by simp [Stands],?_,next.conserved⟩
    · exact fun state member => next.kept.stored state (older.subset member)
    · exact next.spent.trans (Nat.add_le_add_left (spentWithin _) _)
  · split at moved <;> cases moved
    all_goals
      rename_i at_
      refine ⟨{kept with},.inr (by simp),?_,by simpa using conserved⟩
      simp [at_,Point.spent] at spent ⊢
      omega

theorem cleanupAccounted (h : run (step payload) (runLogCleanupTask payload rows) moves = some s) :
    (∀ state ∈ s.stored, Fits state) ∧ s.stored.Pairwise (fun a b => a.progress ≤ b.progress) ∧
    s.state.processed = s.deleted ∧ s.rows + s.deleted = rows + moves.count .insert ∧
    moves.length ≤ moves.count .insert + 2 * s.deleted + 3 ∧ match s.point with
    | .succeeded n => n = s.deleted ∧ s.counted = 0
    | .failed err => payload.targetTimestamp ≤ 0 ∨ .act (some (.query err)) ∈ moves
    | .lost => .act (some .store) ∈ moves
    | _ => (step payload s (.act none)).isSome := by
  have start : Sound payload rows [] (runLogCleanupTask payload rows) := by
    refine ⟨⟨rfl,?_,?_,?_,.nil⟩,?_,Nat.zero_le _,rfl⟩ <;> simp [runLogCleanupTask,Fits]
    split
    · exact .inl ‹_›
    · exact .inl rfl
  have keep past s move n (sound : Sound payload rows past s) (moved : step payload s move = some n) :
      Sound payload rows (past ++ [move]) n := stepSound sound moved
  have sound := runPast keep start h
  refine ⟨fun state member => (sound.kept.stored state member).1,sound.kept.rising,sound.kept.deleted,sound.conserved,
    sound.spent.trans (Nat.add_le_add_left (spentWithin _) _),?_⟩
  have stands := sound.stands
  cases at_ : s.point <;> rw [at_] at stands <;> try exact stands
  all_goals simp only [step,act,at_,Option.isSome_some]
  split <;> rfl

theorem cleanupAccountedRun : ∃ s,
    run (step ⟨5,2⟩) (runLogCleanupTask ⟨5,2⟩ 3) (.act none::.insert::replicate 5 (.act none)) = some s ∧
    s.point = .succeeded 4 ∧ (4 : Int) = s.deleted ∧ s.counted = 0 :=
  ⟨_,rfl,rfl,(@cleanupAccounted ⟨5,2⟩ 3 (.act none::.insert::replicate 5 (.act none)) _ rfl).2.2.2.2.2⟩

end Omnigate.LogCleanup
