import Omnigate.AuthFlow

/-! Auth flows over every interleaving of calls. A step of a call is quiet or the commit of its transaction; the lock
a call holds while it acts makes the commit of a flow the only one. -/
namespace Omnigate.AuthFlows

open Machine List Option

variable {δ : Type} {config : Config}

abbrev Calls (δ : Type) := Pool.State (Tables δ) (Process δ)

def Process.succeeded (p : Process δ) : Option AuthFlow :=
  match p.phase with
  | .finished (.ok flow) => some flow
  | _ => none

variable {p q : Process δ}

theorem succeededPhase (h : p.succeeded = some flow) : p.phase = .finished (.ok flow) := by
  unfold Process.succeeded at h
  split at h
  · rename_i same
    rw [same,some.inj h]
  · cases h

structure Agrees (config : Config) (call : Call δ) (flow : AuthFlow) : Prop where
  token : flow.tokenHash = config.authFlowTokenHash call.token
  purpose : flow.purpose = call.criteria.purpose
  provider : call.criteria.provider ≠ "" → flow.provider = call.criteria.provider
  intent : call.criteria.intent ≠ "" → flow.intent = call.criteria.intent
  userId : call.criteria.userId ≠ 0 → flow.userId = call.criteria.userId
  sessionId : call.criteria.sessionId ≠ "" → flow.sessionId = call.criteria.sessionId

theorem matchAgrees {call : Call δ} (h : applyAuthFlowMatch config call.token call.criteria flow) :
    Agrees config call flow := by
  simp only [applyAuthFlowMatch,Bool.and_eq_true,Bool.or_eq_true,decide_eq_true_eq] at h
  obtain ⟨⟨⟨⟨⟨token,purpose⟩,provider⟩,intent⟩,userId⟩,sessionId⟩ := h
  exact {
    token := token
    purpose := purpose
    provider := fun bound => provider.resolve_left bound
    intent := fun bound => intent.resolve_left bound
    userId := fun bound => userId.resolve_left bound
    sessionId := fun bound => sessionId.resolve_left bound }

structure Commits (config : Config) (s : Tables δ) (p : Process δ) (n : Tables δ) (q : Process δ) (flow : AuthFlow)
    (writes : δ → δ) : Prop where
  acting : p.phase = .acting flow writes .succeed
  result : q.phase = .finished (.ok flow)
  flows : n.flows = Table.updateWhere (fun row => row.id = flow.id) (fun row => {row with consumedAt := flow.consumedAt}) s.flows
  data : n.data = writes s.data

inductive Moves (config : Config) (rows : List AuthFlow) (data : δ) (call : Call δ) : Phase δ → Phase δ → Prop
  | query {flow} (member : flow ∈ rows) (matched : applyAuthFlowMatch config call.token call.criteria flow) :
      Moves config rows data call .called (.queried flow)
  | check {flow now} (fresh : flow.consumedAt = none) (early : now < flow.expiresAt) :
      Moves config rows data call (.queried flow) (.timed flow now)
  | update {flow now row} (found : row ∈ rows) (hit : consumable flow now row) :
      Moves config rows data call (.timed flow now)
        (.acting {flow with consumedAt := some now} id (call.action {flow with consumedAt := some now}))
  | statement {flow writes write next} :
      Moves config rows data call (.acting flow writes (.statement write next))
        (.acting flow (write ∘ writes) (next (writes data)))
  | refuse {phase error} : Moves config rows data call phase (.finished (.error error))

structure Quiet (config : Config) (s : Tables δ) (p : Process δ) (n : Tables δ) (q : Process δ) : Prop where
  moves : Moves config s.flows s.data p.call p.phase q.phase
  flows : n.flows = s.flows
  data : n.data = s.data

structure Locks (config : Config) (s : Tables δ) (p : Process δ) (n : Tables δ) (q : Process δ) : Prop where
  taken : ∀ k, k ∈ n.locked ↔ (k ∈ s.locked ∧ p.holds config ≠ some k) ∨ q.holds config = some k
  fresh : ∀ k, q.holds config = some k → p.holds config = some k ∨ k ∉ s.locked

theorem finishLocks (s n : Tables δ) (p result) (same : n.locked = s.locked) :
    Locks config s p (finish config n p result).1 (finish config n p result).2 where
  taken := by
    intro k
    have idle : (finish config n p result).2.holds config = none := rfl
    rw [idle]
    simp [finish,Tables.release,mem_filter,same]
  fresh := by
    intro k holding
    cases holding

theorem keepLocks (own : ∀ k, p.holds config = some k → k ∈ s.locked)
    (locked : n.locked = s.locked) (same : q.holds config = p.holds config) : Locks config s p n q where
  taken := by
    intro k
    rw [locked,same]
    by_cases mine : p.holds config = some k
    · simp [mine,own k mine]
    · simp [mine]
  fresh := fun k holding => .inl (same ▸ holding)

theorem takeLocks {id} (none_ : p.holds config = none) (holding : q.holds config = some id)
    (free : id ∉ s.locked) (locked : n.locked = id::s.locked) :
    Locks config s p n q where
  taken := by
    intro k
    rw [locked,none_,holding,mem_cons]
    constructor
    · rintro (rfl | old)
      · exact .inr rfl
      · exact .inl ⟨old,by simp⟩
    rintro (⟨old,_⟩ | same)
    · exact .inr old
    · exact .inl (some.inj same).symm
  fresh := by
    intro k same
    rw [holding] at same
    cases same
    exact .inr free

variable {rows : List AuthFlow}

theorem consumableRow (one : (rows.filter (consumable flow now)).length = 1) :
    ∃ row ∈ rows, consumable flow now row := by
  obtain ⟨row,only⟩ := length_eq_one_iff.mp one
  have inside : row ∈ rows.filter (consumable flow now) := only ▸ mem_singleton_self row
  exact ⟨row,mem_filter.mp inside⟩

theorem advanceCases (h : advance config s p = some (n,q)) (own : ∀ k, p.holds config = some k → k ∈ s.locked) :
    q.call = p.call ∧ Locks config s p n q ∧
      (Quiet config s p n q ∨ ∃ flow writes, Commits config s p n q flow writes) := by
  have refused : ∀ error, finish config s p (.error error) = (n,q) → q.call = p.call ∧ Locks config s p n q ∧
      (Quiet config s p n q ∨ ∃ flow writes, Commits config s p n q flow writes) := by
    rintro error ⟨⟩
    exact ⟨rfl,finishLocks s s p _ rfl,.inl ⟨.refuse,rfl,rfl⟩⟩
  obtain ⟨call,phase⟩ := p
  cases phase with
  | called =>
    simp only [advance] at h
    split at h
    · exact refused _ (some.inj h)
    split at h
    · exact refused _ (some.inj h)
    rename_i flow found
    have query : Moves config s.flows s.data call .called (.queried flow) :=
      .query (mem_of_find?_eq_some found) (List.find?_some found)
    split at h
    · rename_i locks
      split at h
      · cases h
      rename_i free
      cases h
      exact ⟨rfl,takeLocks rfl (by simp [Process.holds,locks]) free rfl,.inl ⟨query,rfl,rfl⟩⟩
    rename_i locks
    cases h
    exact ⟨rfl,keepLocks own rfl (by simp [Process.holds,locks]),.inl ⟨query,rfl,rfl⟩⟩
  | queried =>
    simp only [advance] at h
    split at h
    · exact refused _ (some.inj h)
    split at h
    · exact refused _ (some.inj h)
    rename_i fresh early
    cases h
    exact ⟨rfl,keepLocks own rfl rfl,.inl ⟨.check (not_not.mp fresh) (not_le.mp early),rfl,rfl⟩⟩
  | timed =>
    simp only [advance] at h
    split at h
    · cases h
    rename_i waits
    split at h
    · exact refused _ (some.inj h)
    rename_i one
    obtain ⟨_,found,hit⟩ := consumableRow (not_not.mp one)
    cases h
    refine ⟨rfl,?_,.inl ⟨.update found hit,rfl,rfl⟩⟩
    by_cases locks : config.rowLocks
    · exact keepLocks own (by simp [locks]) (by simp [Process.holds,locks])
    · refine takeLocks (by simp [Process.holds,locks]) rfl ?_ (by simp [locks])
      simpa [locks] using waits
  | acting flow writes rest =>
    cases rest with
    | succeed =>
      cases h
      exact ⟨rfl,finishLocks s _ _ _ rfl,.inr ⟨flow,writes,rfl,rfl,rfl,rfl⟩⟩
    | fail => exact refused _ (some.inj h)
    | statement =>
      cases h
      exact ⟨rfl,keepLocks own rfl rfl,.inl ⟨.statement,rfl,rfl⟩⟩
  | finished => cases h

theorem actCases {choice} (h : act config s p choice = some (n,q))
    (own : ∀ k, p.holds config = some k → k ∈ s.locked) :
    q.call = p.call ∧ Locks config s p n q ∧
      (Quiet config s p n q ∨ ∃ flow writes, Commits config s p n q flow writes) := by
  unfold act at h
  split at h
  · split at h
    · cases h
    · cases h
      exact ⟨rfl,finishLocks s _ p _ rfl,.inl ⟨.refuse,rfl,rfl⟩⟩
  obtain ⟨call,locks,outcome⟩ := advanceCases h own
  refine ⟨call,{locks with},outcome.imp ?_ ?_⟩
  · exact fun quiet => {quiet with}
  · rintro ⟨flow,writes,commits⟩
    exact ⟨flow,writes,{commits with}⟩

def AuthFlow.pristine (flow : AuthFlow) : AuthFlow := {flow with consumedAt := none}

structure Copied (config : Config) (rows : List AuthFlow) (call : Call δ) (flow : AuthFlow) : Prop where
  agrees : Agrees config call flow
  stored : flow.pristine ∈ rows.map AuthFlow.pristine

def InTime (flow : AuthFlow) : Prop := ∃ now, flow.consumedAt = some now ∧ now < flow.expiresAt

def Fits (config : Config) (rows : List AuthFlow) (call : Call δ) : Phase δ → Prop
  | .called => True
  | .queried flow => Copied config rows call flow
  | .timed flow now => Copied config rows call flow ∧ now < flow.expiresAt
  | .acting flow _ _ => Copied config rows call flow ∧ InTime flow ∧ ∃ row ∈ rows, row.id = flow.id ∧ row.consumedAt = none
  | .finished (.ok flow) => Copied config rows call flow ∧ InTime flow ∧ flow ∈ rows
  | .finished (.error _) => True

theorem movesFit {data : δ} {after} (moves : Moves config rows data call before after)
    (fits : Fits config rows call before) : Fits config rows call after := by
  cases moves with
  | query member matched => exact ⟨matchAgrees matched,mem_map_of_mem member⟩
  | check _ early => exact ⟨fits,early⟩
  | update found hit =>
    obtain ⟨⟨agrees,stored⟩,early⟩ := fits
    simp only [consumable,Bool.and_eq_true,decide_eq_true_eq] at hit
    exact ⟨⟨{agrees with},stored⟩,
      ⟨_,rfl,early⟩,_,found,hit.1.1,hit.1.2⟩
  | statement => exact fits
  | refuse => trivial

def consume (flow : AuthFlow) (rows : List AuthFlow) : List AuthFlow :=
  Table.updateWhere (fun row => row.id = flow.id) (fun row => {row with consumedAt := flow.consumedAt}) rows

theorem consumePristine (flow rows) :
    (consume flow rows).map AuthFlow.pristine = rows.map AuthFlow.pristine :=
  Table.updateKeys (f := fun row => {row with consumedAt := flow.consumedAt}) (fun _ _ => rfl) rows

theorem consumeOther (member : row ∈ rows) (other : row.id ≠ flow.id) :
    row ∈ consume flow rows := by
  refine mem_map.mpr ⟨row,member,?_⟩
  simp [other]

theorem consumeStored (stored : flow.pristine ∈ rows.map AuthFlow.pristine) :
    flow ∈ consume flow rows := by
  obtain ⟨row,member,same⟩ := mem_map.mp stored
  refine mem_map.mpr ⟨row,member,?_⟩
  simp only [AuthFlow.pristine,AuthFlow.mk.injEq] at same
  simp [same]

theorem copiedConsume {call : Call δ} (copied : Copied config rows call other) :
    Copied config (consume flow rows) call other := ⟨copied.agrees,by rw [consumePristine]; exact copied.stored⟩

theorem consumeFits {flow : AuthFlow} (unique : (rows.map AuthFlow.id).Nodup) (member : row ∈ rows)
    (same : row.id = flow.id) (unconsumed : row.consumedAt = none) (apart : p.holds config ≠ some flow.id)
    (fits : Fits config rows p.call p.phase) : Fits config (consume flow rows) p.call p.phase := by
  obtain ⟨call,phase⟩ := p
  cases phase with
  | called => trivial
  | queried => exact copiedConsume fits
  | timed => exact ⟨copiedConsume fits.1,fits.2⟩
  | acting other =>
    obtain ⟨copied,inTime,row',member',same',unconsumed'⟩ := fits
    have different : other.id ≠ flow.id := fun eq => apart (congrArg some eq)
    exact ⟨copiedConsume copied,inTime,row',consumeOther member' (same' ▸ different),same',unconsumed'⟩
  | finished result =>
    cases result with
    | error => trivial
    | ok =>
      obtain ⟨copied,⟨now,consumed,early⟩,stored⟩ := fits
      refine ⟨copiedConsume copied,⟨now,consumed,early⟩,consumeOther stored (fun eq => ?_)⟩
      -- the flow of a finished call is consumed, the one that commits now is not
      have one := inj_on_of_nodup_map unique stored member (eq.trans same.symm)
      rw [one,unconsumed] at consumed
      cases consumed

structure Sound (config : Config) (origin : List AuthFlow) (calls : Calls δ) : Prop where
  unique : (calls.shared.flows.map AuthFlow.id).Nodup
  kept : calls.shared.flows.map AuthFlow.pristine = origin.map AuthFlow.pristine
  exclusive : Pool.Exclusive (Process.holds config) (fun s k => k ∈ s.locked) calls
  fits : ∀ p ∈ calls.procs, Fits config calls.shared.flows p.call p.phase
  once : ∀ (i j : Nat) p q flow flow', calls.procs[i]? = some p → calls.procs[j]? = some q →
    p.succeeded = some flow → q.succeeded = some flow' → flow.id = flow'.id → i = j

theorem movesUnfinished (moves : Moves config rows data call before q.phase) :
    q.succeeded = none := by
  obtain ⟨_,phase⟩ := q
  cases moves <;> rfl

abbrev callStep (config : Config) (calls : Calls δ) (move : Pool.Move (Process δ) Choice) : Option (Calls δ) :=
  Pool.step starts (act config) calls move

variable {calls : Calls δ}

theorem startSound (sound : Sound config origin calls) (begins : starts p) :
    Sound config origin ⟨calls.shared,calls.procs ++ [p]⟩ := by
  obtain ⟨_,phase⟩ := p
  cases phase with
  | called =>
    refine ⟨sound.unique,sound.kept,Pool.startExclusive sound.exclusive rfl,Table.allAdded sound.fits trivial,?_⟩
    intro i j q r flow flow' at' at'' done done' same
    rcases Pool.concatElem at' with old | ⟨_,rfl⟩
    · rcases Pool.concatElem at'' with old' | ⟨_,rfl⟩
      · exact sound.once i j q r flow flow' old old' done done' same
      · cases done'
    · cases done
  | queried | timed | acting | finished => cases begins

theorem actSound {i : Nat} {choice} (sound : Sound config origin calls)
    (found : calls.procs[i]? = some p) (moved : act config calls.shared p choice = some (s,q)) :
    Sound config origin ⟨s,calls.procs.set i q⟩ := by
  obtain ⟨sameCall,locks,outcome⟩ := actCases moved (fun k holding => sound.exclusive.held i p k found holding)
  have exclusive := Pool.actExclusive sound.exclusive found locks.taken locks.fresh
  have here := sound.fits p (mem_of_getElem? found)
  rcases outcome with ⟨moves,flows,_⟩ | ⟨flow,_,acting,result,flows,_⟩
  · refine ⟨by rw [flows]; exact sound.unique,by rw [flows]; exact sound.kept,exclusive,?_,?_⟩
    · rw [flows]
      refine Table.allSet sound.fits ?_
      rw [sameCall]
      exact movesFit moves here
    intro j k r t flow flow' at' at'' done done' same
    rcases Pool.setElem found at' with ⟨rfl,rfl⟩ | ⟨_,old⟩
    · rw [movesUnfinished moves] at done
      cases done
    rcases Pool.setElem found at'' with ⟨rfl,rfl⟩ | ⟨_,old'⟩
    · rw [movesUnfinished moves] at done'
      cases done'
    exact sound.once j k r t flow flow' old old' done done' same
  rw [acting] at here
  obtain ⟨copied,inTime,_,member,same,unconsumed⟩ := here
  have holding : p.holds config = some flow.id := by
    unfold Process.holds
    rw [acting]
  -- no other call holds the flow, so none of them has finished with it
  have others : ∀ (j : Nat) r, j ≠ i → calls.procs[j]? = some r →
      Fits config s.flows r.call r.phase ∧ ∀ flow', r.succeeded = some flow' → flow'.id ≠ flow.id := by
    intro j r other old
    have fits := sound.fits r (mem_of_getElem? old)
    have apart : r.holds config ≠ some flow.id := fun mine => other (sound.exclusive.alone j i r p _ old found mine holding)
    refine ⟨flows ▸ consumeFits sound.unique member same unconsumed apart fits,fun flow' done eq => ?_⟩
    rw [succeededPhase done] at fits
    obtain ⟨_,⟨_,consumed,_⟩,stored⟩ := fits
    have one := inj_on_of_nodup_map sound.unique stored member (eq.trans same.symm)
    rw [one,unconsumed] at consumed
    cases consumed
  refine ⟨?_,?_,exclusive,?_,?_⟩
  · rw [flows]
    rw [Table.updateKeys (fun _ _ => by rfl)]
    exact sound.unique
  · rw [flows]
    exact (consumePristine flow calls.shared.flows).trans sound.kept
  · intro r inside
    obtain ⟨j,at'⟩ := mem_iff_getElem?.mp inside
    rcases Pool.setElem found at' with ⟨_,rfl⟩ | ⟨other,old⟩
    · rw [result,sameCall]
      exact ⟨flows ▸ copiedConsume copied,inTime,flows ▸ consumeStored copied.stored⟩
    · exact (others j r other old).1
  have mine : q.succeeded = some flow := by
    unfold Process.succeeded
    rw [result]
  intro j k r t done done' at' at'' first second eq
  rcases Pool.setElem found at' with ⟨rfl,rfl⟩ | ⟨other,old⟩
  · rcases Pool.setElem found at'' with ⟨rfl,rfl⟩ | ⟨other',old'⟩
    · rfl
    · cases some.inj (mine.symm.trans first)
      exact absurd eq.symm ((others k t other' old').2 done' second)
  · rcases Pool.setElem found at'' with ⟨rfl,rfl⟩ | ⟨other',old'⟩
    · cases some.inj (mine.symm.trans second)
      exact absurd eq ((others j r other old).2 done first)
    · exact sound.once j k r t done done' old old' first second eq

theorem stepSound (sound : Sound config origin calls)
    (h : callStep config calls move = some n) : Sound config origin n := by
  cases move with
  | start =>
    obtain ⟨begins,rfl⟩ := Pool.stepStart h
    exact startSound sound begins
  | act =>
    obtain ⟨p,s,q,found,moved,rfl⟩ := Pool.stepAct h
    exact actSound sound found moved

theorem runSound {s : Tables δ} (unique : (s.flows.map AuthFlow.id).Nodup) (idle : s.locked = [])
    (h : run (callStep config) ⟨s,[]⟩ moves = some out) : Sound config s.flows out := by
  refine runAlways (fun _ _ _ sound moved => stepSound sound moved) ⟨unique,rfl,Pool.emptyExclusive (by simp [idle]),?_,?_⟩ h
  · intro p member
    cases member
  · intro i j p q _ _ at'
    cases at'

theorem succeededKept {i : Nat} (h : callStep config calls move = some n)
    (at' : calls.procs[i]? = some q) (done : q.succeeded = some flow) : n.procs[i]? = some q := by
  cases move with
  | start =>
    obtain ⟨_,rfl⟩ := Pool.stepStart h
    exact (List.getElem?_append_left (List.getElem?_eq_some_iff.mp at').1).trans at'
  | act j =>
    obtain ⟨p,s,r,found,moved,rfl⟩ := Pool.stepAct h
    by_cases same : j = i
    · subst same
      cases some.inj (found.symm.trans at')
      unfold act at moved
      split at moved <;> simp [advance,succeededPhase done] at moved
    · exact (List.getElem?_set_ne same).trans at'

theorem runSucceeded {out : Calls δ} {i : Nat} (h : run (callStep config) calls moves = some out)
    (at' : calls.procs[i]? = some q) (done : q.succeeded = some flow) : out.procs[i]? = some q := by
  have kept : ∀ (a : Calls δ) move b, a.procs[i]? = some q → callStep config a move = some b → b.procs[i]? = some q :=
    fun _ _ _ here moved => succeededKept moved here done
  exact runAlways kept at' h

theorem stepUndone {n : Calls δ} {i : Nat} {choice} (sound : Sound config origin calls)
    (h : callStep config calls (.act i choice) = some n) :
    (n.shared.flows = calls.shared.flows ∧ n.shared.data = calls.shared.data) ∨
      ∃ q flow, n.procs[i]? = some q ∧ q.succeeded = some flow := by
  obtain ⟨p,s,q,found,moved,rfl⟩ := Pool.stepAct h
  obtain ⟨_,_,outcome⟩ := actCases moved (fun k holding => sound.exclusive.held i p k found holding)
  rcases outcome with quiet | ⟨flow,_,commits⟩
  · exact .inl ⟨quiet.flows,quiet.data⟩
  refine .inr ⟨q,flow,List.getElem?_set_self (List.getElem?_eq_some_iff.mp found).1,?_⟩
  unfold Process.succeeded
  rw [commits.result]

def prompt : Choice := ⟨0,false⟩

theorem actThen (found : calls.procs[i]? = some p) (moved : advance config calls.shared p = some (s,q))
    (later : run (callStep config) ⟨s,calls.procs.set i q⟩ moves = some out) :
    run (callStep config) calls (.act i prompt::moves) = some out := by
  have same : act config calls.shared p prompt = some (s,q) := by
    simpa [act,prompt] using moved
  exact Pool.runAct found same later

theorem actionEnds {i : Nat} (found : calls.procs[i]? = some ⟨call,.acting flow writes rest⟩)
    (done : rest.run (writes calls.shared.data) = .ok data) :
    ∃ moves out, run (callStep config) calls moves = some out ∧ out.procs[i]? = some ⟨call,.finished (.ok flow)⟩ ∧
      out.shared.data = data := by
  have bound := (List.getElem?_eq_some_iff.mp found).1
  induction rest generalizing calls writes with
  | succeed =>
    cases done
    exact ⟨[.act i prompt],_,actThen found rfl rfl,List.getElem?_set_self bound,rfl⟩
  | fail => cases done
  | statement write next ih =>
    let after : Calls δ :=
      ⟨calls.shared,calls.procs.set i ⟨call,.acting flow (write ∘ writes) (next (writes calls.shared.data))⟩⟩
    have here : after.procs[i]? = some ⟨call,.acting flow (write ∘ writes) (next (writes calls.shared.data))⟩ :=
      List.getElem?_set_self bound
    obtain ⟨moves,out,ran,at',same⟩ := ih (writes calls.shared.data) here done (List.getElem?_eq_some_iff.mp here).1
    exact ⟨_,out,actThen found rfl ran,at',same⟩

theorem consumableOnce (unique : (rows.map AuthFlow.id).Nodup) (member : flow ∈ rows)
    (fresh : flow.consumedAt = none) (early : now < flow.expiresAt) :
    (rows.filter (consumable flow now)).length = 1 := by
  induction rows with
  | nil => cases member
  | cons r rest ih =>
    obtain ⟨new,later⟩ := nodup_cons.mp unique
    rcases mem_cons.mp member with rfl | inside
    · have none_ : rest.filter (consumable flow now) = [] := by
        refine filter_eq_nil_iff.mpr (fun x inside hit => ?_)
        simp only [consumable,Bool.and_eq_true,decide_eq_true_eq] at hit
        exact new (hit.1.1 ▸ mem_map_of_mem inside)
      simp [none_,consumable,fresh,early]
    · have other : r.id ≠ flow.id := fun same => new (same ▸ mem_map_of_mem inside)
      have missed : consumable flow now r = false := by simp [consumable,other]
      rw [filter_cons_of_neg (by simp [missed])]
      exact ih later inside

theorem callEnds (sound : Sound config origin calls) {call : Call δ} (named : call.token ≠ "" ∧ call.criteria.purpose ≠ "")
    (found : calls.shared.flows.find? (applyAuthFlowMatch config call.token call.criteria) = some flow)
    (fresh : flow.consumedAt = none) (early : calls.shared.clock < flow.expiresAt)
    (free : ∀ p ∈ calls.procs, p.holds config ≠ some flow.id)
    (succeeds : (call.action {flow with consumedAt := some calls.shared.clock}).run calls.shared.data = .ok data) :
    ∃ moves out, run (callStep config) calls (.start ⟨call,.called⟩::moves) = some out ∧
      out.procs[calls.procs.length]? =
        some ⟨call,.finished (.ok {flow with consumedAt := some calls.shared.clock})⟩ ∧ out.shared.data = data := by
  have unlocked : flow.id ∉ calls.shared.locked := by
    intro taken
    obtain ⟨i,p,at',holding⟩ := sound.exclusive.owner _ taken
    exact free p (mem_of_getElem? at') holding
  have member := mem_of_find?_eq_some found
  have once := consumableOnce sound.unique member fresh early
  let locking := if config.rowLocks then flow.id::calls.shared.locked else calls.shared.locked
  let queried : Tables δ := {calls.shared with locked := locking}
  let acting : Tables δ := {calls.shared with locked := flow.id::calls.shared.locked}
  let consumed : AuthFlow := {flow with consumedAt := some calls.shared.clock}
  have last : ∀ (phase : Phase δ), (calls.procs ++ [⟨call,phase⟩])[calls.procs.length]? = some ⟨call,phase⟩ := by
    simp
  have next : ∀ (phase phase' : Phase δ), (calls.procs ++ [Process.mk call phase]).set calls.procs.length ⟨call,phase'⟩ =
      calls.procs ++ [Process.mk call phase'] := by
    simp
  have query : advance config calls.shared ⟨call,.called⟩ = some (queried,⟨call,.queried flow⟩) := by
    by_cases locks : config.rowLocks <;> simp [advance,named,found,queried,locking,locks,unlocked]
  have check : advance config queried ⟨call,.queried flow⟩ = some (queried,⟨call,.timed flow calls.shared.clock⟩) := by
    simp [advance,fresh,queried,early]
  have update : advance config queried ⟨call,.timed flow calls.shared.clock⟩ =
      some (acting,⟨call,.acting consumed id (call.action consumed)⟩) := by
    by_cases locks : config.rowLocks <;> simp [advance,queried,acting,locking,consumed,locks,unlocked,once]
  let atWork : Calls δ := ⟨acting,calls.procs ++ [⟨call,.acting consumed id (call.action consumed)⟩]⟩
  have works : atWork.procs[calls.procs.length]? = some ⟨call,.acting consumed id (call.action consumed)⟩ := last _
  obtain ⟨moves,out,ran,at',same⟩ := actionEnds works succeeds
  refine ⟨.act calls.procs.length prompt::.act calls.procs.length prompt::.act calls.procs.length prompt::moves,out,?_,at',same⟩
  refine Pool.runStart rfl (actThen (last _) query ?_)
  rw [next]
  refine actThen (last _) check ?_
  rw [next]
  refine actThen (last _) update ?_
  rw [next]
  exact ran

theorem authFlowOneShot (config : Config) {s : Tables δ} {moves out} (unique : (s.flows.map AuthFlow.id).Nodup)
    (idle : s.locked = []) (h : run (callStep config) ⟨s,[]⟩ moves = some out) :
    (∀ (i j : Nat) p q flow flow', out.procs[i]? = some p → out.procs[j]? = some q →
      p.succeeded = some flow → q.succeeded = some flow' → flow.id = flow'.id → i = j) ∧
    (∀ p ∈ out.procs, ∀ flow, p.succeeded = some flow → Agrees config p.call flow ∧ InTime flow ∧
      flow ∈ out.shared.flows ∧ ∃ row ∈ s.flows, row.pristine = flow.pristine) ∧
    (∀ xs i choice ys mid n p, moves = xs ++ .act i choice::ys → run (callStep config) ⟨s,[]⟩ xs = some mid →
      callStep config mid (.act i choice) = some n → out.procs[i]? = some p → p.succeeded = none →
      n.shared.flows = mid.shared.flows ∧ n.shared.data = mid.shared.data) ∧
    ∀ (call : Call δ) flow data, call.token ≠ "" ∧ call.criteria.purpose ≠ "" →
      out.shared.flows.find? (applyAuthFlowMatch config call.token call.criteria) = some flow →
      flow.consumedAt = none → out.shared.clock < flow.expiresAt → (∀ p ∈ out.procs, p.holds config ≠ some flow.id) →
      (call.action {flow with consumedAt := some out.shared.clock}).run out.shared.data = .ok data →
      ∃ later n, run (callStep config) out (.start ⟨call,.called⟩::later) = some n ∧
        n.procs[out.procs.length]? = some ⟨call,.finished (.ok {flow with consumedAt := some out.shared.clock})⟩ ∧
        n.shared.data = data := by
  have sound := runSound unique idle h
  refine ⟨sound.once,?_,?_,?_⟩
  · intro p member flow done
    have fits := sound.fits p member
    rw [succeededPhase done] at fits
    obtain ⟨⟨agrees,stored⟩,inTime,inside⟩ := fits
    rw [sound.kept] at stored
    exact ⟨agrees,inTime,inside,mem_map.mp stored⟩
  · rintro xs i choice ys mid n p rfl left moved at' unfinished
    rcases stepUndone (runSound unique idle left) moved with undone | ⟨q,flow,here,done⟩
    · exact undone
    obtain ⟨_,left',right⟩ := runAppend h
    cases some.inj (left.symm.trans left')
    obtain ⟨_,moved',rest⟩ := runCons right
    cases some.inj (moved.symm.trans moved')
    cases some.inj (at'.symm.trans (runSucceeded rest here done))
    rw [done] at unfinished
    cases unfinished
  · intro call flow data named found fresh early free succeeds
    exact callEnds sound named found fresh early free succeeds

def boundFlow : AuthFlow := ⟨1,"t","telegram_bind","","bind",7,"s","",100,none⟩

def bindTables : Tables Nat := ⟨0,[boundFlow],0,[]⟩

def plain : Config := ⟨id,false⟩

def takenBind : Call Nat := ⟨"t",⟨"telegram_bind","","bind",7,""⟩,fun _ => .statement (· + 5) (fun _ => .fail "taken")⟩

def nextBind : Call Nat := ⟨"t",⟨"telegram_bind","","bind",7,""⟩,fun _ => .statement (· + 5) (fun _ => .succeed)⟩

theorem failedBindRepeated : ∃ out later n,
    run (callStep plain) ⟨bindTables,[]⟩ (.start ⟨takenBind,.called⟩::List.replicate 5 (.act 0 prompt)) = some out ∧
    run (callStep plain) out (.start ⟨nextBind,.called⟩::later) = some n ∧
    n.procs[1]? = some ⟨nextBind,.finished (.ok {boundFlow with consumedAt := some 0})⟩ ∧ n.shared.data = 5 := by
  have failed : run (callStep plain) ⟨bindTables,[]⟩ (.start ⟨takenBind,.called⟩::List.replicate 5 (.act 0 prompt)) =
      some ⟨bindTables,[⟨takenBind,.finished (.error (.action "taken"))⟩]⟩ := rfl
  have unlocked : ∀ p ∈ [(⟨takenBind,.finished (.error (.action "taken"))⟩ : Process Nat)],
      p.holds plain ≠ some boundFlow.id := by
    intro p member
    rw [mem_singleton.mp member]
    exact fun holding => by cases holding
  obtain ⟨later,n,ran,done,data⟩ := (authFlowOneShot plain (by decide) rfl failed).2.2.2 nextBind boundFlow 5
    (by decide) (by decide) rfl (by decide) unlocked rfl
  exact ⟨_,later,n,failed,ran,done,data⟩

theorem shownFlow {s : Tables δ} (unique : (s.flows.map AuthFlow.id).Nodup) (idle : s.locked = [])
    (h : run (callStep config) ⟨s,[]⟩ moves = some out) (shown : getAuthFlow config token criteria out.shared = .ok flow) :
    (∀ p ∈ out.procs, ∀ spent, p.succeeded = some spent → spent.id ≠ flow.id) ∧
    ((∀ p ∈ out.procs, p.holds config ≠ some flow.id) → ∃ later n,
      run (callStep config) out (.start ⟨consumeAuthFlow token criteria,.called⟩::later) = some n ∧
      n.procs[out.procs.length]? = some ⟨consumeAuthFlow token criteria,
        .finished (.ok {flow with consumedAt := some out.shared.clock})⟩ ∧ n.shared.data = out.shared.data) := by
  have sound := runSound unique idle h
  unfold getAuthFlow at shown
  split at shown
  · cases shown
  rename_i named
  split at shown
  · cases shown
  rename_i found
  split_ifs at shown with used late
  cases shown
  refine ⟨fun p member spent done same => ?_,fun free => ?_⟩
  · have fits := sound.fits p member
    rw [succeededPhase done] at fits
    obtain ⟨-,⟨now,at_,-⟩,stored⟩ := fits
    have one := inj_on_of_nodup_map sound.unique stored (mem_of_find?_eq_some found) same
    exact used (one ▸ at_ ▸ Option.some_ne_none now)
  · exact callEnds sound (not_or.mp named) found (not_not.mp used) (not_le.mp late) free rfl

theorem shownAfterFailure : ∃ out later n,
    run (callStep plain) ⟨bindTables,[]⟩ (.start ⟨takenBind,.called⟩::List.replicate 5 (.act 0 prompt)) = some out ∧
    run (callStep plain) out (.start ⟨consumeAuthFlow "t" takenBind.criteria,.called⟩::later) = some n ∧
    n.shared.data = 0 := by
  have failed : run (callStep plain) ⟨bindTables,[]⟩ (.start ⟨takenBind,.called⟩::List.replicate 5 (.act 0 prompt)) =
      some ⟨bindTables,[⟨takenBind,.finished (.error (.action "taken"))⟩]⟩ := rfl
  have shown : getAuthFlow plain "t" takenBind.criteria bindTables = .ok boundFlow := rfl
  obtain ⟨later,n,ran,-,data⟩ := (shownFlow (by decide) rfl failed shown).2 (by simp [Process.holds])
  exact ⟨_,later,n,failed,ran,data⟩

end Omnigate.AuthFlows
