import Mathlib.Tactic

/-! Database transactions with failing statements. A transaction works on a view of the committed state and on a
script of faults: each statement, the commit included, takes the next entry and fails with that error if there is one.
An error anywhere leaves the committed state as it was. -/
namespace Omnigate.Transaction

structure View (σ ε : Type) where
  db : σ
  faults : List (Option ε)

abbrev Tx (σ ε : Type) := StateT (View σ ε) (Except ε)

variable {σ ε α β : Type}

def statement : Tx σ ε Unit := fun v => match v.faults with
  | [] => .ok ((),v)
  | none::rest => .ok ((),⟨v.db,rest⟩)
  | some e::_ => .error e

def query (f : σ → α) : Tx σ ε α := do
  statement
  return f (← get).db

def exec (f : σ → σ) : Tx σ ε Unit := do
  statement
  modify (fun v => ⟨f v.db,v.faults⟩)

def alter (f : σ → α × σ) : Tx σ ε α := do
  statement
  modifyGet (fun v => ((f v.db).1,⟨(f v.db).2,v.faults⟩))

def fail (e : ε) : Tx σ ε α := fun _ => .error e

def ofResult : Except ε α → Tx σ ε α
  | .ok a => pure a
  | .error e => fail e

def first (f : σ → Option α) (missing : ε) : Tx σ ε α := do
  match ← query f with
  | some a => return a
  | none => fail missing

def insert (f : σ → Except ε σ) : Tx σ ε Unit := do
  match ← query f with
  | .ok s => modify (fun v => ⟨s,v.faults⟩)
  | .error e => fail e

def attempt (body : Tx σ ε α) : Tx σ ε (Except ε α) := fun v => match body v with
  | .ok (a,m) => .ok (.ok a,m)
  | .error e => .ok (.error e,⟨v.db,v.faults.tail⟩)

def atomically (body : Tx σ ε α) (faults : List (Option ε)) (db : σ) : Except ε α × σ :=
  match (do let a ← body; statement; return a : Tx σ ε α) ⟨db,faults⟩ with
  | .error e => (.error e,db)
  | .ok (a,v) => (.ok a,v.db)

def passes (n : Nat) (faults : List (Option ε)) : Bool := (faults.take n).all Option.isNone

theorem pureTx (a : α) (v) : (StateT.pure a : Tx σ ε α) v = .ok (a,v) := rfl

variable {v : View σ ε}

theorem statementDb (h : statement v = .ok (u,v')) : v'.db = v.db := by
  unfold statement at h
  split at h <;> cases h <;> rfl

theorem statementFaults (h : statement v = .ok (u,v')) : v'.faults = v.faults.tail := by
  unfold statement at h
  split at h <;> rename_i script <;> cases h <;> simp_all

variable {body : Tx σ ε α}

theorem bindOk {k : α → Tx σ ε β} (h : (body >>= k) v = .ok (b,v')) :
    ∃ a m, body v = .ok (a,m) ∧ k a m = .ok (b,v') := by
  change (body v >>= fun p => k p.1 p.2) = .ok (b,v') at h
  cases hb : body v with
  | error => rw [hb] at h; cases h
  | ok p => rw [hb] at h; exact ⟨p.1,p.2,rfl,h⟩

theorem queryOk {f : σ → α} (h : query f v = .ok (a,v')) : a = f v.db ∧ v'.db = v.db := by
  obtain ⟨u,m,hs,last⟩ := bindOk h
  have same := statementDb hs
  cases last
  exact ⟨by rw [← same],same⟩

theorem firstOk {f : σ → Option α} (h : first f missing v = .ok (a,v')) :
    f v.db = some a ∧ v'.db = v.db := by
  obtain ⟨found,m,asked,rest⟩ := bindOk h
  obtain ⟨is,same⟩ := queryOk asked
  cases found with
  | none => cases rest
  | some => cases rest; exact ⟨is.symm,same⟩

theorem attemptOk (h : attempt body v = .ok (.ok a,v')) : body v = .ok (a,v') := by
  unfold attempt at h
  split at h <;> cases h
  assumption

theorem execOk {f : σ → σ} (h : exec f v = .ok (a,v')) : v'.db = f v.db := by
  obtain ⟨u,m,hs,last⟩ := bindOk h
  cases last
  exact congrArg f (statementDb hs)

theorem execFaults {f : σ → σ} (h : exec f v = .ok (a,v')) : v'.faults = v.faults.tail := by
  obtain ⟨u,m,hs,last⟩ := bindOk h
  cases last
  have script := statementFaults hs
  exact script

theorem attemptQuery {f : σ → α} (h : attempt (query f) v = .ok (r,v')) :
    v'.db = v.db ∧ v'.faults = v.faults.tail ∧
      (r = .ok (f v.db) ∨ ∃ e e', r = .error e ∧ v.faults.head? = some (some e')) := by
  unfold attempt at h
  split at h <;> rename_i ran <;> cases h
  · obtain ⟨is,same⟩ := queryOk ran
    obtain ⟨u,m,hs,last⟩ := bindOk ran
    have script := statementFaults hs
    cases last
    exact ⟨same,script,.inl (congrArg Except.ok is)⟩
  refine ⟨rfl,rfl,.inr ?_⟩
  obtain ⟨db,faults⟩ := v
  cases faults with
  | nil => cases ran
  | cons head => cases head with
    | none => cases ran
    | some e => exact ⟨_,e,rfl,rfl⟩

theorem alterOk {f : σ → α × σ} (h : alter f v = .ok (a,v')) : a = (f v.db).1 ∧ v'.db = (f v.db).2 := by
  obtain ⟨u,m,hs,last⟩ := bindOk h
  have same := statementDb hs
  cases last
  rw [← same]
  exact ⟨rfl,rfl⟩

theorem atomicallyCongr (same : body ⟨db,faults⟩ = other ⟨db,faults⟩) :
    atomically body faults db = atomically other faults db := by
  have unfolded : ∀ b : Tx σ ε α, (do let a ← b; statement; return a : Tx σ ε α) ⟨db,faults⟩ =
      (b ⟨db,faults⟩ >>= fun p => (do statement; return p.1 : Tx σ ε α) p.2) := fun _ => rfl
  unfold atomically
  rw [unfolded body,unfolded other,same]

theorem atomicallyError (h : (atomically body faults db).1 = .error e) : (atomically body faults db).2 = db := by
  unfold atomically at h ⊢
  split <;> rename_i heq
  · rfl
  · rw [heq] at h; cases h

theorem atomicallyOk (h : (atomically body faults db).1 = .ok a) :
    ∃ v, body ⟨db,faults⟩ = .ok (a,v) ∧ (atomically body faults db).2 = v.db := by
  unfold atomically at h ⊢
  split <;> rename_i heq <;> rw [heq] at h
  · cases h
  obtain ⟨b,m,hb,rest⟩ := bindOk heq
  obtain ⟨u,n,hs,last⟩ := bindOk rest
  cases last
  cases h
  exact ⟨m,hb,statementDb hs⟩

theorem atomicallyAfter {P : σ → Prop} (same : P db) (ok : ∀ a v, body ⟨db,faults⟩ = .ok (a,v) → P v.db) :
    P (atomically body faults db).2 := by
  cases h : (atomically body faults db).1 with
  | error => rw [atomicallyError h]; exact same
  | ok a =>
    obtain ⟨v,ran,after⟩ := atomicallyOk h
    rw [after]
    exact ok a v ran

theorem atomicallyCases (h : atomically body faults db = (r,after)) :
    (∃ e, r = .error e ∧ after = db) ∨ ∃ a v, r = .ok a ∧ body ⟨db,faults⟩ = .ok (a,v) ∧ after = v.db := by
  cases r with
  | error e =>
    have undone := atomicallyError (congrArg Prod.fst h)
    rw [h] at undone
    exact .inl ⟨e,rfl,undone⟩
  | ok a =>
    obtain ⟨v,ran,same⟩ := atomicallyOk (congrArg Prod.fst h)
    rw [h] at same
    exact .inr ⟨a,v,rfl,ran,same⟩

theorem atomicallyExecOk {faults : List (Option ε)} {db : σ} :
    (atomically (exec f) faults db).1 = .ok () ↔ passes 2 faults := by
  rcases faults with _ | ⟨_ | a,_ | ⟨_ | b,_⟩⟩ <;>
    simp [passes,atomically,exec,statement,bind,StateT.bind,Except.bind,modify,modifyGet,
      MonadStateOf.modifyGet,StateT.modifyGet,pure,Except.pure,pureTx]

def Triple (pre : σ → Prop) (body : Tx σ ε α) (post : α → σ → Prop) : Prop :=
  ∀ v a v', pre v.db → body v = .ok (a,v') → post a v'.db

variable {pre : σ → Prop}

theorem tripleBind {mid : α → σ → Prop} {post : β → σ → Prop} {k : α → Tx σ ε β} (first : Triple pre body mid)
    (next : ∀ a, Triple (mid a) (k a) post) : Triple pre (body >>= k) post := by
  intro v b v' hp h
  obtain ⟨a,m,hb,rest⟩ := bindOk h
  exact next a m b v' (first v a m hp hb) rest

variable {post : α → σ → Prop}

theorem triplePure (h : ∀ s, pre s → post a s) : Triple pre (pure a : Tx σ ε α) post := by
  intro v b _ hp eq
  cases eq
  exact h _ hp

theorem tripleFail : Triple pre (fail e : Tx σ ε α) post := by
  intro v b _ _ eq
  cases eq

theorem tripleQuery {f : σ → α} (h : ∀ s, pre s → post (f s) s) : Triple pre (query f : Tx σ ε α) post := by
  intro v a _ hp eq
  obtain ⟨rfl,same⟩ := queryOk eq
  rw [same]
  exact h _ hp

theorem tripleExec {post : Unit → σ → Prop} (h : ∀ s, pre s → post () (f s)) :
    Triple pre (exec f : Tx σ ε Unit) post := by
  intro v a _ hp eq
  rw [execOk eq]
  exact h _ hp

theorem tripleAlter {f : σ → α × σ} (h : ∀ s, pre s → post (f s).1 (f s).2) :
    Triple pre (alter f : Tx σ ε α) post := by
  intro v a _ hp eq
  obtain ⟨rfl,same⟩ := alterOk eq
  rw [same]
  exact h _ hp

theorem tripleOfResult (h : ∀ a s, result = .ok a → pre s → post a s) :
    Triple pre (ofResult result : Tx σ ε α) post := by
  cases result with
  | error => exact tripleFail
  | ok a => exact triplePure (fun s => h a s rfl)

theorem tripleFirst (h : ∀ a s, f s = some a → pre s → post a s) :
    Triple pre (first f missing : Tx σ ε α) post := by
  have read : Triple pre (query f : Tx σ ε (Option α)) (fun found s => f s = found ∧ pre s) :=
    tripleQuery (fun s hp => ⟨rfl,hp⟩)
  refine tripleBind read ?_
  intro found
  cases found with
  | none => exact tripleFail
  | some a => exact triplePure (fun s hs => h a s hs.1 hs.2)

theorem tripleInsert {post : Unit → σ → Prop} (h : ∀ s n, f s = .ok n → pre s → post () n) :
    Triple pre (insert f : Tx σ ε Unit) post := by
  have read : Triple pre (query f : Tx σ ε (Except ε σ)) (fun result s => f s = result ∧ pre s) :=
    tripleQuery (fun s hp => ⟨rfl,hp⟩)
  refine tripleBind read ?_
  intro result
  cases result with
  | error => exact tripleFail
  | ok n =>
    intro v a _ hp eq
    cases eq
    exact h v.db n hp.1 hp.2

theorem tripleAttempt {post : Except ε α → σ → Prop} (good : Triple pre body (fun a => post (.ok a)))
    (bad : ∀ e s, pre s → post (.error e) s) : Triple pre (attempt body) post := by
  intro v a _ hp eq
  unfold attempt at eq
  split at eq <;> rename_i heq <;> cases eq
  · exact good _ _ _ hp heq
  · exact bad _ _ hp

theorem atomicallyInvariant {inv : σ → Prop} (keeps : Triple inv body (fun _ => inv)) (start : inv db) :
    inv (atomically body faults db).2 :=
  atomicallyAfter start (fun a v ran => keeps _ a v start ran)

end Omnigate.Transaction
