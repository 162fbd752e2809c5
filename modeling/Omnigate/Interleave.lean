import Omnigate.Machine
import Omnigate.Table

/-! Programs made of atomic calls on a shared state, run in any interleaving, and a rely–guarantee rule for them. A
program that is not scheduled again has crashed; the environment (a clock, say) may move between any two calls. -/
namespace Omnigate.Interleave

open Machine List Option

/- What is left of a program: its result, a loop without end, or its next atomic call with what follows. A label names
a call that a run may be asked about. -/
inductive Prog (ℓ σ α : Type) where
  | done (a : α)
  | halt
  | call (label : Option ℓ) (act : σ → σ) (next : σ → Prog ℓ σ α)

namespace Prog

variable {ℓ σ α β : Type}

def bind (p : Prog ℓ σ α) (f : α → Prog ℓ σ β) : Prog ℓ σ β :=
  match p with
  | .done a => f a
  | .halt => .halt
  | .call label act next => .call label act (fun s => (next s).bind f)

instance : Monad (Prog ℓ σ) where
  pure := .done
  bind := bind

def labelled (label : Option ℓ) (f : σ → σ × α) : Prog ℓ σ α :=
  .call label (fun s => (f s).1) (fun s => .done (f s).2)

def atomic (f : σ → σ × α) : Prog ℓ σ α := labelled none f

def read (f : σ → α) : Prog ℓ σ α := .call none id (fun s => .done (f s))

def label : Prog ℓ σ α → Option ℓ
  | .call label _ _ => label
  | _ => none

end Prog

structure Process (ι ℓ σ ρ : Type) where
  request : ι
  began : σ
  rest : Prog ℓ σ ρ

structure System (ι ℓ σ ρ : Type) where
  shared : σ
  procs : List (Process ι ℓ σ ρ)

def System.answered {ι ℓ σ ρ : Type} (sys : System ι ℓ σ ρ) (i : Nat) : Option (ι × ρ) :=
  match sys.procs[i]? with
  | some ⟨request,_,.done reply⟩ => some (request,reply)
  | _ => none

theorem System.answeredProcess {ι ℓ σ ρ : Type} {sys : System ι ℓ σ ρ} {i request reply}
    (h : sys.answered i = some (request,reply)) : ∃ began, sys.procs[i]? = some ⟨request,began,.done reply⟩ := by
  unfold System.answered at h
  split at h
  · rename_i began _ found
    cases h
    exact ⟨began,found⟩
  · cases h

inductive Move (ι ε : Type) where
  | start (request : ι)
  | act (i : Nat)
  | env (e : ε)

variable {ι ℓ σ ρ ε α β : Type} {program : ι → Prog ℓ σ ρ} {env : σ → ε → σ}

def step (program : ι → Prog ℓ σ ρ) (env : σ → ε → σ) (sys : System ι ℓ σ ρ) :
    Move ι ε → Option (System ι ℓ σ ρ)
  | .start request => some ⟨sys.shared,sys.procs ++ [⟨request,sys.shared,program request⟩]⟩
  | .act i => match sys.procs[i]? with
    | some ⟨request,began,.call _ act next⟩ =>
      some ⟨act sys.shared,sys.procs.set i ⟨request,began,next sys.shared⟩⟩
    | _ => none
  | .env e => some ⟨env sys.shared e,sys.procs⟩

theorem stepAct (h : step program env sys (.act i : Move ι ε) = some n) :
    ∃ request began label act next, sys.procs[i]? = some ⟨request,began,.call label act next⟩ ∧
      n = ⟨act sys.shared,sys.procs.set i ⟨request,began,next sys.shared⟩⟩ := by
  simp only [step] at h
  split at h
  · rename_i request began label act next found
    exact ⟨request,began,label,act,next,found,(some.inj h).symm⟩
  · cases h

theorem stepProcess (h : step program env sys move = some n) (found : sys.procs[i]? = some p) :
    (move = .act i ∧ ∃ request began label act next, p = ⟨request,began,.call label act next⟩ ∧
      n.shared = act sys.shared ∧ n.procs[i]? = some ⟨request,began,next sys.shared⟩) ∨ n.procs[i]? = some p := by
  cases move with
  | start =>
    cases h
    right
    rw [List.getElem?_append_left (List.getElem?_eq_some_iff.mp found).1]
    exact found
  | env => cases h; exact .inr found
  | act j =>
    obtain ⟨request,began,label,act,next,at_,rfl⟩ := stepAct h
    by_cases same : j = i
    · subst same
      cases some.inj (at_.symm.trans found)
      exact .inl ⟨rfl,_,_,_,_,_,rfl,rfl,List.getElem?_set_self (List.getElem?_eq_some_iff.mp found).1⟩
    · right
      rw [List.getElem?_set_ne same]
      exact found

theorem runProcess {i : Nat} (h : run (step program env) sys moves = some out) (found : sys.procs[i]? = some p) :
    ∃ q : Process ι ℓ σ ρ, out.procs[i]? = some q ∧ q.request = p.request ∧ q.began = p.began := by
  induction moves generalizing sys p with
  | nil => cases h; exact ⟨p,found,rfl,rfl⟩
  | cons _ moves ih =>
    obtain ⟨n,moved,rest⟩ := runCons h
    rcases stepProcess moved found with ⟨_,_,_,_,_,_,rfl,_,at_⟩ | at_
    · have last := ih rest at_
      exact last
    · exact ih rest at_

/- What the programs agree on: each call is a change (or several), a change keeps the invariant, and a run is looked
at as far as `ok` holds at its calls. -/
structure Contract (ℓ σ : Type) where
  inv : σ → Prop
  change : σ → σ → Prop
  ok : Option ℓ → σ → Prop
  keeps : ∀ s n, inv s → change s n → inv n

namespace Contract

variable {c : Contract ℓ σ}

def rely (c : Contract ℓ σ) : σ → σ → Prop := Relation.ReflTransGen c.change

theorem relyInv (good : c.inv s) (moved : c.rely s n) : c.inv n := by
  induction moved with
  | refl => exact good
  | tail _ last ih => exact c.keeps _ _ ih last

def Stable (c : Contract ℓ σ) (holds : σ → Prop) : Prop := ∀ s n, c.inv s → c.change s n → holds s → holds n

theorem Stable.rely {holds : σ → Prop} (stable : c.Stable holds) (good : c.inv s) (moved : c.rely s n)
    (now : holds s) : holds n := by
  induction moved with
  | refl => exact now
  | tail before last ih => exact stable _ _ (relyInv good before) last ih

theorem relyMono {r : σ → σ → Prop} (refl : ∀ s, r s s) (trans : ∀ a b d, r a b → r b d → r a d)
    (each : ∀ s n, c.inv s → c.change s n → r s n) (good : c.inv s) (moved : c.rely s n) : r s n := by
  induction moved with
  | refl => exact refl s
  | tail before last ih => exact trans _ _ _ ih (each _ _ (relyInv good before) last)

def wp (c : Contract ℓ σ) : Prog ℓ σ α → (α → σ → Prop) → σ → Prop
  | .done a,post,s => post a s
  | .halt,_,_ => True
  | .call label act next,post,s => ∀ now, c.rely s now → c.inv now → c.ok label now →
      c.rely now (act now) ∧ wp c (next now) post (act now)

theorem wpBind {f : α → Prog ℓ σ β} :
    c.wp (p >>= f) post s ↔ c.wp p (fun a n => c.wp (f a) post n) s := by
  induction p generalizing s with
  | done | halt => exact Iff.rfl
  | call _ _ _ ih =>
    constructor
    · intro h now moved good allowed
      obtain ⟨own,later⟩ := h now moved good allowed
      exact ⟨own,(ih now).mp later⟩
    · intro h now moved good allowed
      obtain ⟨own,later⟩ := h now moved good allowed
      exact ⟨own,(ih now).mpr later⟩

theorem wpMono {post weaker : α → σ → Prop} (h : c.wp p post s)
    (weaken : ∀ a n, post a n → weaker a n) : c.wp p weaker s := by
  induction p generalizing s with
  | done a => exact weaken a s h
  | halt => trivial
  | call _ _ _ ih =>
    intro now moved good allowed
    obtain ⟨own,later⟩ := h now moved good allowed
    exact ⟨own,ih now later⟩

theorem wpReach {post : α → σ → Prop} (good : c.inv s) (h : c.wp p post s) :
    c.wp p (fun a n => post a n ∧ c.inv n ∧ c.rely s n) s := by
  induction p generalizing s with
  | done => exact ⟨h,good,.refl⟩
  | halt => trivial
  | call _ _ _ ih =>
    intro now moved goodNow allowed
    obtain ⟨own,later⟩ := h now moved goodNow allowed
    refine ⟨own,wpMono (ih now (relyInv goodNow own) later) ?_⟩
    rintro a n ⟨holds,goodLast,reached⟩
    exact ⟨holds,goodLast,moved.trans (own.trans reached)⟩

theorem wpThen {f : α → Prog ℓ σ β} {mid : α → σ → Prop} (good : c.inv s)
    (first : c.wp p mid s) (rest : ∀ a n, mid a n → c.inv n → c.rely s n → c.wp (f a) post n) :
    c.wp (p >>= f) post s := by
  refine wpBind.mpr (wpMono (wpReach good first) ?_)
  rintro a n ⟨holds,goodNow,reached⟩
  exact rest a n holds goodNow reached

theorem wpMap {f : α → β} (h : c.wp p (fun a n => post (f a) n) s) :
    c.wp (f <$> p) post s := wpBind.mpr h

theorem wpRead {g : α → Prog ℓ σ β} (rest : ∀ now, c.inv now → c.rely s now → c.ok none now → c.wp (g (f now)) post now) :
    c.wp (Prog.read f >>= g) post s :=
  fun now moved goodNow allowed => ⟨.refl,rest now goodNow moved allowed⟩

theorem wpLabelled {g : α → Prog ℓ σ β} (rest : ∀ now, c.inv now → c.rely s now → c.ok label now →
      c.rely now (f now).1 ∧ (c.inv (f now).1 → c.wp (g (f now).2) post (f now).1)) :
    c.wp (Prog.labelled label f >>= g) post s := by
  intro now moved goodNow allowed
  obtain ⟨own,later⟩ := rest now goodNow moved allowed
  exact ⟨own,later (relyInv goodNow own)⟩

theorem wpAtomic {g : α → Prog ℓ σ β} (rest : ∀ now, c.inv now → c.rely s now → c.ok none now →
      c.rely now (f now).1 ∧ (c.inv (f now).1 → c.wp (g (f now).2) post (f now).1)) :
    c.wp (Prog.atomic f >>= g) post s := wpLabelled rest

def also (c : Contract ℓ σ) (holds : σ → Prop) (stable : c.Stable holds) : Contract ℓ σ where
  inv := fun s => c.inv s ∧ holds s
  change := c.change
  ok := c.ok
  keeps := fun s n good h => ⟨c.keeps s n good.1 h,stable s n good.1 h good.2⟩

theorem wpAlso {holds : σ → Prop} {stable} {p : Prog ℓ σ α} (h : c.wp p post s) :
    (c.also holds stable).wp p post s := by
  induction p generalizing s with
  | done => exact h
  | halt => trivial
  | call _ _ _ ih =>
    intro now moved good allowed
    obtain ⟨own,later⟩ := h now moved good.1 allowed
    exact ⟨own,ih now later⟩

end Contract

variable {c : Contract ℓ σ} {post : ι → σ → ρ → σ → Prop}

structure Good (c : Contract ℓ σ) (post : ι → σ → ρ → σ → Prop) (sys : System ι ℓ σ ρ) : Prop where
  inv : c.inv sys.shared
  procs : ∀ p ∈ sys.procs, ∃ s, c.inv p.began ∧ c.rely p.began s ∧ c.rely s sys.shared ∧
    c.wp p.rest (post p.request p.began) s

def Meets (c : Contract ℓ σ) (sys : System ι ℓ σ ρ) : Move ι ε → Prop
  | .act i => ∀ p, sys.procs[i]? = some p → c.ok p.rest.label sys.shared
  | _ => True

theorem alongMeets (always : ∀ label s, c.ok label s) (sys : System ι ℓ σ ρ) (moves : List (Move ι ε)) :
    Along (step program env) (Meets c) sys moves := by
  induction moves generalizing sys with
  | nil => trivial
  | cons move moves ih =>
    refine ⟨?_,fun n _ => ih n⟩
    cases move with
    | act => exact fun p _ => always _ _
    | start | env => trivial

section

variable (spec : ∀ r s, c.inv s → c.wp (program r) (post r s) s) (quiet : ∀ s e, c.inv s → c.rely s (env s e))

include spec quiet

theorem stepGood (good : Good c post sys) (meets : Meets c sys move) (h : step program env sys move = some n) :
    Good c post n ∧ c.rely sys.shared n.shared := by
  cases move with
  | start request =>
    cases h
    exact ⟨⟨good.inv,Table.allAdded good.procs ⟨_,good.inv,.refl,.refl,spec request _ good.inv⟩⟩,.refl⟩
  | env e =>
    cases h
    have moved := quiet sys.shared e good.inv
    refine ⟨⟨Contract.relyInv good.inv moved,fun p member => ?_⟩,moved⟩
    obtain ⟨s,began,since,left,holds⟩ := good.procs p member
    exact ⟨s,began,since,left.trans moved,holds⟩
  | act =>
    obtain ⟨request,began,_,act,_,found,rfl⟩ := stepAct h
    obtain ⟨s,goodBegan,since,left,holds⟩ := good.procs _ (mem_of_getElem? found)
    obtain ⟨own,later⟩ := holds sys.shared left good.inv (meets _ found)
    refine ⟨⟨Contract.relyInv good.inv own,fun p member => ?_⟩,own⟩
    rcases mem_or_eq_of_mem_set member with old | rfl
    · obtain ⟨s',began',since',left',holds'⟩ := good.procs p old
      exact ⟨s',began',since',left'.trans own,holds'⟩
    · exact ⟨_,goodBegan,since.trans (left.trans own),.refl,later⟩

theorem runGood (good : Good c post sys) (meets : Along (step program env) (Meets c) sys moves)
    (h : run (step program env) sys moves = some out) : Good c post out ∧ c.rely sys.shared out.shared := by
  induction moves generalizing sys with
  | nil => cases h; exact ⟨good,.refl⟩
  | cons _ moves ih =>
    obtain ⟨n,moved,rest⟩ := runCons h
    obtain ⟨goodNext,own⟩ := stepGood spec quiet good meets.1 moved
    obtain ⟨goodLast,later⟩ := ih goodNext (meets.2 n moved) rest
    exact ⟨goodLast,own.trans later⟩

end

theorem Good.returned {sys : System ι ℓ σ ρ} (good : Good c post sys) {i}
    (answered : sys.answered i = some (request,reply)) :
    ∃ began s, c.inv began ∧ c.rely began s ∧ c.rely s sys.shared ∧ post request began reply s := by
  obtain ⟨began,found⟩ := System.answeredProcess answered
  exact ⟨began,good.procs _ (mem_of_getElem? found)⟩

theorem Good.startedReturned {sys out : System ι ℓ σ ρ} (good : Good c post out) {request} {reply : ρ}
    (h : run (step program env) sys (.start request::moves) = some out)
    (answered : out.answered sys.procs.length = some (answering,reply)) :
    answering = request ∧ ∃ s, c.rely sys.shared s ∧ c.rely s out.shared ∧ post request sys.shared reply s := by
  obtain ⟨n,moved,rest⟩ := runCons h
  cases moved
  obtain ⟨q,at_,request',began'⟩ := runProcess rest (List.getElem?_concat_length)
  obtain ⟨_,found⟩ := System.answeredProcess answered
  cases some.inj (at_.symm.trans found)
  cases request'
  cases began'
  obtain ⟨s,_,since,left,holds⟩ := good.procs _ (mem_of_getElem? found)
  exact ⟨rfl,s,since,left,holds⟩

def Follows (allow : Option ℓ → σ → Prop) (i : Nat) (sys : System ι ℓ σ ρ) : Move ι ε → Prop
  | .act j => j = i → ∀ p, sys.procs[i]? = some p → allow p.rest.label sys.shared
  | _ => True

theorem runFollows (spec : ∀ r s, c.inv s → c.wp (program r) (post r s) s)
    (quiet : ∀ s e, c.inv s → c.rely s (env s e)) {allow : Option ℓ → σ → Prop} {holds : ρ → σ → Prop} (good : Good c post sys)
    (meets : Along (step program env) (Meets c) sys moves)
    (allowed : Along (step program env) (Follows allow i) sys moves)
    (h : run (step program env) sys moves = some out) (found : sys.procs[i]? = some p) (left : c.rely s sys.shared)
    (own : Contract.wp {c with ok := allow} p.rest holds s) :
    ∃ p' s', out.procs[i]? = some p' ∧ c.rely s' out.shared ∧ Contract.wp {c with ok := allow} p'.rest holds s' := by
  induction moves generalizing sys p s with
  | nil => cases h; exact ⟨p,s,found,left,own⟩
  | cons _ moves ih =>
    obtain ⟨n,moved,rest⟩ := runCons h
    obtain ⟨goodNext,change⟩ := stepGood spec quiet good meets.1 moved
    -- the process itself moves, or it is left as it is and the others only make changes
    rcases stepProcess moved found with ⟨rfl,_,_,_,_,_,rfl,reached,at_⟩ | at_
    · obtain ⟨_,later⟩ := own sys.shared left good.inv (allowed.1 rfl _ found)
      rw [← reached] at later
      exact ih goodNext (meets.2 n moved) (allowed.2 n moved) rest at_ .refl later
    · exact ih goodNext (meets.2 n moved) (allowed.2 n moved) rest at_ (left.trans change) own

end Omnigate.Interleave
