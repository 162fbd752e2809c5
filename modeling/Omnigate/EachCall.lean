import Omnigate.Interleave

/-! Programs call by call. A contract says what a program achieves; a duty says what every single call of it does, to
the state it meets and with a look at the call that follows. -/
namespace Omnigate.Interleave

open Machine List Option

variable {ι ℓ σ ρ ε α β : Type} {program : ι → Prog ℓ σ ρ} {env : σ → ε → σ}

def Prog.head : Prog ℓ σ α → Option (σ → σ)
  | .call _ act _ => some act
  | _ => none

/- `later` is what a state may become between two calls and `holds` where they are taken; a last call, or a read, fits
any continuation. -/
structure Duty (ℓ σ : Type) where
  later : σ → σ → Prop
  holds : σ → Prop
  does : Option ℓ → σ → σ → Option (σ → σ) → Prop
  refl : ∀ s, later s s
  trans : ∀ a b d, later a b → later b d → later a d
  moves : ∀ label s n next, does label s n next → later s n
  whatever : ∀ label s n next, does label s n none → does label s n next
  still : ∀ s, holds s → does none s s none

namespace Duty

variable {d : Duty ℓ σ}

def each (d : Duty ℓ σ) : Prog ℓ σ α → (α → σ → Prop) → σ → Prop
  | .done a,post,s => post a s
  | .halt,_,_ => True
  | .call label act next,post,s => ∀ now, d.later s now → d.holds now →
      d.does label now (act now) (next now).head ∧ each d (next now) post (act now)

theorem eachMono {post weaker : α → σ → Prop} (h : d.each p post s)
    (weaken : ∀ a n, post a n → weaker a n) : d.each p weaker s := by
  induction p generalizing s with
  | done a => exact weaken a s h
  | halt => trivial
  | call _ _ _ ih =>
    intro now moved holds
    obtain ⟨own,rest⟩ := h now moved holds
    exact ⟨own,ih now rest⟩

theorem eachWeaken {d' : Duty ℓ σ} {post : α → σ → Prop} (h : d.each p post s)
    (later : ∀ s n, d'.later s n → d.later s n) (holds : ∀ s, d'.holds s → d.holds s)
    (does : ∀ label s n next, d'.holds s → d.does label s n next → d'.does label s n next) : d'.each p post s := by
  induction p generalizing s with
  | done => exact h
  | halt => trivial
  | call label _ next ih =>
    intro now moved holds'
    obtain ⟨own,rest⟩ := h now (later _ _ moved) (holds _ holds')
    exact ⟨does _ _ _ _ holds' own,ih now rest⟩

theorem doesBind (f : α → Prog ℓ σ β) (h : d.does label s n p.head) :
    d.does label s n (p >>= f).head := by
  cases p with
  | done => exact d.whatever label s n _ h
  | halt | call => exact h

theorem eachBind {f : α → Prog ℓ σ β} (h : d.each p (fun a n => d.each (f a) post n) s) :
    d.each (p >>= f) post s := by
  induction p generalizing s with
  | done => exact h
  | halt => trivial
  | call _ _ _ ih =>
    intro now moved holds
    obtain ⟨own,rest⟩ := h now moved holds
    exact ⟨doesBind f own,ih now rest⟩

theorem eachLater {post : α → σ → Prop} (h : d.each p post s) :
    d.each p (fun a n => post a n ∧ d.later s n) s := by
  induction p generalizing s with
  | done => exact ⟨h,d.refl s⟩
  | halt => trivial
  | call _ _ _ ih =>
    intro now moved holds
    obtain ⟨own,rest⟩ := h now moved holds
    have since := d.trans _ _ _ moved (d.moves _ _ _ _ own)
    exact ⟨own,eachMono (ih now rest) (fun a n done => ⟨done.1,d.trans _ _ _ since done.2⟩)⟩

theorem eachThen {f : α → Prog ℓ σ β} {mid : α → σ → Prop} (first : d.each p mid s)
    (rest : ∀ a n, mid a n → d.later s n → d.each (f a) post n) : d.each (p >>= f) post s :=
  eachBind (eachMono (eachLater first) (fun a n done => rest a n done.1 done.2))

theorem eachAfter {f : α → Prog ℓ σ β} (first : d.each p (fun _ _ => True) s)
    (rest : ∀ a n, d.later s n → d.each (f a) post n) : d.each (p >>= f) post s :=
  eachThen first (fun a n _ later => rest a n later)

theorem eachRead {g : α → Prog ℓ σ β} (rest : ∀ now, d.later s now → d.holds now → d.each (g (f now)) post now) :
    d.each (Prog.read f >>= g) post s :=
  fun now moved holds => ⟨d.whatever _ _ _ _ (d.still now holds),rest now moved holds⟩

theorem eachLabelled {g : α → Prog ℓ σ β} (rest : ∀ now, d.later s now → d.holds now →
      d.does label now (f now).1 (g (f now).2).head ∧ d.each (g (f now).2) post (f now).1) :
    d.each (Prog.labelled label f >>= g) post s := rest

end Duty

structure Kept (inv : σ → Prop) (duty : ι → Duty ℓ σ) (post : ι → ρ → σ → Prop) (sys : System ι ℓ σ ρ) : Prop where
  inv : inv sys.shared
  procs : ∀ p ∈ sys.procs, ∃ s, (duty p.request).later s sys.shared ∧ (duty p.request).each p.rest (post p.request) s

structure Fits (program : ι → Prog ℓ σ ρ) (env : σ → ε → σ) (inv : σ → Prop) (duty : ι → Duty ℓ σ)
    (post : ι → ρ → σ → Prop) : Prop where
  holds : ∀ r s, inv s → (duty r).holds s
  keeps : ∀ r label s n next, inv s → (duty r).does label s n next → inv n ∧ ∀ q, (duty q).later s n
  quiet : ∀ s e, inv s → inv (env s e) ∧ ∀ q, (duty q).later s (env s e)
  spec : ∀ r s, inv s → (duty r).each (program r) (post r) s

def Acted (env : σ → ε → σ) (duty : ι → Duty ℓ σ) (sys : System ι ℓ σ ρ) : Move ι ε → System ι ℓ σ ρ → Prop
  | .start _,n => n.shared = sys.shared
  | .env e,n => n.shared = env sys.shared e
  | .act i,n => ∃ p q : Process ι ℓ σ ρ, sys.procs[i]? = some p ∧ n.procs[i]? = some q ∧ q.request = p.request ∧
      (duty p.request).does p.rest.label sys.shared n.shared q.rest.head

section
variable {inv : σ → Prop} {duty : ι → Duty ℓ σ} {post : ι → ρ → σ → Prop}

theorem stepKept (fits : Fits program env inv duty post) (kept : Kept inv duty post sys) (h : step program env sys move = some n) :
    Kept inv duty post n ∧ Acted env duty sys move n := by
  cases move with
  | start request =>
    cases h
    exact ⟨⟨kept.inv,Table.allAdded kept.procs ⟨_,(duty request).refl _,fits.spec request _ kept.inv⟩⟩,rfl⟩
  | env e =>
    cases h
    obtain ⟨invNext,moved⟩ := fits.quiet sys.shared e kept.inv
    refine ⟨⟨invNext,fun p member => ?_⟩,rfl⟩
    obtain ⟨s,left,rest⟩ := kept.procs p member
    exact ⟨s,(duty p.request).trans _ _ _ left (moved p.request),rest⟩
  | act i =>
    obtain ⟨request,began,_,act,next,found,rfl⟩ := stepAct h
    obtain ⟨s,left,rest⟩ := kept.procs _ (mem_of_getElem? found)
    obtain ⟨own,rest'⟩ := rest sys.shared left (fits.holds request _ kept.inv)
    obtain ⟨invNext,moved⟩ := fits.keeps request _ _ _ _ kept.inv own
    have at_ : (sys.procs.set i ⟨request,began,next sys.shared⟩)[i]? = some ⟨request,began,next sys.shared⟩ :=
      List.getElem?_set_self (List.getElem?_eq_some_iff.mp found).1
    refine ⟨⟨invNext,fun p member => ?_⟩,_,_,found,at_,rfl,own⟩
    rcases mem_or_eq_of_mem_set member with old | rfl
    · obtain ⟨s',left',each⟩ := kept.procs p old
      exact ⟨s',(duty p.request).trans _ _ _ left' (moved p.request),each⟩
    · exact ⟨_,(duty request).refl _,rest'⟩

theorem runKept (fits : Fits program env inv duty post) (kept : Kept inv duty post sys) (h : run (step program env) sys moves = some out) : Kept inv duty post out := by
  induction moves generalizing sys with
  | nil => cases h; exact kept
  | cons _ moves ih =>
    obtain ⟨n,moved,rest⟩ := runCons h
    exact ih (stepKept fits kept moved).1 rest

theorem actedLater (kept : Kept inv duty post sys) (acted : Acted env duty sys move n) {own : Duty ℓ σ}
    (respects : ∀ r label s n next, inv s → (duty r).does label s n next → own.later s n)
    (quiet : ∀ s e, inv s → own.later s (env s e)) : own.later sys.shared n.shared := by
  cases move with
  | start => rw [show n.shared = sys.shared from acted]; exact own.refl _
  | env e => rw [show n.shared = env sys.shared e from acted]; exact quiet _ e kept.inv
  | act =>
    obtain ⟨p,q,_,_,_,does⟩ := acted
    exact respects _ _ _ _ _ kept.inv does

section

variable (fits : Fits program env inv duty post) {own : Duty ℓ σ} (respects : ∀ r label s n next, inv s → (duty r).does label s n next → own.later s n) (quiet : ∀ s e, inv s → own.later s (env s e))

include fits respects quiet

theorem runLater {moves : List (Move ι ε)}
    (kept : Kept inv duty post sys) (h : run (step program env) sys moves = some out) :
    own.later sys.shared out.shared := by
  induction moves generalizing sys with
  | nil => cases h; exact own.refl _
  | cons _ moves ih =>
    obtain ⟨n,moved,rest⟩ := runCons h
    obtain ⟨keptNext,acted⟩ := stepKept fits kept moved
    exact own.trans _ _ _ (actedLater kept acted respects quiet) (ih keptNext rest)

theorem runEach {goal : ρ → σ → Prop} {sys out : System ι ℓ σ ρ} (kept : Kept inv duty post sys) (h : run (step program env) sys moves = some out) (found : sys.procs[i]? = some p) (left : own.later s sys.shared) (each : own.each p.rest goal s) :
    (∃ before after mid, moves = before ++ .act i::after ∧ run (step program env) sys before = some mid ∧
      ¬ own.holds mid.shared) ∨
    ∃ (q : Process ι ℓ σ ρ) (s' : σ), out.procs[i]? = some q ∧ own.later s' out.shared ∧ own.each q.rest goal s' := by
  induction moves generalizing sys p s with
  | nil => cases h; exact .inr ⟨p,s,found,left,each⟩
  | cons move moves ih =>
    obtain ⟨n,moved,rest⟩ := runCons h
    obtain ⟨keptNext,acted⟩ := stepKept fits kept moved
    have later := actedLater kept acted respects quiet
    suffices next : (move = .act i ∧ ¬ own.holds sys.shared) ∨
        ∃ q s', n.procs[i]? = some q ∧ own.later s' n.shared ∧ own.each q.rest goal s' by
      rcases next with ⟨rfl,fails⟩ | ⟨q,s',found',left',each'⟩
      · exact .inl ⟨[],moves,sys,rfl,rfl,fails⟩
      rcases ih keptNext rest found' left' each' with ⟨before,after,mid,rfl,reached,fails⟩ | done
      · refine .inl ⟨move::before,after,mid,rfl,?_,fails⟩
        rw [run,moved]
        exact reached
      · exact .inr done
    rcases stepProcess moved found with ⟨rfl,_,_,_,_,_,rfl,reached,at_⟩ | at_
    · by_cases holds : own.holds sys.shared
      · obtain ⟨_,rest'⟩ := each sys.shared left holds
        rw [← reached] at rest'
        exact .inr ⟨_,_,at_,own.refl _,rest'⟩
      · exact .inl ⟨rfl,holds⟩
    · exact .inr ⟨_,_,at_,own.trans _ _ _ left later,each⟩

end

theorem eachActs {own : Duty ℓ σ} {goal : ρ → σ → Prop} (found : sys.procs[i]? = some p) (left : own.later s sys.shared)
    (each : own.each p.rest goal s) (holds : own.holds sys.shared)
    (h : step program env sys (.act i : Move ι ε) = some n) : ∃ next, own.does p.rest.label sys.shared n.shared next := by
  obtain ⟨_,_,label,act,next,at_,rfl⟩ := stepAct h
  cases some.inj (at_.symm.trans found)
  exact ⟨_,(each sys.shared left holds).1⟩

end

end Omnigate.Interleave
