import Mathlib.Tactic
import Mathlib.Algebra.Order.Ring.Rat
import Omnigate.Machine

/-! The pricing expression that the visual editor generates, as the tokens the expression
compiler splits it into, and that compiler's reading of tokens by operator precedence. -/
namespace Omnigate.TierExpr

open Machine List

inductive Var
  | p | c | len | cr | cc | cc1h | img | imgO | ai | ao
deriving DecidableEq, Repr

inductive Comparison
  | lt | le | gt | ge
deriving DecidableEq, Repr

inductive Op
  | and | compare (c : Comparison) | add | mul
deriving DecidableEq, Repr

/- A numeral has its sign; `tier` is the call up to the comma after its label. -/
inductive Token
  | number (value : ℚ) | name (v : Var) | op (o : Op) | tier (label : String) | close | question | colon
deriving DecidableEq

structure TierConditionInput where
  var : Var
  op : Comparison
  value : Option ℚ

structure VisualTier where
  label : String
  conditions : List TierConditionInput
  unitCost : Var → ℚ

structure Term where
  var : Var
  op : Op
  value : ℚ

def Term.tokens (t : Term) : List Token := [.name t.var,.op t.op,.number t.value]

def joined (join : Op) : List Term → List Token
  | [] => []
  | first::terms => first.tokens ++ terms.flatMap fun term => .op join::term.tokens

def conditionTerms (conditions : List TierConditionInput) : List Term :=
  conditions.filterMap fun c => c.value.map fun value => ⟨c.var,.compare c.op,value⟩

def buildConditionStr (conditions : List TierConditionInput) : List Token := joined .and (conditionTerms conditions)

def billingCacheVarMap : List Var := [.cr,.cc,.cc1h,.img,.imgO,.ai,.ao]

def bodyTerms (tier : VisualTier) : List Term :=
  (.p::.c::billingCacheVarMap.filter (tier.unitCost · ≠ 0)).map fun v => ⟨v,.mul,tier.unitCost v⟩

def buildTierBodyExpr (tier : VisualTier) : List Token := joined .add (bodyTerms tier)

def labelOr (fallback : String) (tier : VisualTier) : String := if tier.label = "" then fallback else tier.label

def tierCall (fallback : String) (tier : VisualTier) : List Token :=
  .tier (labelOr fallback tier) :: buildTierBodyExpr tier ++ [.close]

def tierParts : Nat → List VisualTier → List Token
  | _,[] => []
  | i,[last] => tierCall s!"tier_{i+1}" last
  | i,tier::rest =>
    let body := tierCall s!"tier_{i+1}" tier
    let cond := buildConditionStr tier.conditions
    (if cond ≠ [] then cond ++ .question::body else body) ++ .colon::tierParts (i+1) rest

def zeroExpr : List Token := joined .add [⟨.p,.mul,0⟩,⟨.c,.mul,0⟩]

def generateExprFromVisualConfig : List VisualTier → List Token
  | [] => zeroExpr
  | [tier] =>
    let body := tierCall "default" tier
    let cond := buildConditionStr tier.conditions
    if cond ≠ [] then cond ++ .question::body ++ .colon::zeroExpr else body
  | tiers => tierParts 0 tiers

inductive Expr
  | number (value : ℚ) | name (v : Var) | binary (o : Op) (left right : Expr)
  | tier (label : String) (value : Expr) | conditional (cond yes no : Expr)

inductive Frame
  | binary (o : Op) (left : Expr) | call (label : String) | question (cond : Expr) | colon (cond yes : Expr)

def Op.precedence : Op → Nat
  | .and => 15
  | .compare _ => 20
  | .add => 30
  | .mul => 60

/- Operators from precedence `least` on end at the operand; at 0 conditionals end there too. -/
def reduce (least : Nat) : Expr → List Frame → Expr × List Frame
  | right,.binary o left::frames =>
    if least ≤ o.precedence then reduce least (.binary o left right) frames else (right,.binary o left::frames)
  | no,.colon cond yes::frames =>
    if least = 0 then reduce least (.conditional cond yes no) frames else (no,.colon cond yes::frames)
  | e,frames => (e,frames)

def read : Option Expr × List Frame → Token → Option (Option Expr × List Frame)
  | (none,frames),.number value => some (some (.number value),frames)
  | (none,frames),.name v => some (some (.name v),frames)
  | (none,frames),.tier label => some (none,.call label::frames)
  | (some e,frames),.op o =>
    let (left,frames) := reduce o.precedence e frames
    some (none,.binary o left::frames)
  | (some e,frames),.question =>
    let (cond,frames) := reduce 1 e frames
    some (none,.question cond::frames)
  | (some e,frames),.colon => match reduce 0 e frames with
    | (yes,.question cond::frames) => some (none,.colon cond yes::frames)
    | _ => none
  | (some e,frames),.close => match reduce 0 e frames with
    | (value,.call label::frames) => some (some (.tier label value),frames)
    | _ => none
  | _,_ => none

def Token.lexes : Token → Bool
  | .tier label => '\n' ∉ label.toList
  | _ => true

def parse (tokens : List Token) : Option Expr :=
  if !tokens.all Token.lexes then none
  else match run read (none,[]) tokens with
    | some (some e,frames) => match reduce 0 e frames with
      | (e,[]) => some e
      | _ => none
    | _ => none

inductive Value
  | number (x : ℚ) | truth (b : Bool)
deriving DecidableEq

def Comparison.holds : Comparison → ℚ → ℚ → Bool
  | .lt,x,y => x < y
  | .le,x,y => x ≤ y
  | .gt,x,y => x > y
  | .ge,x,y => x ≥ y

def Op.apply : Op → Value → Value → Option Value
  | .add,.number x,.number y => some (.number (x+y))
  | .mul,.number x,.number y => some (.number (x*y))
  | .compare c,.number x,.number y => some (.truth (c.holds x y))
  | .and,.truth x,.truth y => some (.truth (x && y))
  | _,_,_ => none

def eval (tokens : Var → ℚ) : Expr → Option Value
  | .number value => some (.number value)
  | .name v => some (.number (tokens v))
  | .binary o left right => (eval tokens left).bind fun x => (eval tokens right).bind (o.apply x)
  | .tier _ value => eval tokens value
  | .conditional cond yes no => match eval tokens cond with
    | some (.truth b) => if b then eval tokens yes else eval tokens no
    | _ => none

def TierConditionInput.holds (tokens : Var → ℚ) (c : TierConditionInput) : Bool :=
  c.value.all (c.op.holds (tokens c.var))

def VisualTier.cost (tokens : Var → ℚ) (tier : VisualTier) : ℚ :=
  ((.p::.c::billingCacheVarMap).map fun v => tokens v * tier.unitCost v).sum

def shown (tokens : Var → ℚ) : List VisualTier → ℚ
  | [] => 0
  | [last] => last.cost tokens
  | tier::rest => if tier.conditions.all (·.holds tokens) then tier.cost tokens else shown tokens rest

def Term.expr (t : Term) : Expr := .binary t.op (.name t.var) (.number t.value)

def joinedExpr (join : Op) : List Term → Expr
  | [] => .number 0
  | first::terms => terms.foldl (fun left term => .binary join left term.expr) first.expr

/- `base` does not begin with an operator that waits for its right side. -/
def Clear (base : List Frame) : Prop := ∀ least e, 0 < least → reduce least e base = (e,base)

/- The operand read last is the right end of `whole`, which stands on `base`. -/
def Ends (join : Op) (whole : Expr) (base : List Frame) (e : Expr) (frames : List Frame) : Prop :=
  ∀ least ≤ join.precedence, reduce least e frames = reduce least whole base

theorem opPositive (o : Op) : 0 < o.precedence := by cases o <;> simp [Op.precedence]

theorem termsRead {terms : List Term} (clear : Clear base) (tight : ∀ term ∈ terms, join.precedence < term.op.precedence)
    (ends : Ends join whole base e frames) :
    ∃ e' frames', run read (some e,frames) (terms.flatMap fun term => .op join::term.tokens) = some (some e',frames') ∧
      Ends join (terms.foldl (fun left term => .binary join left term.expr) whole) base e' frames' := by
  induction terms generalizing whole e frames with
  | nil => exact ⟨e,frames,rfl,ends⟩
  | cons term terms ih =>
    have high := tight term mem_cons_self
    have ended := (ends _ (le_refl _)).trans (clear _ _ (opPositive join))
    have next : Ends join (.binary join whole term.expr) base (.number term.value)
        (.binary term.op (.name term.var)::.binary join whole::base) := by
      intro least low
      simp [reduce,low.trans high.le,low,Term.expr]
    obtain ⟨e',frames',rest,last⟩ := ih (fun t inside => tight t (mem_cons_of_mem _ inside)) next
    refine ⟨e',frames',?_,last⟩
    simpa [run,read,Term.tokens,ended,reduce,Nat.not_le.mpr high] using rest

theorem joinedRead {terms : List Term} (clear : Clear base) (tight : ∀ term ∈ terms, join.precedence < term.op.precedence)
    (some_ : terms ≠ []) :
    ∃ e frames, run read (none,base) (joined join terms) = some (some e,frames) ∧
      Ends join (joinedExpr join terms) base e frames := by
  cases terms with
  | nil => exact absurd rfl some_
  | cons first terms =>
    have high := tight first mem_cons_self
    have start : Ends join first.expr base (.number first.value) (.binary first.op (.name first.var)::base) := by
      intro least low
      simp [reduce,low.trans high.le,Term.expr]
    obtain ⟨e',frames',rest,last⟩ := termsRead clear (fun t inside => tight t (mem_cons_of_mem _ inside)) start
    refine ⟨e',frames',?_,last⟩
    simpa [joined,run,read,Term.tokens,clear _ _ (opPositive _)] using rest

def callExpr (fallback : String) (tier : VisualTier) : Expr :=
  .tier (labelOr fallback tier) (joinedExpr .add (bodyTerms tier))

theorem callRead (fallback tier frames) :
    run read (none,frames) (tierCall fallback tier) = some (some (callExpr fallback tier),frames) := by
  have tight : ∀ term ∈ bodyTerms tier, Op.add.precedence < term.op.precedence := by
    intro term inside
    obtain ⟨v,-,rfl⟩ := mem_map.mp inside
    simp [Op.precedence]
  obtain ⟨e,frames',body,ends⟩ := @joinedRead (.call (labelOr fallback tier)::frames) .add _ (fun _ _ _ => rfl) tight
    (by simp [bodyTerms])
  rw [tierCall,cons_append,run,read,Option.bind_some,runBind,buildTierBodyExpr,body]
  simp [run,read,ends 0,reduce,callExpr]

theorem conditionRead (clear : Clear frames) (some_ : conditionTerms conditions ≠ []) :
    run read (none,frames) (buildConditionStr conditions ++ .question::rest) =
      run read (none,.question (joinedExpr .and (conditionTerms conditions))::frames) rest := by
  have tight : ∀ term ∈ conditionTerms conditions, Op.and.precedence < term.op.precedence := by
    intro term inside
    obtain ⟨c,-,same⟩ := mem_filterMap.mp inside
    obtain ⟨x,-,rfl⟩ := Option.map_eq_some_iff.mp same
    simp [Op.precedence]
  obtain ⟨e,frames',conds,ends⟩ := joinedRead clear tight some_
  rw [runBind,buildConditionStr,conds]
  simp [run,read,ends 1 (by simp [Op.precedence]),clear 1]

theorem stringEmpty : buildConditionStr conditions = [] ↔ conditionTerms conditions = [] := by
  unfold buildConditionStr
  cases conditionTerms conditions <;> simp [joined,Term.tokens]

theorem partRead (clear : Clear frames) (some_ : conditionTerms tier.conditions ≠ []) :
    run read (none,frames) (tierParts i (tier::second::rest)) =
      run read (none,.colon (joinedExpr .and (conditionTerms tier.conditions)) (callExpr s!"tier_{i+1}" tier)::frames)
        (tierParts (i+1) (second::rest)) := by
  simp only [tierParts,ne_eq,stringEmpty,some_,not_false_eq_true,if_true,append_assoc,cons_append]
  rw [conditionRead clear some_,runBind,callRead]
  rfl

theorem sumValue {costs : List Var} {unitCost : Var → ℚ} (start : eval tokens e = some (.number x)) :
    eval tokens ((costs.map fun v => Term.mk v .mul (unitCost v)).foldl
      (fun left term => .binary .add left term.expr) e) =
      some (.number (x + (costs.map fun v => tokens v * unitCost v).sum)) := by
  induction costs generalizing e x with
  | nil => simpa using start
  | cons v costs ih =>
    rw [map_cons,foldl_cons,ih (x := x + tokens v * unitCost v)]
    · simp [add_assoc]
    · simp [eval,start,Term.expr,Op.apply]

theorem bodyValue (tokens) (tier : VisualTier) :
    eval tokens (joinedExpr .add (bodyTerms tier)) = some (.number (tier.cost tokens)) := by
  have skipped : ∀ costs : List Var, ((costs.filter (tier.unitCost · ≠ 0)).map fun v => tokens v * tier.unitCost v).sum =
      (costs.map fun v => tokens v * tier.unitCost v).sum := by
    intro costs
    induction costs with
    | nil => rfl
    | cons v costs ih => by_cases zero : tier.unitCost v = 0 <;> simp_all
  rw [bodyTerms,map_cons,joinedExpr,sumValue (x := tokens .p * tier.unitCost .p) (by simp [eval,Term.expr,Op.apply])]
  simp only [VisualTier.cost,map_cons,sum_cons,skipped]

theorem conditionValue {conditions : List TierConditionInput} (start : eval tokens e = some (.truth b)) :
    eval tokens ((conditionTerms conditions).foldl (fun left term => .binary .and left term.expr) e) =
      some (.truth (b && conditions.all (·.holds tokens))) := by
  induction conditions generalizing e b with
  | nil => simpa [conditionTerms] using start
  | cons c conditions ih =>
    cases value : c.value with
    | none => simpa [conditionTerms,value,TierConditionInput.holds] using ih start
    | some x =>
      have next : eval tokens (.binary .and e (Term.expr ⟨c.var,.compare c.op,x⟩)) =
          some (.truth (b && c.op.holds (tokens c.var) x)) := by
        simp [eval,start,Term.expr,Op.apply]
      simpa [conditionTerms,value,TierConditionInput.holds,Bool.and_assoc] using ih next

theorem conditionsValue (tokens) {conditions : List TierConditionInput} (some_ : conditionTerms conditions ≠ []) :
    eval tokens (joinedExpr .and (conditionTerms conditions)) = some (.truth (conditions.all (·.holds tokens))) := by
  induction conditions with
  | nil => exact absurd rfl some_
  | cons c conditions ih =>
    cases value : c.value with
    | none => simpa [conditionTerms,value,TierConditionInput.holds] using ih (by simpa [conditionTerms,value] using some_)
    | some x =>
      have first : eval tokens (Term.expr ⟨c.var,.compare c.op,x⟩) = some (.truth (c.op.holds (tokens c.var) x)) := by
        simp [eval,Term.expr,Op.apply]
      simpa [conditionTerms,joinedExpr,value,TierConditionInput.holds] using conditionValue first

theorem tiersRead (clear : Clear frames) (all : ∀ t ∈ (tier::rest).dropLast, conditionTerms t.conditions ≠ []) :
    ∃ e frames' whole, run read (none,frames) (tierParts i (tier::rest)) = some (some e,frames') ∧
      reduce 0 e frames' = reduce 0 whole frames ∧
      ∀ tokens, eval tokens whole = some (.number (shown tokens (tier::rest))) := by
  induction rest generalizing tier i frames with
  | nil => exact ⟨_,_,_,callRead _ tier frames,rfl,fun tokens => bodyValue tokens tier⟩
  | cons next rest ih =>
    have some_ := all tier mem_cons_self
    rw [partRead clear some_]
    obtain ⟨e,frames',whole,ran,ends,value⟩ := @ih (.colon (joinedExpr .and (conditionTerms tier.conditions))
      (callExpr s!"tier_{i+1}" tier)::frames) next (i+1) (fun _ _ positive => by simp [reduce,positive.ne'])
      (fun t inside => all t (mem_cons_of_mem _ inside))
    refine ⟨e,frames',_,ran,ends,fun tokens => ?_⟩
    rw [eval,conditionsValue tokens some_]
    simp only [callExpr,eval,bodyValue,value,shown]
    split <;> rfl

theorem tiersStuck (clear : Clear frames) (closed : ∀ e, (reduce 0 e frames).2 = [])
    (missing : ∃ t ∈ (tier::rest).dropLast, conditionTerms t.conditions = []) :
    run read (none,frames) (tierParts i (tier::rest)) = none := by
  induction rest generalizing tier i frames with
  | nil => simp at missing
  | cons next rest ih =>
    by_cases empty : conditionTerms tier.conditions = []
    · have last := closed (callExpr s!"tier_{i+1}" tier)
      simp only [tierParts,ne_eq,stringEmpty,empty,not_true_eq_false,if_false]
      rw [runBind,callRead,Option.bind_some,run,read]
      split
      · rename_i waiting
        rw [waiting] at last
        cases last
      · rfl
    · rw [partRead clear empty]
      refine ih (fun _ _ positive => by simp [reduce,positive.ne']) (fun e => closed _) ?_
      obtain ⟨t,inside,none_⟩ := missing
      rcases mem_cons.mp inside with rfl | inside
      · exact absurd none_ empty
      · exact ⟨t,inside,none_⟩

theorem joinedLexes (join : Op) (terms : List Term) : (joined join terms).all Token.lexes := by
  cases terms <;> simp [joined,Term.tokens,Token.lexes]

theorem callLexes (plain : '\n' ∉ fallback.toList) (tier : VisualTier) :
    (tierCall fallback tier).all Token.lexes ↔ '\n' ∉ tier.label.toList := by
  simp only [tierCall,cons_append,all_cons,all_append,buildTierBodyExpr,joinedLexes,Token.lexes,labelOr]
  split
  · rename_i unnamed
    simp [unnamed,plain]
  · simp

theorem numberLexes (i : Nat) : '\n' ∉ (s!"tier_{i+1}").toList := by
  intro inside
  simp only [toString,String.toList_append,mem_append] at inside
  rcases inside with text | number
  · revert text
    decide
  have digit := Nat.isDigit_of_mem_toDigits (b := 10) (by decide) (by decide) (by simpa [Nat.repr] using number)
  revert digit
  decide

theorem tiersLex (tiers : List VisualTier) :
    (tierParts i tiers).all Token.lexes ↔ ∀ tier ∈ tiers, '\n' ∉ tier.label.toList := by
  induction tiers generalizing i with
  | nil => simp [tierParts]
  | cons tier rest ih =>
    cases rest with
    | nil => simpa [tierParts] using callLexes (numberLexes i) tier
    | cons next rest =>
      rw [forall_mem_cons,← callLexes (numberLexes i),← @ih (i+1)]
      simp only [tierParts]
      split <;> simp [all_append,buildConditionStr,joinedLexes,Token.lexes]

def oneCost : VisualTier := ⟨"base",[],fun _ => 1⟩

end Omnigate.TierExpr
