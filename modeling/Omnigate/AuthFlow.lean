import Omnigate.Pool
import Omnigate.Table

/-! One-time auth flows. `ConsumeAuthFlowWithAction` is a transaction of single statements: the query (locking where
the database has row locks), the conditional update, the statements of the action and the commit. Its writes become
visible with the commit; until then the row it updated is locked. -/
namespace Omnigate.AuthFlows

structure AuthFlow where
  id : Int
  (tokenHash purpose provider intent : String)
  userId : Int
  (sessionId payload : String)
  expiresAt : Int
  consumedAt : Option Int
  deriving DecidableEq, Repr

structure AuthFlowMatch where
  (purpose provider intent : String)
  userId : Int
  sessionId : String
  deriving DecidableEq, Repr

inductive AuthFlowError where
  | invalid
  | expired
  | consumed
  | action (message : String)
  | database
  deriving DecidableEq, Repr

structure Config where
  authFlowTokenHash : String → String
  rowLocks : Bool

def applyAuthFlowMatch (config : Config) (token : String) (criteria : AuthFlowMatch) (flow : AuthFlow) : Bool :=
  flow.tokenHash = config.authFlowTokenHash token && flow.purpose = criteria.purpose &&
    (criteria.provider = "" || flow.provider = criteria.provider) &&
    (criteria.intent = "" || flow.intent = criteria.intent) &&
    (criteria.userId = 0 || flow.userId = criteria.userId) &&
    (criteria.sessionId = "" || flow.sessionId = criteria.sessionId)

/- The statements of an action on the other tables: each meets the data with the action's earlier writes, which
decides how it goes on. -/
inductive Action (δ : Type) where
  | succeed
  | fail (message : String)
  | statement (write : δ → δ) (next : δ → Action δ)

variable {δ : Type}

def Action.run : Action δ → δ → Except String δ
  | .succeed,data => .ok data
  | .fail message,_ => .error message
  | .statement write next,data => (next data).run (write data)

structure Call (δ : Type) where
  token : String
  criteria : AuthFlowMatch
  action : AuthFlow → Action δ

def consumeAuthFlow (token : String) (criteria : AuthFlowMatch) : Call δ := ⟨token,criteria,fun _ => .succeed⟩

inductive Phase (δ : Type) where
  | called
  | queried (flow : AuthFlow)
  | timed (flow : AuthFlow) (now : Int)
  | acting (flow : AuthFlow) (writes : δ → δ) (rest : Action δ)
  | finished (result : Except AuthFlowError AuthFlow)

structure Process (δ : Type) where
  call : Call δ
  phase : Phase δ

structure Tables (δ : Type) where
  clock : Int
  flows : List AuthFlow
  data : δ
  locked : List Int

def Tables.flow (s : Tables δ) (id : Int) : Option AuthFlow := Table.lookup AuthFlow.id id s.flows

def getAuthFlow (config : Config) (token : String) (criteria : AuthFlowMatch) (s : Tables δ) :
    Except AuthFlowError AuthFlow :=
  if token = "" ∨ criteria.purpose = "" then .error .invalid
  else match s.flows.find? (applyAuthFlowMatch config token criteria) with
    | none => .error .invalid
    | some flow =>
      if flow.consumedAt ≠ none then .error .consumed
      else if flow.expiresAt ≤ s.clock then .error .expired
      else .ok flow

def Process.holds (config : Config) (p : Process δ) : Option Int :=
  match p.phase with
  | .queried flow => if config.rowLocks then some flow.id else none
  | .timed flow _ => if config.rowLocks then some flow.id else none
  | .acting flow _ _ => some flow.id
  | _ => none

def Tables.release (s : Tables δ) (held : Option Int) : Tables δ :=
  {s with locked := s.locked.filter (fun id => held ≠ some id)}

def finish (config : Config) (s : Tables δ) (p : Process δ) (result : Except AuthFlowError AuthFlow) :
    Tables δ × Process δ := (s.release (p.holds config),{p with phase := .finished result})

def consumable (flow : AuthFlow) (now : Int) (row : AuthFlow) : Bool :=
  row.id = flow.id && row.consumedAt = none && row.expiresAt > now

def advance (config : Config) (s : Tables δ) (p : Process δ) : Option (Tables δ × Process δ) :=
  match p.phase with
  | .called =>
    if p.call.token = "" ∨ p.call.criteria.purpose = "" then some (finish config s p (.error .invalid))
    else match s.flows.find? (applyAuthFlowMatch config p.call.token p.call.criteria) with
      | none => some (finish config s p (.error .invalid))
      | some flow =>
        if config.rowLocks then
          if flow.id ∈ s.locked then none
          else some ({s with locked := flow.id::s.locked},{p with phase := .queried flow})
        else some (s,{p with phase := .queried flow})
  | .queried flow =>
    if flow.consumedAt ≠ none then some (finish config s p (.error .consumed))
    else if flow.expiresAt ≤ s.clock then some (finish config s p (.error .expired))
    else some (s,{p with phase := .timed flow s.clock})
  | .timed flow now =>
    if !config.rowLocks && flow.id ∈ s.locked then none
    else if (s.flows.filter (consumable flow now)).length ≠ 1 then some (finish config s p (.error .consumed))
    else
      let consumed := {flow with consumedAt := some now}
      some ({s with locked := if config.rowLocks then s.locked else flow.id::s.locked},
        {p with phase := .acting consumed id (p.call.action consumed)})
  | .acting flow writes rest =>
    match rest with
    | .succeed =>
      let committed := {s with
        flows := Table.updateWhere (fun row => row.id = flow.id) (fun row => {row with consumedAt := flow.consumedAt}) s.flows
        data := writes s.data }
      some (finish config committed p (.ok flow))
    | .fail message => some (finish config s p (.error (.action message)))
    | .statement write next => some (s,{p with phase := .acting flow (write ∘ writes) (next (writes s.data))})
  | .finished _ => none

/- Time may pass before a statement, and any may fail or lose its connection: the transaction is rolled back. -/
structure Choice where
  elapsed : Nat
  aborts : Bool

def act (config : Config) (s : Tables δ) (p : Process δ) (choice : Choice) : Option (Tables δ × Process δ) :=
  let s := {s with clock := s.clock + choice.elapsed}
  if choice.aborts then
    match p.phase with
    | .finished _ => none
    | _ => some (finish config s p (.error .database))
  else advance config s p

def starts (p : Process δ) : Bool :=
  match p.phase with
  | .called => true
  | _ => false

end Omnigate.AuthFlows
