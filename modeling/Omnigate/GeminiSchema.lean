import Mathlib.Tactic
import Omnigate.Text

/-! The cleaning of tool parameters for Gemini. A map is the function from its keys to its entries. A call gives its
argument as it leaves it beside its result, nested calls included. -/
namespace Omnigate.GeminiSchema

inductive Json
  | null | bool (b : Bool) | number (text : String) | string (s : String)
  | array (items : List Json)
  | object (fields : String → Option Json)

abbrev Map := String → Option Json

def set (schema : Map) (key : String) (value : Json) : Map := Function.update schema key (some value)

def delete (schema : Map) (key : String) : Map := Function.update schema key none

def bind (fields : Map) (f : String → Json → Option Json) : Map := fun key => (fields key).bind (f key)

def geminiOpenAPISchemaAllowedFields : List String :=
  ["anyOf","default","description","enum","example","format","items","maxItems","maxLength","maxProperties",
    "maximum","minItems","minLength","minProperties","minimum","nullable","pattern","properties",
    "propertyOrdering","required","title","type"]

def geminiFunctionSchemaMaxDepth : Nat := 64

def allowedEntry (key : String) : Json → Option Json :=
  if key ∈ geminiOpenAPISchemaAllowedFields then some else fun _ => none

/- Outside ASCII only this letter has its lower case in a word of `normalize`. -/
def toLower (t : String) : String := t.map fun c => if c = 'İ' then 'i' else c.toLower

def normalize (t : String) : String × Bool :=
  match toLower (Text.trimSpace t) with
  | "object" => ("OBJECT",false)
  | "array" => ("ARRAY",false)
  | "string" => ("STRING",false)
  | "integer" => ("INTEGER",false)
  | "number" => ("NUMBER",false)
  | "boolean" => ("BOOLEAN",false)
  | "null" => ("",true)
  | _ => (t,false)

def typeItem : Bool × String → Json → Bool × String
  | (nullable,chosen),.string value =>
    if (normalize value).2 then (true,chosen)
    else (nullable,if chosen = "" then (normalize value).1 else chosen)
  | state,_ => state

def normalizeGeminiSchemaTypeAndNullable (schema : Map) : Map :=
  match schema "type" with
  | some (.string typed) =>
    if (normalize typed).2 then delete (set schema "nullable" (.bool true)) "type"
    else set schema "type" (.string (normalize typed).1)
  | some (.array typed) =>
    let (nullable,chosen) := typed.foldl typeItem (false,"")
    let schema := if nullable then set schema "nullable" (.bool true) else schema
    if chosen ≠ "" then set schema "type" (.string chosen) else delete schema "type"
  | _ => schema

def cleanedMap (v : Map) : Map := normalizeGeminiSchemaTypeAndNullable (bind v allowedEntry)

def cleanGeminiFunctionParametersShallow : Json → Json
  | .object v => .object (delete (delete (delete (cleanedMap v) "properties") "items") "anyOf")
  | .array _ => .array []
  | params => params

def cleanEntry (clean : Json → Json × Json) : String → Json → Json × Json
  | "properties",.object props =>
    (.object (bind props fun _ value => some (clean value).1),.object (bind props fun _ value => some (clean value).2))
  | "items",.object items => clean (.object items)
  | "items",.array (first::rest) => (.array ((clean first).1::rest),(clean first).2)
  | "anyOf",.array nested =>
    (.array (nested.map fun item => (clean item).1),.array (nested.map fun item => (clean item).2))
  | _,value => (value,value)

/- The argument as the call leaves it, and what it returns; `left` is
`geminiFunctionSchemaMaxDepth - depth`. -/
def cleanGeminiFunctionParametersWithDepth : (left : Nat) → Json → Json × Json
  | _,.null => (.null,.null)
  | 0,params => (params,cleanGeminiFunctionParametersShallow params)
  | left+1,.object v =>
    let clean := cleanEntry (cleanGeminiFunctionParametersWithDepth left)
    (.object (bind v fun key value => some (clean key value).1),
      .object (bind (cleanedMap v) fun key value => some (clean key value).2))
  | left+1,.array v =>
    (.array (v.map fun item => (cleanGeminiFunctionParametersWithDepth left item).1),
      .array (v.map fun item => (cleanGeminiFunctionParametersWithDepth left item).2))
  | _,params => (params,params)

def cleanFunctionParameters (params : Json) : Json × Json :=
  cleanGeminiFunctionParametersWithDepth geminiFunctionSchemaMaxDepth params

inductive Step where
  | property (name : String) | item | at_ (index : Nat)

def Json.child : Json → Step → Option Json
  | .object fields,.property name => match fields "properties" with
    | some (.object props) => props name
    | _ => none
  | .object fields,.item => match fields "items" with
    | some (.object item) | some (.array (.object item::_)) => some (.object item)
    | _ => none
  | .object fields,.at_ i => match fields "anyOf" with
    | some (.array values) => values[i]?
    | _ => none
  | .array values,.at_ i => values[i]?
  | _,_ => none

def reach : Json → List Step → Option Json
  | params,[] => some params
  | params,step::path => (params.child step).bind (reach · path)

def itemsPlain (params : Json) : Prop := ∀ path fields values rest, reach params path = some (.object fields) →
  fields "items" ≠ some (.array (.array values::rest))

def Typed : Option Json → Prop
  | some (.string _) | some (.array _) => True
  | _ => False

def Settled (type : Option Json) : Prop := ∀ value ∈ type, ∃ t, value = .string t ∧ normalize t = (t,false)

theorem normalizeTwice (t) (some_ : (normalize t).2 = false) :
    normalize (normalize t).1 = ((normalize t).1,false) := by
  generalize same : normalize t = n at some_ ⊢
  unfold normalize at same
  split at same <;> subst same <;> first | decide +kernel | cases some_
  unfold normalize
  split <;> simp_all

theorem chosenSettled (typed : List Json) : (typed.foldl typeItem (false,"")).2 = "" ∨
    Settled (some (.string (typed.foldl typeItem (false,"")).2)) := by
  refine List.foldlRecOn typed typeItem
    (motive := fun state => state.2 = "" ∨ Settled (some (.string state.2))) ?_ ?_
  · exact .inl rfl
  rintro ⟨nullable,chosen⟩ known item -
  cases item with
  | string value =>
    simp only [typeItem]
    by_cases null : (normalize value).2
    · simpa [null] using known
    · by_cases empty : chosen = ""
      · right
        simpa [null,empty,Settled] using normalizeTwice value (by simpa using null)
      · simpa [null,empty] using known
  | _ => exact known

theorem normalized (result : normalizeGeminiSchemaTypeAndNullable schema = out) :
    (∀ key, key ≠ "type" → key ≠ "nullable" → out key = schema key) ∧
    (Settled (out "type") ∨ out = schema ∧ ¬Typed (schema "type")) := by
  unfold normalizeGeminiSchemaTypeAndNullable at result
  split at result
  · rename_i typed same
    split at result <;> subst result
    · exact ⟨by simp +contextual [delete,set],.inl (by simp [delete,Settled])⟩
    · rename_i some_
      refine ⟨by simp +contextual [set],.inl ?_⟩
      simpa [set,Settled] using normalizeTwice typed (by simpa using some_)
  · rename_i typed same
    have settled := chosenSettled typed
    split at result
    rename_i nullable chosen run
    rw [run] at settled
    subst result
    refine ⟨by split <;> split <;> simp +contextual [delete,set],.inl ?_⟩
    by_cases named : chosen = ""
    · simp [named,delete,Settled]
    · simpa [named,set] using settled
  · rename_i other list
    refine ⟨fun _ _ _ => congrFun result.symm _,.inr ⟨result.symm,?_⟩⟩
    intro typed
    unfold Typed at typed
    split at typed <;> simp_all

def Tidy (fields : Map) : Prop := (∀ key, fields key ≠ none → key ∈ geminiOpenAPISchemaAllowedFields) ∧
  (Settled (fields "type") ∨ ¬Typed (fields "type"))

theorem tidyKept (tidy : Tidy v) : cleanedMap v = v := by
  have same : bind v allowedEntry = v := by
    funext key
    by_cases inside : key ∈ geminiOpenAPISchemaAllowedFields
    · simp [bind,allowedEntry,inside]
    · simp [bind,allowedEntry,inside,not_not.mp (mt (tidy.1 key) inside)]
  rw [cleanedMap,same]
  unfold normalizeGeminiSchemaTypeAndNullable
  cases type : v "type" with
  | none => rfl
  | some value =>
    have kind := tidy.2
    rw [type] at kind
    rcases kind with settled | untyped
    · obtain ⟨t,rfl,kept⟩ := settled value rfl
      simp [kept,set,← type]
    · cases value with
      | string | array => exact absurd trivial untyped
      | _ => rfl

@[simp] theorem bindSome (m) : bind m (fun _ => some) = m := by
  funext key
  simp [bind]

theorem argumentKept (left) (params : Json) : (cleanGeminiFunctionParametersWithDepth left params).1 = params := by
  induction left generalizing params with
  | zero => cases params <;> rfl
  | succ left ih =>
    have entry : ∀ key value, (cleanEntry (cleanGeminiFunctionParametersWithDepth left) key value).1 = value := by
      intro key value
      unfold cleanEntry
      split <;> simp [ih]
    cases params with
    | object v => simp [cleanGeminiFunctionParametersWithDepth,entry]
    | array v => simp [cleanGeminiFunctionParametersWithDepth,ih]
    | _ => rfl

def cleanedEntry : Nat → String → Json → Option Json
  | 0,key => if key ∈ ["properties","items","anyOf"] then fun _ => none else some
  | left+1,key => fun value => some (cleanEntry (cleanGeminiFunctionParametersWithDepth left) key value).2

abbrev cleaned (left : Nat) (params : Json) : Json := (cleanGeminiFunctionParametersWithDepth left params).2

theorem cleanedFields (left v) : cleaned left (.object v) = .object (bind (cleanedMap v) (cleanedEntry left)) := by
  cases left with
  | zero =>
    refine congrArg Json.object (funext fun key => ?_)
    by_cases slot : key ∈ ["properties","items","anyOf"]
    · simp only [bind,cleanedEntry,if_pos slot]
      simp only [List.mem_cons,List.not_mem_nil,or_false] at slot
      rcases slot with rfl | rfl | rfl <;> simp [delete]
    · simp only [bind,cleanedEntry,if_neg slot]
      simp_all [delete]
  | succ left => rfl

theorem tidyCleaned (left v) : Tidy (bind (cleanedMap v) (cleanedEntry left)) ∧
    (Typed (v "type") → Settled (bind (cleanedMap v) (cleanedEntry left) "type")) := by
  have type : bind (cleanedMap v) (cleanedEntry left) "type" = cleanedMap v "type" := by
    cases left <;> simp [bind,cleanedEntry,cleanEntry]
  have given : bind v allowedEntry "type" = v "type" := by
    simp [bind,allowedEntry,geminiOpenAPISchemaAllowedFields]
  obtain ⟨others,kind⟩ := @normalized (bind v allowedEntry) (cleanedMap v) rfl
  rw [Tidy,type]
  refine ⟨⟨fun key stored => ?_,?_⟩,?_⟩
  · by_contra outside
    have other := others key (fun same => outside (same ▸ by decide)) (fun same => outside (same ▸ by decide))
    simp [bind,other,allowedEntry,outside] at stored
  · rcases kind with settled | ⟨same,untyped⟩
    · exact .inl settled
    · rw [same]
      exact .inr untyped
  · exact fun typed => kind.resolve_right (fun same => same.2 (given ▸ typed))

theorem slotCleaned (key) (slot : key ∈ ["properties","items","anyOf"]) :
    bind (cleanedMap v) (cleanedEntry (left+1)) key =
      (v key).map (fun value => (cleanEntry (cleanGeminiFunctionParametersWithDepth left) key value).2) := by
  have kept : cleanedMap v key = v key := by
    simp only [List.mem_cons,List.not_mem_nil,or_false] at slot
    rcases slot with rfl | rfl | rfl <;> rw [cleanedMap,(normalized rfl).1 _ (by decide) (by decide)] <;>
      simp [bind,allowedEntry,geminiOpenAPISchemaAllowedFields]
  rw [bind,kept]
  cases v key <;> rfl

theorem plainBelow (plain : itemsPlain params) (below : params.child step = some value) : itemsPlain value :=
  fun path fields values rest reached => plain (step::path) fields values rest (by rw [reach,below]; exact reached)

theorem itemCleaned (plain : itemsPlain (.object v)) :
    (∀ first rest, bind (cleanedMap v) (cleanedEntry (left+1)) "items" ≠ some (.array (first::rest))) ∧
    (cleaned (left+1) (.object v)).child .item = ((Json.object v).child .item).map (cleaned left) := by
  have nested := plain [] v
  simp only [reach,forall_const] at nested
  rw [cleanedFields]
  simp only [Json.child,slotCleaned "items" (by decide)]
  cases stored : v "items" with
  | none => simp
  | some value =>
    cases value with
    | object item => simp [cleanEntry,cleanedFields]
    | array values =>
      cases values with
      | nil => simp [cleanEntry]
      | cons first rest =>
        cases first with
        | object item => simp [cleanEntry,cleanedFields]
        | array values => exact absurd stored (nested values rest)
        | _ => cases left <;> simp [cleanEntry,cleanGeminiFunctionParametersWithDepth,cleanGeminiFunctionParametersShallow]
    | _ => simp [cleanEntry]

theorem belowCleaned (plain : itemsPlain params) (step) :
    (cleaned (left+1) params).child step = (params.child step).map (cleaned left) := by
  cases params with
  | object v =>
    cases step with
    | item => exact (itemCleaned plain).2
    | property name =>
      rw [cleanedFields]
      simp only [Json.child,slotCleaned "properties" (by decide)]
      rcases v "properties" with _ | (_ | _ | _ | _ | _ | props) <;> simp [cleanEntry,bind]
      cases props name <;> rfl
    | at_ i =>
      rw [cleanedFields]
      simp only [Json.child,slotCleaned "anyOf" (by decide)]
      rcases v "anyOf" with _ | (_ | _ | _ | _ | _ | _) <;> simp [cleanEntry]
  | array =>
    cases step with
    | at_ => exact List.getElem?_map
    | _ => rfl
  | _ => rfl

theorem objectKept (tidy : Tidy v) (single : ∀ first rest, v "items" ≠ some (.array (first::rest)))
    (below : ∀ step part, (Json.object v).child step = some part → cleaned left part = part) :
    cleaned (left+1) (.object v) = .object v := by
  rw [cleanedFields,tidyKept tidy]
  refine congrArg Json.object (funext fun key => ?_)
  cases stored : v key with
  | none => simp [bind,stored]
  | some value =>
    simp only [bind,stored,Option.bind_some,cleanedEntry,Option.some.injEq]
    unfold cleanEntry
    split
    · rename_i props
      refine congrArg Json.object (funext fun name => ?_)
      cases found : props name with
      | none => simp [bind,found]
      | some part => simpa [bind,found] using below (.property name) part (by simp [Json.child,stored,found])
    · exact below .item _ (by simp [Json.child,stored])
    · exact absurd stored (single _ _)
    · rename_i values
      refine congrArg Json.array ((List.map_congr_left fun part inside => ?_).trans (List.map_id _))
      obtain ⟨i,inside⟩ := List.mem_iff_getElem?.mp inside
      exact below (.at_ i) part (by simp [Json.child,stored,inside])
    · rfl

theorem cleanedTwice (plain : itemsPlain params) : cleaned left (cleaned left params) = cleaned left params := by
  induction left generalizing params with
  | zero =>
    cases params with
    | object v =>
      rw [cleanedFields,cleanedFields,tidyKept (tidyCleaned 0 v).1]
      refine congrArg Json.object (funext fun key => ?_)
      by_cases slot : key ∈ ["properties","items","anyOf"] <;> simp [bind,cleanedEntry,slot]
    | _ => rfl
  | succ left ih =>
    have below : ∀ step part, (cleaned (left+1) params).child step = some part → cleaned left part = part := by
      intro step part found
      rw [belowCleaned plain] at found
      obtain ⟨source,given,rfl⟩ := Option.map_eq_some_iff.mp found
      exact ih (plainBelow plain given)
    cases params with
    | object v =>
      have single := (@itemCleaned v left plain).1
      rw [cleanedFields] at below ⊢
      exact objectKept (tidyCleaned _ v).1 single below
    | array v =>
      simp only [cleaned,cleanGeminiFunctionParametersWithDepth,List.map_map]
      refine congrArg _ (List.map_congr_left (fun item inside => ?_))
      obtain ⟨i,inside⟩ := List.mem_iff_getElem?.mp inside
      exact ih (@plainBelow _ (.at_ i) _ plain inside)
    | _ => rfl

theorem shallowBelow (params : Json) (step) : (cleaned 0 params).child step = none := by
  cases params with
  | object v =>
    rw [cleanedFields]
    cases step <;> simp [Json.child,bind,cleanedEntry]
  | array => cases step <;> rfl
  | _ => rfl

theorem reachCleaned (plain : itemsPlain params) (reached : reach (cleaned left params) path = some value) :
    path.length ≤ left ∧ ∃ source, reach params path = some source ∧ value = cleaned (left-path.length) source := by
  induction path generalizing left params with
  | nil =>
    cases reached
    exact ⟨Nat.zero_le _,params,rfl,rfl⟩
  | cons step path ih =>
    cases left with
    | zero => simp [reach,shallowBelow] at reached
    | succ left =>
      rw [reach,belowCleaned plain] at reached
      cases first : params.child step with
      | none => simp [first] at reached
      | some part =>
        rw [first] at reached
        obtain ⟨bounded,source,found,same⟩ := ih (plainBelow plain first) reached
        exact ⟨Nat.succ_le_succ bounded,source,by rw [reach,first]; exact found,by simpa using same⟩

theorem schemaCleaned (params : Json) (plain : itemsPlain params) :
    (cleanFunctionParameters params).1 = params ∧
    (cleanFunctionParameters (cleanFunctionParameters params).2).2 = (cleanFunctionParameters params).2 ∧
    ∀ path fields, reach (cleanFunctionParameters params).2 path = some (.object fields) → path.length + 1 ≤ 65 ∧
      (∀ key, fields key ≠ none → key ∈ geminiOpenAPISchemaAllowedFields) ∧
      ∃ source, reach params path = some (.object source) ∧ (Typed (source "type") → Settled (fields "type")) := by
  refine ⟨argumentKept _ _,cleanedTwice plain,fun path fields reached => ?_⟩
  obtain ⟨bounded,source,found,same⟩ := reachCleaned plain reached
  generalize geminiFunctionSchemaMaxDepth - path.length = left at same
  cases source with
  | object v =>
    rw [cleanedFields] at same
    cases same
    have tidy := tidyCleaned left v
    exact ⟨Nat.succ_le_succ bounded,tidy.1.1,v,found,tidy.2⟩
  | _ => cases left <;> cases same

def nullableText : Json := .object fun key =>
  if key = "type" then some (.array [.string "string",.string "null"]) else none

theorem nullableTextCleaned : itemsPlain nullableText ∧ (cleanFunctionParameters nullableText).1 = nullableText := by
  have plain : itemsPlain nullableText := by
    intro path fields values rest reached
    cases path with
    | nil => cases reached; simp
    | cons step => cases step <;> simp [reach,nullableText,Json.child] at reached
  exact ⟨plain,(schemaCleaned nullableText plain).1⟩

end Omnigate.GeminiSchema
