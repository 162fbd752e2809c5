import Omnigate.ChannelCache

/-! The ability table and the selection from the database: a priority is picked among the enabled abilities of a group
and model, and the abilities of that priority are filtered by request path afterwards. -/
namespace Omnigate.Channels

open Ranking

structure Ability where
  (group model : String)
  channelId : Int
  enabled : Bool
  priority : Int
  weight : Nat
  tag : Option String
  deriving DecidableEq, Repr

structure Database where
  channels : List Channel
  abilities : List Ability

def Database.channel (db : Database) (id : Int) : Option Channel := Table.lookup Channel.id id db.channels

def enabledAbilities (db : Database) (group model : String) : List Ability :=
  db.abilities.filter (fun ability => ability.group = group && ability.model = model && ability.enabled)

def getPriority (db : Database) (group model : String) (retry : Nat) : Except String Int :=
  let priorities := levels ((enabledAbilities db group model).map Ability.priority)
  match priorities[min retry (priorities.length - 1)]? with
  | none => .error "数据库一致性被破坏"
  | some priority => .ok priority

def getChannelQuery (db : Database) (group model : String) (retry : Nat) : Except String (List Ability) :=
  let abilities := enabledAbilities db group model
  if retry = 0 then .ok (abilities.filter (fun ability => abilities.all (fun other => other.priority ≤ ability.priority)))
  else (getPriority db group model retry).map (fun priority => abilities.filter (fun ability => ability.priority = priority))

def filterAbilitiesByRequestPathAndModel (parsers : Parsers) (db : Database) (abilities : List Ability)
    (requestPath model : String) : List Ability :=
  if requestPath = "" ∨ abilities = [] then abilities
  else abilities.filter (fun ability =>
    match db.channel ability.channelId with
    | none => true
    | some channel =>
      if channel.channelType ≠ channelTypeAdvancedCustom then true
      else match parsers.advancedCustom channel.otherSettings with
        | some supports => supports requestPath model
        | none => false)

def chooseAbility : List Ability → Int → Option Ability
  | [],_ => none
  | ability::rest,weight =>
    let weight := weight - (ability.weight + 10 : Nat)
    if weight ≤ 0 then some ability else chooseAbility rest weight

/- `GetChannel`, for a drawn random number; the rows come ordered by weight. -/
def getChannel (parsers : Parsers) (db : Database) (group model : String) (retry : Nat) (requestPath : String) (draw : Nat) :
    Except String (Option Channel) :=
  match getChannelQuery db group model retry with
  | .error message => .error message
  | .ok rows =>
    let sorted := rows.insertionSort (fun a b => b.weight ≤ a.weight)
    let abilities := filterAbilitiesByRequestPathAndModel parsers db sorted requestPath model
    if abilities = [] then .ok none
    else
      let weightSum := (abilities.map (fun ability => ability.weight + 10)).sum
      match (chooseAbility abilities (draw % weightSum : Nat)).bind (fun ability => db.channel ability.channelId) with
      | some channel => .ok (some channel)
      | none => .error "record not found"

def abilityOf (channel : Channel) (group model : String) : Ability :=
  ⟨group,model,channel.id,channel.status = .enabled,channel.getPriority,channel.getWeight,channel.tag⟩

def Mirrors (db : Database) : Prop :=
  ∀ a, a ∈ db.abilities ↔ ∃ c ∈ db.channels, ∃ group ∈ c.groups, ∃ model ∈ c.modelNames, a = abilityOf c group model

end Omnigate.Channels
