import Omnigate.Channel
import Omnigate.Ranking

/-! The channel cache in memory and the selection from it. Loading lists, for every group and model, the ids of the
enabled channels that serve it; it panics on an enabled channel of a group that no ability names. -/
namespace Omnigate.Channels

open Ranking

structure Cache where
  group2model2channels : String → String → List Int
  channelsIDM : List Channel
  channel2advancedCustomConfig : Int → Option (String → String → Bool)

def Cache.channel (cache : Cache) (id : Int) : Option Channel := Table.lookup Channel.id id cache.channelsIDM

def appendChannel (id : Int) (lists : String → String → List Int) (group model : String) : String → String → List Int :=
  fun g m => if g = group ∧ m = model then lists g m ++ [id] else lists g m

def addChannel (lists : String → String → List Int) (channel : Channel) : String → String → List Int :=
  channel.groups.foldl (fun lists group =>
    channel.modelNames.foldl (fun lists model => appendChannel channel.id lists group model) lists) lists

def enabledChannels (channels : List Channel) : List Channel := channels.filter (fun channel => channel.status = .enabled)

def listChannels (channels : List Channel) : String → String → List Int :=
  (enabledChannels channels).foldl addChannel (fun _ _ => [])

def priorityOf (channels : List Channel) (id : Int) : Int :=
  ((Table.lookup Channel.id id channels).map Channel.getPriority).getD 0

def sortByPriority (channels : List Channel) (ids : List Int) : List Int :=
  ids.insertionSort (fun a b => priorityOf channels b ≤ priorityOf channels a)

def advancedCustomConfigs (parsers : Parsers) (channels : List Channel) (id : Int) : Option (String → String → Bool) :=
  (Table.lookup Channel.id id channels).bind (fun channel =>
    if channel.channelType = channelTypeAdvancedCustom then parsers.advancedCustom channel.otherSettings else none)

def buildCache (parsers : Parsers) (channels : List Channel) : Cache where
  group2model2channels := fun group model => sortByPriority channels (listChannels channels group model)
  channelsIDM := channels
  channel2advancedCustomConfig := advancedCustomConfigs parsers channels

/- `InitChannelCache`, given the channels and the groups of the abilities; `none` is the panic. -/
def initChannelCache (parsers : Parsers) (channels : List Channel) (groups : List String) : Option Cache :=
  if (enabledChannels channels).all (fun channel => channel.groups.all (fun group => group ∈ groups)) then
    some (buildCache parsers channels)
  else none

def filterChannelsByRequestPathAndModel (cache : Cache) (channels : List Int) (requestPath model : String) : List Int :=
  if requestPath = "" ∨ channels = [] then channels
  else channels.filter (fun id =>
    match cache.channel id with
    | none => true
    | some channel =>
      if channel.channelType ≠ channelTypeAdvancedCustom then true
      else match cache.channel2advancedCustomConfig id with
        | some supports => supports requestPath model
        | none => false)

def satisfiedChannels (cache : Cache) (group model requestPath : String) : List Int :=
  let channels := filterChannelsByRequestPathAndModel cache (cache.group2model2channels group model) requestPath model
  if channels = [] then
    filterChannelsByRequestPathAndModel cache (cache.group2model2channels group (formatMatchingModelName model)) requestPath model
  else channels

def consistencyError (id : Int) : String := s!"数据库一致性错误，渠道# {id} 不存在，请联系管理员修复"

def loadChannels (cache : Cache) : List Int → Except String (List Channel)
  | [] => .ok []
  | id::rest =>
    match cache.channel id with
    | none => .error (consistencyError id)
    | some channel => (loadChannels cache rest).map (fun channels => channel::channels)

def chooseByWeight (factor adjustment : Nat) : List Channel → Int → Option Channel
  | [],_ => none
  | channel::rest,weight =>
    let weight := weight - (channel.getWeight * factor + adjustment : Nat)
    if weight < 0 then some channel else chooseByWeight factor adjustment rest weight

def chooseWeighted (channels : List Channel) (draw : Nat) : Option Channel :=
  let sumWeight := (channels.map Channel.getWeight).sum
  if sumWeight = 0 then chooseByWeight 1 100 channels (draw % (channels.length * 100) : Nat)
  else if sumWeight / channels.length < 10 then chooseByWeight 100 0 channels (draw % (sumWeight * 100) : Nat)
  else chooseByWeight 1 0 channels (draw % sumWeight : Nat)

def getRandomSatisfiedChannel (cache : Cache) (group model : String) (retry : Nat) (requestPath : String) (draw : Nat) :
    Except String (Option Channel) :=
  let channels := satisfiedChannels cache group model requestPath
  match channels with
  | [] => .ok none
  | [id] =>
    match cache.channel id with
    | some channel => .ok (some channel)
    | none => .error (consistencyError id)
  | _ =>
    match loadChannels cache channels with
    | .error message => .error message
    | .ok loaded =>
      let priorities := levels (loaded.map Channel.getPriority)
      match priorities[min retry (priorities.length - 1)]? with
      | none => .ok none
      | some targetPriority =>
        match chooseWeighted (loaded.filter (fun channel => channel.getPriority = targetPriority)) draw with
        | some channel => .ok (some channel)
        | none => .error "channel not found"

/- `CacheUpdateChannelStatus`: a channel that is no longer enabled is taken out of every list, at its first place. -/
def cacheUpdateChannelStatus (id : Int) (status : ChannelStatus) (cache : Cache) : Cache :=
  {cache with
    channelsIDM := Table.updateWhere (fun channel => channel.id = id) (fun channel => {channel with status := status})
      cache.channelsIDM
    group2model2channels := fun group model =>
      if status ≠ .enabled then (cache.group2model2channels group model).erase id
      else cache.group2model2channels group model }

end Omnigate.Channels
