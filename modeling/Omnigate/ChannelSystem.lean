import Omnigate.Ability
import Omnigate.Pool

/-! Channels in operation: status changes, resyncs of the cache, channel tests, requests that take their next key in
database mode, and quota increments, statement by statement. A call works on the copy of the row it has read;
`SaveWithoutKey` writes the whole copy back. -/
namespace Omnigate.Channels

inductive Caller where
  | administrator
  | automatic
  deriving DecidableEq, Repr

structure Call where
  channelId : Int
  usingKey : String
  status : ChannelStatus
  reason : String
  caller : Caller
  deriving DecidableEq, Repr

def disableChannel (channelId : Int) (usingKey reason : String) : Call := ⟨channelId,usingKey,.autoDisabled,reason,.automatic⟩

def enableChannel (channelId : Int) (usingKey : String) : Call := ⟨channelId,usingKey,.enabled,"",.automatic⟩

def manualOperation (channelId : Int) (status : ChannelStatus) : Call :=
  ⟨channelId,"",status,"manual operation",.administrator⟩

def isManageableChannelStatus (status : ChannelStatus) : Bool := status = .enabled || status = .manuallyDisabled

def Call.allowed (call : Call) : Bool := call.caller = .automatic || isManageableChannelStatus call.status

inductive Event where
  | saved (call : Call) (channel : Channel)
  | returned (call : Call) (result : Bool)
  | recorded (channelId : Int) (quota : Int)

/- `syncs` counts the swaps of the cache: a cached channel fetched before a swap is not the cache's any more. -/
structure Store where
  (memoryCacheEnabled automaticEnableChannelEnabled : Bool)
  channels : List Channel
  abilities : List Ability
  cache : Cache
  syncs : Nat
  channelStatusLock : Bool
  pollingLocks : List Int
  history : List Event

def Store.channel (s : Store) (id : Int) : Option Channel := Table.lookup Channel.id id s.channels

def saveWithoutKey (channel : Channel) (channels : List Channel) : List Channel :=
  Table.updateWhere (fun row => row.id = channel.id) (fun row => {channel with key := row.key}) channels

def saveChannelInfo (channel : Channel) (channels : List Channel) : List Channel :=
  Table.updateWhere (fun row => row.id = channel.id) (fun row => {row with channelInfo := channel.channelInfo}) channels

def updateChannelUsedQuota (id : Int) (quota : Int) (channels : List Channel) : List Channel :=
  Table.updateWhere (fun row => row.id = id) (fun row => {row with usedQuota := row.usedQuota + quota}) channels

def updateAbilityStatus (id : Int) (status : Bool) (abilities : List Ability) : List Ability :=
  Table.updateWhere (fun ability => ability.channelId = id) (fun ability => {ability with enabled := status}) abilities

def Cache.put (cache : Cache) (channel : Channel) : Cache :=
  {cache with channelsIDM := Table.updateWhere (fun other => other.id = channel.id) (fun _ => channel) cache.channelsIDM}

def pollIndex (keys : List String) (statusList : Nat → Option ChannelStatus) (start : Int) : Option Nat :=
  let start := if start < 0 ∨ (keys.length : Int) ≤ start then 0 else start.toNat
  ((List.range keys.length).map (fun i => (start + i) % keys.length)).find? (keyEnabled statusList)

def enabledIndexes (keys : List String) (statusList : Nat → Option ChannelStatus) : List Nat :=
  (List.range keys.length).filter (keyEnabled statusList)

inductive Update where
  | called (call : Call)
  | locked (call : Call)
  | fetched (call : Call) (channel : Channel) (syncs : Nat)
  | listing (call : Call) (status : ChannelStatus)
  | reading (call : Call)
  | handling (call : Call) (row : Channel)
  | saving (call : Call) (row channel : Channel)
  | marking (call : Call) (result : Bool)
  | leaving (call : Call) (result : Bool)
  | returned (call : Call) (result : Bool)

inductive Process where
  | update (stage : Update)
  -- `InitChannelCache`
  | resync
  | channelsRead (channels : List Channel)
  | groupsRead (channels : List Channel) (groups : List String)
  -- `performChannelTests`, over the channels it was given
  | tests
  | testing (channels : List Channel)
  | enabling (stage : Update) (channels : List Channel)
  -- a request on a channel it has selected, and `GetNextEnabledKey` on its copy
  | selected (channelId : Int)
  | choosing (channel : Channel)
  | polling (channel : Channel)
  | savingInfo (channel : Channel) (key : String) (index : Nat)
  | gotKey (result : Option (String × Nat))
  | recording (channelId : Int) (quota : Int)
  | done

structure Choice where
  fails : Bool := false
  now : Int := 0
  passed : Bool := false
  usingKey : String := ""
  draw : Nat := 0

section
variable (parsers : Parsers)

def advanceUpdate (s : Store) (choice : Choice) : Update → Option (Store × Update)
  | .called call =>
    if s.memoryCacheEnabled then
      if s.channelStatusLock then none else some ({s with channelStatusLock := true},.locked call)
    else some (s,.reading call)
  | .locked call =>
    match s.cache.channel call.channelId with
    | none => some (s,.leaving call false)
    | some channel =>
      if channel.channelInfo.isMultiKey then some (s,.fetched call channel s.syncs)
      else if channel.status = call.status then some (s,.leaving call false)
      else some (s,.listing call call.status)
  | .fetched call channel syncs =>
    if call.channelId ∈ s.pollingLocks then none
    else
      let changed := handlerMultiKeyUpdate parsers call.usingKey call.status call.reason choice.now channel
      some (if s.syncs = syncs then {s with cache := s.cache.put changed} else s,
        if channel.status = changed.status then .reading call else .listing call changed.status)
  | .listing call status =>
    some ({s with cache := cacheUpdateChannelStatus call.channelId status s.cache},.reading call)
  | .reading call =>
    if choice.fails then some (s,.leaving call false)
    else match s.channel call.channelId with
      | none => some (s,.leaving call false)
      | some row => if row.status = call.status then some (s,.leaving call false) else some (s,.handling call row)
  | .handling call row =>
    if row.channelInfo.isMultiKey ∧ call.channelId ∈ s.pollingLocks then none
    else some (s,.saving call row (changeStatus parsers call.usingKey call.status call.reason choice.now row))
  | .saving call row channel =>
    -- the deferred update of the abilities is made even if the save fails
    let next := fun result =>
      if !row.channelInfo.isMultiKey || row.status ≠ channel.status then Update.marking call result else .leaving call result
    if choice.fails ∨ channel.id = 0 then some (s,next false)
    else some ({s with
      channels := saveWithoutKey channel s.channels
      history := .saved call channel::s.history },next true)
  | .marking call result =>
    if choice.fails then some (s,.leaving call result)
    else some ({s with abilities := updateAbilityStatus call.channelId (call.status = .enabled) s.abilities},.leaving call result)
  | .leaving call result =>
    some ({s with
      channelStatusLock := s.channelStatusLock && !s.memoryCacheEnabled
      history := .returned call result::s.history },.returned call result)
  | .returned _ _ => none

def shouldEnableChannel (s : Store) (passed : Bool) (status : ChannelStatus) : Bool :=
  s.automaticEnableChannelEnabled && passed && status = .autoDisabled

def chooseKey (s : Store) (choice : Choice) (channel : Channel) : Option (Store × Process) :=
  if !channel.channelInfo.isMultiKey then some (s,.gotKey (some (channel.key,0)))
  else
    let keys := channel.getKeys parsers
    let enabled := enabledIndexes keys channel.channelInfo.multiKeyStatusList
    let pick := fun index => (keys[index]?).map (fun key => (key,index))
    if keys = [] then some (s,.gotKey none)
    else if channel.id ∈ s.pollingLocks then none
    else if enabled = [] then some (s,.gotKey none)
    else match channel.channelInfo.multiKeyMode with
      | .random => some (s,.gotKey ((enabled[choice.draw % enabled.length]?).bind pick))
      | .polling => some ({s with pollingLocks := channel.id::s.pollingLocks},.polling channel)
      | .unset => some (s,.gotKey (enabled.head?.bind pick))

/- The polling index comes from the row, the states of the keys from the copy. -/
def pollKey (s : Store) (choice : Choice) (channel : Channel) : Option (Store × Process) :=
  let keys := channel.getKeys parsers
  match if choice.fails then none else s.channel channel.id with
  | none => some ({s with pollingLocks := s.pollingLocks.erase channel.id},.gotKey none)
  | some row =>
    match pollIndex keys channel.channelInfo.multiKeyStatusList row.channelInfo.multiKeyPollingIndex with
    | none =>
      let index := (enabledIndexes keys channel.channelInfo.multiKeyStatusList).headD 0
      some (s,.savingInfo channel (keys.getD index "") index)
    | some index =>
      let info := {channel.channelInfo with multiKeyPollingIndex := ((index + 1) % keys.length : Nat)}
      some (s,.savingInfo { channel with channelInfo := info } (keys.getD index "") index)

def act (s : Store) (process : Process) (choice : Choice) : Option (Store × Process) :=
  match process with
  | .update stage => (advanceUpdate parsers s choice stage).map (fun next => (next.1,.update next.2))
  | .resync =>
    if s.memoryCacheEnabled then some (s,.channelsRead (if choice.fails then [] else s.channels)) else some (s,.done)
  | .channelsRead channels => some (s,.groupsRead channels (if choice.fails then [] else s.abilities.map Ability.group))
  | .groupsRead channels groups =>
    -- a load that panics installs nothing
    match initChannelCache parsers channels groups with
    | none => some (s,.done)
    | some cache => some ({s with cache := cache, syncs := s.syncs + 1},.done)
  | .tests => some (s,.testing s.channels)
  | .testing [] => some (s,.done)
  | .testing (channel::rest) =>
    if channel.status ≠ .manuallyDisabled ∧ channel.status ≠ .enabled ∧
        shouldEnableChannel s choice.passed channel.status = true then
      some (s,.enabling (.called (enableChannel channel.id choice.usingKey)) rest)
    else some (s,.testing rest)
  | .enabling (.returned _ _) rest => some (s,.testing rest)
  | .enabling stage rest => (advanceUpdate parsers s choice stage).map (fun next => (next.1,.enabling next.2 rest))
  | .selected channelId =>
    if s.memoryCacheEnabled then none
    else (s.channel channelId).map (fun channel => (s,.choosing channel))
  | .choosing channel => chooseKey parsers s choice channel
  | .polling channel => pollKey parsers s choice channel
  | .savingInfo channel key index =>
    -- the error of this save is dropped
    some ({s with
      channels := if choice.fails then s.channels else saveChannelInfo channel s.channels
      pollingLocks := s.pollingLocks.erase channel.id },.gotKey (some (key,index)))
  | .recording channelId quota =>
    if choice.fails then some (s,.done)
    else some ({s with
      channels := updateChannelUsedQuota channelId quota s.channels
      history := .recorded channelId quota::s.history },.done)
  | .gotKey _ => none
  | .done => none

end

def begins : Process → Bool
  | .update (.called call) => call.allowed
  | .resync => true
  | .tests => true
  | .selected _ => true
  | .recording _ _ => true
  | _ => false

abbrev System := Pool.State Store Process

abbrev systemStep (parsers : Parsers) (system : System) (move : Pool.Move Process Choice) : Option System :=
  Pool.step begins (act parsers) system move

end Omnigate.Channels
