import Omnigate.Table
import Omnigate.Text

/-! A channel: the columns that selection, status changes and the ability table read, and the functions of a single
channel. Keys come from the key text, one a line or as a JSON array; their statuses stand in the channel info, missing
ones count as enabled. -/
namespace Omnigate.Channels

inductive ChannelStatus where
  | unknown
  | enabled
  | manuallyDisabled
  | autoDisabled
  deriving DecidableEq, Repr

inductive MultiKeyMode where
  | random
  | polling
  | unset
  deriving DecidableEq, Repr

/- The maps from a key's index; an index without an entry reads as enabled. -/
structure ChannelInfo where
  isMultiKey : Bool := false
  multiKeySize : Nat := 0
  multiKeyStatusList : Nat → Option ChannelStatus := fun _ => none
  multiKeyDisabledReason : Nat → Option String := fun _ => none
  multiKeyDisabledTime : Nat → Option Int := fun _ => none
  multiKeyPollingIndex : Int := 0
  multiKeyMode : MultiKeyMode := .unset

structure OtherInfo where
  statusReason : Option String := none
  statusTime : Option Int := none
  deriving DecidableEq, Repr

structure Channel where
  id : Int
  channelType : Nat := 0
  key : String := ""
  status : ChannelStatus := .enabled
  weight : Option Nat := none
  models : String := ""
  group : String := "default"
  usedQuota : Int := 0
  modelMapping : Option String := none
  (priority autoBan : Option Int := none)
  otherInfo : OtherInfo := {}
  (tag paramOverride headerOverride : Option String := none)
  channelInfo : ChannelInfo := {}
  otherSettings : String := ""

/- The JSON texts of a channel that the code parses: a key text that holds an array, and the routes of an advanced
custom channel. -/
structure Parsers where
  keyArray : String → Option (List String)
  advancedCustom : String → Option (String → String → Bool)

def channelTypeAdvancedCustom : Nat := 58

def Channel.getPriority (channel : Channel) : Int := channel.priority.getD 0

def Channel.getWeight (channel : Channel) : Nat := channel.weight.getD 0

def Channel.groups (channel : Channel) : List String := Text.split ',' channel.group

def Channel.modelNames (channel : Channel) : List String := Text.split ',' channel.models

def Channel.getAutoBan (channel : Channel) : Bool := channel.autoBan = some 1

def Channel.getKeys (parsers : Parsers) (channel : Channel) : List String :=
  if channel.key = "" then []
  else
    let trimmed := Text.trimSpace channel.key
    match if Text.startsWith trimmed "[" then parsers.keyArray trimmed else none with
    | some keys => keys
    | none => Text.split '\n' (Text.trim '\n' channel.key)

def keyEnabled (statusList : Nat → Option ChannelStatus) (index : Nat) : Bool :=
  statusList index = none || statusList index = some .enabled

def hasEnabledMultiKey (keys : List String) (statusList : Nat → Option ChannelStatus) : Bool :=
  (List.range keys.length).any (keyEnabled statusList)

def noteStatus (reason : String) (now : Int) (channel : Channel) : Channel :=
  {channel with otherInfo := ⟨some reason,some now⟩}

def markKey (index : Nat) (status : ChannelStatus) (reason : String) (now : Int) (info : ChannelInfo) : ChannelInfo :=
  if status = .enabled then {info with multiKeyStatusList := Function.update info.multiKeyStatusList index none}
  else {info with
    multiKeyStatusList := Function.update info.multiKeyStatusList index (some status)
    multiKeyDisabledReason := Function.update info.multiKeyDisabledReason index (some reason)
    multiKeyDisabledTime := Function.update info.multiKeyDisabledTime index (some now) }

def handlerMultiKeyUpdate (parsers : Parsers) (usingKey : String) (status : ChannelStatus) (reason : String) (now : Int)
    (channel : Channel) : Channel :=
  let keys := channel.getKeys parsers
  if keys = [] then {channel with status := status}
  else match keys.idxOf? usingKey with
    | none =>
      -- a key that is not there any more changes nothing
      if usingKey ≠ "" then channel else noteStatus reason now { channel with status := status }
    | some index =>
      let marked := {channel with channelInfo := markKey index status reason now channel.channelInfo}
      if !hasEnabledMultiKey keys marked.channelInfo.multiKeyStatusList then
        noteStatus "All keys are disabled" now { marked with status := .autoDisabled }
      else if status = .enabled then {marked with status := .enabled}
      else marked

def changeStatus (parsers : Parsers) (usingKey : String) (status : ChannelStatus) (reason : String) (now : Int)
    (channel : Channel) : Channel :=
  if channel.channelInfo.isMultiKey then handlerMultiKeyUpdate parsers usingKey status reason now channel
  else {noteStatus reason now channel with status := status}

def handleThinkingBudgetModel (name start wildcard : String) : String :=
  if Text.startsWith name start && Text.contains name "-thinking-" then wildcard else name

def formatMatchingModelName (name : String) : String :=
  let name :=
    if Text.startsWith name "gemini-2.5-flash-lite" then
      handleThinkingBudgetModel name "gemini-2.5-flash-lite" "gemini-2.5-flash-lite-thinking-*"
    else if Text.startsWith name "gemini-2.5-flash" then
      handleThinkingBudgetModel name "gemini-2.5-flash" "gemini-2.5-flash-thinking-*"
    else if Text.startsWith name "gemini-2.5-pro" then
      handleThinkingBudgetModel name "gemini-2.5-pro" "gemini-2.5-pro-thinking-*"
    else name
  let name := if Text.startsWith name "gpt-4-gizmo" then "gpt-4-gizmo-*" else name
  if Text.startsWith name "gpt-4o-gizmo" then "gpt-4o-gizmo-*" else name

end Omnigate.Channels
