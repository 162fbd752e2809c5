import Omnigate.ChannelCopies

/-! Lost updates of a channel row. Status updates write a whole copy of the row back and key polling its whole channel
info; quota increments are made in place. Marks of disabled keys and the used quota last as long as no such write is
made from an outdated copy. -/
namespace Omnigate.Channels

open Machine Pool Table List Option

variable {parsers : Parsers}

def keyIndex (parsers : Parsers) (channel : Channel) (usingKey : String) : Option Nat :=
  if channel.channelInfo.isMultiKey then (channel.getKeys parsers).idxOf? usingKey else none

def markedSince (parsers : Parsers) (start : Bool) (id : Int) (index : Nat) : List Event → Bool
  | [] => start
  | .saved call channel::rest =>
    if channel.id = id ∧ keyIndex parsers channel call.usingKey = some index then call.status ≠ .enabled
    else markedSince parsers start id index rest
  | .returned _ _::rest => markedSince parsers start id index rest
  | .recorded _ _::rest => markedSince parsers start id index rest

def recordedSum (id : Int) : List Event → Int
  | [] => 0
  | .recorded channelId quota::rest => (if channelId = id then quota else 0) + recordedSum id rest
  | .saved _ _::rest => recordedSum id rest
  | .returned _ _::rest => recordedSum id rest

def keepsMarks (parsers : Parsers) (stored copy : Channel) : Bool :=
  (List.range (stored.getKeys parsers).length).all (fun index =>
    keyEnabled stored.channelInfo.multiKeyStatusList index || !keyEnabled copy.channelInfo.multiKeyStatusList index)

/- A write is made from a copy with the stored marks and, if it writes the whole row, with the stored quota. -/
def upToDate (parsers : Parsers) (s : Store) : Process → Bool
  | .savingInfo channel _ _ => (s.channel channel.id).all (fun stored => keepsMarks parsers stored channel)
  | .update (.saving _ row channel) => (s.channel channel.id).all (fun stored =>
    keepsMarks parsers stored row && stored.usedQuota = row.usedQuota)
  | .enabling (.saving _ row channel) _ => (s.channel channel.id).all (fun stored =>
    keepsMarks parsers stored row && stored.usedQuota = row.usedQuota)
  | _ => true

def writesUpToDate (parsers : Parsers) (system : System) : Pool.Move Process Choice → Bool
  | .start _ => true
  | .act i _ => (system.procs[i]?).all (upToDate parsers system.shared)

theorem keyIndexSame (same : c.identity = d.identity) (usingKey) :
    keyIndex parsers c usingKey = keyIndex parsers d usingKey := by
  simp only [Channel.identity,Identity.mk.injEq] at same
  simp only [keyIndex,Channel.getKeys,same.2.2.1,same.2.2.2.1]

theorem markKeyMarks (index : Nat) (status reason now info) :
    (markKey index status reason now info).multiKeyStatusList =
      Function.update info.multiKeyStatusList index (if status = .enabled then none else some status) := by
  unfold markKey
  split <;> rfl

theorem changeMarks (usingKey status reason now row) (index : Nat) :
    (changeStatus parsers usingKey status reason now row).channelInfo.multiKeyStatusList index =
      if keyIndex parsers row usingKey = some index then (if status = .enabled then none else some status)
      else row.channelInfo.multiKeyStatusList index := by
  unfold changeStatus
  split
  · rename_i multi
    simp only [keyIndex,if_pos multi]
    unfold handlerMultiKeyUpdate
    dsimp only
    split
    · rename_i empty
      simp [empty]
    split
    · rename_i missing
      rw [missing]
      split <;> rfl
    rename_i place found
    rw [found]
    have marks : (markKey place status reason now row.channelInfo).multiKeyStatusList index =
        if some place = some index then (if status = .enabled then none else some status)
        else row.channelInfo.multiKeyStatusList index := by
      rw [markKeyMarks,Function.update_apply]
      simp only [Option.some.injEq,eq_comm]
    rw [← marks]
    split
    · rfl
    · split <;> rfl
  · rename_i single
    simp only [keyIndex,if_neg single]
    rfl

theorem keyEnabledAt (same : left index = right index) :
    keyEnabled left index = keyEnabled right index := by
  simp only [keyEnabled,same]

def Changed (parsers : Parsers) : Update → Prop
  | .saving call row channel => ∃ now, channel = changeStatus parsers call.usingKey call.status call.reason now row
  | _ => True

structure Recorded (parsers : Parsers) (start : Int → Option Channel) (s : Store) (id : Int) (row : Channel) : Prop where
  marks : ∀ index, index < (row.getKeys parsers).length →
    markedSince parsers ((start id).any (fun first => !keyEnabled first.channelInfo.multiKeyStatusList index)) id index
      s.history = true → keyEnabled row.channelInfo.multiKeyStatusList index = false
  quota : row.usedQuota = ((start id).map Channel.usedQuota).getD 0 + recordedSum id s.history

def RowsRecorded (parsers : Parsers) (start : Int → Option Channel) (s : Store) : Prop :=
  ∀ id row, s.channel id = some row → Recorded parsers start s id row

variable {start : Int → Option Channel}

theorem recordedSame (kept : RowsRecorded parsers start s) (rows : s'.channels = s.channels)
    (history : s'.history = s.history) : RowsRecorded parsers start s' := by
  intro id row found
  obtain ⟨marks,quota⟩ := kept id row (by simpa only [Store.channel,rows] using found)
  exact ⟨by rw [history]; exact marks,by rw [history]; exact quota⟩

theorem savingRecorded (changed : channel = changeStatus parsers call.usingKey call.status call.reason now row)
    (current : (s.channel channel.id).all (fun stored => keepsMarks parsers stored row && stored.usedQuota = row.usedQuota) = true)
    (kept : RowsRecorded parsers start s) : RowsRecorded parsers start {s with
      channels := saveWithoutKey channel s.channels
      history := .saved call channel::s.history } := by
  intro id written found
  obtain ⟨old,before,same⟩ := savedRow found
  obtain ⟨marks,quota⟩ := kept id old before
  by_cases here : id = channel.id
  · rw [if_pos here] at same
    subst here
    have stored : s.channel channel.id = some old := before
    rw [stored] at current
    simp only [all_some,Bool.and_eq_true,decide_eq_true_eq] at current
    obtain ⟨_,identity,unspent⟩ := @changeKeeps parsers call.usingKey call.status call.reason now row
    rw [← changed] at identity unspent
    refine ⟨fun index bound marked => ?_,?_⟩
    · have list : written.channelInfo.multiKeyStatusList index = channel.channelInfo.multiKeyStatusList index := by rw [same]
      have keys : written.getKeys parsers = old.getKeys parsers := by rw [same]; rfl
      rw [keyEnabledAt list]
      have change := @changeMarks parsers call.usingKey call.status call.reason now row index
      rw [← changed] at change
      simp only [markedSince,keyIndexSame identity,true_and] at marked
      by_cases mine : keyIndex parsers row call.usingKey = some index
      · rw [if_pos mine] at marked change
        have disables : call.status ≠ .enabled := by simpa using marked
        rw [if_neg disables] at change
        simp [keyEnabled,change,disables]
      rw [if_neg mine] at marked change
      rw [keyEnabledAt change]
      have off := marks index (keys ▸ bound) marked
      have each := all_eq_true.mp current.1 index (mem_range.mpr (keys ▸ bound))
      simpa [off] using each
    rw [same]
    simp only [recordedSum]
    rw [← quota,current.2,unspent]
  · rw [if_neg here] at same
    rw [same]
    have other : ¬ channel.id = id := fun eq => here eq.symm
    refine ⟨fun index bound marked => marks index bound ?_,?_⟩
    · simpa only [markedSince,if_neg (fun all => other (And.left all))] using marked
    · simpa only [recordedSum] using quota

theorem infoRecorded (current : (s.channel channel.id).all (fun stored => keepsMarks parsers stored channel) = true)
    (kept : RowsRecorded parsers start s) :
    RowsRecorded parsers start {s with channels := saveChannelInfo channel s.channels, pollingLocks := locks} := by
  intro id written found
  have looked : (Table.lookup Channel.id id s.channels).map (fun row : Channel =>
      if decide (row.id = channel.id) = true then {row with channelInfo := channel.channelInfo} else row) = some written :=
    (lookupUpdate (f := fun row : Channel => {row with channelInfo := channel.channelInfo}) (fun _ => rfl) id
      s.channels).symm.trans found
  obtain ⟨old,before,same⟩ := map_eq_some_iff.mp looked
  obtain ⟨marks,quota⟩ := kept id old before
  have ids := (lookupSound before).2
  split at same
  · rename_i here
    have mine : id = channel.id := ids.symm.trans (of_decide_eq_true here)
    subst mine
    have stored : s.channel channel.id = some old := before
    rw [stored] at current
    refine ⟨fun index bound marked => ?_,?_⟩
    · have keys : written.getKeys parsers = old.getKeys parsers := by rw [← same]; rfl
      have list : written.channelInfo.multiKeyStatusList index = channel.channelInfo.multiKeyStatusList index := by rw [← same]
      rw [keyEnabledAt list]
      have off := marks index (keys ▸ bound) marked
      have each := all_eq_true.mp current index (mem_range.mpr (keys ▸ bound))
      simpa [off] using each
    · rw [← same]
      exact quota
  · rw [← same]
    exact ⟨marks,quota⟩

theorem quotaRecorded (kept : RowsRecorded parsers start s) :
    RowsRecorded parsers start {s with
      channels := updateChannelUsedQuota channelId quota s.channels
      history := .recorded channelId quota::s.history } := by
  intro id written found
  have looked : (Table.lookup Channel.id id s.channels).map (fun row : Channel =>
      if decide (row.id = channelId) = true then {row with usedQuota := row.usedQuota + quota} else row) = some written :=
    (lookupUpdate (f := fun row : Channel => {row with usedQuota := row.usedQuota + quota}) (fun _ => rfl) id
      s.channels).symm.trans found
  obtain ⟨old,before,same⟩ := map_eq_some_iff.mp looked
  obtain ⟨marks,_⟩ := kept id old before
  have ids := (lookupSound before).2
  split at same
  · rename_i here
    have mine : channelId = id := (of_decide_eq_true here).symm.trans ids
    rw [← same]
    refine ⟨fun index bound marked => marks index bound marked,?_⟩
    simp only [recordedSum,if_pos mine]
    omega
  · rename_i elsewhere
    have other : ¬ channelId = id := fun eq => elsewhere (decide_eq_true (ids.trans eq.symm))
    rw [← same]
    refine ⟨fun index bound marked => marks index bound marked,?_⟩
    simp only [recordedSum,if_neg other]
    omega

def StagesChanged (parsers : Parsers) (_ : Store) (p : Process) : Prop := ∀ u, stageOf p = some u → Changed parsers u

theorem advanceRecorded (changed : Changed parsers u)
    (current : ∀ call row channel, u = .saving call row channel → (s.channel channel.id).all (fun stored =>
      keepsMarks parsers stored row && stored.usedQuota = row.usedQuota) = true)
    (kept : RowsRecorded parsers start s) (h : Advance parsers s u s' v) :
    RowsRecorded parsers start s' ∧ Changed parsers v := by
  cases h with
  | lock | uncached | fetch | single | refuse | list | lost | read | mark => exact ⟨recordedSame kept rfl rfl,trivial⟩
  | change _ next =>
    refine ⟨?_,by rcases next with rfl | rfl <;> trivial⟩
    split
    · exact recordedSame kept rfl rfl
    · exact kept
  | prepare now => exact ⟨kept,now,rfl⟩
  | fail next => exact ⟨kept,by rcases next with rfl | rfl <;> trivial⟩
  | save next =>
    obtain ⟨now,same⟩ := changed
    exact ⟨savingRecorded same (current _ _ _ rfl) kept,by rcases next with rfl | rfl <;> trivial⟩
  | leave => exact ⟨fun id row stored => ⟨(kept id row stored).marks,(kept id row stored).quota⟩,trivial⟩

structure Tracked (parsers : Parsers) (start : Int → Option Channel) (system : System) : Prop where
  rows : RowsRecorded parsers start system.shared
  stages : ∀ p ∈ system.procs, StagesChanged parsers system.shared p

theorem stepTracked {system n : System} (tracked : Tracked parsers start system)
    (current : writesUpToDate parsers system move = true) (h : systemStep parsers system move = some n) :
    Tracked parsers start n := by
  have fresh : ∀ p, begins p → StagesChanged parsers system.shared p := by
    intro p begun u stage
    obtain ⟨call,rfl,_⟩ := (beginsBare begun).2.2 u stage
    trivial
  obtain ⟨rows,stages⟩ := Pool.stepStable h tracked.rows tracked.stages fresh (by
    rintro i p _ _ q rfl found moved
    have upToDate_ : upToDate parsers system.shared p = true := by simpa [writesUpToDate,found] using current
    have others := fun (j : Nat) r (_ : j ≠ i) at' => tracked.stages r (mem_of_getElem? (i := j) at')
    rcases actCases moved with ⟨u,v,mine,next,advanced,_⟩ | outside
    · obtain ⟨rows,stage⟩ := advanceRecorded (tracked.stages p (mem_of_getElem? found) u mine)
        (fun call _ channel saving => by
          subst saving
          cases p with
          | update | enabling => cases mine; exact upToDate_
          | resync | tests | selected | recording | channelsRead | groupsRead | testing | choosing | polling | savingInfo
            | gotKey | done => cases mine) tracked.rows advanced
      refine ⟨rows,fun w at' => ?_,others⟩
      cases next.symm.trans at'
      exact stage
    refine ⟨?_,fun w at' => ?_,others⟩
    · cases effect : outside.effect with
      | quiet | swap => exact recordedSame tracked.rows rfl rfl
      | info => exact infoRecorded upToDate_ tracked.rows
      | record => exact quotaRecorded tracked.rows
    · obtain ⟨call,rfl,_⟩ := outside.after w at'
      trivial)
  exact ⟨rows,stages⟩

theorem storedIds {s : Store} {id} : (∃ row, s.channel id = some row) ↔ id ∈ s.channels.map Channel.id := by
  constructor
  · rintro ⟨row,found⟩
    obtain ⟨stored,rfl⟩ := lookupSound found
    exact mem_map_of_mem stored
  intro member
  cases found : s.channel id with
  | some row => exact ⟨row,rfl⟩
  | none =>
    obtain ⟨row,stored,same⟩ := mem_map.mp member
    exact absurd same (lookupNone.mp found row stored)

theorem runIds {system out : System} (h : run (systemStep parsers) system moves = some out) :
    out.shared.channels.map Channel.id = system.shared.channels.map Channel.id := by
  have keep : ∀ (before : System) move (after : System),
      before.shared.channels.map Channel.id = system.shared.channels.map Channel.id →
      systemStep parsers before move = some after →
      after.shared.channels.map Channel.id = system.shared.channels.map Channel.id := by
    intro before move after same moved
    cases move with
    | start =>
      obtain ⟨_,rfl⟩ := Pool.stepStart moved
      exact same
    | act =>
      obtain ⟨p,_,q,_,acted,rfl⟩ := Pool.stepAct moved
      exact (actIds acted).trans same
  exact runAlways keep rfl h

theorem noChannelUpdateLost {s : Store} {moves out} (fresh : s.history = [])
    (current : Along (systemStep parsers) (fun system move => writesUpToDate parsers system move = true) ⟨s,[]⟩ moves)
    (h : run (systemStep parsers) ⟨s,[]⟩ moves = some out) :
    ∀ id first, s.channel id = some first → ∃ row, out.shared.channel id = some row ∧
      (∀ index, index < (row.getKeys parsers).length →
        markedSince parsers (!keyEnabled first.channelInfo.multiKeyStatusList index) id index out.shared.history = true →
        keyEnabled row.channelInfo.multiKeyStatusList index = false) ∧
      row.usedQuota = first.usedQuota + recordedSum id out.shared.history := by
  intro id first begun
  have begins : Tracked parsers s.channel (⟨s,[]⟩ : System) := by
    refine ⟨fun id row found => ⟨fun index _ marked => ?_,?_⟩,fun p member => ?_⟩
    · have found' : s.channel id = some row := found
      rw [fresh,found'] at marked
      simpa [markedSince] using marked
    · have found' : s.channel id = some row := found
      rw [fresh,found']
      simp [recordedSum]
    · cases member
  have tracked := runInvariant (fun _ _ _ tracked current moved => stepTracked tracked current moved) begins current h
  obtain ⟨row,stored⟩ : ∃ row, out.shared.channel id = some row := by
    rw [storedIds,runIds h,← storedIds]
    exact ⟨first,begun⟩
  obtain ⟨marks,quota⟩ := tracked.rows id row stored
  rw [begun] at marks quota
  exact ⟨row,stored,by simpa using marks,by simpa using quota⟩

def pollingStore : Store where
  memoryCacheEnabled := false
  automaticEnableChannelEnabled := true
  channels := [{ id := 1, key := "a\nb", channelInfo := { isMultiKey := true, multiKeyMode := .polling } }]
  abilities := []
  cache := ⟨fun _ _ => [],[],fun _ => none⟩
  syncs := 0
  channelStatusLock := false
  pollingLocks := []
  history := []

def noArrays : Parsers := ⟨fun _ => none,fun _ => none⟩

def markKeyA (i : Nat) : List (Pool.Move Process Choice) :=
  .start (.update (.called (disableChannel 1 "a" "status 401")))::List.replicate 5 (.act i {})

def pollKeyMoves (i : Nat) : List (Pool.Move Process Choice) := List.replicate 3 (.act i {})

theorem inTurnNothingLost : ∃ out row, run (systemStep noArrays) ⟨pollingStore,[]⟩
      (markKeyA 0 ++ [.start (.selected 1),.act 1 {}] ++ pollKeyMoves 1 ++ [.start (.recording 1 100),.act 2 {}]) = some out ∧
    out.shared.channel 1 = some row ∧ keyEnabled row.channelInfo.multiKeyStatusList 0 = false ∧ row.usedQuota = 100 := by
  have checked : checkAlong (systemStep noArrays) (writesUpToDate noArrays) ⟨pollingStore,[]⟩
      (markKeyA 0 ++ [.start (.selected 1),.act 1 {}] ++ pollKeyMoves 1 ++ [.start (.recording 1 100),.act 2 {}]) = true := by
    decide
  obtain ⟨row,stored,marks,quota⟩ := noChannelUpdateLost rfl (alongChecked checked) rfl 1 _ rfl
  refine ⟨_,row,rfl,stored,marks 0 ?_ rfl,quota⟩
  cases stored
  decide

theorem outdatedCopiesLose : (∃ out row, run (systemStep noArrays) ⟨pollingStore,[]⟩
        ([.start (.selected 1),.act 0 {}] ++ markKeyA 1 ++ pollKeyMoves 0) = some out ∧
      markedSince noArrays false 1 0 out.shared.history = true ∧ out.shared.channel 1 = some row ∧
      keyEnabled row.channelInfo.multiKeyStatusList 0 = true) ∧
    ∃ out row, run (systemStep noArrays) ⟨pollingStore,[]⟩
        ([.start (.update (.called (disableChannel 1 "a" "status 401"))),.act 0 {},.act 0 {},.start (.recording 1 100),
          .act 1 {}] ++ List.replicate 3 (.act 0 {})) = some out ∧
      recordedSum 1 out.shared.history = 100 ∧ out.shared.channel 1 = some row ∧ row.usedQuota = 0 :=
  ⟨⟨_,_,rfl,rfl,rfl,rfl⟩,_,_,rfl,rfl,rfl,rfl⟩

end Omnigate.Channels
