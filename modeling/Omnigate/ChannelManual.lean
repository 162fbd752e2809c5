import Omnigate.ChannelCopies

/-! A channel that an administrator has disabled. Automatic calls change its row like any other: a failed request
makes it automatically disabled, and a passed test then enables it. It stays disabled as long as none does so, and no
save is made from a copy read before the administrator's. -/
namespace Omnigate.Channels

open Machine Pool List

variable {parsers : Parsers}

def manualSince (start : Bool) (id : Int) : List Event → Bool
  | [] => start
  | .saved call channel::rest =>
    if channel.id = id ∧ call.caller = .administrator ∧ channel.status = .manuallyDisabled then true
    else if channel.id = id ∧ call.caller = .administrator ∧ channel.status = .enabled then false
    else manualSince start id rest
  | .returned _ _::rest => manualSince start id rest
  | .recorded _ _::rest => manualSince start id rest

/- A call that leaves the status of the row: its key is not the channel's any more, or it disables one key of
several. -/
def harmless (parsers : Parsers) (call : Call) (row : Channel) : Bool :=
  row.channelInfo.isMultiKey && row.getKeys parsers ≠ [] && match (row.getKeys parsers).idxOf? call.usingKey with
    | none => call.usingKey ≠ ""
    | some index => call.status ≠ .enabled && (List.range (row.getKeys parsers).length).any (fun other =>
        other ≠ index && keyEnabled row.channelInfo.multiKeyStatusList other)

def stageRespects (parsers : Parsers) (start : Int → Bool) (s : Store) : Update → Bool
  | .reading call => call.caller ≠ .automatic ||
    (s.channel call.channelId).all (fun row => row.status ≠ .manuallyDisabled || harmless parsers call row)
  | .saving _ row channel => !manualSince (start channel.id) channel.id s.history || row.status = .manuallyDisabled
  | _ => true

/- Automatic calls that read a manually disabled row are harmless, and a save over one is made from a copy of it. -/
def respects (parsers : Parsers) (start : Int → Bool) (system : System) : Pool.Move Process Choice → Bool
  | .start _ => true
  | .act i _ => ((system.procs[i]?).bind stageOf).all (stageRespects parsers start system.shared)

theorem otherKeyLeft {keys}
    (left : (List.range keys.length).any (fun other => other ≠ index && keyEnabled statusList other) = true) :
    hasEnabledMultiKey keys (Function.update statusList index mark) = true := by
  obtain ⟨other,inside,both⟩ := any_eq_true.mp left
  simp only [Bool.and_eq_true,decide_eq_true_eq] at both
  refine any_eq_true.mpr ⟨other,inside,?_⟩
  simpa [keyEnabled,Function.update_of_ne both.1] using both.2

theorem harmlessChange (h : harmless parsers call row = true) :
    (changeStatus parsers call.usingKey call.status call.reason now row).status = row.status := by
  simp only [harmless,Bool.and_eq_true,decide_eq_true_eq] at h
  obtain ⟨⟨multi,keys⟩,rest⟩ := h
  simp only [changeStatus,if_pos multi,handlerMultiKeyUpdate,if_neg keys]
  cases found : (row.getKeys parsers).idxOf? call.usingKey with
  | none =>
    rw [found] at rest
    have other : call.usingKey ≠ "" := by simpa using rest
    simp only [if_pos other]
  | some index =>
    rw [found] at rest
    simp only [Bool.and_eq_true,decide_eq_true_eq] at rest
    have marks : (markKey index call.status call.reason now row.channelInfo).multiKeyStatusList =
        Function.update row.channelInfo.multiKeyStatusList index (some call.status) := by
      simp only [markKey,if_neg rest.1]
    have left : hasEnabledMultiKey (row.getKeys parsers)
        (Function.update row.channelInfo.multiKeyStatusList index (some call.status)) = true := otherKeyLeft rest.2
    simp only [marks,left,Bool.not_true,Bool.false_eq_true,if_false,if_neg rest.1]

theorem enablingChange (usingKey reason now row) :
    (changeStatus parsers usingKey .enabled reason now row).status = .enabled ∨
      (changeStatus parsers usingKey .enabled reason now row).status = row.status := by
  unfold changeStatus
  split
  · unfold handlerMultiKeyUpdate
    dsimp only
    split
    · exact .inl rfl
    split
    · split
      · exact .inr rfl
      · exact .inl rfl
    rename_i index found
    have bound : index < (row.getKeys parsers).length := (List.idxOf?_eq_some_iff.mp found).1
    have left : hasEnabledMultiKey (row.getKeys parsers)
        (markKey index .enabled reason now row.channelInfo).multiKeyStatusList = true := by
      refine any_eq_true.mpr ⟨index,mem_range.mpr bound,?_⟩
      simp [markKey,keyEnabled]
    simp only [left,Bool.not_true,Bool.false_eq_true,if_false,if_true,true_or]
  · exact .inl rfl

def Update.call : Update → Call
  | .called call => call
  | .locked call => call
  | .fetched call _ _ => call
  | .listing call _ => call
  | .reading call => call
  | .handling call _ => call
  | .saving call _ _ => call
  | .marking call _ => call
  | .leaving call _ => call
  | .returned call _ => call

def Minds (parsers : Parsers) : Update → Prop
  | .handling call row => row.status ≠ call.status ∧
    (row.status = .manuallyDisabled → call.caller = .automatic → harmless parsers call row = true)
  | .saving call row channel => row.status = .manuallyDisabled → channel.status = .manuallyDisabled ∨
    call.caller = .administrator ∧ channel.status = .enabled
  | _ => True

def ManualKept (start : Int → Bool) (s : Store) : Prop :=
  ∀ id, manualSince (start id) id s.history = true → ∀ row, s.channel id = some row → row.status = .manuallyDisabled

variable {start : Int → Bool}

theorem manualSame (kept : ManualKept start s) (rows : s'.channels = s.channels)
    (history : s'.history = s.history) : ManualKept start s' := by
  intro id manual row found
  exact kept id (history ▸ manual) row (by simpa only [Store.channel,rows] using found)

theorem handlingMinds (now) (allowed : call.allowed = true) (minds : Minds parsers (.handling call row)) :
    Minds parsers (.saving call row (changeStatus parsers call.usingKey call.status call.reason now row)) := by
  intro manual
  cases caller : call.caller with
  | automatic =>
    left
    rw [harmlessChange (minds.2 manual caller)]
    exact manual
  | administrator =>
    -- the handlers let two statuses through, and the row has one of them already
    have asked : call.status = .enabled := by
      simp only [Call.allowed,caller,isManageableChannelStatus,Bool.or_eq_true,decide_eq_true_eq] at allowed
      rcases allowed with wrong | enabled | same
      · cases wrong
      · exact enabled
      · exact absurd (manual.trans same.symm) minds.1
    rw [asked]
    rcases @enablingChange parsers call.usingKey call.reason now row with enabled | same
    · exact .inr ⟨rfl,enabled⟩
    · exact .inl (same.trans manual)

theorem savingManual (minds : Minds parsers (.saving call row channel))
    (respect : stageRespects parsers start s (.saving call row channel) = true) (kept : ManualKept start s) :
    ManualKept start {s with channels := saveWithoutKey channel s.channels, history := .saved call channel::s.history} := by
  intro id manual _ found
  obtain ⟨old,before,same⟩ := savedRow found
  simp only [manualSince] at manual
  by_cases here : id = channel.id
  · rw [same,if_pos here]
    split at manual
    · rename_i disables
      exact disables.2.2
    split at manual
    · cases manual
    rename_i _ notEnabled
    have copied : row.status = .manuallyDisabled := by
      simp only [stageRespects,← here,manual,Bool.not_true,Bool.false_or,decide_eq_true_eq] at respect
      exact respect
    rcases minds copied with kept | ⟨administrator,enables⟩
    · exact kept
    · exact absurd ⟨here.symm,administrator,enables⟩ notEnabled
  · have other : ¬ channel.id = id := fun same => here same.symm
    rw [if_neg (fun all => other all.1),if_neg (fun all => other all.1)] at manual
    rw [same,if_neg here]
    exact kept id manual old before

def Mindful (parsers : Parsers) (u : Update) : Prop := u.call.allowed = true ∧ Minds parsers u

theorem advanceManual (mindful : Mindful parsers u) (respect : stageRespects parsers start s u = true)
    (kept : ManualKept start s) (h : Advance parsers s u s' v) : ManualKept start s' ∧ Mindful parsers v := by
  obtain ⟨allowed,minds⟩ := mindful
  cases h with
  | lock | uncached | fetch | single | refuse | list | lost | mark => exact ⟨manualSame kept rfl rfl,allowed,trivial⟩
  | change _ next =>
    refine ⟨?_,by rcases next with rfl | rfl <;> exact ⟨allowed,trivial⟩⟩
    split
    · exact manualSame kept rfl rfl
    · exact kept
  | read found differs =>
    refine ⟨kept,allowed,differs,fun manual automatic => ?_⟩
    simpa [stageRespects,automatic,found,manual] using respect
  | prepare now => exact ⟨kept,allowed,handlingMinds now allowed minds⟩
  | fail next => exact ⟨kept,by rcases next with rfl | rfl <;> exact ⟨allowed,trivial⟩⟩
  | save next => exact ⟨savingManual minds respect kept,by rcases next with rfl | rfl <;> exact ⟨allowed,trivial⟩⟩
  | leave => exact ⟨kept,allowed,trivial⟩

def StagesMindful (parsers : Parsers) (_ : Store) (p : Process) : Prop := ∀ u, stageOf p = some u → Mindful parsers u

structure Minded (parsers : Parsers) (start : Int → Bool) (system : System) : Prop where
  kept : ManualKept start system.shared
  stages : ∀ p ∈ system.procs, StagesMindful parsers system.shared p

theorem sinceRecorded (h : Aside parsers s p s') (before id) :
    manualSince before id s'.history = manualSince before id s.history := by
  cases h <;> rfl

theorem stepMinded (minded : Minded parsers start system)
    (respect : respects parsers start system move = true) (h : systemStep parsers system move = some n) :
    Minded parsers start n := by
  have fresh : ∀ p, begins p → StagesMindful parsers system.shared p := by
    intro p begun u stage
    obtain ⟨call,rfl,allowed⟩ := (beginsBare begun).2.2 u stage
    exact ⟨allowed,trivial⟩
  obtain ⟨kept,stages⟩ := Pool.stepStable h minded.kept minded.stages fresh (by
    rintro i p _ _ q rfl found moved
    have others := fun (j : Nat) r (_ : j ≠ i) at' => minded.stages r (mem_of_getElem? (i := j) at')
    rcases actCases moved with ⟨u,v,mine,next,advanced,_⟩ | outside
    · have condition : stageRespects parsers start system.shared u = true := by simpa [respects,found,mine] using respect
      obtain ⟨kept,stage⟩ := advanceManual (minded.stages p (mem_of_getElem? found) u mine) condition minded.kept advanced
      refine ⟨kept,fun w at' => ?_,others⟩
      cases next.symm.trans at'
      exact stage
    refine ⟨fun id manual _ stored => ?_,fun w at' => ?_,others⟩
    · obtain ⟨old,before,same⟩ := asideStatus outside.effect stored
      rw [sinceRecorded outside.effect] at manual
      rw [same]
      exact minded.kept id manual old before
    · obtain ⟨call,rfl,automatic⟩ := outside.after w at'
      exact ⟨by simp [Update.call,Call.allowed,automatic],trivial⟩)
  exact ⟨kept,stages⟩

def disabledAtStart (s : Store) (id : Int) : Bool := (s.channel id).any (fun row => row.status = .manuallyDisabled)

theorem manualDisableSticks {s : Store} {moves out} (fresh : s.history = [])
    (respect : Along (systemStep parsers) (fun system move => respects parsers (disabledAtStart s) system move = true)
      ⟨s,[]⟩ moves)
    (h : run (systemStep parsers) ⟨s,[]⟩ moves = some out) :
    ∀ id, manualSince (disabledAtStart s id) id out.shared.history = true →
      ∀ row, out.shared.channel id = some row → row.status ≠ .enabled := by
  have start : Minded parsers (disabledAtStart s) (⟨s,[]⟩ : System) := by
    refine ⟨fun id manual row found => ?_,fun p member => ?_⟩
    · have before : disabledAtStart s id = true := by rw [fresh] at manual; exact manual
      have stored : s.channel id = some row := found
      simpa [disabledAtStart,stored] using before
    · cases member
  have minded := runInvariant (fun _ _ _ minded respect moved => stepMinded minded respect moved) start respect h
  intro id manual row found enabled
  rw [minded.kept id manual row found] at enabled
  cases enabled

def uncachedStore (channel : Channel) : Store where
  memoryCacheEnabled := false
  automaticEnableChannelEnabled := true
  channels := [channel]
  abilities := []
  cache := ⟨fun _ _ => [],[],fun _ => none⟩
  syncs := 0
  channelStatusLock := false
  pollingLocks := []
  history := []

def storedUpdate (i stages : Nat) : List (Pool.Move Process Choice) := List.replicate stages (.act i {})

def failAfterDisable (usingKey : String) (stages : Nat) : List (Pool.Move Process Choice) :=
  .start (.update (.called (manualOperation 1 .manuallyDisabled)))::storedUpdate 0 6 ++
    .start (.update (.called (disableChannel 1 usingKey "status 401")))::storedUpdate 1 stages

def twoKeyChannel : Channel := { id := 1, key := "a\nb", models := "gpt-4", channelInfo := { isMultiKey := true } }

def plainKeys : Parsers := ⟨fun _ => none,fun _ => none⟩

theorem keyFailureLeavesDisabled : ∃ out row,
    run (systemStep plainKeys) ⟨uncachedStore twoKeyChannel,[]⟩ (failAfterDisable "a" 5) = some out ∧
    manualSince (disabledAtStart (uncachedStore twoKeyChannel) 1) 1 out.shared.history = true ∧
    out.shared.channel 1 = some row ∧ row.channelInfo.multiKeyStatusList 0 = some .autoDisabled ∧ row.status ≠ .enabled := by
  have checked : checkAlong (systemStep plainKeys) (respects plainKeys (disabledAtStart (uncachedStore twoKeyChannel)))
      ⟨uncachedStore twoKeyChannel,[]⟩ (failAfterDisable "a" 5) = true := by decide
  exact ⟨_,_,rfl,rfl,rfl,rfl,manualDisableSticks rfl (alongChecked checked) rfl 1 rfl _ rfl⟩

theorem failureAndTestEnable : ∃ out row,
    run (systemStep plainKeys) ⟨uncachedStore { id := 1, key := "a", models := "gpt-4" },[]⟩
      (failAfterDisable "a" 6 ++ [.start .tests,.act 2 {},.act 2 { passed := true, usingKey := "a" }] ++ storedUpdate 2 6) =
        some out ∧
    manualSince false 1 out.shared.history = true ∧ out.shared.channel 1 = some row ∧ row.status = .enabled :=
  ⟨_,_,rfl,rfl,rfl,rfl⟩

end Omnigate.Channels
