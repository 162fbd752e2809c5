import Omnigate.ChannelSystem

/-! What one step of the channel system does: the next stage of a status update, or one of the few other effects. The
columns that no step changes are the same in the row, the cached channel and every copy a process holds. -/
namespace Omnigate.Channels

open Machine Pool Table List Option

variable {parsers : Parsers} {s s' : Store} {p q : Process} {u v : Update} {choice : Choice}

def stageOf : Process → Option Update
  | .update stage => some stage
  | .enabling stage _ => some stage
  | _ => none

inductive Advance (parsers : Parsers) (s : Store) : Update → Store → Update → Prop
  | lock {call} (memory : s.memoryCacheEnabled = true) (free : s.channelStatusLock = false) :
      Advance parsers s (.called call) {s with channelStatusLock := true} (.locked call)
  | uncached {call} (memory : s.memoryCacheEnabled = false) : Advance parsers s (.called call) s (.reading call)
  | fetch {call channel} (found : s.cache.channel call.channelId = some channel) (multi : channel.channelInfo.isMultiKey = true) :
      Advance parsers s (.locked call) s (.fetched call channel s.syncs)
  | single {call} : Advance parsers s (.locked call) s (.listing call call.status)
  | refuse {call} : Advance parsers s (.locked call) s (.leaving call false)
  | change {call channel syncs v} (now : Int) (next : v = .reading call ∨
        v = .listing call (handlerMultiKeyUpdate parsers call.usingKey call.status call.reason now channel).status) :
      Advance parsers s (.fetched call channel syncs) (if s.syncs = syncs then {s with
        cache := s.cache.put (handlerMultiKeyUpdate parsers call.usingKey call.status call.reason now channel) } else s) v
  | list {call status} : Advance parsers s (.listing call status)
      {s with cache := cacheUpdateChannelStatus call.channelId status s.cache} (.reading call)
  | lost {call} : Advance parsers s (.reading call) s (.leaving call false)
  | read {call row} (found : s.channel call.channelId = some row) (differs : row.status ≠ call.status) :
      Advance parsers s (.reading call) s (.handling call row)
  | prepare {call row} (now : Int) : Advance parsers s (.handling call row) s
      (.saving call row (changeStatus parsers call.usingKey call.status call.reason now row))
  | fail {call row channel v} (next : v = .marking call false ∨ v = .leaving call false) :
      Advance parsers s (.saving call row channel) s v
  | save {call row channel v} (next : v = .marking call true ∨ v = .leaving call true) :
      Advance parsers s (.saving call row channel)
        {s with channels := saveWithoutKey channel s.channels, history := .saved call channel::s.history} v
  | mark {call result} (abilities : List Ability) :
      Advance parsers s (.marking call result) {s with abilities := abilities} (.leaving call result)
  | leave {call result} : Advance parsers s (.leaving call result) {s with
      channelStatusLock := s.channelStatusLock && !s.memoryCacheEnabled
      history := .returned call result::s.history } (.returned call result)

theorem advances (h : advanceUpdate parsers s choice u = some (s',v)) : Advance parsers s u s' v := by
  cases u with
  | called =>
    simp only [advanceUpdate] at h
    split at h
    · rename_i memory
      split at h <;> cases h
      rename_i free
      exact .lock memory (by simpa using free)
    rename_i memory
    cases h
    exact .uncached (by simpa using memory)
  | locked =>
    simp only [advanceUpdate] at h
    split at h
    · cases h
      exact .refuse
    rename_i found
    split at h
    · rename_i multi
      cases h
      exact .fetch found multi
    split at h <;> cases h
    · exact .refuse
    · exact .single
  | fetched =>
    simp only [advanceUpdate] at h
    split at h <;> cases h
    refine .change choice.now ?_
    split
    · exact .inl rfl
    · exact .inr rfl
  | listing =>
    cases h
    exact .list
  | reading =>
    simp only [advanceUpdate] at h
    split at h
    · cases h
      exact .lost
    split at h
    · cases h
      exact .lost
    rename_i found
    split at h <;> cases h
    · exact .lost
    · rename_i differs
      exact .read found differs
  | handling =>
    simp only [advanceUpdate] at h
    split at h <;> cases h
    exact .prepare choice.now
  | saving call =>
    have next : ∀ (skip : Bool) (result : Bool), (if skip then Update.marking call result else .leaving call result) =
        .marking call result ∨ (if skip then Update.marking call result else .leaving call result) = .leaving call result := by
      intro skip result
      cases skip
      · exact .inr rfl
      · exact .inl rfl
    simp only [advanceUpdate] at h
    split at h <;> cases h
    · exact .fail (next _ false)
    · exact .save (next _ true)
  | marking =>
    simp only [advanceUpdate] at h
    split at h <;> cases h
    · exact .mark s.abilities
    · exact .mark _
  | leaving =>
    cases h
    exact .leave
  | returned => cases h

structure Identity where
  (models group key : String)
  isMultiKey : Bool
  multiKeyMode : MultiKeyMode
  deriving DecidableEq, Repr

def Channel.identity (channel : Channel) : Identity :=
  ⟨channel.models,channel.group,channel.key,channel.channelInfo.isMultiKey,channel.channelInfo.multiKeyMode⟩

def Update.copies : Update → List Channel
  | .fetched _ channel _ => [channel]
  | .handling _ row => [row]
  | .saving _ row channel => [row,channel]
  | _ => []

def Process.copies : Process → List Channel
  | .update stage => stage.copies
  | .enabling stage channels => stage.copies ++ channels
  | .channelsRead channels => channels
  | .groupsRead channels _ => channels
  | .testing channels => channels
  | .choosing channel => [channel]
  | .polling channel => [channel]
  | .savingInfo channel _ _ => [channel]
  | _ => []

def Process.snapshot : Process → List Channel
  | .channelsRead channels => channels
  | .groupsRead channels _ => channels
  | _ => []

inductive Aside (parsers : Parsers) (s : Store) : Process → Store → Prop
  | quiet (p : Process) (locks : List Int) : Aside parsers s p {s with pollingLocks := locks}
  | swap {channels groups cache} (installed : initChannelCache parsers channels groups = some cache) :
      Aside parsers s (.groupsRead channels groups) {s with cache := cache, syncs := s.syncs + 1}
  | info (channel : Channel) (key : String) (index : Nat) (locks : List Int) :
      Aside parsers s (.savingInfo channel key index)
        {s with channels := saveChannelInfo channel s.channels, pollingLocks := locks}
  | record (id quota : Int) : Aside parsers s (.recording id quota)
      {s with channels := updateChannelUsedQuota id quota s.channels, history := .recorded id quota::s.history}

theorem asideSame (s p) : Aside parsers s p s := .quiet p s.pollingLocks

def Drawn (s : Store) (p q : Process) : Prop :=
  (∀ c ∈ q.copies, c ∈ s.channels ∨ ∃ d ∈ p.copies, c.id = d.id ∧ c.identity = d.identity) ∧
    (q.snapshot = [] ∨ q.snapshot = s.channels ∨ q.snapshot = p.snapshot)

structure Outside (parsers : Parsers) (s : Store) (p : Process) (s' : Store) (q : Process) : Prop where
  before : ∀ u, stageOf p = some u → ∃ call result, u = .returned call result
  after : ∀ v, stageOf q = some v → ∃ call, v = .called call ∧ call.caller = .automatic
  effect : Aside parsers s p s'
  drawn : Drawn s p q

theorem drawnNone (copies : q.copies = []) (snapshot : q.snapshot = []) : Drawn s p q :=
  ⟨by rw [copies]; exact fun _ member => absurd member not_mem_nil,.inl snapshot⟩

theorem drawnFrom (same : ∀ c ∈ q.copies, c ∈ p.copies) (snapshot : q.snapshot = [] ∨ q.snapshot = p.snapshot) : Drawn s p q :=
  ⟨fun c member => .inr ⟨c,same c member,rfl,rfl⟩,snapshot.imp_right .inr⟩

theorem outsideStays (before : stageOf p = none) (after : stageOf q = none) (effect : Aside parsers s p s')
    (drawn : Drawn s p q) : Outside parsers s p s' q where
  before := fun u same => by rw [before] at same; cases same
  after := fun v same => by rw [after] at same; cases same
  effect := effect
  drawn := drawn

theorem outsideEnds (before : stageOf p = none) (effect : Aside parsers s p s') (after : stageOf q = none)
    (copies : q.copies = []) (snapshot : q.snapshot = []) : Outside parsers s p s' q :=
  outsideStays before after effect (drawnNone copies snapshot)

variable {channel : Channel}

theorem chooseKeyOutside (h : chooseKey parsers s choice channel = some (s',q)) :
    Outside parsers s (.choosing channel) s' q := by
  unfold chooseKey at h
  dsimp only at h
  split at h
  · cases h
    exact outsideEnds rfl (asideSame s _) rfl rfl rfl
  split at h
  · cases h
    exact outsideEnds rfl (asideSame s _) rfl rfl rfl
  split at h
  · cases h
  split at h
  · cases h
    exact outsideEnds rfl (asideSame s _) rfl rfl rfl
  split at h <;> cases h
  · exact outsideEnds rfl (asideSame s _) rfl rfl rfl
  · exact outsideStays rfl rfl (.quiet _ _) (drawnFrom (fun _ member => member) (.inl rfl))
  · exact outsideEnds rfl (asideSame s _) rfl rfl rfl

theorem pollKeyOutside (h : pollKey parsers s choice channel = some (s',q)) :
    Outside parsers s (.polling channel) s' q := by
  unfold pollKey at h
  dsimp only at h
  split at h
  · cases h
    exact outsideEnds rfl (.quiet _ _) rfl rfl rfl
  split at h <;> cases h
  · exact outsideStays rfl rfl (asideSame s _) (drawnFrom (fun _ member => member) (.inl rfl))
  refine outsideStays rfl rfl (asideSame s _) ⟨fun c member => .inr ⟨channel,mem_cons_self,?_⟩,.inl rfl⟩
  rw [mem_singleton.mp member]
  exact ⟨rfl,rfl⟩

theorem actCases (h : act parsers s p choice = some (s',q)) :
    (∃ u v, stageOf p = some u ∧ stageOf q = some v ∧ Advance parsers s u s' v ∧ q.snapshot = [] ∧
      ∀ c ∈ q.copies, c ∈ v.copies ∨ c ∈ p.copies) ∨ Outside parsers s p s' q := by
  cases p with
  | update stage =>
    obtain ⟨⟨t,v⟩,advanced,same⟩ := map_eq_some_iff.mp h
    cases same
    exact .inl ⟨stage,v,rfl,rfl,advances advanced,rfl,fun _ member => .inl member⟩
  | resync =>
    simp only [act] at h
    split at h <;> cases h
    · refine .inr (outsideStays rfl rfl (asideSame s _) ?_)
      cases choice.fails
      · exact ⟨fun _ member => .inl member,.inr (.inl rfl)⟩
      · exact drawnNone rfl rfl
    · exact .inr (outsideEnds rfl (asideSame s _) rfl rfl rfl)
  | channelsRead =>
    cases h
    exact .inr (outsideStays rfl rfl (asideSame s _) (drawnFrom (fun _ member => member) (.inr rfl)))
  | groupsRead =>
    simp only [act] at h
    split at h
    · cases h
      exact .inr (outsideEnds rfl (asideSame s _) rfl rfl rfl)
    rename_i installed
    cases h
    exact .inr (outsideEnds rfl (.swap installed) rfl rfl rfl)
  | tests =>
    cases h
    exact .inr (outsideStays rfl rfl (asideSame s _) ⟨fun _ member => .inl member,.inl rfl⟩)
  | testing channels =>
    right
    cases channels with
    | nil =>
      cases h
      exact outsideEnds rfl (asideSame s _) rfl rfl rfl
    | cons channel rest =>
      have later : ∀ c ∈ rest, c ∈ channel::rest := fun _ member => mem_cons_of_mem _ member
      simp only [act] at h
      split at h <;> cases h
      · exact ⟨fun _ same => (by cases same),fun v same => ⟨_,(some.inj same).symm,rfl⟩,asideSame s _,
          drawnFrom later (.inl rfl)⟩
      · exact outsideStays rfl rfl (asideSame s _) (drawnFrom later (.inl rfl))
  | enabling stage =>
    cases stage with
    | returned call result =>
      cases h
      exact .inr ⟨fun u same => ⟨call,result,(some.inj same).symm⟩,fun _ same => (by cases same),asideSame s _,
        drawnFrom (fun _ member => member) (.inl rfl)⟩
    | called | locked | fetched | listing | reading | handling | saving | marking | leaving =>
      simp only [act] at h
      obtain ⟨⟨t,v⟩,advanced,same⟩ := map_eq_some_iff.mp h
      cases same
      refine .inl ⟨_,v,rfl,rfl,advances advanced,rfl,fun c member => ?_⟩
      exact (mem_append.mp member).imp_right (mem_append_right _)
  | selected =>
    simp only [act] at h
    split at h
    · cases h
    obtain ⟨channel,found,same⟩ := map_eq_some_iff.mp h
    cases same
    refine .inr (outsideStays rfl rfl (asideSame s _) ⟨fun c member => .inl ?_,.inl rfl⟩)
    rw [mem_singleton.mp member]
    exact (lookupSound found).1
  | choosing => exact .inr (chooseKeyOutside h)
  | polling => exact .inr (pollKeyOutside h)
  | savingInfo =>
    simp only [act] at h
    split at h <;> cases h
    · exact .inr (outsideEnds rfl (.quiet _ _) rfl rfl rfl)
    · exact .inr (outsideEnds rfl (.info _ _ _ _) rfl rfl rfl)
  | recording =>
    simp only [act] at h
    split at h <;> cases h
    · exact .inr (outsideEnds rfl (asideSame s _) rfl rfl rfl)
    · exact .inr (outsideEnds rfl (.record _ _) rfl rfl rfl)
  | gotKey | done => cases h

theorem beginsBare (h : begins p) : p.copies = [] ∧ p.snapshot = [] ∧
    ∀ u, stageOf p = some u → ∃ call, u = .called call ∧ call.allowed = true := by
  cases p with
  | update stage =>
    cases stage with
    | called call => exact ⟨rfl,rfl,fun u same => ⟨call,(some.inj same).symm,h⟩⟩
    | locked | fetched | listing | reading | handling | saving | marking | leaving | returned => cases h
  | resync | tests | selected | recording => exact ⟨rfl,rfl,fun _ same => by cases same⟩
  | channelsRead | groupsRead | testing | enabling | choosing | polling | savingInfo | gotKey | done => cases h

theorem markKeyKeeps (index : Nat) (status reason now info) :
    (markKey index status reason now info).isMultiKey = info.isMultiKey ∧
      (markKey index status reason now info).multiKeyMode = info.multiKeyMode := by
  unfold markKey
  split <;> exact ⟨rfl,rfl⟩

theorem handlerKeeps (usingKey status reason now channel) :
    (handlerMultiKeyUpdate parsers usingKey status reason now channel).id = channel.id ∧
      (handlerMultiKeyUpdate parsers usingKey status reason now channel).identity = channel.identity ∧
      (handlerMultiKeyUpdate parsers usingKey status reason now channel).usedQuota = channel.usedQuota := by
  unfold handlerMultiKeyUpdate
  dsimp only
  split
  · exact ⟨rfl,rfl,rfl⟩
  split
  · split <;> exact ⟨rfl,rfl,rfl⟩
  rename_i index _
  obtain ⟨multi,mode⟩ := markKeyKeeps index status reason now channel.channelInfo
  have same : (⟨channel.models,channel.group,channel.key,(markKey index status reason now channel.channelInfo).isMultiKey,
      (markKey index status reason now channel.channelInfo).multiKeyMode⟩ : Identity) = channel.identity := by
    rw [multi,mode]
    rfl
  split
  · exact ⟨rfl,same,rfl⟩
  · split <;> exact ⟨rfl,same,rfl⟩

theorem changeKeeps (usingKey status reason now channel) :
    (changeStatus parsers usingKey status reason now channel).id = channel.id ∧
      (changeStatus parsers usingKey status reason now channel).identity = channel.identity ∧
      (changeStatus parsers usingKey status reason now channel).usedQuota = channel.usedQuota := by
  unfold changeStatus
  split
  · exact handlerKeeps usingKey status reason now channel
  · exact ⟨rfl,rfl,rfl⟩

theorem actIds (h : act parsers s p choice = some (s',q)) : s'.channels.map Channel.id = s.channels.map Channel.id := by
  rcases actCases h with ⟨u,v,_,_,advanced,_⟩ | outside
  · cases advanced with
    | lock | uncached | fetch | single | refuse | list | lost | read | prepare | fail | mark | leave => rfl
    | change => split <;> rfl
    | save => exact updateKeys (fun _ here => (of_decide_eq_true here).symm) s.channels
  · cases outside.effect with
    | quiet | swap => rfl
    | info | record => exact updateKeys (fun _ _ => by rfl) s.channels

variable {channels : List Channel}

theorem savedRow {id} (found : Table.lookup Channel.id id (saveWithoutKey channel channels) = some row) :
    ∃ old, Table.lookup Channel.id id channels = some old ∧
      row = if id = channel.id then {channel with key := old.key} else old := by
  unfold saveWithoutKey at found
  rw [lookupUpdateHit (fun _ here => (of_decide_eq_true here).symm)] at found
  obtain ⟨old,before,same⟩ := map_eq_some_iff.mp found
  refine ⟨old,before,?_⟩
  rw [← same]
  have ids := (lookupSound before).2
  by_cases here : id = channel.id
  · rw [if_pos here,if_pos (decide_eq_true (ids.trans here))]
  · rw [if_neg here,if_neg (by simpa [ids] using here)]

theorem updatedStatus {p f} (ids : ∀ row, (f row).id = row.id) (status : ∀ row, (f row).status = row.status) {id row}
    (found : Table.lookup Channel.id id (updateWhere p f channels) = some row) :
    ∃ old, Table.lookup Channel.id id channels = some old ∧ row.status = old.status := by
  rw [lookupUpdate ids] at found
  obtain ⟨old,before,same⟩ := map_eq_some_iff.mp found
  refine ⟨old,before,?_⟩
  rw [← same]
  split
  · exact status old
  · rfl

theorem asideStatus {id} (h : Aside parsers s p s') (found : s'.channel id = some row) :
    ∃ old, s.channel id = some old ∧ row.status = old.status := by
  cases h with
  | quiet | swap => exact ⟨row,found,rfl⟩
  | info channel =>
    exact updatedStatus (f := fun row => {row with channelInfo := channel.channelInfo}) (fun _ => rfl) (fun _ => rfl) found
  | record id quota =>
    exact updatedStatus (f := fun row => {row with usedQuota := row.usedQuota + quota}) (fun _ => rfl) (fun _ => rfl) found

section
variable {base : Int → Option Identity}

def Carried (base : Int → Option Identity) (channel : Channel) : Prop := base channel.id = some channel.identity

theorem carriedSame {c d : Channel} (carried : Carried base d) (id : c.id = d.id) (same : c.identity = d.identity) :
    Carried base c := by
  unfold Carried at *
  rw [id,same,carried]

theorem carriedAlike (left : Carried base c) (right : Carried base d) (ids : c.id = d.id) :
    c.identity = d.identity := by
  unfold Carried at *
  rw [ids,right] at left
  exact (some.inj left).symm

theorem carriedSaved (own : Carried base channel) (rows : ∀ c ∈ channels, Carried base c) :
    ∀ c ∈ saveWithoutKey channel channels, Carried base c := by
  refine allUpdated rows (fun row here carried => carriedSame own rfl ?_)
  have keys : row.key = channel.key := congrArg Identity.key (carriedAlike carried own (of_decide_eq_true here))
  simp only [Channel.identity,keys]

theorem carriedInfo (own : Carried base channel) (rows : ∀ c ∈ channels, Carried base c) :
    ∀ c ∈ saveChannelInfo channel channels, Carried base c := by
  refine allUpdated rows (fun row here carried => carriedSame carried rfl ?_)
  have same := carriedAlike carried own (of_decide_eq_true here)
  simp only [Channel.identity,Identity.mk.injEq] at same ⊢
  exact ⟨trivial,trivial,trivial,same.2.2.2.1.symm,same.2.2.2.2.symm⟩

structure Sound (base : Int → Option Identity) (s : Store) : Prop where
  rows : ∀ c ∈ s.channels, Carried base c
  cached : ∀ c ∈ s.cache.channelsIDM, Carried base c
  unique : (s.channels.map Channel.id).Nodup

structure Fits (base : Int → Option Identity) (p : Process) : Prop where
  copies : ∀ c ∈ p.copies, Carried base c
  distinct : (p.snapshot.map Channel.id).Nodup

theorem noCopies : ∀ c ∈ ([] : List Channel), Carried base c := fun _ member => absurd member not_mem_nil

theorem advanceSound (sound : Sound base s) (own : ∀ c ∈ u.copies, Carried base c) (h : Advance parsers s u s' v) :
    (∀ c ∈ s'.channels, Carried base c) ∧ (∀ c ∈ s'.cache.channelsIDM, Carried base c) ∧ ∀ c ∈ v.copies, Carried base c := by
  obtain ⟨rows,cached,_⟩ := sound
  cases h with
  | lock | uncached | single | refuse | lost | mark | leave => exact ⟨rows,cached,noCopies⟩
  | fetch found =>
    refine ⟨rows,cached,fun c member => ?_⟩
    rw [mem_singleton.mp member]
    exact cached _ (lookupSound found).1
  | @change call channel syncs v now next =>
    obtain ⟨id,identity,_⟩ := @handlerKeeps parsers call.usingKey call.status call.reason now channel
    have changed := carriedSame (own channel mem_cons_self) id identity
    have bare : v.copies = [] := by rcases next with rfl | rfl <;> rfl
    rw [bare]
    split
    · exact ⟨rows,allUpdated cached (fun _ _ _ => changed),noCopies⟩
    · exact ⟨rows,cached,noCopies⟩
  | list => exact ⟨rows,allUpdated cached (fun _ _ old => carriedSame old rfl rfl),noCopies⟩
  | read found =>
    refine ⟨rows,cached,fun c member => ?_⟩
    rw [mem_singleton.mp member]
    exact rows _ (lookupSound found).1
  | @prepare call row now =>
    obtain ⟨id,identity,_⟩ := @changeKeeps parsers call.usingKey call.status call.reason now row
    have read := own row mem_cons_self
    refine ⟨rows,cached,fun c member => ?_⟩
    simp only [Update.copies,mem_cons,not_mem_nil,or_false] at member
    rcases member with rfl | rfl
    · exact read
    · exact carriedSame read id identity
  | fail next => rcases next with rfl | rfl <;> exact ⟨rows,cached,noCopies⟩
  | save next =>
    have written := carriedSaved (own _ (mem_cons_of_mem _ mem_cons_self)) rows
    rcases next with rfl | rfl <;> exact ⟨written,cached,noCopies⟩

theorem stageCopies (stage : stageOf p = some u) : ∀ c ∈ u.copies, c ∈ p.copies := by
  intro c member
  cases p with
  | update => cases stage; exact member
  | enabling => cases stage; exact mem_append_left _ member
  | resync | tests | selected | recording | channelsRead | groupsRead | testing | choosing | polling | savingInfo | gotKey
    | done => cases stage

theorem actSound (sound : Sound base s) (fits : Fits base p) (h : act parsers s p choice = some (s',q)) :
    Sound base s' ∧ Fits base q := by
  have unique : (s'.channels.map Channel.id).Nodup := by rw [actIds h]; exact sound.unique
  rcases actCases h with ⟨u,v,mine,_,advanced,snapshot,copies⟩ | ⟨_,_,effect,drawn,snapshot⟩
  · obtain ⟨rows,cached,own⟩ := advanceSound sound (fun c member => fits.copies c (stageCopies mine c member)) advanced
    refine ⟨⟨rows,cached,unique⟩,fun c member => ?_,by rw [snapshot]; exact nodup_nil⟩
    rcases copies c member with inStage | waiting
    · exact own c inStage
    · exact fits.copies c waiting
  have carried : ∀ c ∈ q.copies, Carried base c := by
    intro c member
    rcases drawn c member with stored | ⟨d,held,id,identity⟩
    · exact sound.rows c stored
    · exact carriedSame (fits.copies d held) id identity
  have distinct : (q.snapshot.map Channel.id).Nodup := by
    rcases snapshot with same | same | same <;> rw [same]
    · exact nodup_nil
    · exact sound.unique
    · exact fits.distinct
  refine ⟨⟨?_,?_,unique⟩,carried,distinct⟩
  · cases effect with
    | quiet | swap => exact sound.rows
    | info channel => exact carriedInfo (fits.copies channel mem_cons_self) sound.rows
    | record => exact allUpdated sound.rows (fun _ _ old => carriedSame old rfl rfl)
  cases effect with
  | quiet | info | record => exact sound.cached
  | swap installed =>
    unfold initChannelCache at installed
    split at installed <;> cases installed
    exact fits.copies

structure Coherent (base : Int → Option Identity) (system : System) : Prop where
  shared : Sound base system.shared
  procs : ∀ p ∈ system.procs, Fits base p

theorem stepCoherent (coherent : Coherent base system)
    (h : systemStep parsers system move = some n) : Coherent base n := by
  have fresh : ∀ p, begins p → Fits base p := by
    intro p begun
    obtain ⟨copies,snapshot,_⟩ := beginsBare begun
    exact ⟨by rw [copies]; exact noCopies,by rw [snapshot]; exact nodup_nil⟩
  obtain ⟨shared,procs⟩ := Pool.stepSeparate fresh (fun _ _ _ _ _ sound fits moved => actSound sound fits moved)
    coherent.shared coherent.procs h
  exact ⟨shared,procs⟩

def identities (channels : List Channel) (id : Int) : Option Identity :=
  (Table.lookup Channel.id id channels).map Channel.identity

theorem carriedRow (unique : (channels.map Channel.id).Nodup) :
    ∀ c ∈ channels, Carried (identities channels) c := by
  intro c member
  simp only [Carried,identities,lookupUnique unique member,map_some]

end

end Omnigate.Channels
