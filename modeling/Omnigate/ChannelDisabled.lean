import Omnigate.ChannelSelection
import Omnigate.ChannelCopies

/-! Disabled channels are not selected from memory. A disable takes the channel out of the lists before it changes the
row, so it holds against resyncs that install what they read in order, for channels that stand once in each list. -/
namespace Omnigate.Channels

open Machine Pool List

variable {parsers : Parsers}

theorem filteredListed {id}
    (member : id ∈ filterChannelsByRequestPathAndModel cache ids requestPath model) : id ∈ ids := by
  unfold filterChannelsByRequestPathAndModel at member
  split at member
  · exact member
  · exact (mem_filter.mp member).1

theorem satisfiedListed {id}
    (member : id ∈ satisfiedChannels cache group model requestPath) : ∃ name, id ∈ cache.group2model2channels group name := by
  unfold satisfiedChannels at member
  dsimp only at member
  split at member <;> exact ⟨_,filteredListed member⟩

theorem loadedFrom (h : loadChannels cache ids = .ok loaded) :
    ∀ c ∈ loaded, c.id ∈ ids := by
  induction ids generalizing loaded with
  | nil =>
    cases h
    intro c member
    cases member
  | cons id rest ih =>
    unfold loadChannels at h
    split at h
    · cases h
    rename_i _ found
    cases loads : loadChannels cache rest with
    | error => rw [loads] at h; cases h
    | ok =>
      rw [loads] at h
      cases h
      intro c member
      rcases mem_cons.mp member with rfl | inside
      · rw [(Table.lookupSound found).2]
        exact mem_cons_self
      · exact mem_cons_of_mem _ (ih loads c inside)

theorem returnedListed (h : getRandomSatisfiedChannel cache group model retry requestPath draw = .ok (some c)) :
    ∃ name, c.id ∈ cache.group2model2channels group name := by
  suffices c.id ∈ satisfiedChannels cache group model requestPath from satisfiedListed this
  unfold getRandomSatisfiedChannel at h
  dsimp only at h
  split at h
  · cases h
  · rename_i id single
    split at h <;> cases h
    rename_i found
    rw [single,(Table.lookupSound found).2]
    exact mem_cons_self
  split at h
  · cases h
  rename_i _ loads
  split at h
  · cases h
  split at h <;> cases h
  rename_i chosen
  exact loadedFrom loads c (mem_filter.mp (chooseWeightedMem chosen)).1

theorem countFlat [DecidableEq γ] {f : β → List γ} {x : γ} {bs : List β} (few : ∀ b ∈ bs, (f b).count x ≤ 1)
    (alone : bs.Pairwise (fun b b' => x ∈ f b → x ∉ f b')) : (bs.flatMap f).count x ≤ 1 := by
  induction bs with
  | nil => simp
  | cons b bs ih =>
    obtain ⟨first,rest⟩ := pairwise_cons.mp alone
    obtain ⟨own,others⟩ := forall_mem_cons.mp few
    rw [flatMap_cons,count_append]
    by_cases here : x ∈ f b
    · have absent : x ∉ bs.flatMap f := by
        intro inside
        obtain ⟨b',member,there⟩ := mem_flatMap.mp inside
        exact first b' member here there
      rwa [count_eq_zero.mpr absent]
    · rw [count_eq_zero.mpr here,zero_add]
      exact ih others rest

theorem countListed {id} (groups : c.groups.Nodup) (models : c.modelNames.Nodup) : (listed g m c).count id ≤ 1 := by
  refine countFlat (fun group _ => countFlat (fun model _ => ?_) (models.imp ?_)) (groups.imp ?_)
  · exact count_le_length.trans (by split <;> simp)
  · intro model model' different here there
    simp_all
  · intro group group' different here there
    simp only [mem_flatMap] at here there
    simp_all

variable {channels : List Channel}

section

variable {id} (unique : (channels.map Channel.id).Nodup) (once : ∀ c ∈ channels, c.id = id → c.groups.Nodup ∧ c.modelNames.Nodup) (g m)

include unique once

theorem countListChannels :
    (listChannels channels g m).count id ≤ 1 := by
  have kept : (enabledChannels channels).Sublist channels := filter_sublist
  rw [listRows]
  refine countFlat (fun c inside => ?_) ((pairwise_map.mp (unique.sublist (kept.map _))).imp ?_)
  · by_cases same : c.id = id
    · obtain ⟨groups,models⟩ := once c (kept.subset inside) same
      exact countListed groups models
    · rw [count_eq_zero.mpr (fun here => same (memListed.mp here).1.symm)]
      exact Nat.zero_le 1
  · intro c d different here there
    exact different ((memListed.mp here).1.symm.trans (memListed.mp there).1)

theorem countBuilt :
    ((buildCache parsers channels).group2model2channels g m).count id ≤ 1 := by
  have same := (perm_insertionSort (fun a b => priorityOf channels b ≤ priorityOf channels a)
    (listChannels channels g m)).count_eq id
  have bound := countListChannels unique once g m
  exact same ▸ bound

end

def disabledSince (id : Int) : List Event → Bool
  | [] => false
  | .saved _ channel::rest => if channel.id = id ∧ channel.status = .enabled then false else disabledSince id rest
  | .returned call result::rest =>
    if call.channelId = id ∧ result = true ∧ call.status ≠ .enabled then true else disabledSince id rest
  | .recorded _ _::rest => disabledSince id rest

def Single (base : Int → Option Identity) (id : Int) : Prop := ∃ identity, base id = some identity ∧ identity.isMultiKey = false

def Hidden (cache : Cache) (id : Int) : Prop := ∀ group model, id ∉ cache.group2model2channels group model

def RowOff (s : Store) (id : Int) : Prop := ∀ row, s.channel id = some row → row.status ≠ .enabled

def Update.active : Update → Bool
  | .called _ => false
  | .returned _ _ => false
  | _ => true

def Update.disabling : Update → Option Int
  | .reading call => if call.status ≠ .enabled then some call.channelId else none
  | .handling call _ => if call.status ≠ .enabled then some call.channelId else none
  | .saving call _ _ => if call.status ≠ .enabled then some call.channelId else none
  | .marking call result => if result = true ∧ call.status ≠ .enabled then some call.channelId else none
  | .leaving call result => if result = true ∧ call.status ≠ .enabled then some call.channelId else none
  | _ => none

/- A resync installs no single-key channel as enabled that is disabled since or is being disabled. -/
def InOrder (system : System) : Pool.Move Process Choice → Prop
  | .start _ => True
  | .act i _ => ∀ channels groups, system.procs[i]? = some (.groupsRead channels groups) →
    ∀ c ∈ channels, c.status = .enabled → c.channelInfo.isMultiKey = false →
      disabledSince c.id system.shared.history = false ∧
      ∀ p ∈ system.procs, ∀ u, stageOf p = some u → u.disabling ≠ some c.id

variable {base : Int → Option Identity}

def StageKept (base : Int → Option Identity) (s : Store) : Update → Prop
  | .fetched call channel _ => channel.id = call.channelId ∧ channel.channelInfo.isMultiKey = true
  | .listing call status => Single base call.channelId → status = call.status
  | .reading call => Single base call.channelId → call.status ≠ .enabled → Hidden s.cache call.channelId
  | .handling call row => row.id = call.channelId ∧
    (Single base call.channelId → call.status ≠ .enabled → Hidden s.cache call.channelId)
  | .saving call _ channel => channel.id = call.channelId ∧ (Single base call.channelId → channel.status = call.status) ∧
    (Single base call.channelId → call.status ≠ .enabled → Hidden s.cache call.channelId)
  | .marking call result => result = true → Single base call.channelId → call.status ≠ .enabled →
    Hidden s.cache call.channelId ∧ RowOff s call.channelId
  | .leaving call result => result = true → Single base call.channelId → call.status ≠ .enabled →
    Hidden s.cache call.channelId ∧ RowOff s call.channelId
  | _ => True

def StagesKept (base : Int → Option Identity) (s : Store) (p : Process) : Prop := ∀ u, stageOf p = some u → StageKept base s u

structure Kept (base : Int → Option Identity) (s : Store) : Prop where
  down : ∀ id, Single base id → disabledSince id s.history = true → Hidden s.cache id ∧ RowOff s id
  once : ∀ id, Single base id → ∀ group model, (s.cache.group2model2channels group model).count id ≤ 1

variable {s s' : Store}

theorem stageIdle (idle : u.active = false) : StageKept base s u := by
  cases u <;> trivial

theorem stageMoves (hidden : ∀ id, u.disabling = some id → Single base id → Hidden s.cache id → Hidden s'.cache id)
    (off : ∀ id, Single base id → RowOff s id → RowOff s' id) (kept : StageKept base s u) : StageKept base s' u := by
  cases u with
  | called | locked | fetched | listing | returned => exact kept
  | reading => exact fun single disables => hidden _ (if_pos disables) single (kept single disables)
  | handling =>
    exact ⟨kept.1,fun single disables => hidden _ (if_pos disables) single (kept.2 single disables)⟩
  | saving =>
    exact ⟨kept.1,kept.2.1,fun single disables => hidden _ (if_pos disables) single (kept.2.2 single disables)⟩
  | marking | leaving =>
    intro done single disables
    obtain ⟨before,row⟩ := kept done single disables
    exact ⟨hidden _ (if_pos ⟨done,disables⟩) single before,off _ single row⟩

theorem notSingle (carried : Carried base channel) (multi : channel.channelInfo.isMultiKey = true) :
    ¬ Single base channel.id := by
  rintro ⟨_,found,single⟩
  have same := Option.some.inj (carried.symm.trans found)
  rw [← same] at single
  exact absurd (multi.symm.trans single) (by decide)

theorem hiddenErased {id} (disables : status ≠ .enabled)
    (once : ∀ group model, (cache.group2model2channels group model).count id ≤ 1) :
    Hidden (cacheUpdateChannelStatus id status cache) id := by
  intro group model member
  simp only [cacheUpdateChannelStatus,if_pos disables] at member
  have left := count_pos_iff.mpr member
  have bound := once group model
  rw [count_erase_self] at left
  omega

theorem erasedSublist (id status cache group model) :
    ((cacheUpdateChannelStatus id status cache).group2model2channels group model).Sublist
      (cache.group2model2channels group model) := by
  simp only [cacheUpdateChannelStatus]
  split
  · exact erase_sublist
  · exact List.Sublist.refl _

theorem keptFewer (kept : Kept base s) (rows : s'.channels = s.channels) (same : s'.history = s.history)
    (fewer : ∀ group model, (s'.cache.group2model2channels group model).Sublist (s.cache.group2model2channels group model)) :
    Kept base s' := by
  refine ⟨fun id single disabled => ?_,fun id single group model => ?_⟩
  · obtain ⟨hidden,off⟩ := kept.down id single (same ▸ disabled)
    refine ⟨fun group model member => hidden group model ((fewer group model).subset member),?_⟩
    intro row found
    exact off row (by simpa only [Store.channel,rows] using found)
  · exact le_trans ((fewer group model).count_le id) (kept.once id single group model)

theorem singleChange (carried : Carried base channel)
    (single : Single base channel.id) : (changeStatus parsers usingKey status reason now channel).status = status := by
  have plain : ¬ channel.channelInfo.isMultiKey = true := fun multi => notSingle carried multi single
  simp only [changeStatus,if_neg plain]

theorem savedKept (kept : Kept base s) : Kept base
    {s with channels := saveWithoutKey channel s.channels, history := .saved call channel::s.history} := by
  refine ⟨fun id single disabled => ?_,kept.once⟩
  simp only [disabledSince] at disabled
  split at disabled
  · cases disabled
  rename_i enables
  obtain ⟨hidden,off⟩ := kept.down id single disabled
  refine ⟨hidden,fun _ found => ?_⟩
  obtain ⟨old,earlier,same⟩ := savedRow found
  by_cases here : id = channel.id
  · rw [same,if_pos here]
    exact fun enabled => enables ⟨here.symm,enabled⟩
  · rw [same,if_neg here]
    exact off old earlier

theorem savedOff (id : channel.id = call.channelId) (status : channel.status ≠ .enabled) : RowOff
      {s with channels := saveWithoutKey channel s.channels, history := .saved call channel::s.history} call.channelId := by
  intro _ found
  obtain ⟨_,_,same⟩ := savedRow found
  rw [same,if_pos id.symm]
  exact status

theorem advanceKept (memory : s.memoryCacheEnabled = true) (own : ∀ c ∈ u.copies, Carried base c)
    (kept : Kept base s) (stage : StageKept base s u) (h : Advance parsers s u s' v) :
    Kept base s' ∧ StageKept base s' v := by
  have same : ∀ {t : Store}, t.channels = s.channels → t.history = s.history →
      t.cache.group2model2channels = s.cache.group2model2channels → Kept base t := by
    intro t rows history lists
    exact keptFewer kept rows history (fun _ _ => by rw [lists])
  cases h with
  | lock => exact ⟨same rfl rfl rfl,trivial⟩
  | uncached plain => exact absurd (memory.symm.trans plain) (by decide)
  | fetch found multi => exact ⟨kept,(Table.lookupSound found).2,multi⟩
  | single => exact ⟨kept,fun _ => rfl⟩
  | refuse | lost => exact ⟨kept,fun wrong => by cases wrong⟩
  | @change call channel syncs v now next =>
    have multi : ¬ Single base call.channelId := stage.1 ▸ notSingle (own channel mem_cons_self) stage.2
    refine ⟨?_,?_⟩
    · split
      · exact same rfl rfl rfl
      · exact kept
    · rcases next with rfl | rfl <;> exact fun single => absurd single multi
  | list =>
    refine ⟨keptFewer kept rfl rfl (erasedSublist _ _ _),fun single disables => ?_⟩
    rw [← stage single] at disables
    exact hiddenErased disables (kept.once _ single)
  | read found => exact ⟨kept,(Table.lookupSound found).2,stage⟩
  | @prepare call row now =>
    obtain ⟨id,_,_⟩ := @changeKeeps parsers call.usingKey call.status call.reason now row
    exact ⟨kept,id.trans stage.1,fun single => singleChange (own row mem_cons_self) (stage.1.symm ▸ single),stage.2⟩
  | fail next => rcases next with rfl | rfl <;> exact ⟨kept,fun wrong => by cases wrong⟩
  | save next =>
    obtain ⟨id,status,hidden⟩ := stage
    rcases next with rfl | rfl <;> exact ⟨savedKept kept,fun _ single disables =>
      ⟨hidden single disables,savedOff id (status single ▸ disables)⟩⟩
  | mark => exact ⟨same rfl rfl rfl,stage⟩
  | leave =>
    refine ⟨⟨fun id single disabled => ?_,kept.once⟩,trivial⟩
    simp only [disabledSince] at disabled
    split at disabled
    · rename_i mine
      obtain ⟨rfl,done,disables⟩ := mine
      exact stage done single disables
    · exact kept.down id single disabled

def holdsLock (p : Process) : Option Unit := (stageOf p).bind (fun u => if u.active then some () else none)

def statusLocked (s : Store) (_ : Unit) : Prop := s.channelStatusLock = true

theorem advanceLock (memory : s.memoryCacheEnabled = true) (h : Advance parsers s u s' v) :
    s'.memoryCacheEnabled = true ∧
      (u.active = false ∧ v.active = true ∧ s.channelStatusLock = false ∧ s'.channelStatusLock = true ∨
       u.active = true ∧ v.active = true ∧ s'.channelStatusLock = s.channelStatusLock ∨
       u.active = true ∧ v.active = false ∧ s'.channelStatusLock = false) := by
  cases h with
  | lock _ free => exact ⟨memory,.inl ⟨rfl,rfl,free,rfl⟩⟩
  | uncached plain => exact absurd (memory.symm.trans plain) (by decide)
  | fetch | single | refuse | list | lost | read | prepare | mark => exact ⟨memory,.inr (.inl ⟨rfl,rfl,rfl⟩)⟩
  | change _ next => rcases next with rfl | rfl <;> split <;> exact ⟨memory,.inr (.inl ⟨rfl,rfl,rfl⟩)⟩
  | fail next | save next => rcases next with rfl | rfl <;> exact ⟨memory,.inr (.inl ⟨rfl,rfl,rfl⟩)⟩
  | leave => exact ⟨memory,.inr (.inr ⟨rfl,rfl,by simp [memory]⟩)⟩

theorem asideLock (h : Aside parsers s p s') :
    s'.memoryCacheEnabled = s.memoryCacheEnabled ∧ s'.channelStatusLock = s.channelStatusLock := by
  cases h <;> exact ⟨rfl,rfl⟩

theorem idleLock (idle : ∀ u, stageOf p = some u → u.active = false) : holdsLock p = none := by
  cases stage : stageOf p with
  | none => simp [holdsLock,stage]
  | some u => simp [holdsLock,stage,idle u stage]

theorem outsideIdle (outside : Outside parsers s p s' q) : holdsLock p = none ∧ holdsLock q = none := by
  refine ⟨idleLock (fun u stage => ?_),idleLock (fun u stage => ?_)⟩
  · obtain ⟨call,_,rfl⟩ := outside.before u stage
    rfl
  · obtain ⟨call,rfl,_⟩ := outside.after u stage
    rfl

theorem beginsIdle (h : begins p) : ∀ u, stageOf p = some u → u.active = false := by
  intro u stage
  obtain ⟨_,rfl,_⟩ := (beginsBare h).2.2 u stage
  rfl

structure Guarded (system : System) : Prop where
  memory : system.shared.memoryCacheEnabled = true
  exclusive : Exclusive holdsLock statusLocked system

theorem stepGuarded (guarded : Guarded system) (h : systemStep parsers system move = some n) :
    Guarded n := by
  cases move with
  | start =>
    obtain ⟨begun,rfl⟩ := Pool.stepStart h
    exact ⟨guarded.memory,Pool.startExclusive guarded.exclusive (idleLock (beginsIdle begun))⟩
  | act i =>
    obtain ⟨p,_,q,found,moved,rfl⟩ := Pool.stepAct h
    rcases actCases moved with ⟨u,v,mine,next,advanced,_⟩ | outside
    · obtain ⟨memory,lock⟩ := advanceLock guarded.memory advanced
      refine ⟨memory,Pool.actExclusive guarded.exclusive found (fun _ => ?_) (fun _ holding => ?_)⟩
      · have held : holdsLock p = some () → statusLocked system.shared () := guarded.exclusive.held i p () found
        rcases lock with ⟨a,b,free,taken⟩ | ⟨a,b,same⟩ | ⟨a,b,freed⟩
        · simp [statusLocked,holdsLock,mine,next,a,b,taken]
        · have locked : system.shared.channelStatusLock = true := held (by simp [holdsLock,mine,a])
          simp [statusLocked,holdsLock,next,b,same,locked]
        · simp [statusLocked,holdsLock,mine,next,a,b,freed]
      rcases lock with ⟨a,b,free,taken⟩ | ⟨a,b,same⟩ | ⟨a,b,freed⟩
      · exact .inr (by simp [statusLocked,free])
      · exact .inl (by simp [holdsLock,mine,a])
      · simp [holdsLock,next,b] at holding
    · obtain ⟨memory,lock⟩ := asideLock outside.effect
      obtain ⟨before,after⟩ := outsideIdle outside
      refine ⟨memory.trans guarded.memory,Pool.actExclusive guarded.exclusive found (fun _ => ?_) (fun _ holding => ?_)⟩
      · simp [statusLocked,lock,before,after]
      · rw [after] at holding
        cases holding

theorem rowOffAside (h : Aside parsers s p s') {id} (off : RowOff s id) : RowOff s' id := by
  intro _ found
  obtain ⟨old,before,same⟩ := asideStatus h found
  rw [same]
  exact off old before

theorem sinceAside (h : Aside parsers s p s') (id) :
    disabledSince id s'.history = disabledSince id s.history := by
  cases h <;> rfl

def NamesOnce (base : Int → Option Identity) : Prop := ∀ id identity, base id = some identity → identity.isMultiKey = false →
  (Text.split ',' identity.group).Nodup ∧ (Text.split ',' identity.models).Nodup

theorem swapOnce (names : NamesOnce base) (carried : ∀ c ∈ channels, Carried base c)
    (unique : (channels.map Channel.id).Nodup) {id} (single : Single base id) (group model : String) :
    ((buildCache parsers channels).group2model2channels group model).count id ≤ 1 := by
  refine countBuilt unique (fun c member same => ?_) group model
  subst same
  obtain ⟨identity,found,plain⟩ := single
  have mine := Option.some.inj ((carried c member).symm.trans found)
  have once := names c.id identity found plain
  rw [← mine] at once
  exact once

theorem swapHidden (carried : ∀ c ∈ channels, Carried base c) {id} (single : Single base id)
    (absent : ∀ c ∈ channels, c.status = .enabled → c.channelInfo.isMultiKey = false → c.id ≠ id) :
    Hidden (buildCache parsers channels) id := by
  intro _ _ member
  obtain ⟨c,serves,same⟩ := memListChannels.mp (memSortByPriority.mp member)
  obtain ⟨stored,enabled,_⟩ := memServing.mp serves
  refine absent c stored enabled ?_ same
  by_contra multi
  exact notSingle (carried c stored) (by simpa using multi) (same ▸ single)

theorem installed (h : initChannelCache parsers channels groups = some cache) :
    cache = buildCache parsers channels := by
  unfold initChannelCache at h
  split at h <;> cases h
  rfl

structure Shielded (base : Int → Option Identity) (system : System) : Prop where
  coherent : Coherent base system
  guarded : Guarded system
  kept : Kept base system.shared
  stages : ∀ p ∈ system.procs, StagesKept base system.shared p

theorem outsideShielded (names : NamesOnce base) (shielded : Shielded base system)
    (inOrder : InOrder system (.act i choice)) (found : system.procs[i]? = some p)
    (outside : Outside parsers system.shared p s' q) :
    Kept base s' ∧ StagesKept base s' q ∧ ∀ (j : Nat) r, j ≠ i → system.procs[j]? = some r → StagesKept base s' r := by
  have fits := shielded.coherent.procs p (mem_of_getElem? found)
  have since := fun id => sinceAside outside.effect id
  have off := fun {id : Int} (before : RowOff system.shared id) => rowOffAside outside.effect before
  have hidden : ∀ id, Single base id → (disabledSince id system.shared.history = true ∨
      ∃ r ∈ system.procs, ∃ u, stageOf r = some u ∧ u.disabling = some id) →
      Hidden system.shared.cache id → Hidden s'.cache id := by
    intro id single reason before
    cases effect : outside.effect with
    | quiet | info | record => exact before
    | swap loads =>
      rw [installed loads]
      refine swapHidden fits.copies single (fun c member enabled plain same => ?_)
      obtain ⟨up,noDisable⟩ := inOrder _ _ found c member enabled plain
      rcases reason with down | ⟨r,inside,u,stage,disabling⟩
      · rw [same,down] at up
        cases up
      · exact noDisable r inside u stage (same ▸ disabling)
  refine ⟨⟨fun id single disabled => ?_,fun id single => ?_⟩,fun u stage => ?_,fun j r _ at' u stage => ?_⟩
  · rw [since] at disabled
    obtain ⟨before,rowOff⟩ := shielded.kept.down id single disabled
    exact ⟨hidden id single (.inl disabled) before,off rowOff⟩
  · cases effect : outside.effect with
    | quiet | info | record => exact shielded.kept.once id single
    | swap loads =>
      rw [installed loads]
      exact swapOnce names fits.copies fits.distinct single
  · obtain ⟨_,rfl,_⟩ := outside.after u stage
    trivial
  · have old := mem_of_getElem? at'
    exact stageMoves (fun id disabling single before => hidden id single (.inr ⟨r,old,u,stage,disabling⟩) before)
      (fun _ _ before => off before) (shielded.stages r old u stage)

theorem advanceCalled (memory : s.memoryCacheEnabled = true) (idle : u.active = false)
    (h : Advance parsers s u s' v) : s'.cache = s.cache ∧ s'.channels = s.channels := by
  cases h with
  | lock => exact ⟨rfl,rfl⟩
  | uncached plain => exact absurd (memory.symm.trans plain) (by decide)
  | fetch | single | refuse | change | list | lost | read | prepare | fail | save | mark | leave => cases idle

theorem stepShielded (names : NamesOnce base) (shielded : Shielded base system)
    (inOrder : InOrder system move) (h : systemStep parsers system move = some n) : Shielded base n := by
  obtain ⟨kept,stages⟩ := Pool.stepStable h shielded.kept shielded.stages
    (fun p begun u stage => stageIdle (beginsIdle begun u stage)) (by
      rintro i p _ _ q rfl found moved
      rcases actCases moved with ⟨u,v,mine,next,advanced,_⟩ | outside
      · have inside := mem_of_getElem? found
        have own := fun c member => (shielded.coherent.procs p inside).copies c (stageCopies mine c member)
        obtain ⟨kept,stage⟩ := advanceKept shielded.guarded.memory own shielded.kept (shielded.stages p inside u mine) advanced
        refine ⟨kept,fun w at' => ?_,fun j r other old w at' => ?_⟩
        · cases next.symm.trans at'
          exact stage
        -- the lock has one holder, so no other call is at a stage that could break
        by_cases active : w.active = true
        · have idle : u.active = false := by
            by_contra working
            refine other (shielded.guarded.exclusive.alone j i r p () old found ?_ ?_)
            · simp [holdsLock,at',active]
            · simp [holdsLock,mine,working]
          obtain ⟨cache,rows⟩ := advanceCalled shielded.guarded.memory idle advanced
          refine stageMoves (fun id _ _ before => cache ▸ before) (fun id _ before row stored => before row ?_)
            (shielded.stages r (mem_of_getElem? old) w at')
          simpa only [Store.channel,rows] using stored
        · exact stageIdle (by simpa using active)
      · exact outsideShielded names shielded inOrder found outside)
  exact ⟨stepCoherent shielded.coherent h,stepGuarded shielded.guarded h,kept,stages⟩

structure Loaded (parsers : Parsers) (s : Store) : Prop where
  memory : s.memoryCacheEnabled = true
  unique : (s.channels.map Channel.id).Nodup
  cache : initChannelCache parsers s.channels (s.abilities.map Ability.group) = some s.cache
  unlocked : s.channelStatusLock = false
  fresh : s.history = []

def DistinctNames (channels : List Channel) : Prop :=
  ∀ c ∈ channels, c.channelInfo.isMultiKey = false → c.groups.Nodup ∧ c.modelNames.Nodup

theorem namesOnce (names : DistinctNames channels) : NamesOnce (identities channels) := by
  intro _ _ found plain
  obtain ⟨c,stored,rfl⟩ := Option.map_eq_some_iff.mp found
  exact names c (Table.lookupSound stored).1 plain

theorem loadedShielded (loaded : Loaded parsers s) (names : DistinctNames s.channels) :
    Shielded (identities s.channels) ⟨s,[]⟩ := by
  have carried := carriedRow loaded.unique
  have built := installed loaded.cache
  have cached : ∀ c ∈ s.cache.channelsIDM, Carried (identities s.channels) c := by
    rw [built]
    exact carried
  have exclusive : Exclusive holdsLock statusLocked (⟨s,[]⟩ : System) :=
    emptyExclusive (by simp [statusLocked,loaded.unlocked])
  refine ⟨⟨⟨carried,cached,loaded.unique⟩,fun p member => ?_⟩,⟨loaded.memory,exclusive⟩,⟨?_,?_⟩,fun p member => ?_⟩
  · cases member
  · intro id _ disabled
    rw [loaded.fresh] at disabled
    cases disabled
  · intro id single group model
    rw [built]
    exact swapOnce (namesOnce names) carried loaded.unique single group model
  · cases member

theorem disabledNeverSelected {s : Store} {moves out} (loaded : Loaded parsers s) (names : DistinctNames s.channels)
    (inOrder : Along (systemStep parsers) InOrder ⟨s,[]⟩ moves) (h : run (systemStep parsers) ⟨s,[]⟩ moves = some out) :
    ∀ c ∈ s.channels, c.channelInfo.isMultiKey = false → disabledSince c.id out.shared.history = true →
      ∀ group model retry requestPath draw d,
        getRandomSatisfiedChannel out.shared.cache group model retry requestPath draw = .ok (some d) → d.id ≠ c.id := by
  intro c stored plain disabled group model retry requestPath draw d returned same
  have shielded := runInvariant (fun _ _ _ shielded inOrder moved => stepShielded (namesOnce names) shielded inOrder moved)
    (loadedShielded loaded names) inOrder h
  have single : Single (identities s.channels) c.id := ⟨c.identity,carriedRow loaded.unique c stored,plain⟩
  obtain ⟨name,listed⟩ := returnedListed returned
  exact (shielded.kept.down c.id single disabled).1 group name (same ▸ listed)

def oneChannelStore (models : String) : Store where
  memoryCacheEnabled := true
  automaticEnableChannelEnabled := true
  channels := [singleChannel models]
  abilities := [abilityOf (singleChannel models) "default" "gpt-4"]
  cache := buildCache plainParsers [singleChannel models]
  syncs := 0
  channelStatusLock := false
  pollingLocks := []
  history := []

def wholeUpdate (i : Nat) : List (Pool.Move Process Choice) := List.replicate 8 (.act i {})

def disableByHand : List (Pool.Move Process Choice) :=
  .start (.update (.called (manualOperation 1 .manuallyDisabled)))::wholeUpdate 0

def syncAfter : List (Pool.Move Process Choice) := disableByHand ++ [.start .resync,.act 1 {},.act 1 {},.act 1 {}]

def checkOrder (system : System) : Pool.Move Process Choice → Bool
  | .start _ => true
  | .act i _ => match system.procs[i]? with
    | some (.groupsRead channels _) => channels.all (fun c => c.status ≠ .enabled || c.channelInfo.isMultiKey ||
        (!disabledSince c.id system.shared.history &&
          system.procs.all (fun p => (stageOf p).all (fun u => u.disabling ≠ some c.id))))
    | _ => true

theorem orderChecked (h : checkOrder system move = true) : InOrder system move := by
  cases move with
  | start => trivial
  | act =>
    intro _ _ found c member enabled plain
    simp only [checkOrder,found,all_eq_true] at h
    have each := h c member
    simp only [enabled,plain,ne_eq,not_true_eq_false,decide_false,Bool.false_or,Bool.and_eq_true,Bool.not_eq_true',
      all_eq_true] at each
    refine ⟨each.1,fun p inside u stage => ?_⟩
    have apart := each.2 p inside
    rw [stage] at apart
    simpa using apart

theorem disableByHandHolds : ∃ out, run (systemStep plainParsers) ⟨oneChannelStore "gpt-4",[]⟩ syncAfter = some out ∧
    disabledSince 1 out.shared.history = true ∧ ∀ draw d,
      getRandomSatisfiedChannel out.shared.cache "default" "gpt-4" 0 "" draw = .ok (some d) → d.id ≠ 1 := by
  have loaded : Loaded plainParsers (oneChannelStore "gpt-4") := ⟨rfl,by decide,rfl,rfl,rfl⟩
  have names : DistinctNames (oneChannelStore "gpt-4").channels := by
    intro c member _
    rw [mem_singleton.mp member]
    exact ⟨by decide,by decide⟩
  have checked : checkAlong (systemStep plainParsers) checkOrder ⟨oneChannelStore "gpt-4",[]⟩ syncAfter = true := by decide
  have inOrder : Along (systemStep plainParsers) InOrder ⟨oneChannelStore "gpt-4",[]⟩ syncAfter :=
    alongWeaken (fun _ _ _ _ _ _ => trivial) (fun _ _ _ checked => orderChecked checked) trivial (alongChecked checked)
  refine ⟨_,rfl,rfl,fun draw d => ?_⟩
  exact disabledNeverSelected loaded names inOrder rfl (singleChannel "gpt-4") mem_cons_self rfl rfl "default" "gpt-4" 0 ""
    draw d

theorem twiceNamedStaysSelected : Loaded plainParsers (oneChannelStore "gpt-4,gpt-4") ∧
    ∃ out d, run (systemStep plainParsers) ⟨oneChannelStore "gpt-4,gpt-4",[]⟩ disableByHand = some out ∧
      disabledSince 1 out.shared.history = true ∧
      getRandomSatisfiedChannel out.shared.cache "default" "gpt-4" 0 "" 0 = .ok (some d) ∧
      d.id = 1 ∧ d.status = .manuallyDisabled :=
  ⟨⟨rfl,by decide,rfl,rfl,rfl⟩,_,_,rfl,rfl,rfl,rfl,rfl⟩

theorem staleSyncSelects : ∃ out d, run (systemStep plainParsers) ⟨oneChannelStore "gpt-4",[]⟩
      ([.start .resync,.act 0 {},.start (.update (.called (manualOperation 1 .manuallyDisabled)))] ++ wholeUpdate 1 ++
        [.act 0 {},.act 0 {}]) = some out ∧
      disabledSince 1 out.shared.history = true ∧
      getRandomSatisfiedChannel out.shared.cache "default" "gpt-4" 0 "" 0 = .ok (some d) ∧ d.id = 1 :=
  ⟨_,_,rfl,rfl,rfl,rfl⟩

end Omnigate.Channels
