import Omnigate.Ability

/-! Which channels the two selections can return, over all draws. From memory: those that serve the model, or its
normalised name if none does, and support the path, at the wanted level among them, by weight. From the database:
those with an ability at the wanted level among all abilities of the model that support the path. -/
namespace Omnigate.Channels

open Ranking List

theorem drawBelow {α : Type} (f : Nat → Option α) (positive : 0 < total) {a} :
    (∃ draw, f (draw % total) = some a) ↔ ∃ d < total, f d = some a := by
  constructor
  · rintro ⟨draw,same⟩
    exact ⟨draw % total,Nat.mod_lt _ positive,same⟩
  · rintro ⟨d,bound,same⟩
    exact ⟨d,by rw [Nat.mod_eq_of_lt bound]; exact same⟩

def effectiveWeight (factor adjustment : Nat) (channel : Channel) : Nat := channel.getWeight * factor + adjustment

theorem chooseHere {first : Channel} {r : Nat} (low : r < effectiveWeight factor adjustment first) :
    chooseByWeight factor adjustment (first::rest) r = some first :=
  if_pos (by unfold effectiveWeight at low; omega)

theorem chooseLater {first : Channel} {r : Nat} :
    chooseByWeight factor adjustment (first::rest) (effectiveWeight factor adjustment first + r : Nat) =
      chooseByWeight factor adjustment rest r := by
  simp only [chooseByWeight,effectiveWeight,Nat.cast_add,add_sub_cancel_left]
  exact if_neg (by omega)

theorem chooseByWeightIff (factor adjustment : Nat) (channels c) :
    (∃ d < (channels.map (effectiveWeight factor adjustment)).sum,
      chooseByWeight factor adjustment channels (d : Nat) = some c) ↔
      c ∈ channels ∧ 0 < effectiveWeight factor adjustment c := by
  induction channels with
  | nil => simp
  | cons first _ ih =>
    simp only [map_cons,sum_cons]
    constructor
    · rintro ⟨d,bound,chosen⟩
      by_cases here : d < effectiveWeight factor adjustment first
      · rw [chooseHere here] at chosen
        cases chosen
        exact ⟨mem_cons_self,by omega⟩
      obtain ⟨k,rfl⟩ := Nat.exists_eq_add_of_le (not_lt.mp here)
      rw [chooseLater] at chosen
      exact (ih.mp ⟨k,by omega,chosen⟩).imp_left (.tail _)
    · rintro ⟨member,positive⟩
      rcases mem_cons.mp member with rfl | inside
      · exact ⟨0,by omega,chooseHere positive⟩
      obtain ⟨d,bound,chosen⟩ := ih.mpr ⟨inside,positive⟩
      exact ⟨effectiveWeight factor adjustment first + d,by omega,chooseLater.trans chosen⟩

theorem chooseByWeightSome (factor adjustment : Nat) (channels) (d : Nat)
    (bound : d < (channels.map (effectiveWeight factor adjustment)).sum) :
    (chooseByWeight factor adjustment channels d).isSome := by
  induction channels generalizing d with
  | nil => simp at bound
  | cons first _ ih =>
    simp only [map_cons,sum_cons] at bound
    by_cases here : d < effectiveWeight factor adjustment first
    · rw [chooseHere here]
      rfl
    obtain ⟨k,rfl⟩ := Nat.exists_eq_add_of_le (not_lt.mp here)
    rw [chooseLater]
    exact ih k (by omega)

theorem sumFactor (factor adjustment : Nat) (channels : List Channel) :
    (channels.map (effectiveWeight factor adjustment)).sum =
      (channels.map Channel.getWeight).sum * factor + channels.length * adjustment := by
  induction channels with
  | nil => simp
  | cons _ _ ih =>
    simp only [map_cons,sum_cons,ih,effectiveWeight,length_cons]
    ring

theorem chooseWeightedLoop (some_ : channels ≠ []) :
    ∃ factor adjustment, 0 < (channels.map (effectiveWeight factor adjustment)).sum ∧
      (∀ draw, chooseWeighted channels draw = chooseByWeight factor adjustment channels
        (draw % (channels.map (effectiveWeight factor adjustment)).sum : Nat)) ∧
      ∀ c ∈ channels, 0 < effectiveWeight factor adjustment c ↔
        (0 < c.getWeight ∨ ∀ d ∈ channels, d.getWeight = 0) := by
  have long : 0 < channels.length := length_pos_iff.mpr some_
  by_cases zero : (channels.map Channel.getWeight).sum = 0
  · have each : ∀ d ∈ channels, d.getWeight = 0 := by
      intro d member
      exact sum_eq_zero_iff.mp zero _ (mem_map_of_mem member)
    have total : (channels.map (effectiveWeight 1 100)).sum = channels.length * 100 := by
      rw [sumFactor,zero]
      omega
    refine ⟨1,100,by omega,fun draw => ?_,fun c _ => ?_⟩
    · rw [total,chooseWeighted,if_pos zero]
    · exact ⟨fun _ => .inr each,fun _ => by simp [effectiveWeight]⟩
  have notAll : ¬ ∀ d ∈ channels, d.getWeight = 0 := by
    intro each
    refine zero (sum_eq_zero_iff.mpr (fun w member => ?_))
    obtain ⟨d,inside,rfl⟩ := mem_map.mp member
    exact each d inside
  by_cases light : (channels.map Channel.getWeight).sum / channels.length < 10
  · have total : (channels.map (effectiveWeight 100 0)).sum = (channels.map Channel.getWeight).sum * 100 := by
      rw [sumFactor]
      omega
    refine ⟨100,0,by omega,fun draw => ?_,fun c _ => ?_⟩
    · rw [total,chooseWeighted,if_neg zero,if_pos light]
    · simp only [effectiveWeight,notAll,or_false]
      omega
  · have total : (channels.map (effectiveWeight 1 0)).sum = (channels.map Channel.getWeight).sum := by
      rw [sumFactor]
      omega
    refine ⟨1,0,by omega,fun draw => ?_,fun c _ => ?_⟩
    · rw [total,chooseWeighted,if_neg zero,if_neg light]
    · simp only [effectiveWeight,notAll,or_false]
      omega

theorem chooseWeightedIff (some_ : channels ≠ []) (c) : (∃ draw, chooseWeighted channels draw = some c) ↔
      c ∈ channels ∧ (0 < c.getWeight ∨ ∀ d ∈ channels, d.getWeight = 0) := by
  obtain ⟨factor,adjustment,positive,loop,weight⟩ := chooseWeightedLoop some_
  simp only [loop]
  rw [drawBelow (fun d => chooseByWeight factor adjustment channels d) positive,chooseByWeightIff]
  exact and_congr_right (weight c)

theorem chooseWeightedSome (some_ : channels ≠ []) (draw : Nat) : (chooseWeighted channels draw).isSome := by
  obtain ⟨_,_,positive,loop,_⟩ := chooseWeightedLoop some_
  rw [loop]
  exact chooseByWeightSome _ _ _ _ (Nat.mod_lt _ positive)

theorem chooseAbilityIff (abilities a) :
    (∃ d < (abilities.map (fun ability => ability.weight + 10)).sum, chooseAbility abilities (d : Nat) = some a) ↔
      a ∈ abilities := by
  constructor
  · rintro ⟨d,bound,chosen⟩
    clear bound
    generalize (d : Int) = weight at chosen
    induction abilities generalizing weight with
    | nil => cases chosen
    | cons first rest ih =>
      simp only [chooseAbility] at chosen
      split at chosen
      · cases chosen
        exact mem_cons_self
      · exact mem_cons_of_mem _ (ih _ chosen)
  -- with a draw of at least one, so that the abilities before it do not catch it
  intro member
  have reached : ∃ d : Nat, 1 ≤ d ∧ d < (abilities.map (fun ability => ability.weight + 10)).sum ∧
      chooseAbility abilities (d : Nat) = some a := by
    induction abilities with
    | nil => cases member
    | cons first rest ih =>
      simp only [map_cons,sum_cons,chooseAbility]
      rcases mem_cons.mp member with rfl | inside
      · exact ⟨1,le_refl _,by omega,if_pos (by omega)⟩
      obtain ⟨d,_,bound,chosen⟩ := ih inside
      refine ⟨d + (first.weight + 10),by omega,by omega,?_⟩
      have moved : ((d + (first.weight + 10) : Nat) : Int) - ((first.weight + 10 : Nat) : Int) = (d : Int) := by omega
      rw [moved,if_neg (by omega)]
      exact chosen
  obtain ⟨d,_,bound,chosen⟩ := reached
  exact ⟨d,bound,chosen⟩

theorem foldAppends {f : (String → String → List Int) → β → String → String → List Int} {added : β → List Int}
    (each : ∀ lists b, f lists b g m = lists g m ++ added b) (xs : List β) (lists) :
    xs.foldl f lists g m = lists g m ++ xs.flatMap added := by
  induction xs generalizing lists with
  | nil => simp
  | cons b xs ih => rw [foldl_cons,ih,each,flatMap_cons,append_assoc]

def listed (g m : String) (c : Channel) : List Int :=
  c.groups.flatMap (fun group => c.modelNames.flatMap (fun model => if g = group ∧ m = model then [c.id] else []))

theorem listRows (channels g m) : listChannels channels g m = (enabledChannels channels).flatMap (listed g m) := by
  refine foldAppends (fun lists c => ?_) (enabledChannels channels) (fun _ _ => [])
  refine foldAppends (fun lists group => ?_) c.groups lists
  refine foldAppends (fun lists model => ?_) c.modelNames lists
  unfold appendChannel
  split <;> simp

theorem memListed {id} : id ∈ listed g m c ↔ id = c.id ∧ g ∈ c.groups ∧ m ∈ c.modelNames := by
  simp only [listed,mem_flatMap]
  constructor
  · rintro ⟨group,inGroups,model,inModels,here⟩
    split at here
    · rename_i same
      obtain ⟨rfl,rfl⟩ := same
      exact ⟨mem_singleton.mp here,inGroups,inModels⟩
    · cases here
  · rintro ⟨rfl,inGroups,inModels⟩
    exact ⟨g,inGroups,m,inModels,by simp⟩

def serving (channels : List Channel) (group model : String) : List Channel :=
  (enabledChannels channels).filter (fun channel => group ∈ channel.groups && model ∈ channel.modelNames)

theorem memServing : c ∈ serving channels group model ↔
    c ∈ channels ∧ c.status = .enabled ∧ group ∈ c.groups ∧ model ∈ c.modelNames := by
  simp only [serving,enabledChannels,mem_filter,Bool.and_eq_true,decide_eq_true_eq,and_assoc]

theorem memListChannels {id} :
    id ∈ listChannels channels group model ↔ ∃ c ∈ serving channels group model, c.id = id := by
  simp only [listRows,mem_flatMap,memListed,memServing,enabledChannels,mem_filter,decide_eq_true_eq]
  exact exists_congr (fun c => by tauto)

theorem memSortByPriority {id} :
    id ∈ sortByPriority channels ids ↔ id ∈ ids := (perm_insertionSort _ _).mem_iff

def supportsPath (parsers : Parsers) (requestPath model : String) (channel : Channel) : Bool :=
  requestPath = "" || channel.channelType ≠ channelTypeAdvancedCustom ||
    (parsers.advancedCustom channel.otherSettings).any (fun supports => supports requestPath model)

def reaching (parsers : Parsers) (channels : List Channel) (group name requestPath model : String) : List Channel :=
  (serving channels group name).filter (supportsPath parsers requestPath model)

def candidates (parsers : Parsers) (channels : List Channel) (group model requestPath : String) : List Channel :=
  if reaching parsers channels group model requestPath model = [] then
    reaching parsers channels group (formatMatchingModelName model) requestPath model
  else reaching parsers channels group model requestPath model

structure Offered (parsers : Parsers) (channels : List Channel) (group model : String) (retry : Nat) (requestPath : String)
    (c : Channel) : Prop where
  candidate : c ∈ candidates parsers channels group model requestPath
  level : Level ((candidates parsers channels group model requestPath).map Channel.getPriority) retry c.getPriority
  weight : 0 < c.getWeight ∨
    ∀ d ∈ candidates parsers channels group model requestPath, d.getPriority = c.getPriority → d.getWeight = 0

section Memory
variable {parsers : Parsers} {channels : List Channel} {group model requestPath : String}

theorem emptyAlike {ids : List Int} {found : List Channel} (same : ∀ id, id ∈ ids ↔ ∃ c ∈ found, c.id = id) :
    ids = [] ↔ found = [] := by
  rw [eq_nil_iff_forall_not_mem,eq_nil_iff_forall_not_mem]
  constructor
  · exact fun none_ c member => none_ c.id ((same c.id).mpr ⟨c,member,rfl⟩)
  · intro none_ id member
    obtain ⟨c,inside,_⟩ := (same id).mp member
    exact none_ c inside

variable (unique : (channels.map Channel.id).Nodup)

include unique

theorem memFiltered {id} :
    id ∈ filterChannelsByRequestPathAndModel (buildCache parsers channels)
        ((buildCache parsers channels).group2model2channels group name) requestPath model ↔
      ∃ c ∈ reaching parsers channels group name requestPath model, c.id = id := by
  have listed : ∀ id, id ∈ (buildCache parsers channels).group2model2channels group name ↔
      ∃ c ∈ serving channels group name, c.id = id := fun id => memSortByPriority.trans memListChannels
  unfold filterChannelsByRequestPathAndModel reaching
  split
  · rename_i skipped
    rw [listed]
    rcases skipped with noPath | empty
    · simp [supportsPath,noPath]
    simp [(emptyAlike listed).mp empty]
  have read : ∀ c ∈ serving channels group name, (buildCache parsers channels).channel c.id = some c ∧
      (buildCache parsers channels).channel2advancedCustomConfig c.id =
        if c.channelType = channelTypeAdvancedCustom then parsers.advancedCustom c.otherSettings else none := by
    intro c member
    have found := Table.lookupUnique unique (memServing.mp member).1
    exact ⟨found,by simp only [buildCache,advancedCustomConfigs,found,Option.bind_some]⟩
  rw [mem_filter,listed]
  constructor
  · rintro ⟨⟨c,member,rfl⟩,passes⟩
    refine ⟨c,mem_filter.mpr ⟨member,?_⟩,rfl⟩
    by_cases custom : c.channelType = channelTypeAdvancedCustom <;>
      cases config : parsers.advancedCustom c.otherSettings <;> simp_all [supportsPath]
  rintro ⟨c,member,rfl⟩
  obtain ⟨serves,passes⟩ := mem_filter.mp member
  refine ⟨⟨c,serves,rfl⟩,?_⟩
  by_cases custom : c.channelType = channelTypeAdvancedCustom <;>
    cases config : parsers.advancedCustom c.otherSettings <;> simp_all [supportsPath]

theorem memSatisfied {id} :
    id ∈ satisfiedChannels (buildCache parsers channels) group model requestPath ↔
      ∃ c ∈ candidates parsers channels group model requestPath, c.id = id := by
  have empty := emptyAlike (fun id => @memFiltered parsers channels group model requestPath unique model id)
  unfold satisfiedChannels candidates
  by_cases none_ : reaching parsers channels group model requestPath model = []
  · rw [if_pos none_]
    rw [if_pos (empty.mpr none_)]
    exact memFiltered unique
  · rw [if_neg none_]
    rw [if_neg (mt empty.mp none_)]
    exact memFiltered unique

omit unique in
theorem candidateStored (member : c ∈ candidates parsers channels group model requestPath) : c ∈ channels := by
  unfold candidates at member
  split at member <;> exact (memServing.mp (mem_filter.mp member).1).1

theorem loadedChannels {ids} (stored : ∀ id ∈ ids, ∃ c ∈ channels, c.id = id) : ∃ loaded, loadChannels (buildCache parsers channels) ids = .ok loaded ∧
      ∀ c, c ∈ loaded ↔ c ∈ channels ∧ c.id ∈ ids := by
  induction ids with
  | nil => exact ⟨[],rfl,by simp⟩
  | cons id _ ih =>
    obtain ⟨first,member,rfl⟩ := stored id mem_cons_self
    obtain ⟨loaded,ok,each⟩ := ih (fun id inside => stored id (mem_cons_of_mem _ inside))
    have found : (buildCache parsers channels).channel first.id = some first := Table.lookupUnique unique member
    refine ⟨first::loaded,by simp only [loadChannels,found,ok]; rfl,fun c => ?_⟩
    rw [mem_cons,mem_cons,each]
    constructor
    · rintro (rfl | ⟨inside,later⟩)
      · exact ⟨member,.inl rfl⟩
      · exact ⟨inside,.inr later⟩
    · rintro ⟨inside,same | later⟩
      · exact .inl (inj_on_of_nodup_map unique inside member same)
      · exact .inr ⟨inside,later⟩

omit unique in
theorem chooseWeightedMem (chosen : chooseWeighted channels draw = some c) : c ∈ channels := by
  by_cases some_ : channels = []
  · subst some_
    simp [chooseWeighted,chooseByWeight] at chosen
  · exact ((chooseWeightedIff some_ c).mp ⟨draw,chosen⟩).1

theorem memorySelection (retry : Nat) (some_ : candidates parsers channels group model requestPath ≠ []) :
    ∃ v pool, pool ≠ [] ∧ Level ((candidates parsers channels group model requestPath).map Channel.getPriority) retry v ∧
      (∀ c, c ∈ pool ↔ c ∈ candidates parsers channels group model requestPath ∧ c.getPriority = v) ∧
      ∀ draw, getRandomSatisfiedChannel (buildCache parsers channels) group model retry requestPath draw =
        .ok (chooseWeighted pool draw) := by
  have satisfied : ∀ id, id ∈ satisfiedChannels (buildCache parsers channels) group model requestPath ↔
      ∃ c ∈ candidates parsers channels group model requestPath, c.id = id := fun id => memSatisfied unique
  have same : ∀ c ∈ channels, c.id ∈ satisfiedChannels (buildCache parsers channels) group model requestPath ↔
      c ∈ candidates parsers channels group model requestPath := by
    intro c stored
    rw [satisfied]
    constructor
    · rintro ⟨d,member,ids⟩
      exact inj_on_of_nodup_map unique (candidateStored member) stored ids ▸ member
    · intro member
      exact ⟨c,member,rfl⟩
  unfold getRandomSatisfiedChannel
  generalize satisfiedChannels (buildCache parsers channels) group model requestPath = ids at satisfied same
  rcases ids with _ | ⟨id,_ | ⟨next,rest⟩⟩
  · obtain ⟨c,member⟩ := exists_mem_of_ne_nil _ some_
    cases (satisfied c.id).mpr ⟨c,member,rfl⟩
  · -- a single id is returned without a draw, as the draw from its channel alone would be
    obtain ⟨c,member,rfl⟩ := (satisfied id).mp mem_cons_self
    have only : ∀ d, d ∈ candidates parsers channels group model requestPath ↔ d = c := by
      intro d
      constructor
      · intro inside
        have ids := mem_singleton.mp ((same d (candidateStored inside)).mpr inside)
        exact inj_on_of_nodup_map unique (candidateStored inside) (candidateStored member) ids
      · rintro rfl
        exact member
    have found : (buildCache parsers channels).channel c.id = some c := Table.lookupUnique unique (candidateStored member)
    refine ⟨c.getPriority,[c],cons_ne_nil c [],levelConstant (mem_map_of_mem member) ?_ retry,fun d => ?_,fun draw => ?_⟩
    · intro w inside
      obtain ⟨d,there,rfl⟩ := mem_map.mp inside
      rw [(only d).mp there]
    · rw [only,mem_singleton]
      exact ⟨fun here => ⟨here,here ▸ rfl⟩,fun here => here.1⟩
    obtain ⟨d,chosen⟩ := Option.isSome_iff_exists.mp (chooseWeightedSome (cons_ne_nil c []) draw)
    rw [chosen,mem_singleton.mp (chooseWeightedMem chosen)]
    simp only [found]
  obtain ⟨loaded,ok,each⟩ := @loadedChannels parsers channels unique (id::next::rest) (fun i inside => by
    obtain ⟨c,member,ids⟩ := (satisfied i).mp inside
    exact ⟨c,candidateStored member,ids⟩)
  have all : ∀ c, c ∈ loaded ↔ c ∈ candidates parsers channels group model requestPath := by
    intro c
    rw [each]
    exact ⟨fun both => (same c both.1).mp both.2,fun member => ⟨candidateStored member,(same c (candidateStored member)).mpr member⟩⟩
  have values : ∀ v, v ∈ loaded.map Channel.getPriority ↔
      v ∈ (candidates parsers channels group model requestPath).map Channel.getPriority := by
    intro v
    simp only [mem_map,all]
  obtain ⟨v,level⟩ := levelExists (fun empty => some_ (map_eq_nil_iff.mp empty)) retry
  have there : (levels (loaded.map Channel.getPriority))[min retry ((levels (loaded.map Channel.getPriority)).length - 1)]? =
      some v := levelsAt.mpr ((levelCongr values).mpr level)
  have inPool : ∀ c, c ∈ loaded.filter (fun channel => channel.getPriority = v) ↔
      c ∈ candidates parsers channels group model requestPath ∧ c.getPriority = v := by
    intro c
    rw [mem_filter,all,decide_eq_true_eq]
  have filled : loaded.filter (fun channel => channel.getPriority = v) ≠ [] := by
    obtain ⟨c,member,priority⟩ := mem_map.mp level.1
    exact ne_nil_of_mem ((inPool c).mpr ⟨member,priority⟩)
  refine ⟨v,_,filled,level,inPool,fun draw => ?_⟩
  obtain ⟨c,chosen⟩ := Option.isSome_iff_exists.mp (chooseWeightedSome filled draw)
  simp only [ok,there,chosen]

theorem memoryReturns (retry : Nat) (c) :
    (∃ draw, getRandomSatisfiedChannel (buildCache parsers channels) group model retry requestPath draw = .ok (some c)) ↔
      Offered parsers channels group model retry requestPath c := by
  by_cases some_ : candidates parsers channels group model requestPath = []
  · have nothing := (emptyAlike (fun id => @memSatisfied parsers channels group model requestPath unique id)).mpr some_
    constructor
    · rintro ⟨draw,returned⟩
      simp [getRandomSatisfiedChannel,nothing] at returned
    intro offered
    have member := offered.candidate
    rw [some_] at member
    cases member
  · obtain ⟨v,pool,filled,level,inPool,selection⟩ := memorySelection unique retry some_
    simp only [selection,Except.ok.injEq]
    rw [chooseWeightedIff filled,inPool]
    constructor
    · rintro ⟨⟨member,rfl⟩,weight⟩
      exact ⟨member,level,weight.imp id (fun zero d there priority => zero d ((inPool d).mpr ⟨there,priority⟩))⟩
    intro offered
    have priority := levelUnique offered.level level
    refine ⟨⟨offered.candidate,priority⟩,offered.weight.imp id (fun zero d there => ?_)⟩
    exact zero d ((inPool d).mp there).1 (((inPool d).mp there).2.trans priority.symm)

theorem memoryAlways (retry draw : Nat)
    (some_ : candidates parsers channels group model requestPath ≠ []) :
    ∃ c, getRandomSatisfiedChannel (buildCache parsers channels) group model retry requestPath draw = .ok (some c) := by
  obtain ⟨v,pool,filled,_,_,selection⟩ := memorySelection unique retry some_
  obtain ⟨c,chosen⟩ := Option.isSome_iff_exists.mp (chooseWeightedSome filled draw)
  exact ⟨c,by rw [selection,chosen]⟩

end Memory

def Listed (parsers : Parsers) (db : Database) (group model : String) (retry : Nat) (requestPath : String) (c : Channel) : Prop :=
  ∃ a ∈ enabledAbilities db group model, Level ((enabledAbilities db group model).map Ability.priority) retry a.priority ∧
    db.channel a.channelId = some c ∧ supportsPath parsers requestPath model c

section Stored
variable {parsers : Parsers} {db : Database} {group model requestPath : String}

theorem queryRows (queried : getChannelQuery db group model retry = .ok rows) (a) :
    a ∈ rows ↔ a ∈ enabledAbilities db group model ∧
      Level ((enabledAbilities db group model).map Ability.priority) retry a.priority := by
  unfold getChannelQuery at queried
  split at queried
  · rename_i zero
    cases queried
    subst zero
    rw [mem_filter,levelZero]
    simp only [all_eq_true,decide_eq_true_eq,mem_map,forall_exists_index,and_imp,forall_apply_eq_imp_iff₂]
    exact ⟨fun both => ⟨both.1,⟨a,both.1,rfl⟩,both.2⟩,fun both => ⟨both.1,both.2.2⟩⟩
  unfold getPriority at queried
  dsimp only at queried
  split at queried
  · cases queried
  rename_i v there
  cases queried
  have level := levelsAt.mp there
  rw [mem_filter,decide_eq_true_eq]
  exact ⟨fun both => ⟨both.1,both.2.symm ▸ level⟩,fun both => ⟨both.1,levelUnique both.2 level⟩⟩

theorem queryFails (failed : getChannelQuery db group model retry = .error message) :
    enabledAbilities db group model = [] := by
  by_contra some_
  unfold getChannelQuery at failed
  split at failed
  · cases failed
  have values : (enabledAbilities db group model).map Ability.priority ≠ [] := fun empty => some_ (map_eq_nil_iff.mp empty)
  obtain ⟨v,level⟩ := levelExists values retry
  simp only [getPriority,levelsAt.mpr level] at failed
  cases failed

theorem memFilteredAbilities :
    a ∈ filterAbilitiesByRequestPathAndModel parsers db rows requestPath model ↔
      a ∈ rows ∧ ∀ c, db.channel a.channelId = some c → supportsPath parsers requestPath model c := by
  unfold filterAbilitiesByRequestPathAndModel
  split
  · rename_i skipped
    rcases skipped with noPath | empty
    · simp [supportsPath,noPath]
    · simp [empty]
  rw [mem_filter]
  refine and_congr_right (fun _ => ?_)
  cases found : db.channel a.channelId with
  | none => simp
  | some c =>
    by_cases custom : c.channelType = channelTypeAdvancedCustom <;>
      cases config : parsers.advancedCustom c.otherSettings <;> simp_all [supportsPath]

theorem databaseReturns (retry : Nat) (c) :
    (∃ draw, getChannel parsers db group model retry requestPath draw = .ok (some c)) ↔
      Listed parsers db group model retry requestPath c := by
  cases queried : getChannelQuery db group model retry with
  | error =>
    simp only [getChannel,queried,Listed,queryFails queried,not_mem_nil,false_and,exists_false,reduceCtorEq]
  | ok rows =>
    have kept : ∀ a, a ∈ filterAbilitiesByRequestPathAndModel parsers db
        (rows.insertionSort (fun a b => b.weight ≤ a.weight)) requestPath model ↔ (a ∈ enabledAbilities db group model ∧
            Level ((enabledAbilities db group model).map Ability.priority) retry a.priority) ∧
          ∀ c, db.channel a.channelId = some c → supportsPath parsers requestPath model c := by
      intro a
      rw [memFilteredAbilities,(perm_insertionSort _ _).mem_iff,queryRows queried]
    simp only [getChannel,queried]
    generalize filterAbilitiesByRequestPathAndModel parsers db
        (rows.insertionSort (fun a b => b.weight ≤ a.weight)) requestPath model = abilities at kept
    have listed : Listed parsers db group model retry requestPath c ↔ ∃ a ∈ abilities, db.channel a.channelId = some c := by
      constructor
      · rintro ⟨a,member,level,found,supports⟩
        refine ⟨a,(kept a).mpr ⟨⟨member,level⟩,fun d there => ?_⟩,found⟩
        cases found.symm.trans there
        exact supports
      rintro ⟨a,member,found⟩
      obtain ⟨⟨enabled,level⟩,supports⟩ := (kept a).mp member
      exact ⟨a,enabled,level,found,supports c found⟩
    rw [listed]
    by_cases none_ : abilities = []
    · simp [none_]
    have positive : 0 < (abilities.map (fun ability => ability.weight + 10)).sum := by
      obtain ⟨a,member⟩ := exists_mem_of_ne_nil _ none_
      have least := le_sum_of_mem (mem_map.mpr ⟨a,member,rfl⟩ : a.weight + 10 ∈ abilities.map (fun ability => ability.weight + 10))
      omega
    simp only [if_neg none_]
    constructor
    · rintro ⟨draw,returned⟩
      split at returned
      · rename_i channel chosen
        cases returned
        obtain ⟨a,drawn,found⟩ := Option.bind_eq_some_iff.mp chosen
        exact ⟨a,(chooseAbilityIff abilities a).mp ⟨_,Nat.mod_lt _ positive,drawn⟩,found⟩
      · cases returned
    · rintro ⟨a,member,found⟩
      obtain ⟨d,bound,drawn⟩ := (chooseAbilityIff abilities a).mpr member
      refine ⟨d,?_⟩
      rw [Nat.mod_eq_of_lt bound,drawn]
      simp only [Option.bind_some,found]

theorem mirroredAbilities (mirrors : Mirrors db) :
    a ∈ enabledAbilities db group model ↔ ∃ c ∈ serving db.channels group model, a = abilityOf c group model := by
  simp only [enabledAbilities,mem_filter,mirrors a,memServing,Bool.and_eq_true,decide_eq_true_eq]
  constructor
  · rintro ⟨⟨c,stored,g,inGroup,m,inModels,rfl⟩,⟨rfl,rfl⟩,enabled⟩
    exact ⟨c,⟨stored,of_decide_eq_true enabled,inGroup,inModels⟩,rfl⟩
  · rintro ⟨c,⟨stored,enabled,inGroup,inModels⟩,rfl⟩
    exact ⟨⟨c,stored,group,inGroup,model,inModels,rfl⟩,⟨rfl,rfl⟩,decide_eq_true enabled⟩

theorem mirroredListed (unique : (db.channels.map Channel.id).Nodup) (mirrors : Mirrors db) :
    Listed parsers db group model retry requestPath c ↔ c ∈ reaching parsers db.channels group model requestPath model ∧
      Level ((serving db.channels group model).map Channel.getPriority) retry c.getPriority := by
  have values : ∀ v, v ∈ (enabledAbilities db group model).map Ability.priority ↔
      v ∈ (serving db.channels group model).map Channel.getPriority := by
    intro v
    simp only [mem_map,mirroredAbilities mirrors]
    constructor
    · rintro ⟨_,⟨c,serves,rfl⟩,rfl⟩
      exact ⟨c,serves,rfl⟩
    · rintro ⟨c,serves,rfl⟩
      exact ⟨_,⟨c,serves,rfl⟩,rfl⟩
  constructor
  · rintro ⟨a,enabled,level,found,supports⟩
    obtain ⟨d,serves,rfl⟩ := (mirroredAbilities mirrors).mp enabled
    have same : db.channel d.id = some d := Table.lookupUnique unique (memServing.mp serves).1
    cases found.symm.trans same
    exact ⟨mem_filter.mpr ⟨serves,supports⟩,(levelCongr values).mp level⟩
  · rintro ⟨reaches,level⟩
    obtain ⟨serves,supports⟩ := mem_filter.mp reaches
    exact ⟨abilityOf c group model,(mirroredAbilities mirrors).mpr ⟨c,serves,rfl⟩,(levelCongr values).mpr level,
      Table.lookupUnique unique (memServing.mp serves).1,supports⟩

end Stored

/- Nothing serves the model on the path under either name; or a channel does under the name itself, the path moves no
level, and weight tells no two channels of the level apart. -/
def Alike (parsers : Parsers) (channels : List Channel) (group model : String) (retry : Nat) (requestPath : String) : Prop :=
  (reaching parsers channels group model requestPath model = [] ∧
    reaching parsers channels group (formatMatchingModelName model) requestPath model = []) ∨
  ∃ v, Level ((reaching parsers channels group model requestPath model).map Channel.getPriority) retry v ∧
    Level ((serving channels group model).map Channel.getPriority) retry v ∧
    ((∀ c ∈ reaching parsers channels group model requestPath model, c.getPriority = v → c.getWeight = 0) ∨
      ∀ c ∈ reaching parsers channels group model requestPath model, c.getPriority = v → 0 < c.getWeight)

theorem offeredExists (retry : Nat) (some_ : candidates parsers channels group model requestPath ≠ []) :
    ∃ c, Offered parsers channels group model retry requestPath c := by
  have values : (candidates parsers channels group model requestPath).map Channel.getPriority ≠ [] :=
    fun empty => some_ (map_eq_nil_iff.mp empty)
  obtain ⟨v,level⟩ := levelExists values retry
  obtain ⟨c,member,rfl⟩ := mem_map.mp level.1
  by_cases zero : ∀ d ∈ candidates parsers channels group model requestPath, d.getPriority = c.getPriority → d.getWeight = 0
  · exact ⟨c,member,level,.inr zero⟩
  obtain ⟨d,inside,same,heavy⟩ : ∃ d ∈ candidates parsers channels group model requestPath,
      d.getPriority = c.getPriority ∧ d.getWeight ≠ 0 := by
    by_contra none_
    exact zero (fun d inside same => by_contra (fun heavy => none_ ⟨d,inside,same,heavy⟩))
  exact ⟨d,inside,same ▸ level,.inl (Nat.pos_of_ne_zero heavy)⟩

theorem mirroredAlike (unique : (db.channels.map Channel.id).Nodup) (mirrors : Mirrors db)
    (group model : String) (retry : Nat) (requestPath : String) :
    (∀ c, Offered parsers db.channels group model retry requestPath c ↔ Listed parsers db group model retry requestPath c) ↔
      Alike parsers db.channels group model retry requestPath := by
  simp only [mirroredListed unique mirrors]
  by_cases missing : reaching parsers db.channels group model requestPath model = []
  · -- the database lists nothing, so memory may not offer anything under the normalised name
    have pool : candidates parsers db.channels group model requestPath =
        reaching parsers db.channels group (formatMatchingModelName model) requestPath model := if_pos missing
    constructor
    · intro same
      refine .inl ⟨missing,?_⟩
      by_contra some_
      obtain ⟨c,offered⟩ := offeredExists retry (pool ▸ some_)
      have member := ((same c).mp offered).1
      rw [missing] at member
      cases member
    rintro (⟨_,none_⟩ | ⟨v,level,_⟩) c
    · constructor
      · intro offered
        have member := offered.candidate
        rw [pool,none_] at member
        cases member
      rintro ⟨member,_⟩
      rw [missing] at member
      cases member
    · rw [missing] at level
      cases level.1
  have pool : candidates parsers db.channels group model requestPath =
      reaching parsers db.channels group model requestPath model := if_neg missing
  constructor
  · intro same
    right
    obtain ⟨c,offered⟩ := offeredExists retry (pool.symm ▸ missing)
    have level := offered.level
    rw [pool] at level
    refine ⟨c.getPriority,level,((same c).mp offered).2,?_⟩
    rcases offered.weight with heavy | zero
    · -- a channel of no weight at the level would be listed and not offered
      right
      intro d member priority
      have listed := (same d).mpr ⟨member,priority.symm ▸ ((same c).mp offered).2⟩
      rcases listed.weight with heavier | zero
      · exact heavier
      · have none_ := zero c offered.candidate priority.symm
        omega
    · exact .inl (fun d member priority => zero d (pool ▸ member) priority)
  · rintro (⟨none_,_⟩ | ⟨v,level,served,weights⟩) c
    · exact absurd none_ missing
    constructor
    · intro offered
      have own := offered.level
      rw [pool] at own
      exact ⟨pool ▸ offered.candidate,levelUnique own level ▸ served⟩
    rintro ⟨member,own⟩
    have priority := levelUnique own served
    refine ⟨pool ▸ member,by rw [pool,priority]; exact level,?_⟩
    rcases weights with zero | heavy
    · exact .inr (fun d inside same => zero d (pool ▸ inside) (same.trans priority))
    · exact .inl (heavy c member priority)

theorem selectionAgreesIff {parsers : Parsers} {db : Database} {cache : Cache} (unique : (db.channels.map Channel.id).Nodup)
    (loaded : initChannelCache parsers db.channels (db.abilities.map Ability.group) = some cache)
    (group model : String) (retry : Nat) (requestPath : String) :
    ((∀ c, (∃ draw, getRandomSatisfiedChannel cache group model retry requestPath draw = .ok (some c)) ↔
        ∃ draw, getChannel parsers db group model retry requestPath draw = .ok (some c)) ↔
      ∀ c, Offered parsers db.channels group model retry requestPath c ↔ Listed parsers db group model retry requestPath c) ∧
    (Mirrors db → ((∀ c, Offered parsers db.channels group model retry requestPath c ↔
        Listed parsers db group model retry requestPath c) ↔ Alike parsers db.channels group model retry requestPath)) ∧
    (candidates parsers db.channels group model requestPath ≠ [] → ∀ draw, ∃ c,
      getRandomSatisfiedChannel cache group model retry requestPath draw = .ok (some c)) := by
  unfold initChannelCache at loaded
  split at loaded
  · cases loaded
    refine ⟨?_,fun mirrors => mirroredAlike unique mirrors group model retry requestPath,
      fun some_ draw => memoryAlways unique retry draw some_⟩
    simp only [memoryReturns unique,databaseReturns]
  · cases loaded

def plainParsers : Parsers := ⟨fun _ => none,fun _ => none⟩

def singleChannel (model : String) : Channel := {id := 1, models := model}

def singleDatabase (model : String) : Database := ⟨[singleChannel model],[abilityOf (singleChannel model) "default" model]⟩

theorem singleMirrors (one : (singleChannel model).modelNames = [model]) : Mirrors (singleDatabase model) := by
  have groups : (singleChannel model).groups = ["default"] := show Text.split ',' "default" = ["default"] from rfl
  intro a
  simp [singleDatabase,one,groups]

theorem singleModelAgrees : Alike plainParsers [singleChannel "gpt-4"] "default" "gpt-4" 2 "/v1/messages" ∧
    ∀ c, (∃ draw, getRandomSatisfiedChannel (buildCache plainParsers [singleChannel "gpt-4"])
        "default" "gpt-4" 2 "/v1/messages" draw = .ok (some c)) ↔
      ∃ draw, getChannel plainParsers (singleDatabase "gpt-4") "default" "gpt-4" 2 "/v1/messages" draw = .ok (some c) := by
  have alike : Alike plainParsers [singleChannel "gpt-4"] "default" "gpt-4" 2 "/v1/messages" :=
    .inr ⟨0,by decide,by decide,.inl (fun c _ _ => by simp_all [reaching,serving,enabledChannels,singleChannel,Channel.getWeight])⟩
  have loaded : initChannelCache plainParsers (singleDatabase "gpt-4").channels
      ((singleDatabase "gpt-4").abilities.map Ability.group) = some (buildCache plainParsers [singleChannel "gpt-4"]) := rfl
  have agree := selectionAgreesIff (by decide) loaded "default" "gpt-4" 2 "/v1/messages"
  exact ⟨alike,agree.1.mpr ((agree.2.1 (singleMirrors rfl)).mpr alike)⟩

theorem wildcardOnlyInMemory : Mirrors (singleDatabase "gpt-4-gizmo-*") ∧
    initChannelCache plainParsers (singleDatabase "gpt-4-gizmo-*").channels
      ((singleDatabase "gpt-4-gizmo-*").abilities.map Ability.group) =
        some (buildCache plainParsers (singleDatabase "gpt-4-gizmo-*").channels) ∧
    (∀ draw, getRandomSatisfiedChannel (buildCache plainParsers (singleDatabase "gpt-4-gizmo-*").channels)
      "default" "gpt-4-gizmo-abc" 0 "" draw = .ok (some (singleChannel "gpt-4-gizmo-*"))) ∧
    ∀ draw, getChannel plainParsers (singleDatabase "gpt-4-gizmo-*") "default" "gpt-4-gizmo-abc" 0 "" draw = .ok none :=
  ⟨singleMirrors rfl,rfl,fun _ => rfl,fun _ => rfl⟩

end Omnigate.Channels
