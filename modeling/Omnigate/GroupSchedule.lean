import Omnigate.ChannelSelection
import Omnigate.GroupRetry

/-! The attempts of a request whose token retries across the auto groups, when every attempt fails and the channels of
the memory cache stay. -/
namespace Omnigate.GroupRetry

open TextQuota List Option

def attempt (b : PriceBook) (r : Request) (turn : Turn) (st : State) : List (String × Nat) :=
  match getChannel b r turn st with
  | (next,none) => if turn.bodyError.isSome then [] else [(next.group,next.channel)]
  | _ => []

def relayLoop (b : PriceBook) (t : ToolPrices) (r : Request) : Nat → State → (Nat → Turn) → Option (List (String × Nat))
  | 0,_,_ => none
  | fuel+1,st,turns =>
    match step b t r st (turns 0) with
    | none => some []
    | some next => (relayLoop b t r fuel next (fun n => turns (n+1))).map (attempt b r (turns 0) st ++ ·)

structure Supply where
  has : String → Bool
  gives : String → Nat → Nat → Prop

structure Supply.Offers (supply : Supply) (pick : Pick) : Prop where
  found : ∀ {group} k, supply.has group → ∃ channel, pick group k = .ok (some channel) ∧ supply.gives group k channel
  missing : ∀ {group} k, ¬supply.has group → ∀ channel, pick group k ≠ .ok (some channel)

def schedule (supply : Supply) (retryTimes : Nat) (groups : List String) : List (String × Nat) :=
  (groups.filter supply.has).flatMap fun group => (List.range (retryTimes + 1)).map (fun j => (group,j))

theorem scheduleHas (has : supply.has group) (n : Nat) (rest) :
    schedule supply n (group::rest) = (List.range' 0 (n+1)).map (fun j => (group,j)) ++ schedule supply n rest := by
  simp only [schedule,filter_cons_of_pos has,flatMap_cons,range_eq_range']

theorem scheduleSkips (missing : ∀ group ∈ skipped, ¬supply.has group) (n : Nat)
    (rest) : schedule supply n (skipped ++ rest) = schedule supply n rest := by
  rw [schedule,filter_append,filter_eq_nil_iff.mpr missing]
  rfl

def Supply.Fits (supply : Supply) (wanted made : String × Nat) : Prop :=
  made.1 = wanted.1 ∧ supply.gives wanted.1 wanted.2 made.2

structure Retryable (turn : Turn) : Prop where
  setup : turn.setupError = none
  body : turn.bodyError = none
  retried : ∃ failure, turn.outcome = .failed failure ∧ ∀ k : Int, 0 < k → shouldRetry failure k

structure Fails (supply : Supply) (turn : Turn) : Prop extends Retryable turn where
  offers : supply.Offers turn.pick

structure CrossGroup (r : Request) : Prop where
  auto : r.tokenGroup = "auto"
  enabled : r.autoGroupsEnabled
  cross : r.crossGroupRetry
  retries : 1 ≤ r.retryTimes

variable {b : PriceBook} {t : ToolPrices} {r : Request} {supply : Supply} {pick : Pick} {turn : Turn} {st next : State}
  {turns : Nat → Turn} {i k : Nat} {group : String} {rest : List String}

def Makes (b : PriceBook) (t : ToolPrices) (r : Request) (supply : Supply) (st : State) (turns : Nat → Turn)
    (wanted : List (String × Nat)) : Prop :=
  ∃ fuel made, relayLoop b t r fuel st turns = some made ∧ List.Forall₂ supply.Fits wanted made

theorem makesNext {wanted made} (h : step b t r st (turns 0) = some next)
    (here : List.Forall₂ supply.Fits made (attempt b r (turns 0) st))
    (later : Makes b t r supply next (fun n => turns (n+1)) wanted) : Makes b t r supply st turns (made ++ wanted) := by
  obtain ⟨fuel,_,ran,fits⟩ := later
  exact ⟨fuel+1,_,by simp [relayLoop,h,ran],rel_append here fits⟩

theorem relayLoopMore (h : relayLoop b t r fuel st turns = some made) (le : fuel ≤ more) :
    relayLoop b t r more st turns = some made := by
  induction fuel generalizing st turns made more with
  | zero => cases h
  | succ fuel ih =>
    obtain ⟨more,rfl⟩ : ∃ m, more = m + 1 := ⟨more - 1,by omega⟩
    unfold relayLoop at h ⊢
    split at h
    · exact h
    obtain ⟨_,ran,rfl⟩ := map_eq_some_iff.mp h
    rw [ih ran (by omega)]
    rfl

/- The request stands at the `i`-th auto group with the retry counter at `k`. -/
structure At (st : State) (i k : Nat) : Prop where
  trying : st.phase = .trying
  begun : st.channelMeta
  index : st.ctx.autoGroupIndex.getD 0 = i
  param : st.param = ⟨k,false⟩

theorem autoSelectStart {groups ctx param first second} (zero : param.retry = 0) :
    autoSelect r pick first i groups ctx param = autoSelect r pick second i groups ctx param := by
  induction groups generalizing i ctx param with
  | nil => rfl
  | cons _ _ ih =>
    have priority : ∀ start, (if i > start then 0 else param.retry) = 0 := by
      intro start
      split <;> omega
    unfold autoSelect
    simp only [priority]
    split
    · rfl
    · exact ih rfl

theorem gotChannel {ctx param channel} (begun : st.channelMeta) (setup : turn.setupError = none)
    (selected : cacheGetRandomSatisfiedChannel r turn.pick st.ctx st.param = (ctx,param,.ok (some channel),group)) :
    ∃ chosen, getChannel b r turn st = (chosen,none) ∧ chosen.phase = st.phase ∧ chosen.ctx = ctx ∧ chosen.param = param ∧
      chosen.group = group ∧ chosen.channel = channel := by
  unfold getChannel
  rw [if_neg (not_not.mpr begun),selected]
  simp only [setup]
  exact ⟨_,rfl,rfl,rfl,rfl,rfl,rfl⟩

theorem roundMade {chosen} (fails : Fails supply turn) (trying : st.phase = .trying)
    (got : getChannel b r turn st = (chosen,none)) (left : chosen.param.retry < r.retryTimes)
    (room : chosen.param.increaseRetry.retry ≤ r.retryTimes) :
    step b t r st turn = some {chosen with param := chosen.param.increaseRetry, channelMeta := true} ∧
      attempt b r turn st = [(chosen.group,chosen.channel)] := by
  obtain ⟨failure,outcome,retried⟩ := fails.retried
  have again : shouldRetry failure (r.retryTimes - chosen.param.retry) := retried _ (by omega)
  constructor
  · simp only [step,trying,got,fails.body,outcome,retry]
    rw [if_pos ⟨again,room⟩]
  · simp [attempt,got,fails.body]

theorem roundHere (cross : CrossGroup r) (at_ : At st i k) (fails : Fails supply turn)
    (groups : r.autoGroups.drop i = group::rest) (has : supply.has group) :
    ∃ next channel, step b t r st turn = some next ∧ attempt b r turn st = [(group,channel)] ∧
      supply.gives group k channel ∧ if k < r.retryTimes then At next i (k+1) else At next (i+1) 0 := by
  obtain ⟨channel,picked,gives⟩ := fails.offers.found k has
  have selected : cacheGetRandomSatisfiedChannel r turn.pick st.ctx st.param =
      (⟨some group,some (if k < r.retryTimes then i else i+1)⟩,if k < r.retryTimes then ⟨k,false⟩ else ⟨0,true⟩,
        .ok (some channel),group) := by
    by_cases below : k < r.retryTimes <;> simp [cacheGetRandomSatisfiedChannel,autoSelect,cross.auto,cross.enabled,
      cross.cross,at_.index,at_.param,groups,picked,below,← Nat.not_lt]
  obtain ⟨chosen,got,phase,ctx,param,rfl,rfl⟩ := @gotChannel b _ _ _ _ _ _ _ at_.begun fails.setup selected
  have trying : chosen.phase = .trying := phase.trans at_.trying
  have positive := cross.retries
  have counted : chosen.param.increaseRetry = ⟨if k < r.retryTimes then k+1 else 0,false⟩ := by
    rw [param]
    split <;> rfl
  obtain ⟨stepped,made⟩ := @roundMade b t _ _ _ _ chosen fails at_.trying got (by rw [param]; split <;> dsimp only <;> omega)
    (by rw [counted]; dsimp only; split <;> omega)
  refine ⟨_,_,stepped,made,gives,?_⟩
  by_cases below : k < r.retryTimes
  · simp only [below,if_true] at ctx counted ⊢
    exact ⟨trying,rfl,by rw [ctx]; rfl,counted⟩
  · simp only [below,if_false] at ctx counted ⊢
    exact ⟨trying,rfl,by rw [ctx]; rfl,counted⟩

/- A group without a channel is passed over in the same round, as if the request stood at the next one. -/
theorem roundSkips (cross : CrossGroup r) (at_ : At st i k) (offers : supply.Offers turn.pick)
    (groups : r.autoGroups.drop i = group::rest) (missing : ¬supply.has group) :
    getChannel b r turn st = getChannel b r turn {st with
      ctx := {st.ctx with autoGroupIndex := some (i+1)}
      param := ⟨0,false⟩} := by
  have after : r.autoGroups.drop (i+1) = rest := by
    rw [← drop_drop,groups]
    rfl
  have selected : autoSelect r turn.pick i i (group::rest) st.ctx ⟨k,false⟩ =
      autoSelect r turn.pick (i+1) (i+1) rest {st.ctx with autoGroupIndex := some (i+1)} ⟨0,false⟩ := by
    rw [← @autoSelectStart r turn.pick (i+1) rest _ ⟨0,false⟩ i (i+1) rfl,autoSelect]
    simp only [lt_irrefl,if_false]
    split
    · rename_i channel picked
      exact absurd picked (offers.missing k missing channel)
    · rfl
  have cached : cacheGetRandomSatisfiedChannel r turn.pick st.ctx st.param =
      cacheGetRandomSatisfiedChannel r turn.pick {st.ctx with autoGroupIndex := some (i+1)} ⟨0,false⟩ := by
    unfold cacheGetRandomSatisfiedChannel
    simp only [cross.auto,cross.enabled,at_.index,at_.param,groups,selected,getD_some,after,if_true,not_true_eq_false,
      if_false]
  unfold getChannel
  rw [if_neg (not_not.mpr at_.begun),if_neg (not_not.mpr at_.begun),cached]

theorem loopSkips (cross : CrossGroup r) (at_ : At st i k) (fails : ∀ n, Fails supply (turns n))
    (groups : r.autoGroups.drop i = group::rest) (missing : ¬supply.has group) (later : ∀ st', At st' (i+1) 0 → Makes b t r supply st' turns wanted) : Makes b t r supply st turns wanted := by
  have same := @roundSkips b r supply (turns 0) st i k group rest cross at_ (fails 0).offers groups missing
  obtain ⟨fuel,made,ran,fits⟩ := later {st with ctx := {st.ctx with autoGroupIndex := some (i+1)}, param := ⟨0,false⟩}
    ⟨at_.trying,at_.begun,rfl,rfl⟩
  refine ⟨fuel,made,?_,fits⟩
  cases fuel with
  | zero => cases ran
  | succ => simpa only [relayLoop,step,attempt,← same] using ran

theorem loopGroup (cross : CrossGroup r) (at_ : At st i k) (fails : ∀ n, Fails supply (turns n)) (le : k ≤ r.retryTimes)
    (groups : r.autoGroups.drop i = group::rest) (has : supply.has group) {wanted}
    (later : ∀ st turns, At st (i+1) 0 → (∀ n, Fails supply (turns n)) → Makes b t r supply st turns wanted) :
    Makes b t r supply st turns ((List.range' k (r.retryTimes + 1 - k)).map (fun j => (group,j)) ++ wanted) := by
  obtain ⟨left,_⟩ : ∃ left, r.retryTimes = k + left := ⟨r.retryTimes - k,by omega⟩
  induction left generalizing st turns k with
  | zero =>
    obtain ⟨next,channel,stepped,made,gives,goes⟩ := @roundHere b t _ _ _ _ _ _ _ _ cross at_ (fails 0) groups has
    rw [if_neg (by omega)] at goes
    rw [show r.retryTimes + 1 - k = 1 by omega]
    refine makesNext stepped ?_ (later next _ goes (fun n => fails (n+1)))
    rw [made]
    exact .cons ⟨rfl,gives⟩ .nil
  | succ left ih =>
    obtain ⟨next,channel,stepped,made,gives,goes⟩ := @roundHere b t _ _ _ _ _ _ _ _ cross at_ (fails 0) groups has
    rw [if_pos (by omega)] at goes
    rw [show r.retryTimes + 1 - k = (r.retryTimes + 1 - (k+1)) + 1 by omega,List.range'_succ]
    refine @makesNext b t r supply st next turns _ [(group,k)] stepped ?_ (ih goes (fun n => fails (n+1)) (by omega) (by omega))
    rw [made]
    exact .cons ⟨rfl,gives⟩ .nil

theorem loopGroups (cross : CrossGroup r) (at_ : At st i k) (fails : ∀ n, Fails supply (turns n)) {groups}
    (ahead : r.autoGroups.drop i = groups) (entry : k = 0 ∨ ∀ group rest, groups = group::rest → ¬supply.has group) :
    Makes b t r supply st turns (schedule supply r.retryTimes groups) := by
  induction groups generalizing i k st turns with
  | nil =>
    refine ⟨2,[],?_,.nil⟩
    have nothing : cacheGetRandomSatisfiedChannel r (turns 0).pick st.ctx st.param = (st.ctx,st.param,.ok none,r.tokenGroup) := by
      simp [cacheGetRandomSatisfiedChannel,autoSelect,cross.auto,cross.enabled,at_.index,ahead]
    simp [relayLoop,step,attempt,at_.trying,getChannel,at_.begun,nothing]
  | cons group rest ih =>
    have after : r.autoGroups.drop (i+1) = rest := by
      rw [← drop_drop,ahead]
      rfl
    by_cases has : supply.has group
    · have zero : k = 0 := entry.resolve_right (fun missing => missing group rest rfl has)
      subst zero
      rw [scheduleHas has]
      exact loopGroup cross at_ fails (Nat.zero_le _) ahead has (fun st turns at_ fails => ih at_ fails after (.inl rfl))
    · rw [← singleton_append,scheduleSkips (by simpa using has)]
      exact loopSkips cross at_ fails ahead has (fun _ at' => ih at' fails after (.inl rfl))

theorem selectFirst {start}
    (offers : supply.Offers pick) (positive : 1 ≤ r.retryTimes) (zero : param.retry = 0)
    (h : autoSelect r pick start i groups ctx param = (ctx',param',some (channel,group))) :
    ∃ skipped rest, groups = skipped ++ group::rest ∧ (∀ g ∈ skipped, ¬supply.has g) ∧ supply.has group ∧
      supply.gives group 0 channel ∧ ctx'.autoGroupIndex = some (i + skipped.length) := by
  induction groups generalizing i ctx param with
  | nil => cases h
  | cons first rest ih =>
    have priority : (if i > start then 0 else param.retry) = 0 := by split <;> omega
    simp only [autoSelect,priority] at h
    by_cases has : supply.has first
    · obtain ⟨found,picked,gives⟩ := offers.found 0 has
      rw [picked] at h
      dsimp only at h
      rw [if_neg (fun both => absurd both.2 (by omega))] at h
      cases h
      exact ⟨[],rest,rfl,by simp,has,gives,rfl⟩
    · split at h
      · rename_i found picked
        exact absurd picked (offers.missing 0 has found)
      obtain ⟨skipped,later,rfl,missing,facts⟩ := ih rfl h
      refine ⟨first::skipped,later,rfl,forall_mem_cons.mpr ⟨has,missing⟩,facts.1,facts.2.1,?_⟩
      rw [facts.2.2,length_cons,Nat.add_right_comm,Nat.add_assoc]

/- A channel that the distributor does not select: the one of the token, or the one kept for the client. -/
def chosenBefore (r : Request) (arrival : Arrival) : Option (String × Nat) :=
  match arrival.specificChannel with
  | some channel => some (r.tokenGroup,channel)
  | none => (preferredChannel r arrival).map (fun found => (found.2.2,found.2.1))

theorem preferredIndex (h : preferredChannel r arrival = some found) : found.1.autoGroupIndex = none := by
  obtain ⟨_,_,found⟩ := bind_eq_some_iff.mp h
  dsimp only at found
  split at found
  · obtain ⟨_,_,rfl⟩ := map_eq_some_iff.mp found
    rfl
  · split at found <;> cases found
    rfl

theorem startState (h : start b r arrival promptTokens tokenMeta trusted = some st) :
    distribute r arrival = some (st.ctx,st.channel,st.group) ∧ st.phase = .trying ∧ st.channelMeta = false ∧ st.param = {} := by
  unfold start at h
  split at h
  · cases h
  rename_i found
  dsimp only at h
  split at h <;> cases h
  exact ⟨found,rfl,rfl,rfl⟩

theorem roundFirst (cross : CrossGroup r) (trying : st.phase = .trying) (fresh : st.channelMeta = false) (param : st.param = {})
    (fails : Fails supply turn) :
    ∃ next, step b t r st turn = some next ∧ attempt b r turn st = [(st.group,st.channel)] ∧
      At next (st.ctx.autoGroupIndex.getD 0) 1 := by
  have got : getChannel b r turn st = (st,none) := by simp [getChannel,fresh]
  have counted : st.param.increaseRetry = ⟨1,false⟩ := by rw [param]; rfl
  obtain ⟨stepped,made⟩ := @roundMade b t _ _ _ _ st fails trying got (by rw [param]; exact cross.retries)
    (by rw [counted]; exact cross.retries)
  exact ⟨_,stepped,made,trying,rfl,rfl,counted⟩

theorem loopFirst (cross : CrossGroup r) (trying : st.phase = .trying) (fresh : st.channelMeta = false) (param : st.param = {})
    (fails : ∀ n, Fails supply (turns n)) (groups : r.autoGroups.drop (st.ctx.autoGroupIndex.getD 0) = st.group::rest)
    (has : supply.has st.group) (gives : supply.gives st.group 0 st.channel) :
    Makes b t r supply st turns (schedule supply r.retryTimes (st.group::rest)) := by
  obtain ⟨next,stepped,made,at_⟩ := @roundFirst b t _ _ _ _ cross trying fresh param (fails 0)
  have after : r.autoGroups.drop (st.ctx.autoGroupIndex.getD 0 + 1) = rest := by
    rw [← drop_drop,groups]
    rfl
  have later := @loopGroup b t _ _ _ _ _ _ _ _ cross at_ (fun n => fails (n+1)) cross.retries groups has _
    (fun st turns at_ fails => loopGroups cross at_ fails after (.inl rfl))
  rw [scheduleHas has,List.range'_succ]
  refine @makesNext b t r supply st next turns _ [(st.group,0)] stepped ?_ later
  rw [made]
  exact .cons ⟨rfl,gives⟩ .nil

theorem makesOnce (h : Makes b t r supply st turns wanted)
    (ran : relayLoop b t r fuel st turns = some made) : List.Forall₂ supply.Fits wanted made := by
  obtain ⟨fuel',_,ran',fits⟩ := h
  have more := relayLoopMore ran (Nat.le_max_left fuel fuel')
  have more' := relayLoopMore ran' (Nat.le_max_right fuel fuel')
  cases more.symm.trans more'
  exact fits

theorem scheduleIff {arrival} (cross : CrossGroup r) (offers : supply.Offers arrival.pick)
    (h : start b r arrival promptTokens tokenMeta trusted = some st) (fails : ∀ n, Fails supply (turns n)) :
    Makes b t r supply st turns (schedule supply r.retryTimes r.autoGroups) ↔
      ∀ group channel, chosenBefore r arrival = some (group,channel) →
        r.autoGroups.head? = some group ∧ supply.has group ∧ supply.gives group 0 channel := by
  obtain ⟨distributed,trying,fresh,param⟩ := startState h
  cases before : chosenBefore r arrival with
  | none =>
    refine iff_of_true ?_ (fun _ _ wrong => by cases wrong)
    unfold chosenBefore at before
    unfold distribute at distributed
    split at before
    · cases before
    rename_i none_
    rw [none_,map_eq_none_iff.mp before] at distributed
    dsimp only at distributed
    split at distributed <;> cases distributed
    rename_i selected
    simp only [cacheGetRandomSatisfiedChannel,cross.auto,cross.enabled,if_true,not_true_eq_false,if_false,
      getD_none,drop_zero] at selected
    split at selected <;> cases selected
    rename_i found
    obtain ⟨_,rest,groups,missing,has,gives,index⟩ := selectFirst offers cross.retries rfl found
    rw [Nat.zero_add] at index
    have schedules := scheduleSkips missing r.retryTimes (st.group::rest)
    rw [← groups] at schedules
    rw [schedules]
    refine loopFirst cross trying fresh param fails ?_ has gives
    rw [index,groups]
    exact drop_left
  | some chosen =>
    have taken : st.ctx.autoGroupIndex = none ∧ chosen = (st.group,st.channel) := by
      unfold chosenBefore at before
      unfold distribute at distributed
      split at before
      · rename_i specific
        rw [specific] at distributed
        cases before
        simp only [Option.some.injEq,Prod.mk.injEq] at distributed
        obtain ⟨ctx,rfl,group⟩ := distributed
        exact ⟨by rw [← ctx],by rw [group]⟩
      rename_i none_
      obtain ⟨found,preferred,rfl⟩ := map_eq_some_iff.mp before
      rw [none_,preferred] at distributed
      cases distributed
      exact ⟨preferredIndex preferred,rfl⟩
    obtain ⟨index,rfl⟩ := taken
    constructor
    · rintro makes _ _ ⟨⟩
      obtain ⟨_,stepped,made,at_⟩ := @roundFirst b t _ _ _ _ cross trying fresh param (fails 0)
      rw [index] at at_
      obtain ⟨fuel,_,ran,fits⟩ := makes
      cases fuel with
      | zero => cases ran
      | succ =>
        simp only [relayLoop,stepped,made] at ran
        obtain ⟨_,ranLater,rfl⟩ := map_eq_some_iff.mp ran
        by_cases head : ∃ first rest, r.autoGroups = first::rest ∧ supply.has first
        · obtain ⟨first,rest,groups,has⟩ := head
          rw [groups,scheduleHas has,List.range'_succ] at fits
          cases fits with
          | cons fit =>
            obtain ⟨same,gives⟩ := fit
            dsimp only at same gives
            rw [groups,same]
            exact ⟨rfl,has,gives⟩
        -- the first group is passed over, so that the whole schedule comes after this attempt
        have later := @loopGroups b t r supply _ _ _ _ cross at_ (fun n => fails (n+1)) _ rfl
          (.inr fun first rest groups has => head ⟨first,rest,groups,has⟩)
        have longer := (makesOnce later ranLater).length_eq
        have same := fits.length_eq
        simp at longer same
        omega
    · intro first
      obtain ⟨head,has,gives⟩ := first _ _ rfl
      cases groups : r.autoGroups with
      | nil => rw [groups] at head; cases head
      | cons =>
        rw [groups] at head
        cases head
        exact loopFirst cross trying fresh param fails (by rw [index,groups]; rfl) has gives

section Memory
variable (parsers : Channels.Parsers) (channels : List Channels.Channel) (model requestPath : String)

def memoryPick (draw : Nat) : Pick := fun group k =>
  (Channels.getRandomSatisfiedChannel (Channels.buildCache parsers channels) group model k requestPath draw).map
    (Option.map fun channel => channel.id.toNat)

/- A group has the channels that serve the model on the path, and gives those at the wanted level of priority. -/
def memorySupply : Supply where
  has group := Channels.candidates parsers channels group model requestPath ≠ []
  gives group k id := ∃ channel ∈ Channels.candidates parsers channels group model requestPath, channel.id.toNat = id ∧
    Ranking.Level ((Channels.candidates parsers channels group model requestPath).map Channels.Channel.getPriority) k
      channel.getPriority

theorem memoryOffers (unique : (channels.map Channels.Channel.id).Nodup) (draw : Nat) :
    (memorySupply parsers channels model requestPath).Offers (memoryPick parsers channels model requestPath draw) where
  found := by
    intro group k has
    obtain ⟨channel,selected⟩ := Channels.memoryAlways unique k draw (of_decide_eq_true has)
    have offered := (Channels.memoryReturns unique k channel).mp ⟨draw,selected⟩
    exact ⟨channel.id.toNat,by rw [memoryPick,selected]; rfl,channel,offered.candidate,rfl,offered.level⟩
  missing := by
    intro group k missing id picked
    unfold memoryPick at picked
    cases selected : Channels.getRandomSatisfiedChannel (Channels.buildCache parsers channels) group model k requestPath draw with
    | error => rw [selected] at picked; cases picked
    | ok found =>
      rw [selected] at picked
      cases found with
      | none => cases picked
      | some channel =>
        have offered := (Channels.memoryReturns unique k channel).mp ⟨draw,selected⟩
        exact missing (decide_eq_true (ne_nil_of_mem offered.candidate))

end Memory

theorem crossGroupScheduleIff {parsers : Channels.Parsers} {channels : List Channels.Channel} {requestPath : String}
    (unique : (channels.map Channels.Channel.id).Nodup) {arrival promptTokens tokenMeta trusted} (cross : CrossGroup r)
    (first : ∃ draw, arrival.pick = memoryPick parsers channels r.modelName requestPath draw)
    (h : start b r arrival promptTokens tokenMeta trusted = some st)
    (picks : ∀ n, ∃ draw, (turns n).pick = memoryPick parsers channels r.modelName requestPath draw)
    (retryable : ∀ n, Retryable (turns n)) :
    Makes b t r (memorySupply parsers channels r.modelName requestPath) st turns
        (schedule (memorySupply parsers channels r.modelName requestPath) r.retryTimes r.autoGroups) ↔
      ∀ group channel, chosenBefore r arrival = some (group,channel) → r.autoGroups.head? = some group ∧
        (memorySupply parsers channels r.modelName requestPath).has group ∧
        (memorySupply parsers channels r.modelName requestPath).gives group 0 channel := by
  obtain ⟨draw,picked⟩ := first
  refine scheduleIff cross (picked ▸ memoryOffers parsers channels r.modelName requestPath unique draw) h (fun n => ?_)
  obtain ⟨draw,picked⟩ := picks n
  exact ⟨retryable n,picked ▸ memoryOffers parsers channels r.modelName requestPath unique draw⟩

def twoChannels : List Channels.Channel :=
  [{id := 1, group := "default", models := "gpt"},{id := 2, group := "vip", models := "gpt"}]

def twoGroups : Supply := memorySupply Channels.plainParsers twoChannels "gpt" ""

def twoGroupsPick : Pick := memoryPick Channels.plainParsers twoChannels "gpt" "" 0

def badGateway : Turn := ⟨twoGroupsPick,none,none,.failed {message := "bad gateway"}⟩

theorem twoGroupsInTurn : ∃ st, start ratioBook autoRequest ⟨none,none,twoGroupsPick⟩ 1000 {} false = some st ∧
    Makes ratioBook toolPrices autoRequest twoGroups st (fun _ => badGateway) (schedule twoGroups 1 ["default","vip"]) := by
  have begun : (start ratioBook autoRequest ⟨none,none,twoGroupsPick⟩ 1000 {} false).isSome := by decide +kernel
  obtain ⟨st,started⟩ := isSome_iff_exists.mp begun
  have retryable : Retryable badGateway := ⟨rfl,rfl,_,rfl,fun k positive => by simp [shouldRetry,not_le.mpr positive]⟩
  exact ⟨st,started,(crossGroupScheduleIff (by decide) ⟨rfl,rfl,rfl,le_refl _⟩ ⟨0,rfl⟩ started (fun _ => ⟨0,rfl⟩)
    (fun _ => retryable)).mpr (fun _ _ chosen => by cases chosen)⟩

theorem preferredOutOfTurn :
    (start ratioBook autoRequest ⟨none,some (2,fun group => group = "vip"),twoGroupsPick⟩ 1000 {} false).bind (fun st =>
      relayLoop ratioBook toolPrices autoRequest 6 st (fun _ => badGateway)) =
        some [("vip",2),("default",1),("vip",2),("vip",2)] ∧
    schedule twoGroups 1 ["default","vip"] = [("default",0),("default",1),("vip",0),("vip",1)] ∧
    ¬List.Forall₂ twoGroups.Fits (schedule twoGroups 1 ["default","vip"]) [("vip",2),("default",1),("vip",2),("vip",2)] := by
  have wanted : schedule twoGroups 1 ["default","vip"] = [("default",0),("default",1),("vip",0),("vip",1)] := by decide +kernel
  refine ⟨by decide +kernel,wanted,fun fits => ?_⟩
  cases fits with
  | cons fit => exact absurd fit.1 (by decide)

end Omnigate.GroupRetry
