import Omnigate.ChannelSelection
import Omnigate.ChannelSystem

/-! How draws and turns are shared out: the draws that select each candidate of one priority, and the keys that calls
on a polling channel get in lock order. -/
namespace Omnigate.Channels

open List

def Proportional {α : Type} (entries : List α) (key : α → Int) (effective : α → Nat) (pick : Nat → Option α) : Prop :=
  (∀ r < (entries.map effective).sum, pick r ≠ none) ∧
    ∀ id, (range (entries.map effective).sum).countP (fun r => (pick r).map key = some id) =
      ((entries.filter (key · = id)).map effective).sum

theorem proportionalCons {key : α → Int} (here : ∀ r < effective a, pick r = some a)
    (later : ∀ r, pick (effective a + r) = others r) (shared : Proportional entries key effective others) :
    Proportional (a::entries) key effective pick := by
  obtain ⟨always,shares⟩ := shared
  constructor
  · intro r low
    simp only [map_cons,sum_cons] at low
    by_cases first : r < effective a
    · simp [here r first]
    obtain ⟨k,rfl⟩ := Nat.exists_eq_add_of_le (not_lt.mp first)
    rw [later]
    exact always k (by omega)
  intro id
  have mine : (range (effective a)).countP (fun r => (pick r).map key = some id) = if key a = id then effective a else 0 := by
    split
    · rename_i same
      rw [countP_eq_length.mpr,length_range]
      exact fun r low => by simp [here r (mem_range.mp low),same]
    rename_i other
    rw [countP_eq_zero]
    exact fun r low => by simp [here r (mem_range.mp low),other]
  simp only [map_cons,sum_cons,range_add,countP_append,countP_map,Function.comp_def,later,mine,shares]
  split <;> simp [*]

theorem proportionalDraws {key : α → Int} (shared : Proportional entries key effective pick)
    (same : ∀ r < (entries.map effective).sum, other r = pick r) : Proportional entries key effective other := by
  refine ⟨fun r low => ?_,fun id => ?_⟩
  · rw [same r low]
    exact shared.1 r low
  · rw [← shared.2 id]
    exact countP_congr fun r low => by rw [same r (mem_range.mp low)]

theorem chooseProportional (factor adjustment channels) :
    Proportional channels Channel.id (effectiveWeight factor adjustment)
      (fun r : Nat => chooseByWeight factor adjustment channels r) := by
  induction channels with
  | nil => exact ⟨by simp,by simp⟩
  | cons channel rest ih =>
    exact proportionalCons (fun _ => chooseHere) (fun _ => chooseLater) ih

def smoothedWeight (channels : List Channel) : Channel → Nat :=
  let sumWeight := (channels.map Channel.getWeight).sum
  if sumWeight = 0 then effectiveWeight 1 100
  else if sumWeight / channels.length < 10 then effectiveWeight 100 0
  else effectiveWeight 1 0

theorem weightedProportional (channels) :
    Proportional channels Channel.id (smoothedWeight channels) (chooseWeighted channels) := by
  have drawn : ∀ n factor adjustment, n = (channels.map (effectiveWeight factor adjustment)).sum →
      Proportional channels Channel.id (effectiveWeight factor adjustment)
        (fun r => chooseByWeight factor adjustment channels (r % n : Nat)) := by
    rintro n factor adjustment rfl
    refine proportionalDraws (chooseProportional factor adjustment channels) (fun r low => ?_)
    exact congrArg (fun r : Nat => chooseByWeight factor adjustment channels r) (Nat.mod_eq_of_lt low)
  unfold smoothedWeight chooseWeighted
  dsimp only
  split
  · rename_i zero
    exact drawn _ 1 100 (by rw [sumFactor,zero]; omega)
  split
  · exact drawn _ 100 0 (by rw [sumFactor]; omega)
  · exact drawn _ 1 0 (by rw [sumFactor]; omega)

theorem weightedIff (channels : List Channel) {abilities : List Ability} (rows : (abilities.map Ability.channelId).Nodup) :
    Proportional channels Channel.id (smoothedWeight channels) (chooseWeighted channels) ∧
      (Proportional abilities Ability.channelId (fun a => a.weight + 10) (fun r : Nat => chooseAbility abilities r) ↔
        abilities.length ≤ 1) := by
  refine ⟨weightedProportional channels,?_⟩
  rcases abilities with _ | ⟨a,_ | ⟨b,rest⟩⟩
  · exact iff_of_true ⟨by simp,by simp⟩ (by simp)
  · have none_ : Proportional [] Ability.channelId (fun a => a.weight + 10)
        (fun r => chooseAbility [a] (a.weight + 10 + r : Nat)) := ⟨by simp,by simp⟩
    exact iff_of_true (proportionalCons (fun r low => if_pos (by omega)) (fun _ => rfl) none_) le_rfl
  refine iff_of_false (fun shared => ?_) (by simp)
  have single : ((a::b::rest).filter (Ability.channelId · = a.channelId)) = [a] := by
    rw [filter_cons_of_pos (by simp),filter_eq_nil_iff.mpr]
    exact fun c member same => (nodup_cons.mp rows).1 (of_decide_eq_true same ▸ mem_map_of_mem member)
  have share := shared.2 a.channelId
  rw [single] at share
  have more : (range (a.weight + 11)).countP
      (fun r : Nat => (chooseAbility (a::b::rest) r).map Ability.channelId = some a.channelId) = a.weight + 11 := by
    rw [countP_eq_length.mpr,length_range]
    intro r low
    have first : chooseAbility (a::b::rest) r = some a := if_pos (by have := mem_range.mp low; omega)
    simp [first]
  have part : range (a.weight + 11) <+ range ((a::b::rest).map (fun a => a.weight + 10)).sum :=
    range_sublist.mpr (by simp only [map_cons,sum_cons]; omega)
  have least := more.ge.trans (part.countP_le.trans share.le)
  simp at least

def lightChannels : List Channel := [{id := 1, weight := some 3},{id := 2}]

def lightRow (channelId : Int) : Ability := ⟨"default","m",channelId,true,0,0,none⟩

theorem lightChannelsShared : Proportional lightChannels Channel.id (smoothedWeight lightChannels) (chooseWeighted lightChannels) ∧
    Proportional [lightRow 1] Ability.channelId (fun a => a.weight + 10) (fun r : Nat => chooseAbility [lightRow 1] r) := by
  have shared := @weightedIff lightChannels [lightRow 1] (by decide)
  exact ⟨shared.1,shared.2.mpr le_rfl⟩

theorem firstRowFavoured : ¬Proportional [lightRow 1,lightRow 2] Ability.channelId (fun a => a.weight + 10)
    (fun r : Nat => chooseAbility [lightRow 1,lightRow 2] r) :=
  fun shared => absurd (shared.2 1) (by decide +kernel)

/- `GetNextEnabledKey` on the cached channel reads and moves the index under the channel's lock. -/
def pollKeys (keys : List String) (info : ChannelInfo) : Nat → List Nat
  | 0 => []
  | n + 1 =>
    match pollIndex keys info.multiKeyStatusList info.multiKeyPollingIndex with
    | none => (enabledIndexes keys info.multiKeyStatusList).headD 0::pollKeys keys info n
    | some index => index::pollKeys keys {info with multiKeyPollingIndex := ((index + 1) % keys.length : Nat)} n

def clip (size : Nat) (index : Int) : Nat := if index < 0 ∨ (size : Int) ≤ index then 0 else index.toNat

def turns (keys : List String) (info : ChannelInfo) : List Nat :=
  ((range keys.length).rotate (clip keys.length info.multiKeyPollingIndex)).filter (keyEnabled info.multiKeyStatusList)

theorem turnNext {keys} (isTurns : turns keys info = index::rest) :
    pollIndex keys info.multiKeyStatusList info.multiKeyPollingIndex = some index ∧
      turns keys {info with multiKeyPollingIndex := ((index + 1) % keys.length : Nat)} = rest ++ [index] := by
  obtain ⟨skipped,later,whole,quiet,enabled,isRest⟩ := filter_eq_cons_iff.mp isTurns
  have order : (range keys.length).map (fun i => (clip keys.length info.multiKeyPollingIndex + i) % keys.length) =
      skipped ++ index::later := by
    rw [← whole]
    refine ext_getElem (by simp) (fun i _ _ => ?_)
    simp [getElem_rotate,Nat.add_comm]
  constructor
  · refine (congrArg (find? (keyEnabled info.multiKeyStatusList)) order).trans ?_
    rw [find?_append,find?_eq_none.mpr quiet,find?_cons_of_pos enabled]
    rfl
  have long : skipped.length < keys.length := by
    have := congrArg length whole
    simp at this
    omega
  have place : (clip keys.length info.multiKeyPollingIndex + skipped.length) % keys.length = index := by
    have same := congrArg (·[skipped.length]?) order
    simpa [long] using same
  have next : clip keys.length ((index + 1) % keys.length : Nat) = (index + 1) % keys.length := by
    have := Nat.mod_lt (index + 1) (Nat.zero_lt_of_lt long)
    unfold clip
    rw [if_neg (by omega),Int.toNat_natCast]
  have turned : (range keys.length).rotate ((index + 1) % keys.length) = later ++ (skipped ++ [index]) := by
    have back := rotate_append_length_eq (skipped ++ [index]) later
    rw [append_assoc,singleton_append,← whole,rotate_rotate,length_append,length_singleton,← add_assoc] at back
    rw [← back,← place,Nat.mod_add_mod]
    simpa using rotate_mod (range keys.length) (clip keys.length info.multiKeyPollingIndex + skipped.length + 1)
  rw [turns,next,turned,filter_append,isRest,filter_append,filter_eq_nil_iff.mpr quiet,nil_append,
    filter_cons_of_pos enabled]
  rfl

theorem pollTurns {keys} (isTurns : turns keys info = first ++ rest) : pollKeys keys info first.length = first := by
  induction first generalizing info rest with
  | nil => rfl
  | cons key first ih =>
    rw [cons_append] at isTurns
    obtain ⟨found,next⟩ := turnNext isTurns
    rw [append_assoc] at next
    rw [length_cons,pollKeys,found]
    exact congrArg _ (ih next)

end Omnigate.Channels
