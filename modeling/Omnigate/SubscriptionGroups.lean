import Omnigate.Machine
import Omnigate.SubscriptionLedger

/-! The group of a user over purchases, expiries, cancellations and deletions of subscriptions that raise it. Each
event is one transaction with its own faults; an expiry is that of one user in a pass of ExpireDueSubscriptions.
Purchase and pass take their time from the database clock, which does not run backwards; the admin functions take any
time. -/
namespace Omnigate.SubscriptionGroups

open Machine SubscriptionPlan SubscriptionStore SubscriptionLedger Table Text Transaction List Option

structure Setup where
  cal : Calendar
  later : ∀ start plan endUnix, calcPlanEndTime cal start plan = .ok endUnix → start < endUnix

structure State where
  db : Db
  clock : Int
  deriving DecidableEq, Repr

inductive Event where
  | purchase (userId : Int) (plan : Plan) (source : String) (now : Int) (faults : List (Option String))
  | expire (userId now : Int) (faults : List (Option String))
  | cancel (userSubscriptionId now : Int) (faults : List (Option String))
  | delete (userSubscriptionId now : Int) (faults : List (Option String))
  deriving DecidableEq, Repr

def step (cfg : Setup) (st : State) : Event → Option State
  | .purchase userId plan source now faults =>
    if now < st.clock then none
    else some ⟨(atomically (createUserSubscriptionFromPlanTx cfg.cal userId plan source now) faults st.db).2,now⟩
  | .expire userId now faults => some ⟨(expireUser userId now faults st.db).2.2,max st.clock now⟩
  | .cancel id now faults => some ⟨(adminInvalidateUserSubscription id now faults st.db).2,st.clock⟩
  | .delete id now faults => some ⟨(adminDeleteUserSubscription id now faults st.db).2,st.clock⟩

def userGroup (db : Db) (userId : Int) : Option String := (lookup UserGroup.userId userId db.users).map UserGroup.group

def holdsActive (db : Db) (userId : Int) : Bool := db.subs.any (fun sub => sub.userId = userId ∧ sub.status = .active)

def upgrading (userId : Int) : Event → Prop
  | .purchase buyer plan _ _ _ => buyer = userId → trimSpace plan.upgradeGroup ≠ "" ∧ trimSpace plan.downgradeGroup = ""
  | _ => True

/- The user buys only without an active subscription, and the expiry's query for the last expired one does not fail.
-/
def careful (userId : Int) (st : State) : Event → Bool
  | .purchase buyer _ _ _ _ => buyer = userId → holdsActive st.db userId = false
  | .expire owner _ faults => owner = userId → (faults[2]?).join = none
  | _ => true

structure Remembers (home : String) (sub : UserSubscription) : Prop where
  plain : trimSpace sub.downgradeGroup = ""
  raises : sub.upgradeGroup ≠ ""
  trimmed : trimSpace sub.upgradeGroup = sub.upgradeGroup
  prev : sub.upgradeGroup = home ∧ trimSpace sub.prevUserGroup = "" ∨
    sub.upgradeGroup ≠ home ∧ trimSpace sub.prevUserGroup = home

theorem groupSet (db owner group userId) :
    userGroup {db with users := updateWhere (fun u => u.userId = owner) (fun u => {u with group := group}) db.users}
      userId = if userId = owner then (userGroup db userId).map (fun _ => group) else userGroup db userId := by
  have stable : ∀ u : UserGroup, ({u with group := group} : UserGroup).userId = u.userId := fun _ => rfl
  unfold userGroup
  rw [lookupUpdateKey stable]
  by_cases same : userId = owner <;> simp [same,Function.comp_def]

theorem moveGroup (h : moveToGroup owner current target v = .ok (t,v')) (userId) :
    userGroup v'.db userId = if userId = owner ∧ target ≠ "" ∧ target ≠ current
      then (userGroup v.db userId).map (fun _ => target) else userGroup v.db userId := by
  unfold moveToGroup at h
  split at h
  · rename_i idle
    cases h
    rw [if_neg (fun moves => idle.elim moves.2.1 moves.2.2)]
  rename_i moves
  obtain ⟨u,m,ran,last⟩ := bindOk h
  cases last
  rw [execOk ran,groupSet]
  have goes : target ≠ "" ∧ target ≠ current := not_or.mp moves
  by_cases same : userId = owner <;> simp [same,goes]

theorem readGroup (h : getUserGroupByIdTx owner v = .ok (current,v')) :
    current = (userGroup v.db owner).getD "" ∧ v'.db = v.db := by
  unfold getUserGroupByIdTx at h
  split at h
  · cases h
  · exact queryOk h

theorem backHome (remembers : Remembers home sub) (named : home ≠ "") (isGroup : userGroup v.db owner = some group)
    (isTarget : target = "" ∧ (group = sub.upgradeGroup → trimSpace sub.prevUserGroup = "") ∨
      target = trimSpace sub.prevUserGroup ∧ group = sub.upgradeGroup)
    (h : moveToGroup owner group target v = .ok (t,v')) :
    ∃ after, userGroup v'.db owner = some after ∧ (after = group ∨ after = home) ∧ (group = home → after = home) ∧
      (group = sub.upgradeGroup → after = home) := by
  have moved := moveGroup h owner
  rw [isGroup] at moved
  simp only [true_and,map_some] at moved
  rcases remembers.prev with ⟨isHome,noPrev⟩ | ⟨notHome,isPrev⟩
  · -- the row did not raise the user, so there is nothing to go back to
    have noTarget : target = "" := by
      rcases isTarget with ⟨nothing,_⟩ | ⟨prev,_⟩
      · exact nothing
      · exact prev.trans noPrev
    rw [if_neg (fun goes => goes.1 noTarget)] at moved
    exact ⟨group,moved,.inl rfl,id,fun own => own.trans isHome⟩
  rcases isTarget with ⟨nothing,unused⟩ | ⟨prev,own⟩
  · rw [if_neg (fun goes => goes.1 nothing)] at moved
    exact ⟨group,moved,.inl rfl,id,fun own => absurd (isPrev.symm.trans (unused own)) named⟩
  have goes : target ≠ "" ∧ target ≠ group := by
    rw [prev,isPrev,own]
    exact ⟨named,Ne.symm notHome⟩
  rw [if_pos goes] at moved
  exact ⟨target,moved,.inr (prev.trans isPrev),fun _ => prev.trans isPrev,fun _ => prev.trans isPrev⟩

variable {subs : List UserSubscription}

theorem latestMember (h : latest subs = some sub) : sub ∈ subs := by
  exact (mem_insertionSort _).mp (mem_of_head? h)

instance : Std.Total (fun a b : UserSubscription => endsBefore b a = true) :=
  ⟨fun a b => by simp only [endsBefore,decide_eq_true_eq]; omega⟩

instance : IsTrans UserSubscription (fun a b => endsBefore b a = true) :=
  ⟨fun a b c left right => by simp only [endsBefore,decide_eq_true_eq] at left right ⊢; omega⟩

theorem latestMax (h : latest subs = some sub) : ∀ other ∈ subs, endsBefore other sub := by
  intro other member
  have ordered := pairwise_insertionSort (fun a b : UserSubscription => endsBefore b a = true) subs
  have inside := (mem_insertionSort (fun a b : UserSubscription => endsBefore b a = true)).mpr member
  unfold latest at h
  cases sorted : subs.insertionSort (fun a b => endsBefore b a = true) with
  | nil => rw [sorted] at inside; cases inside
  | cons =>
    rw [sorted] at h inside ordered
    cases h
    rcases mem_cons.mp inside with rfl | later
    · simp [endsBefore]
    · exact rel_of_pairwise_cons ordered later

theorem latestNone (h : latest subs = none) : subs = [] := by
  unfold latest at h
  rw [List.head?_eq_none_iff] at h
  rw [← length_eq_zero_iff,← length_insertionSort (fun a b => endsBefore b a = true),h]
  rfl

theorem otherUpgrade (h : hasOtherUpgrade sub now v = .ok (other,v')) :
    v'.db = v.db ∧ (other = true → ∃ s ∈ v.db.subs, s.userId = sub.userId ∧ s.status = .active ∧ s.id ≠ sub.id) := by
  obtain ⟨_,m,ran,last⟩ := bindOk h
  obtain ⟨same,_,result⟩ := attemptQuery ran
  cases last
  refine ⟨same,fun isOther => ?_⟩
  split at isOther
  · rename_i s
    rcases result with answer | ⟨e,_,failed,_⟩
    · have member := latestMember (Except.ok.inj answer).symm
      simp only [mem_filter,isActive,decide_eq_true_eq,Bool.decide_and,Bool.and_eq_true] at member
      exact ⟨s,member.1,member.2.1,member.2.2.1.1,member.2.2.2.1⟩
    · cases failed
  · cases isOther

section

variable (h : downgradeUserGroupForSubscriptionTx sub now v = .ok (t,v'))

include h

theorem downgradeCases :
    (v'.db = v.db ∧ (trimSpace sub.upgradeGroup = "" ∨
        ∃ s ∈ v.db.subs, s.userId = sub.userId ∧ s.status = .active ∧ s.id ≠ sub.id)) ∨
      ∃ m, m.db = v.db ∧ moveToGroup sub.userId ((userGroup v.db sub.userId).getD "")
        (downgradeTarget sub ((userGroup v.db sub.userId).getD "")) m = .ok (t,v') := by
  unfold downgradeUserGroupForSubscriptionTx at h
  split at h
  · rename_i nothing
    cases h
    exact .inl ⟨rfl,.inl nothing.2⟩
  obtain ⟨_,m,read,rest⟩ := bindOk h
  obtain ⟨isCurrent,same⟩ := readGroup read
  obtain ⟨_,n,asked,last⟩ := bindOk rest
  obtain ⟨still,isOther⟩ := otherUpgrade asked
  split at last
  · rename_i found
    cases last
    rw [still,same]
    rw [same] at isOther
    exact .inl ⟨rfl,.inr (isOther found)⟩
  · rw [isCurrent] at last
    exact .inr ⟨n,still.trans same,last⟩

theorem downgradeFrame :
    v'.db.subs = v.db.subs ∧ v'.db.nextId = v.db.nextId ∧
      ∀ userId, userId ≠ sub.userId → userGroup v'.db userId = userGroup v.db userId := by
  have rows := keepsDowngrade sub now (fun subs _ nextId => subs = v.db.subs ∧ nextId = v.db.nextId) v t v'
    ⟨rfl,rfl⟩ h
  refine ⟨rows.1,rows.2,fun userId other => ?_⟩
  rcases downgradeCases h with ⟨same,_⟩ | ⟨m,same,moved⟩
  · rw [same]
  · rw [moveGroup moved,if_neg (fun goes => other goes.1),same]

end

theorem downgradeHome (remembers : Remembers home sub) (named : home ≠ "")
    (isGroup : userGroup v.db sub.userId = some group)
    (h : downgradeUserGroupForSubscriptionTx sub now v = .ok (t,v')) :
    ∃ after, userGroup v'.db sub.userId = some after ∧ (after = group ∨ after = home) ∧ (group = home → after = home) ∧
      ((∀ s ∈ v.db.subs, s.userId = sub.userId → s.status = .active → s.id = sub.id) →
        group = sub.upgradeGroup → after = home) := by
  rcases downgradeCases h with ⟨same,reason⟩ | ⟨m,same,moved⟩
  · rw [same]
    refine ⟨group,isGroup,.inl rfl,id,fun alone _ => ?_⟩
    rcases reason with blank | ⟨s,member,sameUser,active,other⟩
    · exact absurd (remembers.trimmed.symm.trans blank) remembers.raises
    · exact absurd (alone s member sameUser active) other
  rw [isGroup,getD_some] at moved
  have stays : userGroup m.db sub.userId = some group := by rw [same]; exact isGroup
  obtain ⟨after,isAfter,either,home',back⟩ := backHome remembers named stays (by
    unfold downgradeTarget
    rw [if_neg (not_not.mpr remembers.plain),remembers.trimmed]
    split
    · rename_i other
      exact .inl ⟨rfl,fun own => absurd own other⟩
    · rename_i own
      exact .inr ⟨rfl,not_not.mp own⟩) moved
  exact ⟨after,isAfter,either,home',fun _ => back⟩

theorem revertCases (h : revertExpiredGroup userId now v = .ok (t,v')) :
    (v'.db = v.db ∧ ((∃ s ∈ v.db.subs, s.userId = userId ∧ s.status = .active) ∨ (v.faults[1]?).join ≠ none ∨
        ∀ s ∈ v.db.subs, s.userId = userId → s.status = .expired → s.upgradeGroup = "")) ∨
      ∃ m, ∃ last ∈ v.db.subs, m.db = v.db ∧ last.userId = userId ∧ last.status = .expired ∧
        (∀ s ∈ v.db.subs, s.userId = userId → s.status = .expired → s.upgradeGroup ≠ "" → endsBefore s last) ∧
        moveToGroup userId ((userGroup v.db userId).getD "")
          (expiredTarget last ((userGroup v.db userId).getD "")) m = .ok (t,v') := by
  unfold revertExpiredGroup at h
  obtain ⟨active,m,asked,rest⟩ := bindOk h
  obtain ⟨same,script,isActive'⟩ := attemptQuery asked
  split at rest
  · rename_i s
    cases rest
    refine .inl ⟨same,.inl ?_⟩
    rcases isActive' with answer | ⟨e,_,failed,_⟩
    · have member := latestMember (Except.ok.inj answer).symm
      simp only [mem_filter,isActive,decide_eq_true_eq,Bool.decide_and,Bool.and_eq_true] at member
      exact ⟨s,member.1,member.2.1,member.2.2.1.1⟩
    · cases failed
  obtain ⟨expired,n,queried,finish⟩ := bindOk rest
  obtain ⟨still,_,isExpired⟩ := attemptQuery queried
  rw [same] at isExpired
  split at finish
  · rename_i last
    rcases isExpired with answer | ⟨e,_,failed,_⟩
    · have isLast := (Except.ok.inj answer).symm
      have member := latestMember isLast
      have most := latestMax isLast
      simp only [mem_filter,decide_eq_true_eq,Bool.decide_and,Bool.and_eq_true] at member
      obtain ⟨_,k,read,moved⟩ := bindOk finish
      obtain ⟨isCurrent,unchanged⟩ := readGroup read
      rw [still,same] at isCurrent
      rw [isCurrent] at moved
      refine .inr ⟨k,last,member.1,unchanged.trans (still.trans same),member.2.1,member.2.2.1,?_,moved⟩
      intro s inside owner ended raises
      refine most s ?_
      simp only [mem_filter,decide_eq_true_eq,Bool.decide_and,Bool.and_eq_true]
      exact ⟨inside,owner,ended,by simp [raises]⟩
    · cases failed
  rename_i nothing
  cases finish
  refine .inl ⟨still.trans same,.inr ?_⟩
  rcases isExpired with answer | ⟨e,e',failed,fault⟩
  · cases found : latest (v.db.subs.filter (fun s =>
        s.userId = userId ∧ s.status = .expired ∧ (s.downgradeGroup ≠ "" ∨ s.upgradeGroup ≠ ""))) with
    | some last => rw [found] at answer; exact absurd answer (nothing last)
    | none =>
      refine .inr (fun s inside owner ended => ?_)
      by_contra raises
      have empty := latestNone found
      have member : s ∈ v.db.subs.filter (fun s =>
          s.userId = userId ∧ s.status = .expired ∧ (s.downgradeGroup ≠ "" ∨ s.upgradeGroup ≠ "")) := by
        simp only [mem_filter,decide_eq_true_eq]
        exact ⟨inside,owner,ended,.inr raises⟩
      rw [empty] at member
      cases member
  · refine .inl ?_
    rw [script] at fault
    have at1 : v.faults[1]? = some (some e') := by
      rw [← fault,List.head?_eq_getElem?,List.getElem?_tail]
    rw [at1]
    simp

theorem revertFrame (h : revertExpiredGroup owner now v = .ok (t,v')) :
    v'.db.subs = v.db.subs ∧ v'.db.nextId = v.db.nextId ∧
      ∀ userId, userId ≠ owner → userGroup v'.db userId = userGroup v.db userId := by
  have rows := keepsRevert owner now (fun subs _ nextId => subs = v.db.subs ∧ nextId = v.db.nextId) v t v'
    ⟨rfl,rfl⟩ h
  refine ⟨rows.1,rows.2,fun userId other => ?_⟩
  rcases revertCases h with ⟨same,_⟩ | ⟨m,_,_,same,_,_,_,moved⟩
  · rw [same]
  · rw [moveGroup moved,if_neg (fun goes => other goes.1),same]

theorem revertHome (named : home ≠ "") (remember : ∀ s ∈ v.db.subs, s.userId = userId → Remembers home s)
    (isGroup : userGroup v.db userId = some group) (h : revertExpiredGroup userId now v = .ok (t,v')) :
    ∃ after, userGroup v'.db userId = some after ∧ (after = group ∨ after = home) ∧ (group = home → after = home) ∧
      ((∀ s ∈ v.db.subs, s.userId = userId → s.status ≠ .active) → (v.faults[1]?).join = none →
        ∀ a ∈ v.db.subs, a.userId = userId → a.status = .expired → group = a.upgradeGroup →
          (∀ s ∈ v.db.subs, s.userId = userId → s.status = .expired → endsBefore a s → s = a) → after = home) := by
  rcases revertCases h with ⟨same,reason⟩ | ⟨m,last,member,same,owner,ended,most,moved⟩
  · rw [same]
    refine ⟨group,isGroup,.inl rfl,id,fun idle quiet a inside mine expired _ _ => ?_⟩
    rcases reason with ⟨s,found,sameUser,active⟩ | fault | none
    · exact absurd active (idle s found sameUser)
    · exact absurd quiet fault
    · exact absurd (none a inside mine expired) (remember a inside mine).raises
  rw [isGroup,getD_some] at moved
  have stays : userGroup m.db userId = some group := by rw [same]; exact isGroup
  have remembers := remember last member owner
  obtain ⟨after,isAfter,either,home',back⟩ := backHome remembers named stays (by
    unfold expiredTarget
    rw [if_neg (not_not.mpr remembers.plain),remembers.trimmed]
    split
    · rename_i unusable
      exact .inl ⟨rfl,fun _ => unusable.resolve_left remembers.raises⟩
    split
    · rename_i other
      exact .inl ⟨rfl,fun own => absurd own other⟩
    · rename_i own
      exact .inr ⟨rfl,not_not.mp own⟩) moved
  refine ⟨after,isAfter,either,home',fun _ _ a inside mine expired own newest => back ?_⟩
  rw [newest last member owner ended (most a inside mine expired (remember a inside mine).raises)]
  exact own

theorem upgradeCases {prev} (h : upgradeUserGroup owner target v = .ok (prev,v')) :
    v'.db.subs = v.db.subs ∧ v'.db.nextId = v.db.nextId ∧
      (∀ userId, userId ≠ owner → userGroup v'.db userId = userGroup v.db userId) ∧
      ∀ group, target ≠ "" → userGroup v.db owner = some group →
        userGroup v'.db owner = some target ∧ (group = target ∧ prev = "" ∨ group ≠ target ∧ prev = group) := by
  have rows := keepsUpgrade owner target (fun subs _ nextId => subs = v.db.subs ∧ nextId = v.db.nextId) v prev v'
    ⟨rfl,rfl⟩ h
  refine ⟨rows.1,rows.2,?_⟩
  unfold upgradeUserGroup at h
  split at h
  · rename_i blank
    cases h
    exact ⟨fun _ _ => rfl,fun _ raises => absurd blank raises⟩
  obtain ⟨_,m,read,rest⟩ := bindOk h
  obtain ⟨isCurrent,same⟩ := readGroup read
  split at rest
  · rename_i own
    cases rest
    refine ⟨fun _ _ => by rw [same],fun group _ isGroup => ?_⟩
    rw [isGroup,getD_some] at isCurrent
    have already : group = target := isCurrent.symm.trans own
    rw [same,isGroup,already]
    exact ⟨rfl,.inl ⟨rfl,rfl⟩⟩
  · rename_i raised
    obtain ⟨u,n,set,last⟩ := bindOk rest
    cases last
    rw [execOk set,same]
    refine ⟨fun userId other => by rw [groupSet,if_neg other],fun group _ isGroup => ?_⟩
    rw [isGroup,getD_some] at isCurrent
    rw [groupSet,if_pos rfl,isGroup,← isCurrent]
    exact ⟨rfl,.inr ⟨raised,rfl⟩⟩

theorem createCases (h : createUserSubscriptionFromPlanTx cal owner plan source now v = .ok (sub,v')) :
    ∃ endUnix m prev n, calcPlanEndTime cal now plan = .ok endUnix ∧ m.db = v.db ∧
      upgradeUserGroup owner (trimSpace plan.upgradeGroup) m = .ok (prev,n) ∧
      v'.db = {n.db with
        subs := n.db.subs ++ [newSubscription cal owner plan source now endUnix prev n.db.nextId]
        nextId := n.db.nextId + 1 } := by
  unfold createUserSubscriptionFromPlanTx at h
  split at h
  · cases h
  split at h
  · cases h
  obtain ⟨u,m,limited,rest⟩ := bindOk h
  have unchanged : m.db = v.db := by
    unfold checkPurchaseLimit at limited
    split at limited
    · cases limited
      rfl
    obtain ⟨_,k,read,last⟩ := bindOk limited
    split at last
    · cases last
    · cases last
      exact (queryOk read).2
  obtain ⟨endUnix,k,ends,later⟩ := bindOk rest
  cases isEnd : calcPlanEndTime cal now plan with
  | error => rw [isEnd] at ends; cases ends
  | ok =>
    rw [isEnd] at ends
    cases ends
    obtain ⟨prev,n,raised,final⟩ := bindOk later
    exact ⟨_,_,prev,n,rfl,unchanged,raised,(alterOk final).2⟩

/- At most one subscription is active, it ends after all expired ones, and the user is at home or in its group. -/
structure Kept (userId : Int) (home : String) (st : State) : Prop where
  keys : (st.db.subs.map UserSubscription.id).Nodup
  bound : ∀ s ∈ st.db.subs, s.id < st.db.nextId
  rows : ∀ s ∈ st.db.subs, s.userId = userId → Remembers home s
  ended : ∀ s ∈ st.db.subs, s.userId = userId → s.status = .expired → s.endTime ≤ st.clock
  single : ∀ a ∈ st.db.subs, ∀ b ∈ st.db.subs, a.userId = userId → b.userId = userId → a.status = .active →
    b.status = .active → a = b
  older : ∀ a ∈ st.db.subs, ∀ b ∈ st.db.subs, a.userId = userId → b.userId = userId → a.status = .active →
    b.status = .expired → b.endTime < a.endTime
  group : ∃ g, userGroup st.db userId = some g ∧
    (g = home ∨ ∃ a ∈ st.db.subs, a.userId = userId ∧ a.status = .active ∧ g = a.upgradeGroup)

theorem keptOther {userId home st st'} (kept : Kept userId home st)
    (keys : (st'.db.subs.map UserSubscription.id).Nodup) (bound : ∀ s ∈ st'.db.subs, s.id < st'.db.nextId)
    (rows : ∀ s, s.userId = userId → (s ∈ st'.db.subs ↔ s ∈ st.db.subs))
    (group : userGroup st'.db userId = userGroup st.db userId) (clock : st.clock ≤ st'.clock) : Kept userId home st' := by
  refine ⟨keys,bound,?_,?_,?_,?_,?_⟩
  · exact fun s member mine => kept.rows s ((rows s mine).mp member) mine
  · exact fun s member mine expired => (kept.ended s ((rows s mine).mp member) mine expired).trans clock
  · exact fun a ina b inb mine mine' => kept.single a ((rows a mine).mp ina) b ((rows b mine').mp inb) mine mine'
  · exact fun a ina b inb mine mine' => kept.older a ((rows a mine).mp ina) b ((rows b mine').mp inb) mine mine'
  obtain ⟨g,isGroup,where'⟩ := kept.group
  refine ⟨g,group.trans isGroup,where'.imp_right ?_⟩
  rintro ⟨a,member,mine,active,own⟩
  exact ⟨a,(rows a mine).mpr member,mine,active,own⟩

theorem keptClock (kept : Kept userId home ⟨db,clock⟩) (later : clock ≤ clock') :
    Kept userId home ⟨db,clock'⟩ :=
  keptOther kept kept.keys kept.bound (fun _ _ => Iff.rfl) rfl later

theorem sameRow (keys : (subs.map UserSubscription.id).Nodup) (ina : a ∈ subs) (inb : b ∈ subs)
    (same : a.id = b.id) : a = b :=
  inj_on_of_nodup_map keys ina inb same

theorem notActive (h : holdsActive db userId = false) :
    ∀ s ∈ db.subs, s.userId = userId → s.status ≠ .active := by
  intro s member mine active
  have none := any_eq_false.mp h s member
  simp [mine,active] at none

theorem boughtKept (kept : Kept userId home st)
    (idle : ∀ s ∈ st.db.subs, s.userId = userId → s.status ≠ .active) (rows : db.subs = st.db.subs ++ [sub])
    (keys : (db.subs.map UserSubscription.id).Nodup) (bound : ∀ s ∈ db.subs, s.id < db.nextId)
    (mine : sub.userId = userId) (active : sub.status = .active) (remembers : Remembers home sub)
    (ends : now < sub.endTime) (notBefore : st.clock ≤ now) (group : userGroup db userId = some sub.upgradeGroup) :
    Kept userId home ⟨db,now⟩ := by
  have cases' : ∀ s ∈ db.subs, s ∈ st.db.subs ∨ s = sub := by
    intro s member
    rw [rows] at member
    exact addedMem member
  have isSub : ∀ s ∈ db.subs, s.userId = userId → s.status = .active → s = sub := by
    intro s member owner isActive
    exact (cases' s member).resolve_left (fun old => idle s old owner isActive)
  refine ⟨keys,bound,?_,?_,?_,?_,sub.upgradeGroup,group,.inr ⟨sub,?_,mine,active,rfl⟩⟩
  · intro s member owner
    rcases cases' s member with old | rfl
    · exact kept.rows s old owner
    · exact remembers
  · intro s member owner expired
    rcases cases' s member with old | rfl
    · exact (kept.ended s old owner expired).trans notBefore
    · rw [active] at expired; cases expired
  · intro a ina b inb owner owner' isActive isActive'
    rw [isSub a ina owner isActive,isSub b inb owner' isActive']
  · intro a ina b inb owner owner' isActive expired
    rw [isSub a ina owner isActive]
    rcases cases' b inb with old | rfl
    · exact lt_of_le_of_lt ((kept.ended b old owner' expired).trans notBefore) ends
    · rw [active] at expired; cases expired
  · rw [rows]
    simp

theorem purchaseKept {cfg : Setup} {userId} (kept : Kept userId home st)
    (trimmed : trimSpace home = home) (notBefore : st.clock ≤ now)
    (buys : buyer = userId → trimSpace plan.upgradeGroup ≠ "" ∧ trimSpace plan.downgradeGroup = "")
    (free : buyer = userId → holdsActive st.db userId = false) :
    Kept userId home
      ⟨(atomically (createUserSubscriptionFromPlanTx cfg.cal buyer plan source now) faults st.db).2,now⟩ := by
  refine atomicallyAfter (P := fun db => Kept userId home ⟨db,now⟩) (keptClock kept notBefore) (fun _ v ran => ?_)
  obtain ⟨endUnix,m,prev,n,ends,begin',raised,final⟩ := createCases ran
  obtain ⟨rows,nextId,others,own⟩ := upgradeCases raised
  rw [begin'] at rows nextId others own
  dsimp only at rows nextId others own
  have keys := @keysAdded _ _ _ _ (newSubscription cfg.cal buyer plan source now endUnix prev st.db.nextId) kept.keys
    (fun s member => (kept.bound s member).ne)
  have bound : ∀ s ∈ st.db.subs ++ [newSubscription cfg.cal buyer plan source now endUnix prev st.db.nextId],
      s.id < st.db.nextId + 1 := by
    refine allAdded (fun s old => ?_) (lt_add_one st.db.nextId)
    have := kept.bound s old
    omega
  rw [final,rows,nextId]
  by_cases mine : buyer = userId
  · subst mine
    obtain ⟨raises,plain⟩ := buys rfl
    have idle := notActive (free rfl)
    obtain ⟨g,isGroup,atHome⟩ := kept.group
    have isHome : g = home := by
      rcases atHome with isHome | ⟨a,member,owner,active,_⟩
      · exact isHome
      · exact absurd active (idle a member owner)
    obtain ⟨newGroup,remembered⟩ := own g raises isGroup
    refine boughtKept kept idle rfl keys bound rfl rfl ⟨?_,raises,trimSpaceTwice _,?_⟩ (cfg.later _ _ _ ends)
      notBefore newGroup
    · exact (trimSpaceTwice plan.downgradeGroup).trans plain
    rcases remembered with ⟨already,noPrev⟩ | ⟨moved,isPrev⟩
    · refine .inl ⟨already.symm.trans isHome,?_⟩
      simp only [newSubscription,noPrev]
      decide
    · refine .inr ⟨fun same => moved (isHome.trans same.symm),?_⟩
      simp only [newSubscription,isPrev,isHome,trimmed]
  · refine keptOther kept keys bound ?_ ?_ notBefore
    · intro s isMine
      constructor
      · intro member
        rcases addedMem member with old | rfl
        · exact old
        · exact absurd isMine mine
      · exact fun member => mem_append_left _ member
    · exact others userId (Ne.symm mine)

variable {p : UserSubscription → Bool} {f : UserSubscription → UserSubscription}

theorem updateMiss (member : s ∈ subs) (miss : p s = false) : s ∈ updateWhere p f subs :=
  mem_map.mpr ⟨s,member,by simp [miss]⟩

theorem updateBound (stable : ∀ s, (f s).id = s.id) (bound : ∀ s ∈ subs, s.id < nextId) :
    ∀ s ∈ updateWhere p f subs, s.id < nextId := by
  intro s member
  rcases updateMem member with ⟨old,inside,_,rfl⟩ | ⟨inside,_⟩
  · rw [stable]
    exact bound old inside
  · exact bound s inside

theorem updateOther {p f} {subs : List UserSubscription}
    {userId} (keeps : ∀ s, (f s).userId = s.userId) (misses : ∀ s ∈ subs, s.userId = userId → p s = false) (s)
    (mine : s.userId = userId) : s ∈ updateWhere p f subs ↔ s ∈ subs := by
  constructor
  · intro member
    rcases updateMem member with ⟨old,inside,hit,rfl⟩ | ⟨inside,_⟩
    · rw [misses old inside ((keeps old).symm.trans mine)] at hit
      cases hit
    · exact inside
  · exact fun member => updateMiss member (misses s member mine)

theorem expireCommits {owner now faults db} : (atomically (expireUserTx owner now) faults db).2 = db ∨
      ∃ m t v, (atomically (expireUserTx owner now) faults db).2 = v.db ∧
        m.db = {db with subs := updateWhere (isExpiringOf owner now) expire db.subs} ∧ m.faults = faults.tail ∧
        revertExpiredGroup owner now m = .ok (t,v) := by
  cases result : (atomically (expireUserTx owner now) faults db).1 with
  | error => exact .inl (atomicallyError result)
  | ok =>
    obtain ⟨v,ran,after⟩ := atomicallyOk result
    obtain ⟨_,m,marked,rest⟩ := bindOk ran
    obtain ⟨t,n,reverted,last⟩ := bindOk rest
    cases last
    exact .inr ⟨m,t,v,after,execOk marked,execFaults marked,reverted⟩

theorem expiringOf (hit : isExpiringOf userId now s = true) :
    s.userId = userId ∧ s.status = .active ∧ s.endTime ≤ now := by
  simp only [isExpiringOf,isExpiring,decide_eq_true_eq] at hit
  exact ⟨hit.1,hit.2.1,hit.2.2.2⟩

theorem markedActive (member : s ∈ updateWhere (isExpiringOf userId now) expire subs)
    (active : s.status = .active) : s ∈ subs ∧ isExpiringOf userId now s = false := by
  rcases updateMem member with ⟨_,_,_,rfl⟩ | untouched
  · cases active
  · exact untouched

theorem markedRemember (kept : Kept userId home st) :
    ∀ s ∈ updateWhere (isExpiringOf userId now) expire st.db.subs, s.userId = userId → Remembers home s := by
  intro s member mine
  rcases updateMem member with ⟨old,inside,_,rfl⟩ | ⟨inside,_⟩
  · have remembers := kept.rows old inside mine
    exact {remembers with}
  · exact kept.rows s inside mine

section

variable (kept : Kept userId home st) (named : home ≠ "")

include kept named

theorem markedGroup (quiet : (m.faults[1]?).join = none)
    (isMarked : m.db = {st.db with subs := updateWhere (isExpiringOf userId now) expire st.db.subs})
    (reverted : revertExpiredGroup userId now m = .ok (t,v)) :
    ∃ g, userGroup v.db userId = some g ∧ (g = home ∨
      ∃ a ∈ updateWhere (isExpiringOf userId now) expire st.db.subs, a.userId = userId ∧ a.status = .active ∧
        g = a.upgradeGroup) := by
  obtain ⟨g,isGroup,atHome⟩ := kept.group
  have isGroup' : userGroup m.db userId = some g := by rw [isMarked]; exact isGroup
  have remember : ∀ s ∈ m.db.subs, s.userId = userId → Remembers home s := by
    rw [isMarked]
    exact markedRemember kept
  obtain ⟨g',isAfter,either,stays,back⟩ := revertHome named remember isGroup' reverted
  refine ⟨g',isAfter,?_⟩
  rcases atHome with isHome | ⟨a,member,mine,active,own⟩
  · exact .inl (stays isHome)
  cases hit : isExpiringOf userId now a with
  | false =>
    rcases either with same | isHome
    · exact .inr ⟨a,updateMiss member hit,mine,active,same.trans own⟩
    · exact .inl isHome
  | true =>
    -- the only active row has expired: it is the one the pass goes back by
    rw [isMarked] at back
    refine .inl (back ?_ quiet (expire a) (mem_map.mpr ⟨a,member,by simp [hit]⟩) mine rfl own ?_)
    · intro s inside owner isActive
      obtain ⟨was,miss⟩ := markedActive inside isActive
      rw [kept.single s was a member owner mine isActive active,hit] at miss
      cases miss
    intro s inside owner expired before
    rcases updateMem inside with ⟨old,was,hit',rfl⟩ | ⟨was,_⟩
    · rw [kept.single old was a member owner mine (expiringOf hit').2.1 active]
    have earlier := kept.older a member s was mine owner active expired
    have later : a.endTime < s.endTime ∨ a.endTime = s.endTime ∧ a.id ≤ s.id := of_decide_eq_true before
    omega

theorem expiredKept (quiet : (faults[2]?).join = none) :
    Kept userId home ⟨(atomically (expireUserTx userId now) faults st.db).2,max st.clock now⟩ := by
  rcases @expireCommits userId now faults st.db with same | ⟨m,t,v,after,isMarked,script,reverted⟩
  · rw [same]
    exact keptClock kept (le_max_left _ _)
  rw [after]
  have nothing : (m.faults[1]?).join = none := by
    rw [script,List.getElem?_tail]
    exact quiet
  have group := markedGroup kept named nothing isMarked reverted
  obtain ⟨rows,nextId,_⟩ := revertFrame reverted
  rw [isMarked] at rows nextId
  refine ⟨?_,?_,?_,?_,?_,?_,?_⟩ <;> dsimp only <;> rw [rows]
  · rw [@updateKeys _ _ UserSubscription.id _ expire (fun _ _ => rfl)]
    exact kept.keys
  · rw [nextId]
    exact updateBound (fun _ => rfl) kept.bound
  · exact markedRemember kept
  · intro s member mine expired
    rcases updateMem member with ⟨old,inside,hit,rfl⟩ | ⟨inside,_⟩
    · exact (expiringOf hit).2.2.trans (le_max_right _ _)
    · exact (kept.ended s inside mine expired).trans (le_max_left _ _)
  · intro a ina b inb mine mine' active active'
    exact kept.single a (markedActive ina active).1 b (markedActive inb active').1 mine mine' active active'
  · intro a ina b inb mine mine' active expired
    obtain ⟨inside,miss⟩ := markedActive ina active
    rcases updateMem inb with ⟨old,was,hit,rfl⟩ | ⟨was,_⟩
    · have same := kept.single a inside old was mine mine' active (expiringOf hit).2.1
      rw [same,hit] at miss
      cases miss
    · exact kept.older a inside b was mine mine' active expired
  · exact group

/- A subscription ends by hand: its row is gone or cancelled, and the group goes back by a copy `copy` of it. -/
theorem endedKept (inside : sub ∈ st.db.subs) (isCopy : copy = sub ∨ copy = cancel now sub)
    (groups : ∀ u, userGroup w.db u = userGroup st.db u) (active : ∀ s ∈ w.db.subs, s.status = .active → s ∈ st.db.subs)
    (downgraded : downgradeUserGroupForSubscriptionTx copy now w = .ok (t,n))
    (after : ∀ u, userGroup db u = userGroup n.db u)
    (keys : (db.subs.map UserSubscription.id).Nodup) (bound : ∀ s ∈ db.subs, s.id < db.nextId)
    (others : ∀ s, s.id ≠ sub.id → (s ∈ db.subs ↔ s ∈ st.db.subs)) (own : ∀ s ∈ db.subs, s.id = sub.id → s = cancel now sub) :
    Kept userId home ⟨db,st.clock⟩ := by
  have owned : copy.userId = sub.userId := by rcases isCopy with rfl | rfl <;> rfl
  by_cases mine : sub.userId = userId
  · subst mine
    have remembers := kept.rows sub inside rfl
    have cancelled : Remembers home (cancel now sub) :=
      {remembers with}
    obtain ⟨g,isGroup,atHome⟩ := kept.group
    have isCopied : Remembers home copy ∧ copy.id = sub.id ∧ copy.upgradeGroup = sub.upgradeGroup := by
      rcases isCopy with rfl | rfl
      · exact ⟨remembers,rfl,rfl⟩
      · exact ⟨cancelled,rfl,rfl⟩
    obtain ⟨g',isAfter,either,stays,back⟩ :=
      downgradeHome isCopied.1 named (by rw [owned,groups]; exact isGroup) downgraded
    rw [owned] at isAfter back
    have untouched : ∀ s ∈ db.subs, s.status ≠ .cancelled → s ∈ st.db.subs := by
      intro s member status
      by_cases isSub : s.id = sub.id
      · rw [own s member isSub] at status
        exact absurd rfl status
      · exact (others s isSub).mp member
    have stillActive : ∀ s ∈ db.subs, s.status = .active → s ∈ st.db.subs :=
      fun s member active => untouched s member (by rw [active]; decide)
    have stillExpired : ∀ s ∈ db.subs, s.status = .expired → s ∈ st.db.subs :=
      fun s member expired => untouched s member (by rw [expired]; decide)
    refine ⟨keys,bound,?_,?_,?_,?_,g',(after _).trans isAfter,?_⟩
    · intro s member mine
      by_cases isSub : s.id = sub.id
      · rw [own s member isSub]
        exact cancelled
      · exact kept.rows s ((others s isSub).mp member) mine
    · exact fun s member mine expired => kept.ended s (stillExpired s member expired) mine expired
    · exact fun a ina b inb mine mine' active active' =>
        kept.single a (stillActive a ina active) b (stillActive b inb active') mine mine' active active'
    · exact fun a ina b inb mine mine' active expired =>
        kept.older a (stillActive a ina active) b (stillExpired b inb expired) mine mine' active expired
    rcases atHome with isHome | ⟨a,member,mine,isActive,upgraded⟩
    · exact .inl (stays isHome)
    by_cases isSub : a.id = sub.id
    · have same := sameRow kept.keys member inside isSub
      subst same
      refine .inl (back (fun s found owner isActive' => ?_) (upgraded.trans isCopied.2.2.symm))
      rw [kept.single s (active s found isActive') a member owner mine isActive' isActive,isCopied.2.1]
    rcases either with same | isHome
    · exact .inr ⟨a,(others a isSub).mpr member,mine,isActive,same.trans upgraded⟩
    · exact .inl isHome
  · refine @keptOther _ _ _ ⟨db,st.clock⟩ kept keys bound (fun s isMine => ?_) ?_ le_rfl
    · by_cases isSub : s.id = sub.id
      · constructor
        · intro member
          rw [own s member isSub] at isMine
          exact absurd isMine mine
        intro member
        rw [sameRow kept.keys member inside isSub] at isMine
        exact absurd isMine mine
      · exact others s isSub
    · rw [after,(downgradeFrame downgraded).2.2 userId (fun isOwner => mine (owned.symm.trans isOwner.symm)),groups]

end

section

variable {userId home id now faults st} (kept : Kept userId home st) (named : home ≠ "")

include kept named

theorem canceledKept :
    Kept userId home ⟨(adminInvalidateUserSubscription id now faults st.db).2,st.clock⟩ := by
  unfold adminInvalidateUserSubscription
  split
  · exact kept
  refine atomicallyAfter (P := fun db => Kept userId home ⟨db,st.clock⟩) kept (fun _ v ran => ?_)
  obtain ⟨sub,m,found,rest⟩ := bindOk ran
  obtain ⟨isSub,same⟩ := firstOk found
  obtain ⟨inside,_⟩ := lookupSound isSub
  obtain ⟨_,w,marked,rest⟩ := bindOk rest
  have isMarked := execOk marked
  obtain ⟨t,n,downgraded,last⟩ := bindOk rest
  cases last
  rw [same] at isMarked
  obtain ⟨rows,nextId,_⟩ := downgradeFrame downgraded
  rw [isMarked] at rows nextId
  refine endedKept kept named inside (.inr rfl) (fun u => by rw [isMarked]; rfl) ?_ downgraded (fun _ => rfl) ?_ ?_ ?_ ?_
  · rw [isMarked]
    intro s member active
    rcases updateMem member with ⟨old,_,_,rfl⟩ | ⟨was,_⟩
    · cases active
    · exact was
  · rw [rows,@updateKeys _ _ UserSubscription.id _ (cancel now) (fun _ _ => rfl)]
    exact kept.keys
  · rw [rows,nextId]
    exact updateBound (fun _ => rfl) kept.bound
  · intro s other
    rw [rows]
    constructor
    · intro member
      rcases updateMem member with ⟨old,_,hit,rfl⟩ | ⟨was,_⟩
      · exact absurd (of_decide_eq_true hit) other
      · exact was
    · exact fun member => updateMiss member (decide_eq_false other)
  · rw [rows]
    intro s member isSame
    rcases updateMem member with ⟨old,was,hit,rfl⟩ | ⟨_,miss⟩
    · rw [sameRow kept.keys was inside (of_decide_eq_true hit)]
    · exact absurd isSame (of_decide_eq_false miss)

theorem deletedKept :
    Kept userId home ⟨(adminDeleteUserSubscription id now faults st.db).2,st.clock⟩ := by
  unfold adminDeleteUserSubscription
  split
  · exact kept
  refine atomicallyAfter (P := fun db => Kept userId home ⟨db,st.clock⟩) kept (fun _ v ran => ?_)
  obtain ⟨sub,m,found,rest⟩ := bindOk ran
  obtain ⟨isSub,same⟩ := firstOk found
  obtain ⟨inside,isId⟩ := lookupSound isSub
  obtain ⟨t,w,downgraded,rest⟩ := bindOk rest
  obtain ⟨rows,nextId,_⟩ := downgradeFrame downgraded
  obtain ⟨_,n,dropped,last⟩ := bindOk rest
  have isDropped := execOk dropped
  cases last
  rw [same] at rows nextId
  subst isId
  have isRows : v.db.subs = st.db.subs.filter (fun s => s.id ≠ sub.id) := by rw [isDropped,← rows]
  have isNext : v.db.nextId = st.db.nextId := by rw [isDropped,← nextId]
  refine endedKept kept named inside (.inl rfl) (fun u => by rw [same]) (fun s member _ => by rw [same] at member; exact member)
    downgraded (fun u => by rw [isDropped]; rfl) ?_ ?_ ?_ ?_
  · rw [isRows]
    exact kept.keys.sublist (filter_sublist.map _)
  · rw [isRows,isNext]
    exact fun s member => kept.bound s (mem_filter.mp member).1
  · intro s other
    rw [isRows,mem_filter]
    exact ⟨And.left,fun member => ⟨member,decide_eq_true other⟩⟩
  · rw [isRows]
    exact fun s member isSame => absurd isSame (of_decide_eq_true (mem_filter.mp member).2)

end

theorem expireUserKept (kept : Kept userId home st) (named : home ≠ "")
    (quiet : owner = userId → (faults[2]?).join = none) :
    Kept userId home ⟨(expireUser owner now faults st.db).2.2,max st.clock now⟩ := by
  change Kept userId home ⟨(atomically (expireUserTx owner now) faults st.db).2,max st.clock now⟩
  by_cases mine : owner = userId
  · subst mine
    exact expiredKept kept named (quiet rfl)
  rcases @expireCommits owner now faults st.db with same | ⟨m,t,v,after,isMarked,_,reverted⟩
  · rw [same]
    exact keptClock kept (le_max_left _ _)
  rw [after]
  obtain ⟨rows,nextId,elsewhere⟩ := revertFrame reverted
  rw [isMarked] at rows nextId
  refine keptOther kept ?_ ?_ ?_ ?_ (le_max_left _ _) <;> dsimp only
  · rw [rows,@updateKeys _ _ UserSubscription.id _ expire (fun _ _ => rfl)]
    exact kept.keys
  · rw [rows,nextId]
    exact updateBound (fun _ => rfl) kept.bound
  · rw [rows]
    refine @updateOther _ expire _ _ (fun _ => rfl) (fun s _ own => ?_)
    exact decide_eq_false fun hit => mine (hit.1.symm.trans own)
  · have same := elsewhere userId (fun isOwner => mine isOwner.symm)
    rw [isMarked] at same
    exact same

theorem stepKept {cfg : Setup} {next} (named : home ≠ "") (trimmed : trimSpace home = home)
    (kept : Kept userId home st) (buys : upgrading userId event) (good : careful userId st event)
    (moved : step cfg st event = some next) : Kept userId home next := by
  cases event with
  | purchase =>
    simp only [step] at moved
    split at moved <;> cases moved
    exact purchaseKept kept trimmed (by omega) buys (of_decide_eq_true good)
  | expire =>
    cases moved
    exact expireUserKept kept named (of_decide_eq_true good)
  | cancel =>
    cases moved
    exact canceledKept kept named
  | delete =>
    cases moved
    exact deletedKept kept named

theorem keptHome (kept : Kept userId home st) (idle : holdsActive st.db userId = false) :
    userGroup st.db userId = some home := by
  obtain ⟨g,isGroup,atHome⟩ := kept.group
  rcases atHome with isHome | ⟨a,member,mine,active,_⟩
  · rw [isGroup,isHome]
  · exact absurd active (notActive idle a member mine)

theorem groupRestored {cfg : Setup} {userId home st events out}
    (keys : (st.db.subs.map UserSubscription.id).Nodup) (bound : ∀ s ∈ st.db.subs, s.id < st.db.nextId)
    (fresh : ∀ s ∈ st.db.subs, s.userId ≠ userId) (isHome : userGroup st.db userId = some home)
    (named : home ≠ "") (trimmed : trimSpace home = home) (buys : ∀ event ∈ events, upgrading userId event)
    (good : Along (step cfg) (fun st event => careful userId st event) st events)
    (h : run (step cfg) st events = some out) (idle : holdsActive out.db userId = false) :
    userGroup out.db userId = some home := by
  have start : Kept userId home st := by
    refine ⟨keys,bound,?_,?_,?_,?_,home,isHome,.inl rfl⟩
    · exact fun s member mine => absurd mine (fresh s member)
    · exact fun s member mine => absurd mine (fresh s member)
    · exact fun a ina b inb mine => absurd mine (fresh a ina)
    · exact fun a ina b inb mine => absurd mine (fresh a ina)
  have both := alongBoth (alongAll buys st) good
  refine keptHome (runInvariant (fun s l n kept ok moved => ?_) start both h) idle
  exact stepKept named trimmed kept ok.1 ok.2 moved

def thirtyDays : Setup where
  cal :=
    { addDate := fun t years months => t + (years*365 + months*30)*86400
      nextDay := fun t => t + 86400
      nextMonday := fun t => t + 7*86400
      nextMonth := fun t => t + 30*86400
      dayLater := fun t => by omega
      mondayLater := fun t => by omega
      monthLater := fun t => by omega }
  later := by
    intro start plan endUnix h
    unfold calcPlanEndTime at h
    split at h
    · cases h
    rename_i positive
    split at h
    all_goals rename_i unit
    all_goals simp only [unit,ne_eq,reduceCtorEq,not_false_eq_true,and_true,not_le,not_true_eq_false,and_false] at positive
    · cases h
      dsimp only
      omega
    · cases h
      dsimp only
      omega
    · cases h
      omega
    · cases h
      omega
    · split at h <;> cases h
      omega
    · cases h

def monthlyPlan (id : Int) (upgradeGroup : String) : Plan :=
  ⟨id,"monthly",.month,1,0,none,0,upgradeGroup,"",1000,"",0⟩

def twoUsers : State := ⟨⟨[],[],[⟨1,"default"⟩,⟨2,"default"⟩],1⟩,0⟩

def oneAfterTheOther : List Event :=
  [.purchase 1 (monthlyPlan 1 "vip") "order" 100 [],.purchase 2 (monthlyPlan 1 "vip") "order" 200 [],
    .expire 1 2592100 [],.purchase 1 (monthlyPlan 2 "svip") "order" 2600000 [],.cancel 3 2600001 []]

theorem groupRestoredAfterTwoMonths :
    ∃ out, run (step thirtyDays) twoUsers oneAfterTheOther = some out ∧ out.db.subs.length = 3 ∧
      userGroup out.db 2 = some "vip" ∧ userGroup out.db 1 = some "default" := by
  have runs : (run (step thirtyDays) twoUsers oneAfterTheOther).map
      (fun out => (out.db.subs.length,userGroup out.db 2,holdsActive out.db 1)) =
      some (3,some "vip",false) := by decide +kernel
  obtain ⟨out,ran,facts⟩ := map_eq_some_iff.mp runs
  simp only [Prod.mk.injEq] at facts
  refine ⟨out,ran,facts.1,facts.2.1,?_⟩
  refine groupRestored (by decide) (by decide) (by decide) (by decide) (by decide) (by decide +kernel) ?_
    (alongChecked (by decide +kernel)) ran facts.2.2
  simp only [oneAfterTheOther,forall_mem_cons,upgrading,monthlyPlan,not_mem_nil,IsEmpty.forall_iff,implies_true]
  decide +kernel

def boughtTwice : List Event :=
  [.purchase 1 (monthlyPlan 1 "vip") "order" 100 [],.purchase 1 (monthlyPlan 1 "vip") "order" 200 [],
    .expire 1 2592200 []]

theorem vipAfterBothExpired :
    ∃ out, run (step thirtyDays) twoUsers boughtTwice = some out ∧ holdsActive out.db 1 = false ∧
      userGroup twoUsers.db 1 = some "default" ∧ userGroup out.db 1 = some "vip" := by decide +kernel

end Omnigate.SubscriptionGroups
