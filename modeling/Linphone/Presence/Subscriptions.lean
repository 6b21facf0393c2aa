import Linphone.Chat.Rooms
import Linphone.Lib.Holding

/-!
# Subscriptions to the presence of friends

The outgoing subscriptions of the friends (`coreapi/friend.c`) and the notifications that come back
(`linphone_notify_recv` of `coreapi/presence.c`). An operation or a presence model that was received
is in a pool until it is released; a pointer to what is not in the pool is a fault when it is used.
The SAL hands no event of an operation on that was released.

`subscriptions_of_run`: each friend has at most one operation, which is there as long as the
subscription is active, nothing is used after its release and no received model is lost, as long as
no model is forgotten by a new subscription, no subscription is given up before it can be closed,
and no notification ends the operation of a friend that is not in the list.
`model_forgotten` has a friend that is subscribed to again after its subscription was terminated.
-/

namespace Linphone

/-! ## Friends and operations -/

/-- The states that a NOTIFY tells: `SalSubscribeStatus`. -/
inductive NotifiedStatus
  | active | terminated
deriving DecidableEq

/-- The operation of an outgoing subscription, and the friend it was made for. -/
structure OutSubscription where
  id : Nat
  friend : Nat
deriving DecidableEq

/-- A presence model that came with a notification, and the friend it is about. -/
structure ReceivedModel where
  id : Nat
  friend : Nat
deriving DecidableEq

/-- The presence model of a friend: a received one, or one that was made here. -/
inductive FriendPresence
  | received (model : ReceivedModel)
  | offline
deriving DecidableEq

structure PresenceFriend where
  uri : LinphoneAddress
  subscribe : Bool := true
  subscribeActive : Bool := false
  outsub : Option OutSubscription := none
  presence : Option FriendPresence := none
  /-- The application has a reference of its own. -/
  appRef : Bool := false
deriving DecidableEq

/-- The core with the friends in memory, of which `list` are in `lc->friends`, and with the
operations and the received models that were not released. -/
structure SubscriptionCore where
  allowOutOfSubscribePresence : Bool := false
  friends : Nat → Option PresenceFriend := fun _ => none
  list : List Nat := []
  nextFriend : Nat := 0
  ops : Multiset OutSubscription := 0
  nextOp : Nat := 0
  /-- The operations whose SUBSCRIBE was accepted. -/
  refresher : Nat → Bool := fun _ => false
  /-- The operations that were unsubscribed. -/
  unsubscribed : Nat → Bool := fun _ => false
  models : Multiset ReceivedModel := 0
  nextModel : Nat := 0
  /-- Something was used after its release. -/
  fault : Bool := false

/-- The received model that a friend has. -/
def PresenceFriend.received (f : PresenceFriend) : Option ReceivedModel :=
  match f.presence with
  | some (.received model) => some model
  | _ => none

namespace SubscriptionCore

variable (s : SubscriptionCore)

def setFriend (i : Nat) (f : PresenceFriend) : SubscriptionCore :=
  { s with friends := Function.update s.friends i (some f) }

/-- `sal_op_release` -/
def releaseOp (op : OutSubscription) : SubscriptionCore :=
  if op ∈ s.ops then { s with ops := s.ops.erase op } else { s with fault := true }

/-- An operation that is used is there. -/
def useOp (op : OutSubscription) : SubscriptionCore :=
  if op ∈ s.ops then s else { s with fault := true }

/-- `linphone_presence_model_unref`, of a model that a friend has -/
def unrefModel (model : Option ReceivedModel) : SubscriptionCore :=
  match model with
  | some model =>
      if model ∈ s.models then { s with models := s.models.erase model }
      else { s with fault := true }
  | none => s

/-! ## `friend.c` -/

/-- `sal_unsubscribe`, which needs a refresher. -/
def salUnsubscribe (op : OutSubscription) : SubscriptionCore :=
  if s.refresher op.id then { s with unsubscribed := Function.update s.unsubscribed op.id true }
  else s

/-- `__linphone_friend_do_subscribe` -/
def friendDoSubscribe (i : Nat) (f : PresenceFriend) : SubscriptionCore :=
  let (s, f) :=
    match f.outsub with
    | none => (s, { f with presence := none })
    | some op => (s.releaseOp op, f)
  let op : OutSubscription := ⟨s.nextOp, i⟩
  { s with ops := op ::ₘ s.ops, nextOp := s.nextOp + 1 }.setFriend i
    { f with outsub := some op, subscribeActive := true }

/-- `linphone_friend_unsubscribe` -/
def friendUnsubscribe (i : Nat) (f : PresenceFriend) : SubscriptionCore :=
  match f.outsub with
  | none => s
  | some op => ((s.useOp op).salUnsubscribe op).setFriend i { f with subscribeActive := false }

/-- `linphone_friend_invalidate_subscription` -/
def friendInvalidateSubscription (i : Nat) (f : PresenceFriend) : SubscriptionCore :=
  match f.outsub with
  | none => s
  | some op =>
      ((s.releaseOp op).unrefModel f.received).setFriend i
        { f with outsub := none, subscribeActive := false, presence := some .offline }

/-- `_linphone_friend_destroy` -/
def friendDestroy (i : Nat) (f : PresenceFriend) : SubscriptionCore :=
  let s :=
    match f.outsub with
    | none => s
    | some op => s.releaseOp op
  let s := s.unrefModel f.received
  { s with friends := Function.update s.friends i none }

/-- Whether `linphone_friend_update_subscribes` may subscribe, or none when the proxy is not the one
of the friend; `cfg` is the known proxy of its address and whether it is registered. -/
def canSubscribe (f : PresenceFriend) (proxy : Option Nat) (onlyWhenRegistered : Bool)
    (cfg : Option (Nat × Bool)) : Option Bool :=
  if onlyWhenRegistered ∧ (f.subscribe ∨ f.subscribeActive) then
    if proxy ≠ none ∧ proxy ≠ cfg.map Prod.fst then none
    else some (cfg.all Prod.snd)
  else some true

/-- `linphone_friend_update_subscribes` -/
def friendUpdateSubscribes (i : Nat) (f : PresenceFriend) (proxy : Option Nat)
    (onlyWhenRegistered : Bool) (cfg : Option (Nat × Bool)) : SubscriptionCore :=
  match canSubscribe f proxy onlyWhenRegistered cfg with
  | none => s
  | some can =>
      if can ∧ f.subscribe ∧ f.subscribeActive = false then s.friendDoSubscribe i f
      else if can ∧ f.subscribeActive ∧ f.subscribe = false then s.friendUnsubscribe i f
      else
        match f.outsub with
        | some op =>
            -- `sal_op_stop_refreshing`
            if can = false then (s.useOp op).setFriend i { f with subscribeActive := false } else s
        | none => s

/-- A function of a friend, by its pointer. -/
def withFriend (i : Nat) (g : PresenceFriend → SubscriptionCore) : SubscriptionCore :=
  match s.friends i with
  | some f => g f
  | none => { s with fault := true }

/-- `linphone_core_invalidate_friend_subscriptions` -/
def invalidateFriendSubscriptions : SubscriptionCore :=
  s.list.foldl (fun s i => s.withFriend i (s.friendInvalidateSubscription i)) s

/-- `linphone_core_add_friend`, up to the update of the subscription -/
def addFriend (uri : LinphoneAddress) (appRef : Bool) : SubscriptionCore :=
  { s with
    friends := Function.update s.friends s.nextFriend (some { uri := uri, appRef := appRef })
    list := s.list ++ [s.nextFriend]
    nextFriend := s.nextFriend + 1 }

/-- `linphone_core_remove_friend`: the friend stays when the application has a reference. -/
def removeFriend (i : Nat) : SubscriptionCore :=
  if i ∈ s.list then
    let s := s.withFriend i fun f => if f.appRef then s else s.friendDestroy i f
    { s with list := s.list.erase i }
  else s

/-- `linphone_friend_unref` of the application -/
def unrefFriend (i : Nat) (f : PresenceFriend) : SubscriptionCore :=
  if i ∈ s.list then s.setFriend i { f with appRef := false } else s.friendDestroy i f

/-! ## `presence.c` -/

/-- The friend that a notification is about. -/
def notifiedFriend (op : Option OutSubscription) (fromAddress : LinphoneAddress) : Option Nat :=
  match op.bind fun op => s.list.find? fun i => (s.friends i).any fun f => f.outsub = some op with
  | some i => some i
  | none =>
      if s.allowOutOfSubscribePresence then
        s.list.find? fun i => (s.friends i).any fun f => f.uri.WeakEqual fromAddress
      else none

/-- A friend gets a presence model, a received one or the one of a friend that is offline. -/
def receivePresence (i : Nat) (f : PresenceFriend) (model : Bool) : SubscriptionCore :=
  let s := s.unrefModel f.received
  if model then
    let received : ReceivedModel := ⟨s.nextModel, i⟩
    { s with models := received ::ₘ s.models, nextModel := s.nextModel + 1 }.setFriend i
      { f with presence := some (.received received), subscribeActive := true }
  else s.setFriend i { f with presence := some .offline, subscribeActive := true }

/-- The end of a subscription; an operation that was made for the notification is released with
it. -/
def subscriptionTerminated (lf : Option Nat) (op : Option OutSubscription) : SubscriptionCore :=
  let s :=
    match op with
    | some op => s.releaseOp op
    | none => s
  match lf with
  | some i =>
      s.withFriend i fun f => s.setFriend i { f with outsub := none, subscribeActive := false }
  | none => s

/-- `linphone_notify_recv`, of an operation or outside of a dialog; a model for nobody is released
at once. -/
def notifyRecv (op : Option OutSubscription) (fromAddress : LinphoneAddress)
    (ss : NotifiedStatus) (model : Bool) : SubscriptionCore :=
  let lf := s.notifiedFriend op fromAddress
  let s :=
    match lf with
    | some i => s.withFriend i fun f => s.receivePresence i f model
    | none => s
  if ss = .terminated then s.subscriptionTerminated lf op else s

end SubscriptionCore

/-! ## Runs -/

inductive FriendStep
  | add (uri : LinphoneAddress) (appRef : Bool)
  | enableSubscribes (i : Nat) (val : Bool)
  /-- The SUBSCRIBE of an operation is accepted. -/
  | accepted (op : OutSubscription)
  | updateSubscribes (i : Nat) (proxy : Option Nat) (onlyWhenRegistered : Bool)
    (cfg : Option (Nat × Bool))
  | invalidate
  | notify (op : Option OutSubscription) (fromAddress : LinphoneAddress) (ss : NotifiedStatus)
    (model : Bool)
  | remove (i : Nat)
  | unref (i : Nat)

/-- A step on a friend that the application knows. -/
def SubscriptionCore.onFriend (s : SubscriptionCore) (i : Nat)
    (g : PresenceFriend → SubscriptionCore) : SubscriptionCore :=
  match s.friends i with
  | some f => g f
  | none => s

/-- The SAL has no events for an operation that was released. -/
def SubscriptionCore.after (s : SubscriptionCore) : FriendStep → SubscriptionCore
  | .add uri appRef => s.addFriend uri appRef
  | .enableSubscribes i val => s.onFriend i fun f => s.setFriend i { f with subscribe := val }
  | .accepted op =>
      if op ∈ s.ops then { s with refresher := Function.update s.refresher op.id true } else s
  | .updateSubscribes i proxy onlyWhenRegistered cfg =>
      s.onFriend i fun f => s.friendUpdateSubscribes i f proxy onlyWhenRegistered cfg
  | .invalidate => s.invalidateFriendSubscriptions
  | .notify (some op) fromAddress ss model =>
      if op ∈ s.ops then s.notifyRecv (some op) fromAddress ss model else s
  | .notify none fromAddress ss model => s.notifyRecv none fromAddress ss model
  | .remove i => s.removeFriend i
  | .unref i => s.onFriend i fun f => if f.appRef then s.unrefFriend i f else s

/-- The states that are reached by steps that meet a condition. -/
inductive FriendRun (P : SubscriptionCore → FriendStep → Prop) : SubscriptionCore → Prop
  | start (allow : Bool) : FriendRun P { allowOutOfSubscribePresence := allow }
  | step {s : SubscriptionCore} {step : FriendStep} (h : FriendRun P s) (hstep : P s step) :
      FriendRun P (s.after step)

/-! ## What is claimed -/

structure SubscriptionCore.Sound (s : SubscriptionCore) : Prop where
  /-- A friend has one operation at most. -/
  one : ∀ i, Multiset.card (s.ops.filter fun op => op.friend = i) ≤ 1
  active : ∀ i f, s.friends i = some f → f.subscribeActive = true →
    ∃ op ∈ s.ops, f.outsub = some op
  used : s.fault = false
  /-- No received model is lost, and none is kept after its release. -/
  lost : ∀ model ∈ s.models, ∃ i f, s.friends i = some f ∧ f.received = some model
  released : ∀ i f model, s.friends i = some f → f.received = some model → model ∈ s.models

/-- The subscription of a friend is closed. -/
def SubscriptionCore.Closed (s : SubscriptionCore) (f : PresenceFriend) : Prop :=
  ∀ op, f.outsub = some op → s.unsubscribed op.id = true

/-- An update that may subscribe closes the subscription of a friend that does not subscribe. -/
def FriendStep.Closes (s : SubscriptionCore) : FriendStep → Prop
  | step@(.updateSubscribes i proxy onlyWhenRegistered cfg) =>
      ∀ f, s.friends i = some f → f.subscribe = false →
        SubscriptionCore.canSubscribe f proxy onlyWhenRegistered cfg = some true →
          ∀ f', (s.after step).friends i = some f' → (s.after step).Closed f'
  | _ => True

/-! ## When it holds -/

/-- No received model is forgotten by a new subscription, no subscription is given up before it can
be closed, and a notification ends the operation of a friend that is in the list, or none. -/
def FriendStep.Careful (s : SubscriptionCore) : FriendStep → Prop
  | updateSubscribes i proxy onlyWhenRegistered cfg =>
      ∀ f, s.friends i = some f →
        SubscriptionCore.canSubscribe f proxy onlyWhenRegistered cfg = some true →
          (f.subscribe = true → f.subscribeActive = false → f.outsub = none → f.received = none) ∧
          (f.subscribe = false → ∀ op, f.outsub = some op →
            s.unsubscribed op.id = true ∨ f.subscribeActive = true ∧ s.refresher op.id = true)
  | notify op fromAddress ss _ =>
      (ss = .terminated → ∀ o, op = some o → o.friend ∈ s.list) ∧
      ∀ i f, s.notifiedFriend op fromAddress = some i → s.friends i = some f →
        op ≠ none ∧ f.outsub = op ∨ (ss = .terminated ↔ f.outsub = none)
  | _ => True

/-! ## The invariant -/

namespace SubscriptionCore

/-- The operation of each friend. -/
def outsubs (s : SubscriptionCore) (i : Nat) : Option OutSubscription :=
  (s.friends i).bind (·.outsub)

/-- The received model of each friend. -/
def receivedModels (s : SubscriptionCore) (i : Nat) : Option ReceivedModel :=
  (s.friends i).bind (·.received)

structure Inv (s : SubscriptionCore) : Prop where
  ops : Holding.Agree (·.friend) s.ops s.outsubs
  models : Holding.Agree (·.friend) s.models s.receivedModels
  active : ∀ i f, s.friends i = some f → f.subscribeActive = true → f.outsub ≠ none
  listed : ∀ i ∈ s.list, s.friends i ≠ none
  nodup : s.list.Nodup
  fresh : ∀ i, s.nextFriend ≤ i → s.friends i = none
  used : s.fault = false

section inv

variable {s s' : SubscriptionCore} {i : Nat} {f f' : PresenceFriend} {op : OutSubscription}
  {ops : Multiset OutSubscription} {models : Multiset ReceivedModel}

theorem Inv.op_mem (h : s.Inv) (hf : s.friends i = some f) (hop : f.outsub = some op) :
    op ∈ s.ops := by
  refine h.ops.mem (o := i) ?_
  unfold outsubs
  rw [hf]
  exact hop

theorem Inv.model_mem (h : s.Inv) (hf : s.friends i = some f) {model : ReceivedModel}
    (hmodel : f.received = some model) : model ∈ s.models := by
  refine h.models.mem (o := i) ?_
  unfold receivedModels
  rw [hf]
  exact hmodel

theorem Inv.sound (h : s.Inv) : s.Sound where
  one := h.ops.card_le_one
  active := by
    intro i f hf hactive
    obtain ⟨op, hop⟩ := Option.ne_none_iff_exists'.mp (h.active i f hf hactive)
    exact ⟨op, h.op_mem hf hop, hop⟩
  used := h.used
  lost := by
    intro model hmodel
    obtain ⟨f, hf, hreceived⟩ := Option.bind_eq_some_iff.mp (h.models.held_eq hmodel)
    exact ⟨model.friend, f, hf, hreceived⟩
  released := fun i f model hf hmodel => h.model_mem hf hmodel

/-- A step on one friend keeps the invariant when the pools follow what it has. -/
theorem inv_put (h : s.Inv) (hi : s.friends i ≠ none)
    (hfriends : s'.friends = Function.update s.friends i (some f')) (hlist : s'.list = s.list)
    (hnext : s'.nextFriend = s.nextFriend)
    (hops : Holding.Agree (·.friend) s'.ops (Function.update s.outsubs i f'.outsub))
    (hmodels : Holding.Agree (·.friend) s'.models
      (Function.update s.receivedModels i f'.received))
    (hactive : f'.subscribeActive = true → f'.outsub ≠ none) (hfault : s'.fault = false) :
    s'.Inv where
  ops := by
    have heq : s'.outsubs = Function.update s.outsubs i f'.outsub := by
      funext j
      unfold outsubs
      rw [hfriends]
      by_cases hj : j = i
      · subst hj
        simp
      · simp [hj]
    rw [heq]
    exact hops
  models := by
    have heq : s'.receivedModels = Function.update s.receivedModels i f'.received := by
      funext j
      unfold receivedModels
      rw [hfriends]
      by_cases hj : j = i
      · subst hj
        simp
      · simp [hj]
    rw [heq]
    exact hmodels
  active := by
    intro j f hf
    rw [hfriends] at hf
    by_cases hj : j = i
    · subst hj
      rw [Function.update_self] at hf
      rw [← Option.some.inj hf]
      exact hactive
    · rw [Function.update_of_ne hj] at hf
      exact h.active j f hf
  listed := by
    intro j hj
    rw [hlist] at hj
    rw [hfriends]
    by_cases heq : j = i
    · subst heq
      rw [Function.update_self]
      exact Option.some_ne_none f'
    · rw [Function.update_of_ne heq]
      exact h.listed j hj
  nodup := by
    rw [hlist]
    exact h.nodup
  fresh := by
    intro j hj
    rw [hnext] at hj
    have hne : j ≠ i := fun heq => hi (heq ▸ h.fresh j hj)
    rw [hfriends, Function.update_of_ne hne]
    exact h.fresh j hj
  used := hfault

/-! ## What each operation does -/

theorem releaseOp_eq (h : op ∈ s.ops) : s.releaseOp op = { s with ops := s.ops.erase op } :=
  if_pos h

theorem useOp_eq (h : op ∈ s.ops) : s.useOp op = s := if_pos h

theorem unrefModel_eq {model : Option ReceivedModel} (h : ∀ m ∈ model, m ∈ s.models) :
    s.unrefModel model = { s with models := Holding.drop s.models model } := by
  cases model with
  | none => rfl
  | some m => exact if_pos (h m rfl)

theorem withFriend_eq {g : PresenceFriend → SubscriptionCore} (hf : s.friends i = some f) :
    s.withFriend i g = g f := by
  unfold withFriend
  rw [hf]

theorem outsubs_eq (hf : s.friends i = some f) : s.outsubs i = f.outsub := by
  unfold outsubs
  rw [hf]
  rfl

theorem receivedModels_eq (hf : s.friends i = some f) : s.receivedModels i = f.received := by
  unfold receivedModels
  rw [hf]
  rfl

theorem ops_keep (h : s.Inv) (hf : s.friends i = some f) :
    Holding.Agree (·.friend) s.ops (Function.update s.outsubs i f.outsub) := by
  rw [← outsubs_eq hf, Function.update_eq_self]
  exact h.ops

theorem models_keep (h : s.Inv) (hf : s.friends i = some f) :
    Holding.Agree (·.friend) s.models (Function.update s.receivedModels i f.received) := by
  rw [← receivedModels_eq hf, Function.update_eq_self]
  exact h.models

theorem ops_drop (h : s.Inv) (hf : s.friends i = some f) :
    Holding.Agree (·.friend) (Holding.drop s.ops f.outsub)
      (Function.update s.outsubs i none) := by
  rw [← outsubs_eq hf]
  exact h.ops.drop i

theorem models_drop (h : s.Inv) (hf : s.friends i = some f) :
    Holding.Agree (·.friend) (Holding.drop s.models f.received)
      (Function.update s.receivedModels i none) := by
  rw [← receivedModels_eq hf]
  exact h.models.drop i

theorem ne_none_of_eq_some (hf : s.friends i = some f) : s.friends i ≠ none := by
  rw [hf]
  exact Option.some_ne_none f

theorem inv_doSubscribe (h : s.Inv) (hf : s.friends i = some f)
    (hforgets : f.outsub = none → f.received = none) : (s.friendDoSubscribe i f).Inv := by
  have hops := h.ops.replace ⟨s.nextOp, i⟩
  rw [outsubs_eq hf] at hops
  unfold friendDoSubscribe
  cases hop : f.outsub with
  | none =>
      rw [hop] at hops
      refine inv_put h (ne_none_of_eq_some hf) rfl rfl rfl hops ?_ (fun _ => nofun) h.used
      have hkeep := models_keep h hf
      rw [hforgets hop] at hkeep
      exact hkeep
  | some op =>
      rw [hop] at hops
      have hmodels := models_keep h hf
      simp only [releaseOp_eq (h.op_mem hf hop)]
      exact inv_put h (ne_none_of_eq_some hf) rfl rfl rfl hops hmodels (fun _ => nofun) h.used

theorem inv_inactive (h : s.Inv) (hf : s.friends i = some f) :
    (s.setFriend i { f with subscribeActive := false }).Inv := by
  have hops := ops_keep h hf
  have hmodels := models_keep h hf
  exact inv_put h (ne_none_of_eq_some hf) rfl rfl rfl hops hmodels nofun h.used

theorem inv_salUnsubscribe (h : s.Inv) : (s.salUnsubscribe op).Inv := by
  unfold salUnsubscribe
  split
  · exact ⟨h.ops, h.models, h.active, h.listed, h.nodup, h.fresh, h.used⟩
  · exact h

theorem friends_salUnsubscribe : (s.salUnsubscribe op).friends = s.friends := by
  unfold salUnsubscribe
  split <;> rfl

theorem inv_unsubscribe (h : s.Inv) (hf : s.friends i = some f) :
    (s.friendUnsubscribe i f).Inv := by
  unfold friendUnsubscribe
  cases hop : f.outsub with
  | none => exact h
  | some op =>
      have hsal : (s.salUnsubscribe op).Inv := inv_salUnsubscribe h
      have hinactive := inv_inactive hsal (friends_salUnsubscribe ▸ hf)
      rw [hop] at hinactive
      simp only [useOp_eq (h.op_mem hf hop)]
      exact hinactive

theorem inv_invalidateSubscription (h : s.Inv) (hf : s.friends i = some f) :
    (s.friendInvalidateSubscription i f).Inv := by
  unfold friendInvalidateSubscription
  cases hop : f.outsub with
  | none => exact h
  | some op =>
      have hops := ops_drop h hf
      have hmodels := models_drop h hf
      rw [hop] at hops
      simp only [releaseOp_eq (h.op_mem hf hop)]
      rw [unrefModel_eq (s := { s with ops := s.ops.erase op }) fun m hm => h.model_mem hf hm]
      exact inv_put (s := s) h (ne_none_of_eq_some hf) rfl rfl rfl hops hmodels nofun h.used

theorem inv_updateSubscribes (h : s.Inv) (hf : s.friends i = some f) {proxy : Option Nat}
    {onlyWhenRegistered : Bool} {cfg : Option (Nat × Bool)}
    (hforgets : canSubscribe f proxy onlyWhenRegistered cfg = some true → f.subscribe = true →
      f.subscribeActive = false → f.outsub = none → f.received = none) :
    (s.friendUpdateSubscribes i f proxy onlyWhenRegistered cfg).Inv := by
  unfold friendUpdateSubscribes
  cases hcan : canSubscribe f proxy onlyWhenRegistered cfg with
  | none => exact h
  | some can =>
      simp only
      split
      · rename_i hgo
        refine inv_doSubscribe h hf (hforgets ?_ hgo.2.1 hgo.2.2)
        rw [hcan, hgo.1]
      · split
        · exact inv_unsubscribe h hf
        · split
          · rename_i op hop
            split
            · rw [useOp_eq (h.op_mem hf hop)]
              exact inv_inactive h hf
            · exact h
          · exact h

theorem friendDestroy_eq (h : s.Inv) (hf : s.friends i = some f) :
    s.friendDestroy i f =
      { s with
        friends := Function.update s.friends i none
        ops := Holding.drop s.ops f.outsub
        models := Holding.drop s.models f.received } := by
  unfold friendDestroy
  cases hop : f.outsub with
  | none =>
      simp only
      rw [unrefModel_eq fun m hm => h.model_mem hf hm]
      rfl
  | some op =>
      simp only [releaseOp_eq (h.op_mem hf hop)]
      rw [unrefModel_eq (s := { s with ops := s.ops.erase op }) fun m hm => h.model_mem hf hm]
      rfl

/-- A friend that is destroyed gives back what it has, and is not in the list any more. -/
theorem inv_destroy (h : s.Inv) (hf : s.friends i = some f) {list : List Nat}
    (hlist : list.Sublist s.list) (hi : i ∉ list) :
    Inv { s.friendDestroy i f with list := list } := by
  rw [friendDestroy_eq h hf]
  have hnone {α : Type} (g : PresenceFriend → Option α) :
      (fun j => (Function.update s.friends i none j).bind g) =
        Function.update (fun j => (s.friends j).bind g) i none := by
    funext j
    by_cases hj : j = i
    · subst hj
      simp
    · simp [hj]
  constructor
  · have hops := ops_drop h hf
    unfold outsubs at hops
    rw [← hnone] at hops
    exact hops
  · have hmodels := models_drop h hf
    unfold receivedModels at hmodels
    rw [← hnone] at hmodels
    exact hmodels
  · intro j f' hf'
    change Function.update s.friends i none j = some f' at hf'
    by_cases hj : j = i
    · subst hj
      rw [Function.update_self] at hf'
      exact absurd hf' (by simp)
    · rw [Function.update_of_ne hj] at hf'
      exact h.active j f' hf'
  · intro j hj
    change Function.update s.friends i none j ≠ none
    have hne : j ≠ i := fun heq => hi (heq ▸ hj)
    rw [Function.update_of_ne hne]
    exact h.listed j (hlist.subset hj)
  · exact h.nodup.sublist hlist
  · intro j hj
    change Function.update s.friends i none j = none
    by_cases heq : j = i
    · subst heq
      exact Function.update_self j none s.friends
    · rw [Function.update_of_ne heq]
      exact h.fresh j hj
  · exact h.used

theorem inv_addFriend (h : s.Inv) {uri : LinphoneAddress} {appRef : Bool} :
    (s.addFriend uri appRef).Inv := by
  have hnew : s.friends s.nextFriend = none := h.fresh _ (Nat.le_refl _)
  have hsame {α : Type} (g : PresenceFriend → Option α)
      (hg : g { uri := uri, appRef := appRef } = none) :
      (fun j => ((s.addFriend uri appRef).friends j).bind g) = fun j => (s.friends j).bind g := by
    funext j
    unfold addFriend
    by_cases hj : j = s.nextFriend
    · subst hj
      simp [hnew, hg]
    · simp [hj]
  constructor
  · have heq : (s.addFriend uri appRef).outsubs = s.outsubs := hsame _ rfl
    rw [heq]
    exact h.ops
  · have heq : (s.addFriend uri appRef).receivedModels = s.receivedModels := hsame _ rfl
    rw [heq]
    exact h.models
  · intro j f hf
    change Function.update s.friends s.nextFriend _ j = some f at hf
    by_cases hj : j = s.nextFriend
    · subst hj
      rw [Function.update_self] at hf
      rw [← Option.some.inj hf]
      exact nofun
    · rw [Function.update_of_ne hj] at hf
      exact h.active j f hf
  · intro j hj
    change Function.update s.friends s.nextFriend _ j ≠ none
    by_cases heq : j = s.nextFriend
    · subst heq
      rw [Function.update_self]
      exact Option.some_ne_none _
    · rw [Function.update_of_ne heq]
      rcases List.mem_append.mp hj with hold | hlast
      · exact h.listed j hold
      · exact absurd (List.mem_singleton.mp hlast) heq
  · refine List.nodup_append.mpr ⟨h.nodup, List.nodup_singleton _, fun j hj j' hj' heq => ?_⟩
    rw [heq, List.mem_singleton.mp hj'] at hj
    exact h.listed _ hj hnew
  · intro j hj
    change Function.update s.friends s.nextFriend _ j = none
    rw [Function.update_of_ne (Nat.ne_of_gt hj)]
    exact h.fresh j (Nat.le_of_succ_le hj)
  · exact h.used

theorem inv_list (h : s.Inv) {list : List Nat} (hlist : list.Sublist s.list) :
    Inv { s with list := list } :=
  ⟨h.ops, h.models, h.active, fun j hj => h.listed j (hlist.subset hj), h.nodup.sublist hlist,
    h.fresh, h.used⟩

theorem inv_removeFriend (h : s.Inv) : (s.removeFriend i).Inv := by
  unfold removeFriend
  split
  · rename_i hi
    obtain ⟨f, hf⟩ := Option.ne_none_iff_exists'.mp (h.listed i hi)
    simp only [withFriend_eq hf]
    have hnot : i ∉ s.list.erase i := fun hmem => ((h.nodup.mem_erase_iff).mp hmem).1 rfl
    split
    · exact inv_list h List.erase_sublist
    · have hsame : (s.friendDestroy i f).list = s.list := by
        rw [friendDestroy_eq h hf]
      rw [hsame]
      exact inv_destroy h hf List.erase_sublist hnot
  · exact h

theorem inv_unrefFriend (h : s.Inv) (hf : s.friends i = some f) : (s.unrefFriend i f).Inv := by
  unfold unrefFriend
  split
  · have hops := ops_keep h hf
    have hmodels := models_keep h hf
    exact inv_put h (ne_none_of_eq_some hf) rfl rfl rfl hops hmodels (h.active i f hf) h.used
  · rename_i hi
    have hdestroy := inv_destroy h hf (List.Sublist.refl _) hi
    rw [friendDestroy_eq h hf] at hdestroy ⊢
    exact hdestroy

theorem list_invalidateSubscription (h : s.Inv) (hf : s.friends i = some f) :
    (s.friendInvalidateSubscription i f).list = s.list := by
  unfold friendInvalidateSubscription
  cases hop : f.outsub with
  | none => rfl
  | some op =>
      simp only [releaseOp_eq (h.op_mem hf hop)]
      rw [unrefModel_eq (s := { s with ops := s.ops.erase op }) fun m hm => h.model_mem hf hm]
      rfl

theorem inv_invalidate (h : s.Inv) : s.invalidateFriendSubscriptions.Inv := by
  -- along the list, whose friends stay
  have hrun : ∀ (l : List Nat) (s : SubscriptionCore), s.Inv → (∀ i ∈ l, i ∈ s.list) →
      (l.foldl (fun s i => s.withFriend i (s.friendInvalidateSubscription i)) s).Inv := by
    intro l
    induction l with
    | nil => exact fun s h _ => h
    | cons i l ih =>
        intro s h hl
        obtain ⟨f, hf⟩ := Option.ne_none_iff_exists'.mp (h.listed i (hl i List.mem_cons_self))
        rw [List.foldl_cons, withFriend_eq hf]
        refine ih _ (inv_invalidateSubscription h hf) fun j hj => ?_
        rw [list_invalidateSubscription h hf]
        exact hl j (List.mem_cons_of_mem _ hj)
  exact hrun s.list s h fun i hi => hi

/-! ## Notifications -/

theorem receivePresence_friends (h : s.Inv) (hf : s.friends i = some f) (model : Bool) :
    ∃ f', (s.receivePresence i f model).friends = Function.update s.friends i (some f') ∧
      f'.outsub = f.outsub ∧ f'.subscribeActive = true ∧
      (s.receivePresence i f model).list = s.list ∧
      (s.receivePresence i f model).nextFriend = s.nextFriend ∧
      (s.receivePresence i f model).ops = s.ops ∧
      (s.receivePresence i f model).fault = false ∧
      Holding.Agree (·.friend) (s.receivePresence i f model).models
        (Function.update s.receivedModels i f'.received) := by
  unfold receivePresence
  rw [unrefModel_eq fun m hm => h.model_mem hf hm]
  cases model with
  | true =>
      have hmodels := h.models.replace ⟨s.nextModel, i⟩
      rw [receivedModels_eq hf] at hmodels
      exact ⟨_, rfl, rfl, rfl, rfl, rfl, rfl, h.used, hmodels⟩
  | false => exact ⟨_, rfl, rfl, rfl, rfl, rfl, rfl, h.used, models_drop h hf⟩

theorem inv_receivePresence (h : s.Inv) (hf : s.friends i = some f) (hop : f.outsub ≠ none)
    (model : Bool) : (s.receivePresence i f model).Inv := by
  obtain ⟨f', hfriends, hsame, -, hlist, hnext, hops, hfault, hmodels⟩ :=
    receivePresence_friends h hf model
  refine inv_put h (ne_none_of_eq_some hf) hfriends hlist hnext ?_ hmodels ?_ hfault
  · rw [hops, hsame]
    exact ops_keep h hf
  · rw [hsame]
    exact fun _ => hop

/-- A friend is told that its subscription ended, whose operation goes. -/
theorem inv_terminated (h : s.Inv) (hf : s.friends i = some f) {op : Option OutSubscription}
    (hop : f.outsub = op) (model : Bool) :
    ((s.receivePresence i f model).subscriptionTerminated (some i) op).Inv := by
  obtain ⟨f', hfriends, hsame, -, hlist, hnext, hops, hfault, hmodels⟩ :=
    receivePresence_friends h hf model
  generalize s.receivePresence i f model = t at hfriends hlist hnext hops hfault hmodels
  have hft : t.friends i = some f' := by
    rw [hfriends, Function.update_self]
  have hdrop := ops_drop h hf
  have hset (u : SubscriptionCore) (hu : u = { t with ops := Holding.drop s.ops f.outsub }) :
      (u.withFriend i fun f => u.setFriend i
        { f with outsub := none, subscribeActive := false }).Inv := by
    subst hu
    rw [withFriend_eq (s := { t with ops := Holding.drop s.ops f.outsub }) hft]
    have hput : Function.update t.friends i
        (some { f' with outsub := none, subscribeActive := false }) =
          Function.update s.friends i
            (some { f' with outsub := none, subscribeActive := false }) := by
      rw [hfriends, Function.update_idem]
    exact inv_put h (ne_none_of_eq_some hf) hput hlist hnext hdrop hmodels nofun hfault
  unfold subscriptionTerminated
  cases op with
  | none =>
      refine hset _ ?_
      rw [hop]
      change t = { t with ops := s.ops }
      rw [← hops]
  | some op =>
      refine hset _ ?_
      have hmem : op ∈ t.ops := by
        rw [hops]
        exact h.op_mem hf hop
      change t.releaseOp op = _
      rw [releaseOp_eq hmem, hop, hops]
      rfl

theorem mem_of_notifiedFriend {op : Option OutSubscription} {fromAddress : LinphoneAddress}
    (h : s.notifiedFriend op fromAddress = some i) : i ∈ s.list := by
  unfold notifiedFriend at h
  split at h
  · rename_i j hj
    obtain ⟨op, -, hfind⟩ := Option.bind_eq_some_iff.mp hj
    rw [← Option.some.inj h]
    exact List.mem_of_find?_eq_some hfind
  · split at h
    · exact List.mem_of_find?_eq_some h
    · exact absurd h (by simp)

/-- The friend of an operation is found when it is in the list. -/
theorem notifiedFriend_of_mem (h : s.Inv) (hop : op ∈ s.ops) (hi : op.friend ∈ s.list)
    (fromAddress : LinphoneAddress) :
    ∃ f, s.notifiedFriend (some op) fromAddress = some op.friend ∧
      s.friends op.friend = some f ∧ f.outsub = some op := by
  obtain ⟨f, hf, hout⟩ := Option.bind_eq_some_iff.mp (h.ops.held_eq hop)
  refine ⟨f, ?_, hf, hout⟩
  unfold notifiedFriend
  change (match s.list.find? fun i => (s.friends i).any fun f => f.outsub = some op with
    | some i => some i
    | none => _) = _
  cases hfind : s.list.find? fun i => (s.friends i).any fun f => f.outsub = some op with
  | none =>
      have hnot := List.find?_eq_none.mp hfind op.friend hi
      rw [hf] at hnot
      simp [hout] at hnot
  | some j =>
      have hj := List.find?_some hfind
      simp only [Option.any_eq_true] at hj
      obtain ⟨g, hg, hgout⟩ := hj
      have howner : op.friend = j := by
        refine h.ops.owner_eq ?_
        rw [outsubs_eq hg]
        exact of_decide_eq_true hgout
      exact congrArg some howner.symm

/-- **A notification keeps the invariant** when it is careful. -/
theorem inv_notifyRecv (h : s.Inv) {op : Option OutSubscription} {fromAddress : LinphoneAddress}
    {ss : NotifiedStatus} {model : Bool} (hop : ∀ o, op = some o → o ∈ s.ops)
    (hcareful : FriendStep.Careful s (.notify op fromAddress ss model)) :
    (s.notifyRecv op fromAddress ss model).Inv := by
  obtain ⟨hlisted, hfound⟩ := hcareful
  unfold notifyRecv
  cases hlf : s.notifiedFriend op fromAddress with
  | none =>
      cases ss with
      | active => exact h
      | terminated =>
          cases op with
          | none => exact h
          | some o =>
              obtain ⟨f, hfriend, -, -⟩ :=
                notifiedFriend_of_mem h (hop o rfl) (hlisted rfl o rfl) fromAddress
              rw [hfriend] at hlf
              exact absurd hlf (by simp)
  | some i =>
      obtain ⟨f, hf⟩ := Option.ne_none_iff_exists'.mp (h.listed i (mem_of_notifiedFriend hlf))
      simp only [withFriend_eq hf]
      cases ss with
      | active =>
          refine inv_receivePresence h hf ?_ model
          rcases hfound i f hlf hf with ⟨hne, heq⟩ | hiff
          · rw [heq]
            exact hne
          · exact fun hnone => absurd (hiff.mpr hnone) (by decide)
      | terminated =>
          refine inv_terminated h hf ?_ model
          cases op with
          | none =>
              rcases hfound i f hlf hf with ⟨hne, -⟩ | hiff
              · exact absurd rfl hne
              · exact hiff.mp rfl
          | some o =>
              -- the operation is the one of a friend in the list, who is found
              obtain ⟨g, hfriend, hg, hout⟩ :=
                notifiedFriend_of_mem h (hop o rfl) (hlisted rfl o rfl) fromAddress
              rw [hlf] at hfriend
              rw [← Option.some.inj hfriend, hf] at hg
              rw [Option.some.inj hg]
              exact hout

/-! ## Runs -/

/-- **A careful step keeps the invariant.** -/
theorem inv_after (h : s.Inv) (step : FriendStep) (hcareful : step.Careful s) :
    (s.after step).Inv := by
  have hon {i : Nat} {g : PresenceFriend → SubscriptionCore}
      (hg : ∀ f, s.friends i = some f → (g f).Inv) : (s.onFriend i g).Inv := by
    unfold onFriend
    cases hf : s.friends i with
    | none => exact h
    | some f => exact hg f hf
  cases step with
  | add uri appRef => exact inv_addFriend h
  | enableSubscribes i val =>
      refine hon fun f hf => ?_
      have hops := ops_keep h hf
      have hmodels := models_keep h hf
      exact inv_put h (ne_none_of_eq_some hf) rfl rfl rfl hops hmodels (h.active i f hf) h.used
  | accepted op =>
      change (if op ∈ s.ops then _ else s).Inv
      split
      · exact ⟨h.ops, h.models, h.active, h.listed, h.nodup, h.fresh, h.used⟩
      · exact h
  | updateSubscribes i proxy onlyWhenRegistered cfg =>
      exact hon fun f hf => inv_updateSubscribes h hf fun hcan => (hcareful f hf hcan).1
  | invalidate => exact inv_invalidate h
  | notify op fromAddress ss model =>
      cases op with
      | none => exact inv_notifyRecv h nofun hcareful
      | some op =>
          change (if op ∈ s.ops then _ else s).Inv
          split
          · rename_i hop
            exact inv_notifyRecv h (fun o ho => Option.some.inj ho ▸ hop) hcareful
          · exact h
  | remove i => exact inv_removeFriend h
  | unref i =>
      refine hon fun f hf => ?_
      split
      · exact inv_unrefFriend h hf
      · exact h

theorem inv_start (allow : Bool) : Inv { allowOutOfSubscribePresence := allow } where
  ops := Holding.Agree.empty
  models := Holding.Agree.empty
  active := fun _ f hf => absurd hf.symm (Option.some_ne_none f)
  listed := fun _ hi => absurd hi List.not_mem_nil
  nodup := List.nodup_nil
  fresh := fun _ _ => rfl
  used := rfl

theorem inv_of_run (h : FriendRun (fun s step => step.Careful s) s) : s.Inv := by
  induction h with
  | start allow => exact inv_start allow
  | step _ hstep ih => exact inv_after ih _ hstep

/-- **An update closes the subscription of a friend that does not subscribe** when it is careful. -/
theorem closes_of_careful (h : s.Inv) (step : FriendStep) (hcareful : step.Careful s) :
    step.Closes s := by
  cases step with
  | updateSubscribes i proxy onlyWhenRegistered cfg =>
      intro f hf hoff hcan f' hf' op hop
      have hclose := (hcareful f hf hcan).2 hoff
      have hafter : s.after (.updateSubscribes i proxy onlyWhenRegistered cfg) =
          if f.subscribeActive = true then s.friendUnsubscribe i f else s := by
        change s.onFriend i _ = _
        unfold onFriend friendUpdateSubscribes
        rw [hf]
        simp only [hcan, hoff]
        cases f.subscribeActive with
        | true => rfl
        | false => cases f.outsub <;> rfl
      rw [hafter] at hf' ⊢
      by_cases hactive : f.subscribeActive = true
      · rw [if_pos hactive] at hf' ⊢
        unfold friendUnsubscribe at hf' ⊢
        cases hout : f.outsub with
        | none =>
            rw [hout, hf] at hf'
            rw [← Option.some.inj hf', hout] at hop
            exact absurd hop (by simp)
        | some o =>
            simp only [hout, setFriend, Function.update_self] at hf'
            rw [← Option.some.inj hf'] at hop
            rw [← Option.some.inj hop]
            change ((s.useOp o).salUnsubscribe o).unsubscribed o.id = true
            rw [useOp_eq (h.op_mem hf hout)]
            unfold salUnsubscribe
            split
            · exact Function.update_self _ _ _
            · rename_i hrefresher
              exact (hclose o hout).resolve_right fun hboth => hrefresher hboth.2
      · rw [if_neg hactive] at hf' ⊢
        rw [← Option.some.inj (hf.symm.trans hf')] at hop
        exact (hclose op hop).resolve_right fun hboth => hactive hboth.1
  | _ => exact trivial

end inv

end SubscriptionCore

/-- **As long as steps are careful, friends keep their operations and models, and subscriptions are
closed.** -/
theorem subscriptions_of_run {s : SubscriptionCore}
    (h : FriendRun (fun s step => step.Careful s) s) :
    s.Sound ∧ ∀ step : FriendStep, step.Careful s → step.Closes s :=
  ⟨(SubscriptionCore.inv_of_run h).sound,
    fun step hcareful =>
      SubscriptionCore.closes_of_careful (SubscriptionCore.inv_of_run h) step hcareful⟩

/-! ## Runs that are tried -/

/-- The steps in turn. -/
def SubscriptionCore.run (s : SubscriptionCore) (steps : List FriendStep) : SubscriptionCore :=
  steps.foldl SubscriptionCore.after s

theorem run_of_all {P : SubscriptionCore → FriendStep → Prop} (hall : ∀ s step, P s step)
    {s : SubscriptionCore} (h : FriendRun P s) (steps : List FriendStep) :
    FriendRun P (s.run steps) := by
  induction steps generalizing s with
  | nil => exact h
  | cons step steps ih => exact ih (h.step (hall s step))

def marieAddress : LinphoneAddress :=
  { uri := .sip { user := some "marie", host := some "sip.example.org" } }

/-- A friend is added and subscribed to, and the subscription is accepted. -/
def subscribedSteps : List FriendStep :=
  [.add marieAddress false, .updateSubscribes 0 none true (some (0, true)), .accepted ⟨0, 0⟩]

theorem subscribed_sound :
    ((SubscriptionCore.after {} (.add marieAddress false)).after
      (.updateSubscribes 0 none true (some (0, true)))).Sound := by
  have hupdate : (FriendStep.updateSubscribes 0 none true (some (0, true))).Careful
      (SubscriptionCore.after {} (.add marieAddress false)) := by
    intro f hf _
    have hfriend : f = { uri := marieAddress } := (Option.some.inj hf).symm
    subst hfriend
    exact ⟨fun _ _ _ => rfl, nofun⟩
  exact (subscriptions_of_run (((FriendRun.start false).step trivial).step hupdate)).1

/-- The subscription is terminated with a notification, and the friend is subscribed to again: the
model of the notification is forgotten. -/
theorem model_forgotten :
    ¬∀ s : SubscriptionCore, FriendRun (fun _ _ => True) s →
      s.Sound ∧ ∀ step : FriendStep, step.Closes s := by
  intro h
  let steps : List FriendStep := subscribedSteps ++
    [.notify (some ⟨0, 0⟩) marieAddress .terminated true,
      .updateSubscribes 0 none true (some (0, true))]
  have hrun := run_of_all (fun _ _ => trivial) (FriendRun.start false) steps
  obtain ⟨i, f, hf, hreceived⟩ := (h _ hrun).1.lost ⟨0, 0⟩ (by decide)
  cases i with
  | zero =>
      have hfriend : f = { uri := marieAddress, subscribeActive := true, outsub := some ⟨1, 0⟩ } :=
        (Option.some.inj hf).symm
      rw [hfriend] at hreceived
      exact absurd hreceived (by decide)
  | succ i =>
      have hnone : (SubscriptionCore.run {} steps).friends (i + 1) = none := rfl
      exact absurd (hnone.symm.trans hf) (by simp)

end Linphone
