import Mathlib.Algebra.Group.Nat.Defs
import Mathlib.Logic.Function.Basic
import Rialto.Lib.OrdMap
import Rialto.Lib.Runs

/-! # The subscriptions of the client modules

The modules of the client (`MediaPipelineIpc`, `MediaKeysIpc`, `WebAudioPlayerIpc` and the two for
capabilities) are `IpcModule` objects. A module attaches to the channel and subscribes to its events
in its constructor, again when the channel has been lost, and unsubscribes when it detaches; a
handler holds the address of its module. After attaching, three of the constructors ask the server
for a session and throw if they get none.

An operation of a module is one step, with the outcome of every call it makes. A channel that is no
longer connected reads nothing more. Objects are numbered as they are constructed.

* `attachChannel`, `detachChannel`, `reattachChannelIfRequired`, `construct`, `destroy`.
* `Sound`: the handlers of an existing module are on its channel, under tags that it knows.
* `NoDangling`: the handlers on a connected channel belong to existing modules.
* `no_dangling_iff`: there is never a dangling handler, and no event calls into a destroyed module,
  exactly when no constructor that gets to ask the server is refused. -/

namespace Rialto.Ipc.Subscriptions

open Rialto.Lib.OrdMap Rialto.Lib.Runs

/-! ## Channels -/

inductive EventName
  | playbackStateChangeEvent
  | positionChangeEvent
  | networkStateChangeEvent
  | needMediaDataEvent
  | qosEvent
  | licenseRequestEvent
  | licenseRenewalEvent
  | keyStatusesChangedEvent
  | webAudioPlayerStateEvent
  deriving DecidableEq, Repr

/-- An entry of `m_eventHandlers`, with the module that its handler calls. -/
structure Handler where
  eventName : EventName
  id : ℕ
  object : ℕ
  deriving DecidableEq, Repr

/-- A `ChannelImpl`. -/
structure Channel where
  connected : Bool
  eventTagCounter : ℕ
  eventHandlers : List Handler
  deriving DecidableEq, Repr

def Channel.fresh : Channel := ⟨true, 1, []⟩

/-- `subscribe`, for the events in their order, with the tags. -/
def Channel.subscribe (ch : Channel) (object : ℕ) : List EventName → Channel × List ℕ
  | [] => (ch, [])
  | e :: es =>
    let tag := ch.eventTagCounter
    let r := Channel.subscribe
      { ch with
        eventTagCounter := tag + 1
        eventHandlers := ch.eventHandlers ++ [⟨e, tag, object⟩] } object es
    (r.1, tag :: r.2)

/-- `unsubscribe` removes the first handler with the tag. -/
def Channel.unsubscribe (ch : Channel) (eventTag : ℕ) : Channel :=
  { ch with eventHandlers := ch.eventHandlers.eraseP (·.id == eventTag) }

/-! ## Modules -/

inductive Kind
  | mediaPipeline
  | mediaKeys
  | webAudioPlayer
  | mediaPipelineCapabilities
  | mediaKeysCapabilities
  deriving DecidableEq, Repr

/-- What `subscribeToEvents` subscribes to. -/
def Kind.events : Kind → List EventName
  | .mediaPipeline => [.playbackStateChangeEvent, .positionChangeEvent, .networkStateChangeEvent,
      .needMediaDataEvent, .qosEvent]
  | .mediaKeys => [.licenseRequestEvent, .licenseRenewalEvent, .keyStatusesChangedEvent]
  | .webAudioPlayer => [.webAudioPlayerStateEvent]
  | .mediaPipelineCapabilities => []
  | .mediaKeysCapabilities => []

/-- Whether the constructor asks the server: `createSession`, `createMediaKeys` and
`createWebAudioPlayer`. -/
def Kind.creates : Kind → Bool
  | .mediaPipeline => true
  | .mediaKeys => true
  | .webAudioPlayer => true
  | .mediaPipelineCapabilities => false
  | .mediaKeysCapabilities => false

/-- An `IpcModule`. -/
structure Module where
  kind : Kind
  ipcChannel : Option ℕ
  eventTags : List ℕ
  deriving DecidableEq, Repr

def Module.fresh (kind : Kind) : Module := ⟨kind, none, []⟩

/-- What the calls in `attachChannel` return. -/
structure Attach where
  getChannel : Option ℕ
  createRpcStubs : Bool
  deriving DecidableEq, Repr

/-- `attachChannel`. The tags are not negative, so `subscribeToEvents` succeeds. -/
def attachChannel (channels : OMap ℕ Channel) (object : ℕ) (m : Module) (o : Attach) :
    Bool × OMap ℕ Channel × Module :=
  match o.getChannel with
  | none => (false, channels, { m with ipcChannel := none })
  | some c =>
    match channels.find? c with
    | none => (false, channels, { m with ipcChannel := none })
    | some ch =>
      if ch.connected ∧ o.createRpcStubs then
        (true, channels.insert c (ch.subscribe object m.kind.events).1,
          { m with
            ipcChannel := some c
            eventTags := m.eventTags ++ (ch.subscribe object m.kind.events).2 })
      else (false, channels, { m with ipcChannel := none })

/-- `detachChannel`, with `unsubscribeFromAllEvents`. -/
def detachChannel (channels : OMap ℕ Channel) (m : Module) : OMap ℕ Channel × Module :=
  match m.ipcChannel with
  | none => (channels, m)
  | some c =>
    match channels.find? c with
    | none => (channels, { m with ipcChannel := none, eventTags := [] })
    | some ch =>
      (channels.insert c (m.eventTags.foldl Channel.unsubscribe ch),
        { m with ipcChannel := none, eventTags := [] })

def isConnected (channels : OMap ℕ Channel) (c : ℕ) : Bool :=
  (channels.find? c).any (·.connected)

/-- The module has a channel, and it is connected. -/
def isAttached (channels : OMap ℕ Channel) (m : Module) : Bool :=
  m.ipcChannel.any (isConnected channels)

def reattachChannelIfRequired (channels : OMap ℕ Channel) (object : ℕ) (m : Module) (o : Attach) :
    Bool × OMap ℕ Channel × Module :=
  if isAttached channels m then (true, channels, m)
  else attachChannel (detachChannel channels m).1 object (detachChannel channels m).2 o

/-! ## The client -/

/-- The channels and the modules that have been constructed, and the calls that events have made:
the object, and whether it existed. -/
structure State where
  channels : OMap ℕ Channel
  modules : OMap ℕ Module
  nextChannel : ℕ
  nextObject : ℕ
  calls : List (ℕ × Bool)

def init : State := ⟨OMap.empty, OMap.empty, 0, 0, []⟩

/-- How the request of a constructor to the server ends; `lost` is with the channel. -/
inductive Create
  | created
  | refused
  | lost
  deriving DecidableEq, Repr

/-- What happens in a constructor: whether the `IpcClient` and the event thread are there, the two
times it may attach, whether the channel is lost between them, and the request. -/
structure Construction where
  ready : Bool
  attach : Attach
  lost : Bool
  reattach : Attach
  create : Create
  deriving DecidableEq, Repr

def disconnect (channels : OMap ℕ Channel) (c : ℕ) : OMap ℕ Channel :=
  match channels.find? c with
  | none => channels
  | some ch => channels.insert c { ch with connected := false }

/-- The channel of the module is lost. -/
def loseChannel (channels : OMap ℕ Channel) (m : Module) : OMap ℕ Channel :=
  match m.ipcChannel with
  | none => channels
  | some c => disconnect channels c

/-- `createSession`, `createMediaKeys` or `createWebAudioPlayer` in a constructor: the channels it
leaves, and the module, unless the constructor throws. -/
def create (channels : OMap ℕ Channel) (object : ℕ) (m : Module) (o : Construction) :
    OMap ℕ Channel × Option Module :=
  match reattachChannelIfRequired (if o.lost then loseChannel channels m else channels) object m
    o.reattach with
  | (false, channels, _) => (channels, none)
  | (true, channels, m) =>
    match o.create with
    | .created => (channels, some m)
    | .refused => (channels, none)
    | .lost => (loseChannel channels m, none)

/-- The constructors. When one throws, the members are destroyed, and `~IpcModule` unsubscribes
from nothing. -/
def constructed (channels : OMap ℕ Channel) (object : ℕ) (kind : Kind) (o : Construction) :
    OMap ℕ Channel × Option Module :=
  if o.ready then
    match attachChannel channels object (Module.fresh kind) o.attach with
    | (false, channels, _) => (channels, none)
    | (true, channels, m) =>
      if kind.creates then create channels object m o else (channels, some m)
  else (channels, none)

def construct (s : State) (kind : Kind) (o : Construction) : State :=
  match constructed s.channels s.nextObject kind o with
  | (channels, some m) =>
    { s with
      channels
      modules := s.modules.insert s.nextObject m
      nextObject := s.nextObject + 1 }
  | (channels, none) => { s with channels, nextObject := s.nextObject + 1 }

/-- The destructor: the modules that have asked the server for something give it back, whether or
not they still reach it. -/
def destroy (s : State) (object : ℕ) (m : Module) (o : Attach) : State :=
  match (if m.kind.creates then (reattachChannelIfRequired s.channels object m o).2
    else (s.channels, m)) with
  | (channels, m) =>
    { s with channels := (detachChannel channels m).1, modules := s.modules.erase object }

/-- `processEventFromServer` calls the handlers for the event. -/
def processEventFromServer (s : State) (ch : Channel) (eventName : EventName) : State :=
  let called := ch.eventHandlers.filter (·.eventName = eventName)
  { s with
    calls := s.calls ++ (called.map fun h => (h.object, (s.modules.find? h.object).isSome)) }

/-- The steps. `reattach` is in every call of a module, and `release` destroys a channel that
nobody holds any more. -/
inductive Act
  | connect
  | disconnect (channel : ℕ)
  | release (channel : ℕ)
  | construct (kind : Kind) (o : Construction)
  | reattach (object : ℕ) (o : Attach)
  | destroy (object : ℕ) (o : Attach)
  | event (channel : ℕ) (eventName : EventName)
  deriving DecidableEq, Repr

/-- No operation brings a tag counter, an `int`, to its limit. -/
def Counting (s : State) : Prop := ∀ e ∈ s.channels.entries, e.2.eventTagCounter + 10 < 2 ^ 31

instance (s : State) : Decidable (Counting s) := by
  unfold Counting
  infer_instance

def act (s : State) : Act → Option State
  | .connect =>
    some { s with
      channels := s.channels.insert s.nextChannel Channel.fresh
      nextChannel := s.nextChannel + 1 }
  | .disconnect c => some { s with channels := Subscriptions.disconnect s.channels c }
  | .release c =>
    if ∀ e ∈ s.modules.entries, e.2.ipcChannel ≠ some c then
      some { s with channels := s.channels.erase c }
    else none
  | .construct kind o => some (Subscriptions.construct s kind o)
  | .reattach object o =>
    (s.modules.find? object).map fun m =>
      { s with
        channels := (reattachChannelIfRequired s.channels object m o).2.1
        modules := s.modules.insert object
          (reattachChannelIfRequired s.channels object m o).2.2 }
  | .destroy object o =>
    (s.modules.find? object).map fun m => Subscriptions.destroy s object m o
  | .event c eventName =>
    match s.channels.find? c with
    | some ch => if ch.connected then some (processEventFromServer s ch eventName) else none
    | none => none

/-- Where a counter would overflow, nothing is defined. -/
def step (s : State) (a : Act) : Option State := if Counting s then act s a else none

/-! ## Tags -/

section Channels

variable {ch : Channel} {object : ℕ}

/-- The handlers have different tags, and the next tag is new. -/
structure Channel.Tagged (ch : Channel) : Prop where
  nodup : (ch.eventHandlers.map Handler.id).Nodup
  lt : ∀ h ∈ ch.eventHandlers, h.id < ch.eventTagCounter

theorem Channel.tagged_fresh : Channel.fresh.Tagged := ⟨List.nodup_nil, fun _ h => by cases h⟩

theorem Channel.Tagged.subscribe : ∀ {ch : Channel}, ch.Tagged → ∀ es : List EventName,
    (ch.subscribe object es).1.Tagged
  | _, h, [] => h
  | ch, h, e :: es => by
    refine Channel.Tagged.subscribe ⟨?_, fun x hx => ?_⟩ es
    · rw [List.map_append, List.nodup_append]
      refine ⟨h.nodup, List.nodup_singleton _, fun i hi j hj => ?_⟩
      obtain ⟨x, hx, rfl⟩ := List.mem_map.mp hi
      cases List.mem_singleton.mp hj
      exact Nat.ne_of_lt (h.lt x hx)
    · rcases List.mem_append.mp hx with hx | hx
      · exact Nat.lt_succ_of_lt (h.lt x hx)
      · cases List.mem_singleton.mp hx
        exact Nat.lt_succ_self _

@[simp] theorem Channel.subscribe_connected : ∀ (es : List EventName) {ch : Channel},
    (ch.subscribe object es).1.connected = ch.connected
  | [], _ => rfl
  | _ :: es, _ => Channel.subscribe_connected es

/-- A subscription keeps the handlers there are and adds some of its module, under its tags. -/
theorem Channel.mem_subscribe : ∀ (es : List EventName) {ch : Channel} {x : Handler},
    x ∈ (ch.subscribe object es).1.eventHandlers →
      x ∈ ch.eventHandlers ∨ x.object = object ∧ x.id ∈ (ch.subscribe object es).2
  | [], _, _, hx => Or.inl hx
  | e :: es, ch, x, hx => by
    rcases Channel.mem_subscribe es hx with hx | ⟨hobject, hid⟩
    · rcases List.mem_append.mp hx with hx | hx
      · exact Or.inl hx
      · cases List.mem_singleton.mp hx
        exact Or.inr ⟨rfl, List.mem_cons_self ..⟩
    · exact Or.inr ⟨hobject, List.mem_cons_of_mem _ hid⟩

theorem Channel.subset_subscribe : ∀ (es : List EventName) {ch : Channel} {x : Handler},
    x ∈ ch.eventHandlers → x ∈ (ch.subscribe object es).1.eventHandlers
  | [], _, _, hx => hx
  | _ :: es, _, _, hx => Channel.subset_subscribe es (List.mem_append_left _ hx)

/-- Who subscribes to something has a handler. -/
theorem Channel.exists_subscribe {es : List EventName} (hes : es ≠ []) (ch : Channel)
    (object : ℕ) :
    ∃ x ∈ (ch.subscribe object es).1.eventHandlers, x.object = object := by
  rcases es with _ | ⟨e, es⟩
  · exact absurd rfl hes
  · refine ⟨⟨e, ch.eventTagCounter, object⟩, ?_, rfl⟩
    exact Channel.subset_subscribe es (List.mem_append_right _ (List.mem_singleton_self _))

theorem mem_eraseP_id {tag : ℕ} {x : Handler} : ∀ {l : List Handler},
    (l.map Handler.id).Nodup → (x ∈ l.eraseP (·.id == tag) ↔ x ∈ l ∧ x.id ≠ tag)
  | [], _ => by simp
  | y :: l, h => by
    rw [List.map_cons, List.nodup_cons] at h
    have hne : ∀ z ∈ l, z.id ≠ y.id := fun z hz heq => h.1 (heq ▸ List.mem_map_of_mem hz)
    by_cases hy : y.id = tag
    · have hbeq : (y.id == tag) = true := beq_iff_eq.mpr hy
      simp only [List.eraseP_cons, hbeq, cond_true, List.mem_cons]
      constructor
      · exact fun hx => ⟨Or.inr hx, hy ▸ hne x hx⟩
      · rintro ⟨rfl | hx, hid⟩
        · exact absurd hy hid
        · exact hx
    · have hbeq : (y.id == tag) = false := beq_eq_false_iff_ne.mpr hy
      simp only [List.eraseP_cons, hbeq, cond_false, List.mem_cons, mem_eraseP_id h.2]
      constructor
      · rintro (rfl | ⟨hx, hid⟩)
        · exact ⟨Or.inl rfl, hy⟩
        · exact ⟨Or.inr hx, hid⟩
      · rintro ⟨rfl | hx, hid⟩
        · exact Or.inl rfl
        · exact Or.inr ⟨hx, hid⟩

theorem Channel.Tagged.unsubscribe (h : ch.Tagged) (tag : ℕ) : (ch.unsubscribe tag).Tagged where
  nodup := h.nodup.sublist ((List.eraseP_sublist).map Handler.id)
  lt := fun x hx => h.lt x (List.eraseP_sublist.subset hx)

/-- What is left when the tags of a module are unsubscribed. -/
theorem Channel.unsubscribeAll_spec : ∀ (tags : List ℕ) {ch : Channel}, ch.Tagged →
    (tags.foldl Channel.unsubscribe ch).Tagged ∧
      (tags.foldl Channel.unsubscribe ch).connected = ch.connected ∧
      ∀ x, x ∈ (tags.foldl Channel.unsubscribe ch).eventHandlers ↔
        x ∈ ch.eventHandlers ∧ x.id ∉ tags
  | [], _, h => ⟨h, rfl, fun _ => by simp⟩
  | tag :: tags, ch, h => by
    obtain ⟨htagged, hconnected, hmem⟩ :=
      Channel.unsubscribeAll_spec tags (h.unsubscribe tag)
    refine ⟨htagged, hconnected, fun x => (hmem x).trans ?_⟩
    rw [show x ∈ (ch.unsubscribe tag).eventHandlers ↔ x ∈ ch.eventHandlers ∧ x.id ≠ tag from
      mem_eraseP_id h.nodup, List.mem_cons, not_or, and_assoc]

end Channels

/-! ## Modules and their handlers -/

/-- The channels with the modules that exist: the handlers of a module are on its channel, under
tags that it knows. -/
structure Sound (channels : OMap ℕ Channel) (modules : ℕ → Option Module) : Prop where
  tagged : ∀ c ch, channels.find? c = some ch → ch.Tagged
  registered : ∀ c ch, channels.find? c = some ch → ∀ x ∈ ch.eventHandlers, ∀ m,
    modules x.object = some m → m.ipcChannel = some c ∧ x.id ∈ m.eventTags
  detached : ∀ object m, modules object = some m → m.ipcChannel = none → m.eventTags = []

/-- The handlers on a connected channel belong to existing modules. -/
def NoDangling (channels : OMap ℕ Channel) (modules : ℕ → Option Module) : Prop :=
  ∀ c ch, channels.find? c = some ch → ch.connected = true → ∀ x ∈ ch.eventHandlers,
    (modules x.object).isSome

/-- The modules with one more, or with another state of one. -/
def put (modules : ℕ → Option Module) (object : ℕ) (m : Module) : ℕ → Option Module :=
  Function.update modules object (some m)

section Operations

variable {channels : OMap ℕ Channel} {modules : ℕ → Option Module} {object : ℕ} {m : Module}
  {o : Attach} {c : ℕ}

@[simp] theorem put_self : put modules object m object = some m := Function.update_self ..

theorem put_of_ne {object' : ℕ} (h : object' ≠ object) :
    put modules object m object' = modules object' := Function.update_of_ne h _ _

theorem isSome_put (modules : ℕ → Option Module) (object : ℕ) (m m' : Module) (object' : ℕ) :
    (put modules object m object').isSome = (put modules object m' object').isSome := by
  by_cases h : object' = object
  · rw [h, put_self, put_self]
    rfl
  · rw [put_of_ne h, put_of_ne h]

/-- A module without a channel has no handlers. -/
theorem Sound.no_handler (h : Sound channels modules) (hm : modules object = some m)
    (hnone : m.ipcChannel = none) {ch : Channel} (hc : channels.find? c = some ch) {x : Handler}
    (hx : x ∈ ch.eventHandlers) : x.object ≠ object := by
  rintro rfl
  have hreg := (h.registered c ch hc x hx m hm).1
  rw [hnone] at hreg
  cases hreg

/-- The handlers of the channels become fewer, or the channels are lost. -/
theorem Sound.anti {channels' : OMap ℕ Channel} (h : Sound channels modules)
    (hsub : ∀ c ch', channels'.find? c = some ch' → ch'.Tagged ∧
      ∀ x ∈ ch'.eventHandlers, ∃ ch, channels.find? c = some ch ∧ x ∈ ch.eventHandlers) :
    Sound channels' modules where
  tagged := fun c ch' hc => (hsub c ch' hc).1
  registered := by
    intro c ch' hc x hx m hm
    obtain ⟨ch, hch, hx'⟩ := (hsub c ch' hc).2 x hx
    exact h.registered c ch hch x hx' m hm
  detached := h.detached

theorem find?_disconnect {c' : ℕ} {ch' : Channel}
    (h : (disconnect channels c').find? c = some ch') :
    ∃ ch, channels.find? c = some ch ∧ ch'.eventHandlers = ch.eventHandlers ∧
      ch'.eventTagCounter = ch.eventTagCounter ∧ (ch'.connected = true → c ≠ c' ∧ ch' = ch) := by
  unfold disconnect at h
  rcases hc' : channels.find? c' with _ | ch
  · rw [hc'] at h
    refine ⟨ch', h, rfl, rfl, fun _ => ⟨?_, rfl⟩⟩
    rintro rfl
    rw [hc'] at h
    cases h
  · simp only [hc', OMap.find?_insert] at h
    by_cases hcc : c = c'
    · rw [if_pos hcc] at h
      cases h
      exact ⟨ch, hcc ▸ hc', rfl, rfl, fun hf => by cases hf⟩
    · rw [if_neg hcc] at h
      exact ⟨ch', h, rfl, rfl, fun _ => ⟨hcc, rfl⟩⟩

theorem Sound.disconnect (h : Sound channels modules) (c' : ℕ) :
    Sound (disconnect channels c') modules := by
  refine h.anti fun c ch' hc => ?_
  obtain ⟨ch, hch, hhandlers, hcounter, -⟩ := find?_disconnect hc
  have htagged := h.tagged c ch hch
  refine ⟨⟨by rw [hhandlers]; exact htagged.nodup, ?_⟩, fun x hx => ⟨ch, hch, hhandlers ▸ hx⟩⟩
  rw [hhandlers, hcounter]
  exact htagged.lt

theorem NoDangling.disconnect (h : NoDangling channels modules) (c' : ℕ) :
    NoDangling (Subscriptions.disconnect channels c') modules := by
  intro c ch' hc hconnected x hx
  obtain ⟨ch, hch, -, -, hsame⟩ := find?_disconnect hc
  obtain ⟨-, rfl⟩ := hsame hconnected
  exact h c ch' hch hconnected x hx

/-- The channel is there and connected, and the stubs can be made. -/
def Usable (channels : OMap ℕ Channel) (o : Attach) (c : ℕ) : Prop :=
  o.getChannel = some c ∧ o.createRpcStubs = true ∧ isConnected channels c = true

/-- **Attaching.** -/
theorem attachChannel_cases (channels : OMap ℕ Channel) (object : ℕ) (m : Module) (o : Attach) :
    (∃ c ch, Usable channels o c ∧ channels.find? c = some ch ∧ ch.connected = true ∧
      attachChannel channels object m o =
        (true, channels.insert c (ch.subscribe object m.kind.events).1,
          { m with
            ipcChannel := some c
            eventTags := m.eventTags ++ (ch.subscribe object m.kind.events).2 })) ∨
      (∀ c, ¬ Usable channels o c) ∧
        attachChannel channels object m o = (false, channels, { m with ipcChannel := none }) := by
  unfold attachChannel
  rcases hget : o.getChannel with _ | c
  · refine Or.inr ⟨fun c hu => ?_, rfl⟩
    cases hget.symm.trans hu.1
  · rcases hc : channels.find? c with _ | ch
    · refine Or.inr ⟨?_, by simp only [hc]⟩
      rintro c' ⟨hget', -, hconnected⟩
      cases hget.symm.trans hget'
      rw [isConnected, hc] at hconnected
      cases hconnected
    · by_cases hgood : ch.connected = true ∧ o.createRpcStubs = true
      · refine Or.inl ⟨c, ch, ⟨hget, hgood.2, ?_⟩, hc, hgood.1, ?_⟩
        · rw [isConnected, hc]
          exact hgood.1
        · simp only [hc, if_pos hgood]
      · refine Or.inr ⟨?_, by simp only [hc, if_neg hgood]⟩
        rintro c' ⟨hget', hstubs, hconnected⟩
        cases hget.symm.trans hget'
        rw [isConnected, hc] at hconnected
        exact hgood ⟨hconnected, hstubs⟩

/-- A module without a channel attaches to one. -/
theorem Sound.attach (h : Sound channels (put modules object m)) (hnone : m.ipcChannel = none) :
    Sound (attachChannel channels object m o).2.1
      (put modules object (attachChannel channels object m o).2.2) := by
  have htags : m.eventTags = [] := h.detached object m put_self hnone
  have hno : ∀ {c ch} {x : Handler}, channels.find? c = some ch → x ∈ ch.eventHandlers →
      x.object ≠ object := fun hc hx => h.no_handler put_self hnone hc hx
  rcases attachChannel_cases channels object m o with ⟨c, ch, -, hc, -, heq⟩ | ⟨-, heq⟩
  · rw [heq]
    refine ⟨fun c' ch' hc' => ?_, fun c' ch' hc' x hx m' hm' => ?_, fun object' m' hm' hn => ?_⟩
    · rw [OMap.find?_insert] at hc'
      split_ifs at hc' with hcc
      · cases hc'
        exact (h.tagged c ch hc).subscribe _
      · exact h.tagged c' ch' hc'
    · rw [OMap.find?_insert] at hc'
      split_ifs at hc' with hcc
      · cases hc'
        rcases Channel.mem_subscribe _ hx with hx | ⟨hobject, hid⟩
        · rw [put_of_ne (hno hc hx)] at hm'
          have := h.registered c ch hc x hx m' (by rw [put_of_ne (hno hc hx)]; exact hm')
          exact hcc ▸ this
        · rw [hobject, put_self] at hm'
          cases hm'
          exact ⟨congrArg some hcc.symm, List.mem_append_right _ hid⟩
      · rw [put_of_ne (hno hc' hx)] at hm'
        exact h.registered c' ch' hc' x hx m' (by rw [put_of_ne (hno hc' hx)]; exact hm')
    · by_cases hobject : object' = object
      · rw [hobject, put_self] at hm'
        cases hm'
        cases hn
      · rw [put_of_ne hobject] at hm'
        exact h.detached object' m' (by rw [put_of_ne hobject]; exact hm') hn
  · rw [heq]
    have hm : ({ m with ipcChannel := none } : Module) = m := by rw [← hnone]
    simp only [hm]
    exact h

theorem NoDangling.attach (h : NoDangling channels (put modules object m)) :
    NoDangling (attachChannel channels object m o).2.1
      (put modules object (attachChannel channels object m o).2.2) := by
  intro c' ch' hc' hconnected x hx
  rw [isSome_put modules object _ m]
  rcases attachChannel_cases channels object m o with ⟨c, ch, -, hc, hcon, heq⟩ | ⟨-, heq⟩
  · rw [heq] at hc'
    simp only [OMap.find?_insert] at hc'
    split_ifs at hc' with hcc
    · cases hc'
      rcases Channel.mem_subscribe _ hx with hx | ⟨hobject, -⟩
      · exact h c ch hc hcon x hx
      · rw [hobject, put_self]
        rfl
    · exact h c' ch' hc' hconnected x hx
  · rw [heq] at hc'
    exact h c' ch' hc' hconnected x hx

/-- **Detaching.** -/
theorem detachChannel_spec (h : Sound channels (put modules object m)) :
    (detachChannel channels m).2 = { m with ipcChannel := none, eventTags := [] } ∧
      ∀ c ch', (detachChannel channels m).1.find? c = some ch' → ch'.Tagged ∧
        ∃ ch, channels.find? c = some ch ∧ ch'.connected = ch.connected ∧
          ∀ x ∈ ch'.eventHandlers, x ∈ ch.eventHandlers ∧ x.object ≠ object := by
  unfold detachChannel
  rcases hchannel : m.ipcChannel with _ | c
  · have htags := h.detached object m put_self hchannel
    have hm : ({ m with ipcChannel := none, eventTags := [] } : Module) = m := by
      rw [← hchannel, ← htags]
    refine ⟨hm.symm, fun c ch hc => ⟨h.tagged c ch hc, ch, hc, rfl, ?_⟩⟩
    exact fun x hx => ⟨hx, h.no_handler put_self hchannel hc hx⟩
  · have hother : ∀ {c' ch} {x : Handler}, channels.find? c' = some ch → x ∈ ch.eventHandlers →
        x.object = object → c' = c ∧ x.id ∈ m.eventTags := by
      intro c' ch x hc' hx hobject
      have hreg := h.registered c' ch hc' x hx m (by rw [hobject, put_self])
      rw [hchannel] at hreg
      exact ⟨(Option.some.inj hreg.1).symm, hreg.2⟩
    rcases hc : channels.find? c with _ | ch
    · refine ⟨by simp only [hc], fun c' ch' hc' => ?_⟩
      simp only [hc] at hc'
      refine ⟨h.tagged c' ch' hc', ch', hc', rfl, fun x hx => ⟨hx, fun hobject => ?_⟩⟩
      rw [(hother hc' hx hobject).1, hc] at hc'
      cases hc'
    · refine ⟨by simp only [hc], fun c' ch' hc' => ?_⟩
      simp only [hc, OMap.find?_insert] at hc'
      split_ifs at hc' with hcc
      · cases hc'
        obtain ⟨htagged, hconnected, hmem⟩ :=
          Channel.unsubscribeAll_spec m.eventTags (h.tagged c ch hc)
        refine ⟨htagged, ch, hcc ▸ hc, hconnected, fun x hx => ?_⟩
        obtain ⟨hx', hid⟩ := (hmem x).mp hx
        exact ⟨hx', fun hobject => hid (hother hc hx' hobject).2⟩
      · refine ⟨h.tagged c' ch' hc', ch', hc', rfl, fun x hx => ⟨hx, fun hobject => ?_⟩⟩
        exact hcc (hother hc' hx hobject).1

theorem Sound.detach (h : Sound channels (put modules object m)) :
    Sound (detachChannel channels m).1 (put modules object (detachChannel channels m).2) := by
  obtain ⟨hm, hspec⟩ := detachChannel_spec h
  refine ⟨fun c ch' hc => (hspec c ch' hc).1, fun c ch' hc x hx m' hm' => ?_,
    fun object' m' hm' hnone => ?_⟩
  · obtain ⟨-, ch, hch, -, hsub⟩ := hspec c ch' hc
    obtain ⟨hx', hobject⟩ := hsub x hx
    rw [put_of_ne hobject] at hm'
    exact h.registered c ch hch x hx' m' (by rw [put_of_ne hobject]; exact hm')
  · by_cases hobject : object' = object
    · rw [hobject, put_self, hm] at hm'
      cases hm'
      rfl
    · rw [put_of_ne hobject] at hm'
      exact h.detached object' m' (by rw [put_of_ne hobject]; exact hm') hnone

theorem NoDangling.detach (hsound : Sound channels (put modules object m))
    (h : NoDangling channels (put modules object m)) :
    NoDangling (detachChannel channels m).1
      (put modules object (detachChannel channels m).2) := by
  intro c ch' hc hconnected x hx
  obtain ⟨-, ch, hch, hcon, hsub⟩ := (detachChannel_spec hsound).2 c ch' hc
  rw [isSome_put modules object _ m]
  exact h c ch hch (hcon ▸ hconnected) x (hsub x hx).1

theorem Sound.reattach (h : Sound channels (put modules object m)) :
    Sound (reattachChannelIfRequired channels object m o).2.1
      (put modules object (reattachChannelIfRequired channels object m o).2.2) := by
  unfold reattachChannelIfRequired
  split_ifs
  · exact h
  · refine h.detach.attach ?_
    rw [(detachChannel_spec h).1]

theorem NoDangling.reattach (hsound : Sound channels (put modules object m))
    (h : NoDangling channels (put modules object m)) :
    NoDangling (reattachChannelIfRequired channels object m o).2.1
      (put modules object (reattachChannelIfRequired channels object m o).2.2) := by
  unfold reattachChannelIfRequired
  split_ifs
  · exact h
  · exact (NoDangling.detach hsound h).attach

/-! ## Which channels are connected -/

theorem isConnected_insert {ch ch' : Channel} (hc : channels.find? c = some ch)
    (hsame : ch'.connected = ch.connected) (c' : ℕ) :
    isConnected (channels.insert c ch') c' = isConnected channels c' := by
  unfold isConnected
  rw [OMap.find?_insert]
  by_cases hcc : c' = c
  · rw [if_pos hcc, hcc, hc]
    exact hsame
  · rw [if_neg hcc]

theorem isConnected_disconnect (c c' : ℕ) :
    isConnected (disconnect channels c) c' = (decide (c' ≠ c) && isConnected channels c') := by
  unfold disconnect isConnected
  by_cases hcc : c' = c
  · subst hcc
    rcases hc : channels.find? c' with _ | ch
    · simp [hc]
    · simp [OMap.find?_insert]
  · rcases hc : channels.find? c with _ | ch
    · simp [hcc]
    · simp [OMap.find?_insert, hcc]

theorem isConnected_detach (h : Sound channels (put modules object m)) (c' : ℕ) :
    isConnected (detachChannel channels m).1 c' = isConnected channels c' := by
  unfold detachChannel
  rcases m.ipcChannel with _ | c
  · rfl
  · rcases hc : channels.find? c with _ | ch
    · simp only [hc]
    · simp only [hc]
      exact isConnected_insert hc (Channel.unsubscribeAll_spec _ (h.tagged c ch hc)).2.1 c'

/-! ## Handlers that are added -/

/-- The handlers of the new channels are old ones, or those of the object. -/
def Adds (channels channels' : OMap ℕ Channel) (object : ℕ) : Prop :=
  ∀ c ch', channels'.find? c = some ch' → ∀ x ∈ ch'.eventHandlers,
    (∃ ch, channels.find? c = some ch ∧ x ∈ ch.eventHandlers) ∨ x.object = object

theorem Adds.refl : Adds channels channels object := fun _ ch hc _ hx => Or.inl ⟨ch, hc, hx⟩

theorem Adds.trans {channels₁ channels₂ : OMap ℕ Channel} (h : Adds channels channels₁ object)
    (h' : Adds channels₁ channels₂ object) : Adds channels channels₂ object := by
  intro c ch₂ hc x hx
  rcases h' c ch₂ hc x hx with ⟨ch₁, hc₁, hx₁⟩ | hobject
  · exact h c ch₁ hc₁ x hx₁
  · exact Or.inr hobject

theorem adds_disconnect : Adds channels (disconnect channels c) object := by
  intro c' ch' hc' x hx
  obtain ⟨ch, hch, hhandlers, -, -⟩ := find?_disconnect hc'
  exact Or.inl ⟨ch, hch, hhandlers ▸ hx⟩

theorem adds_loseChannel : Adds channels (loseChannel channels m) object := by
  unfold loseChannel
  split
  · exact Adds.refl
  · exact adds_disconnect

theorem adds_attach : Adds channels (attachChannel channels object m o).2.1 object := by
  intro c' ch' hc' x hx
  rcases attachChannel_cases channels object m o with ⟨c, ch, -, hc, -, heq⟩ | ⟨-, heq⟩
  · rw [heq] at hc'
    simp only [OMap.find?_insert] at hc'
    split_ifs at hc' with hcc
    · cases hc'
      rcases Channel.mem_subscribe _ hx with hx | ⟨hobject, -⟩
      · exact Or.inl ⟨ch, hcc ▸ hc, hx⟩
      · exact Or.inr hobject
    · exact Or.inl ⟨ch', hc', hx⟩
  · rw [heq] at hc'
    exact Or.inl ⟨ch', hc', hx⟩

theorem adds_detach (h : Sound channels (put modules object m)) :
    Adds channels (detachChannel channels m).1 object := by
  intro c' ch' hc' x hx
  obtain ⟨-, ch, hch, -, hsub⟩ := (detachChannel_spec h).2 c' ch' hc'
  exact Or.inl ⟨ch, hch, (hsub x hx).1⟩

theorem adds_reattach (h : Sound channels (put modules object m)) :
    Adds channels (reattachChannelIfRequired channels object m o).2.1 object := by
  unfold reattachChannelIfRequired
  split_ifs
  · exact Adds.refl
  · exact (adds_detach h).trans adds_attach

/-! ## Objects that come and go -/

/-- An object that has no handlers yet. -/
theorem Sound.new (h : Sound channels modules)
    (hnew : ∀ c ch, channels.find? c = some ch → ∀ x ∈ ch.eventHandlers, x.object ≠ object)
    (kind : Kind) : Sound channels (put modules object (Module.fresh kind)) where
  tagged := h.tagged
  registered := by
    intro c ch hc x hx m hm
    rw [put_of_ne (hnew c ch hc x hx)] at hm
    exact h.registered c ch hc x hx m hm
  detached := by
    intro object' m hm hnone
    by_cases hobject : object' = object
    · rw [hobject, put_self] at hm
      cases hm
      rfl
    · rw [put_of_ne hobject] at hm
      exact h.detached object' m hm hnone

theorem NoDangling.new (h : NoDangling channels modules) (object : ℕ) (m : Module) :
    NoDangling channels (put modules object m) := by
  intro c ch hc hconnected x hx
  by_cases hobject : x.object = object
  · rw [hobject, put_self]
    rfl
  · rw [put_of_ne hobject]
    exact h c ch hc hconnected x hx

/-- An object goes. -/
theorem Sound.drop (h : Sound channels (put modules object m))
    {modules' : ℕ → Option Module} (hgone : modules' object = none)
    (hother : ∀ object' ≠ object, modules' object' = modules object') :
    Sound channels modules' := by
  have hput : ∀ {object' m'}, modules' object' = some m' →
      put modules object m object' = some m' := by
    intro object' m' hm'
    have hne : object' ≠ object := by
      rintro rfl
      rw [hgone] at hm'
      cases hm'
    rw [put_of_ne hne, ← hother object' hne]
    exact hm'
  exact ⟨h.tagged, fun c ch hc x hx m' hm' => h.registered c ch hc x hx m' (hput hm'),
    fun object' m' hm' => h.detached object' m' (hput hm')⟩

theorem NoDangling.drop (hsound : Sound channels (put modules object m))
    (h : NoDangling channels (put modules object m))
    (hdetached : ∀ c, m.ipcChannel = some c → isConnected channels c = false)
    {modules' : ℕ → Option Module}
    (hother : ∀ object' ≠ object, modules' object' = modules object') :
    NoDangling channels modules' := by
  intro c ch hc hconnected x hx
  have hne : x.object ≠ object := by
    intro hobject
    have hreg := (hsound.registered c ch hc x hx m (by rw [hobject, put_self])).1
    have hlost := hdetached c hreg
    rw [isConnected, hc] at hlost
    rw [show (some ch).any (·.connected) = ch.connected from rfl, hconnected] at hlost
    cases hlost
  have hput : put modules object m x.object = modules x.object := put_of_ne hne
  rw [hother _ hne, ← hput]
  exact h c ch hc hconnected x hx

/-! ## Constructors -/

/-- The object has a handler on a connected channel. -/
def Holds (channels : OMap ℕ Channel) (object : ℕ) : Prop :=
  ∃ c ch, channels.find? c = some ch ∧ ch.connected = true ∧
    ∃ x ∈ ch.eventHandlers, x.object = object

theorem holds_insert {ch : Channel} (hconnected : ch.connected = true) {es : List EventName}
    (hes : es ≠ []) : Holds (channels.insert c (ch.subscribe object es).1) object := by
  obtain ⟨x, hx, hobject⟩ := Channel.exists_subscribe hes ch object
  refine ⟨c, (ch.subscribe object es).1, by rw [OMap.find?_insert, if_pos rfl], ?_, x, hx, hobject⟩
  rw [Channel.subscribe_connected]
  exact hconnected

theorem not_noDangling (h : Holds channels object) (hgone : modules object = none) :
    ¬ NoDangling channels modules := by
  obtain ⟨c, ch, hc, hconnected, x, hx, rfl⟩ := h
  intro hno
  have hsome := hno c ch hc hconnected x hx
  rw [hgone] at hsome
  cases hsome

/-- **Attaching again.** -/
theorem reattach_cases (h : Sound channels (put modules object m)) (o : Attach) :
    (isAttached channels m = true ∧
      reattachChannelIfRequired channels object m o = (true, channels, m)) ∨
    (isAttached channels m = false ∧
      ((∃ c, Usable channels o c) ∧
          (reattachChannelIfRequired channels object m o).1 = true ∧
          (m.kind.events ≠ [] →
            Holds (reattachChannelIfRequired channels object m o).2.1 object) ∨
        (∀ c, ¬ Usable channels o c) ∧
          (reattachChannelIfRequired channels object m o).1 = false ∧
          (reattachChannelIfRequired channels object m o).2.2.ipcChannel = none)) := by
  unfold reattachChannelIfRequired
  by_cases hattached : isAttached channels m = true
  · rw [if_pos hattached]
    exact Or.inl ⟨hattached, rfl⟩
  · rw [if_neg hattached]
    refine Or.inr ⟨Bool.eq_false_iff.mpr hattached, ?_⟩
    have husable : ∀ c, Usable (detachChannel channels m).1 o c ↔ Usable channels o c := by
      intro c
      rw [Usable, Usable, isConnected_detach h]
    have hkind : (detachChannel channels m).2.kind = m.kind := by
      rw [(detachChannel_spec h).1]
    rcases attachChannel_cases (detachChannel channels m).1 object (detachChannel channels m).2 o
      with ⟨c, ch, huse, -, hcon, heq⟩ | ⟨hno, heq⟩
    · rw [heq, hkind]
      exact Or.inl ⟨⟨c, (husable c).mp huse⟩, rfl, fun hes => holds_insert hcon hes⟩
    · rw [heq]
      exact Or.inr ⟨fun c huse => hno c ((husable c).mpr huse), rfl, rfl⟩

/-- A constructor gets to ask the server: it attaches, again if the channel is lost before it can
ask. -/
def Asks (channels : OMap ℕ Channel) (o : Construction) : Prop :=
  o.ready = true ∧ ∃ c, Usable channels o.attach c ∧
    (o.lost = true → ∃ c', c' ≠ c ∧ Usable channels o.reattach c')

/-- A constructor asks the server and is refused. -/
def Refused (channels : OMap ℕ Channel) (kind : Kind) (o : Construction) : Prop :=
  kind.creates = true ∧ Asks channels o ∧ o.create = .refused

theorem events_of_creates {kind : Kind} (h : kind.creates = true) : kind.events ≠ [] := by
  cases kind <;> simp [Kind.creates, Kind.events] at h ⊢

theorem Sound.lose (h : Sound channels modules) (m : Module) :
    Sound (loseChannel channels m) modules := by
  unfold loseChannel
  split
  · exact h
  · exact h.disconnect _

theorem NoDangling.lose (h : NoDangling channels modules) (m : Module) :
    NoDangling (loseChannel channels m) modules := by
  unfold loseChannel
  split
  · exact h
  · exact h.disconnect _

/-- The channels where a constructor asks the server. -/
theorem sound_asking (h : Sound channels modules) (lost : Bool) (m : Module) (object : ℕ) :
    Sound (if lost then loseChannel channels m else channels) modules ∧
      Adds channels (if lost then loseChannel channels m else channels) object ∧
      (NoDangling channels modules →
        NoDangling (if lost then loseChannel channels m else channels) modules) := by
  cases lost
  · exact ⟨h, Adds.refl, id⟩
  · exact ⟨h.lose m, adds_loseChannel, fun hn => hn.lose m⟩

theorem adds_create (h : Sound channels (put modules object m)) (o : Construction) :
    Adds channels (create channels object m o).1 object := by
  obtain ⟨h₂, ha₂, -⟩ := sound_asking h o.lost m object
  have ha₃ := ha₂.trans (adds_reattach (o := o.reattach) h₂)
  unfold create
  rcases hr : reattachChannelIfRequired (if o.lost then loseChannel channels m else channels) object
    m o.reattach with ⟨_ | _, channels₃, m₃⟩
  · rw [hr] at ha₃
    exact ha₃
  · rw [hr] at ha₃
    cases o.create
    · exact ha₃
    · exact ha₃
    · exact ha₃.trans adds_loseChannel

/-- Whether a constructor still reaches the server. -/
theorem reattach_asking (h : Sound channels (put modules object m)) (hm : m.ipcChannel = some c)
    (hc : isConnected channels c = true) (hes : m.kind.events ≠ []) (hholds : Holds channels object)
    (o : Construction) :
    ((o.lost = true → ∃ c', c' ≠ c ∧ Usable channels o.reattach c') ∧
      (reattachChannelIfRequired (if o.lost then loseChannel channels m else channels) object m
        o.reattach).1 = true ∧
      Holds (reattachChannelIfRequired (if o.lost then loseChannel channels m else channels) object
        m o.reattach).2.1 object) ∨
    (¬ (o.lost = true → ∃ c', c' ≠ c ∧ Usable channels o.reattach c') ∧
      (reattachChannelIfRequired (if o.lost then loseChannel channels m else channels) object m
        o.reattach).1 = false ∧
      (reattachChannelIfRequired (if o.lost then loseChannel channels m else channels) object m
        o.reattach).2.2.ipcChannel = none) := by
  cases hlost : o.lost
  · have hattached : isAttached channels m = true := by
      rw [isAttached, hm]
      exact hc
    have hsame : reattachChannelIfRequired channels object m o.reattach = (true, channels, m) :=
      if_pos hattached
    simp only [Bool.false_eq_true, if_false]
    rw [hsame]
    exact Or.inl ⟨fun hf => (by cases hf), rfl, hholds⟩
  · have hlose : loseChannel channels m = disconnect channels c := by
      unfold loseChannel
      rw [hm]
    have husable : ∀ c', Usable (disconnect channels c) o.reattach c' ↔
        c' ≠ c ∧ Usable channels o.reattach c' := by
      intro c'
      rw [Usable, isConnected_disconnect, Bool.and_eq_true, decide_eq_true_iff, Usable]
      tauto
    have hdetached : isAttached (disconnect channels c) m = false := by
      rw [isAttached, hm]
      show isConnected (disconnect channels c) c = false
      rw [isConnected_disconnect, decide_eq_false (not_not.mpr rfl), Bool.false_and]
    simp only [if_true, hlose]
    rcases reattach_cases (h.disconnect c) o.reattach with ⟨hattached, -⟩ | ⟨-, hcases⟩
    · rw [hdetached] at hattached
      cases hattached
    · rcases hcases with ⟨⟨c', huse⟩, hok, hholds'⟩ | ⟨hno, hfail, hnone⟩
      · exact Or.inl ⟨fun _ => ⟨c', (husable c').mp huse⟩, hok, hholds' hes⟩
      · refine Or.inr ⟨fun hreach => ?_, hfail, hnone⟩
        obtain ⟨c', huse⟩ := hreach trivial
        exact hno c' ((husable c').mpr huse)

/-- **What asking the server leaves**, for a module that is attached. -/
theorem create_spec (h : Sound channels (put modules object m)) (hm : m.ipcChannel = some c)
    (hc : isConnected channels c = true) (hes : m.kind.events ≠ []) (hholds : Holds channels object)
    (o : Construction) :
    Sound (create channels object m o).1
        (Function.update modules object (create channels object m o).2) ∧
      (NoDangling channels (put modules object m) →
        (NoDangling (create channels object m o).1
            (Function.update modules object (create channels object m o).2) ↔
          ¬ ((o.lost = true → ∃ c', c' ≠ c ∧ Usable channels o.reattach c') ∧
            o.create = .refused))) := by
  have hself : ∀ x, Function.update modules object x object = x := fun _ => Function.update_self ..
  have hother : ∀ x, ∀ object' ≠ object,
      Function.update modules object x object' = modules object' :=
    fun _ _ hne => Function.update_of_ne hne ..
  obtain ⟨h₂, -, n₂⟩ := sound_asking h o.lost m object
  have h₃ := h₂.reattach (o := o.reattach)
  have n₃ := fun hn => NoDangling.reattach (o := o.reattach) h₂ (n₂ hn)
  have hreach := reattach_asking h hm hc hes hholds o
  unfold create
  rcases hr : reattachChannelIfRequired (if o.lost then loseChannel channels m else channels) object
    m o.reattach with ⟨_ | _, channels₃, m₃⟩
  · rw [hr] at h₃ n₃ hreach
    rcases hreach with ⟨-, hf, -⟩ | ⟨hno, -, hnone⟩
    · cases hf
    · refine ⟨h₃.drop (hself none) (hother none), fun hn => ⟨fun _ hask => hno hask.1, fun _ => ?_⟩⟩
      refine (n₃ hn).drop h₃ (fun c hc => ?_) (hother none)
      rw [hnone] at hc
      cases hc
  · rw [hr] at h₃ n₃ hreach
    rcases hreach with ⟨hask, -, hholds₃⟩ | ⟨-, hf, -⟩
    · cases hcreate : o.create with
      | created => exact ⟨h₃, fun hn => ⟨fun _ hr => (by cases hr.2), fun _ => n₃ hn⟩⟩
      | refused =>
        refine ⟨h₃.drop (hself none) (hother none), fun _ => ⟨fun hno => ?_, fun hr => ?_⟩⟩
        · exact absurd hno (not_noDangling hholds₃ (hself none))
        · exact absurd ⟨hask, rfl⟩ hr
      | lost =>
        refine ⟨(h₃.lose m₃).drop (hself none) (hother none), fun hn =>
          ⟨fun _ hr => (by cases hr.2), fun _ => ?_⟩⟩
        refine ((n₃ hn).lose m₃).drop (h₃.lose m₃) (fun c hc => ?_) (hother none)
        unfold loseChannel
        rw [hc]
        simp only
        rw [isConnected_disconnect, decide_eq_false (not_not.mpr rfl), Bool.false_and]
    · cases hf

theorem adds_constructed (h : Sound channels modules)
    (hnew : ∀ c ch, channels.find? c = some ch → ∀ x ∈ ch.eventHandlers, x.object ≠ object)
    (kind : Kind) (o : Construction) :
    Adds channels (constructed channels object kind o).1 object := by
  have h₁ := (h.new hnew kind).attach (o := o.attach) rfl
  have ha₁ : Adds channels (attachChannel channels object (Module.fresh kind) o.attach).2.1
    object := adds_attach
  unfold constructed
  cases o.ready
  · exact Adds.refl
  · rcases hat : attachChannel channels object (Module.fresh kind) o.attach
      with ⟨_ | _, channels₁, m₁⟩
    · rw [hat] at ha₁
      exact ha₁
    · rw [hat] at ha₁ h₁
      cases kind.creates
      · exact ha₁
      · exact ha₁.trans (adds_create h₁ o)

/-- **What a constructor leaves.** The object is there afterwards or it is not, with a dangling
handler exactly if it was refused. -/
theorem constructed_spec (h : Sound channels modules) (hgone : modules object = none)
    (hnew : ∀ c ch, channels.find? c = some ch → ∀ x ∈ ch.eventHandlers, x.object ≠ object)
    (kind : Kind) (o : Construction) :
    Sound (constructed channels object kind o).1
        (Function.update modules object (constructed channels object kind o).2) ∧
      (NoDangling channels modules →
        (NoDangling (constructed channels object kind o).1
            (Function.update modules object (constructed channels object kind o).2) ↔
          ¬ Refused channels kind o)) := by
  have hsame : Function.update modules object none = modules := by
    rw [← hgone]
    exact Function.update_eq_self ..
  have h₁ := (h.new hnew kind).attach (o := o.attach) rfl
  have n₁ := fun hn : NoDangling channels modules =>
    (hn.new object (Module.fresh kind)).attach (o := o.attach)
  unfold constructed
  by_cases hready : o.ready = true
  swap
  · rw [if_neg hready]
    simp only [hsame]
    exact ⟨h, fun hn => ⟨fun _ hr => hready hr.2.1.1, fun _ => hn⟩⟩
  rw [if_pos hready]
  rcases attachChannel_cases channels object (Module.fresh kind) o.attach
    with ⟨c, ch, huse, hc, hcon, heq⟩ | ⟨hno, heq⟩
  swap
  · -- there is nothing to attach to
    rw [heq]
    simp only [hsame]
    refine ⟨h, fun hn => ⟨fun _ hr => ?_, fun _ => hn⟩⟩
    obtain ⟨-, c, huse, -⟩ := hr.2.1
    exact hno c huse
  rw [heq] at h₁ n₁ ⊢
  simp only at h₁ n₁ ⊢
  by_cases hcreates : kind.creates = true
  swap
  · rw [if_neg hcreates]
    exact ⟨h₁, fun hn => ⟨fun _ hr => hcreates hr.1, fun _ => n₁ hn⟩⟩
  rw [if_pos hcreates]
  have hsubscribed : (ch.subscribe object kind.events).1.connected = ch.connected :=
    Channel.subscribe_connected _
  have hstill : ∀ c', isConnected (channels.insert c (ch.subscribe object kind.events).1) c' =
      isConnected channels c' := isConnected_insert hc hsubscribed
  obtain ⟨hsound, hiff⟩ := create_spec h₁ rfl ((hstill c).trans huse.2.2)
    (events_of_creates hcreates) (holds_insert hcon (events_of_creates hcreates)) o
  refine ⟨hsound, fun hn => (hiff (n₁ hn)).trans (not_congr ?_)⟩
  have husable : ∀ c', Usable (channels.insert c (ch.subscribe object kind.events).1) o.reattach
      c' ↔ Usable channels o.reattach c' := fun c' => by rw [Usable, Usable, hstill]
  constructor
  · rintro ⟨hreach, hrefused⟩
    refine ⟨hcreates, ⟨hready, c, huse, fun hlost => ?_⟩, hrefused⟩
    obtain ⟨c', hne, huse'⟩ := hreach hlost
    exact ⟨c', hne, (husable c').mp huse'⟩
  · rintro ⟨-, ⟨-, c', huse', hreach⟩, hrefused⟩
    cases huse.1.symm.trans huse'.1
    refine ⟨fun hlost => ?_, hrefused⟩
    obtain ⟨c', hne, huse''⟩ := hreach hlost
    exact ⟨c', hne, (husable c').mpr huse''⟩

end Operations

/-! ## Every step -/

/-- **The invariant.** -/
structure Inv (s : State) : Prop where
  sound : Sound s.channels s.modules.find?
  modules : ∀ object ∈ s.modules.keys, object < s.nextObject
  objects : ∀ c ch, s.channels.find? c = some ch → ∀ x ∈ ch.eventHandlers, x.object < s.nextObject

theorem inv_init : Inv init where
  sound := ⟨fun _ _ h => (by cases h), fun _ _ h => (by cases h), fun _ _ h => by cases h⟩
  modules := fun _ h => by cases h
  objects := fun _ _ h => by cases h

/-- No handler dangles, and no event has called into an object that does not exist. -/
def Safe (s : State) : Prop :=
  NoDangling s.channels s.modules.find? ∧ ∀ call ∈ s.calls, call.2 = true

/-- The condition on a step: a constructor that gets to ask the server is not refused. -/
def Good (s : State) : Act → Prop
  | .construct kind o => ¬ Refused s.channels kind o
  | _ => True

section Steps

variable {s t : State} {object : ℕ} {m : Module}

theorem put_find? (h : s.modules.find? object = some m) :
    put s.modules.find? object m = s.modules.find? := by
  rw [put, ← h]
  exact Function.update_eq_self ..

theorem find?_insert_eq (modules : OMap ℕ Module) (object : ℕ) (m : Module) :
    (modules.insert object m).find? = put modules.find? object m := by
  funext object'
  rw [OMap.find?_insert, put, Function.update_apply]

/-- The channels change in an operation of a module that exists. -/
theorem objects_of_adds {channels : OMap ℕ Channel} {n : ℕ}
    (h : ∀ c ch, s.channels.find? c = some ch → ∀ x ∈ ch.eventHandlers, x.object < n)
    (hadds : Adds s.channels channels object) (hobject : object < n) :
    ∀ c ch, channels.find? c = some ch → ∀ x ∈ ch.eventHandlers, x.object < n := by
  intro c ch hc x hx
  rcases hadds c ch hc x hx with ⟨ch', hch', hx'⟩ | heq
  · exact h c ch' hch' x hx'
  · rw [heq]
    exact hobject

theorem construct_spec (h : Inv s) (kind : Kind) (o : Construction) :
    Inv (construct s kind o) ∧
      (NoDangling s.channels s.modules.find? →
        (NoDangling (construct s kind o).channels (construct s kind o).modules.find? ↔
          ¬ Refused s.channels kind o)) := by
  have hgone : s.modules.find? s.nextObject = none :=
    OMap.find?_eq_none.mpr fun hk => lt_irrefl _ (h.modules _ hk)
  have hnew : ∀ c ch, s.channels.find? c = some ch → ∀ x ∈ ch.eventHandlers,
      x.object ≠ s.nextObject := fun c ch hc x hx => Nat.ne_of_lt (h.objects c ch hc x hx)
  obtain ⟨hsound, hiff⟩ := constructed_spec h.sound hgone hnew kind o
  have hlater : ∀ c ch, s.channels.find? c = some ch → ∀ x ∈ ch.eventHandlers,
      x.object < s.nextObject + 1 :=
    fun c ch hc x hx => Nat.lt_succ_of_lt (h.objects c ch hc x hx)
  have hobjects := objects_of_adds hlater (adds_constructed h.sound hnew kind o)
    (Nat.lt_succ_self _)
  unfold construct
  rcases hr : constructed s.channels s.nextObject kind o with ⟨channels, _ | m⟩
  · rw [hr] at hsound hiff hobjects
    have hsame : Function.update s.modules.find? s.nextObject none = s.modules.find? := by
      rw [← hgone]
      exact Function.update_eq_self ..
    rw [hsame] at hsound hiff
    exact ⟨⟨hsound, fun k hk => Nat.lt_succ_of_lt (h.modules k hk), hobjects⟩, hiff⟩
  · rw [hr] at hsound hiff hobjects
    have hput := find?_insert_eq s.modules s.nextObject m
    refine ⟨⟨?_, fun k hk => ?_, hobjects⟩, ?_⟩
    · simp only [hput]
      exact hsound
    · obtain ⟨v, hv⟩ := OMap.mem_keys.mp hk
      rcases OMap.mem_insert.mp hv with heq | ⟨hv, -⟩
      · cases heq
        exact Nat.lt_succ_self _
      · exact Nat.lt_succ_of_lt (h.modules k (OMap.mem_keys.mpr ⟨v, hv⟩))
    · simp only [hput]
      exact hiff

theorem reattach_spec (h : Inv s) (hm : s.modules.find? object = some m) (o : Attach) :
    Sound (reattachChannelIfRequired s.channels object m o).2.1
        (put s.modules.find? object (reattachChannelIfRequired s.channels object m o).2.2) ∧
      Adds s.channels (reattachChannelIfRequired s.channels object m o).2.1 object ∧
      (NoDangling s.channels s.modules.find? →
        NoDangling (reattachChannelIfRequired s.channels object m o).2.1
          (put s.modules.find? object
            (reattachChannelIfRequired s.channels object m o).2.2)) := by
  have hsound : Sound s.channels (put s.modules.find? object m) := by
    rw [put_find? hm]
    exact h.sound
  refine ⟨hsound.reattach, adds_reattach hsound, fun hn => NoDangling.reattach hsound ?_⟩
  rw [put_find? hm]
  exact hn

/-- A module detaches and goes. -/
theorem destroyed_spec {channels : OMap ℕ Channel} {modules : OMap ℕ Module}
    (h : Sound channels (put modules.find? object m)) :
    Sound (detachChannel channels m).1 (modules.erase object).find? ∧
      Adds channels (detachChannel channels m).1 object ∧
      (NoDangling channels (put modules.find? object m) →
        NoDangling (detachChannel channels m).1 (modules.erase object).find?) := by
  have hgone : (modules.erase object).find? object = none := by rw [OMap.find?_erase, if_pos rfl]
  have hother : ∀ object' ≠ object, (modules.erase object).find? object' = modules.find? object' :=
    fun object' hne => by rw [OMap.find?_erase, if_neg hne]
  refine ⟨h.detach.drop hgone hother, adds_detach h, fun hn => ?_⟩
  refine (NoDangling.detach h hn).drop h.detach (fun c hc => ?_) hother
  rw [(detachChannel_spec h).1] at hc
  cases hc

theorem destroy_spec (h : Inv s) (hm : s.modules.find? object = some m) (o : Attach) :
    Inv (destroy s object m o) ∧
      (NoDangling s.channels s.modules.find? →
        NoDangling (destroy s object m o).channels (destroy s object m o).modules.find?) := by
  have hobject : object < s.nextObject :=
    h.modules object (OMap.mem_keys.mpr ⟨m, OMap.find?_eq_some.mp hm⟩)
  have hkeys : ∀ k ∈ (s.modules.erase object).keys, k < s.nextObject :=
    fun k hk => h.modules k (OMap.mem_keys_erase.mp hk).1
  unfold destroy
  by_cases hcreates : m.kind.creates = true
  · obtain ⟨hsound, hadds, hn⟩ := reattach_spec h hm o
    obtain ⟨hsound', hadds', hn'⟩ := destroyed_spec hsound
    simp only [if_pos hcreates]
    exact ⟨⟨hsound', hkeys, objects_of_adds h.objects (hadds.trans hadds') hobject⟩,
      fun hno => hn' (hn hno)⟩
  · have hsound : Sound s.channels (put s.modules.find? object m) := by
      rw [put_find? hm]
      exact h.sound
    obtain ⟨hsound', hadds', hn'⟩ := destroyed_spec hsound
    simp only [if_neg hcreates]
    refine ⟨⟨hsound', hkeys, objects_of_adds h.objects hadds' hobject⟩, fun hno => hn' ?_⟩
    rw [put_find? hm]
    exact hno

theorem construct_calls (s : State) (kind : Kind) (o : Construction) :
    (construct s kind o).calls = s.calls := by
  unfold construct
  rcases constructed s.channels s.nextObject kind o with ⟨channels, _ | m⟩
  · rfl
  · rfl

/-- The channels of which there is nothing new. -/
theorem Inv.anti (h : Inv s) {channels : OMap ℕ Channel}
    (hsub : ∀ c ch', channels.find? c = some ch' → ch'.Tagged ∧
      ∀ x ∈ ch'.eventHandlers, ∃ ch, s.channels.find? c = some ch ∧ x ∈ ch.eventHandlers)
    (hchannels : t.channels = channels) (hmodules : t.modules = s.modules)
    (hnext : t.nextObject = s.nextObject) : Inv t where
  sound := by
    rw [hchannels, hmodules]
    exact h.sound.anti hsub
  modules := by
    rw [hmodules, hnext]
    exact h.modules
  objects := by
    rw [hchannels, hnext]
    intro c ch' hc x hx
    obtain ⟨ch, hch, hx'⟩ := (hsub c ch' hc).2 x hx
    exact h.objects c ch hch x hx'

/-- A new channel has no handlers. -/
theorem find?_connect {c c' : ℕ} {ch : Channel}
    (h : (s.channels.insert c' Channel.fresh).find? c = some ch) :
    ch = Channel.fresh ∨ s.channels.find? c = some ch := by
  rw [OMap.find?_insert] at h
  split_ifs at h
  · exact Or.inl (Option.some.inj h).symm
  · exact Or.inr h

/-- **Every step keeps the invariant.** -/
theorem inv_act (h : Inv s) {a : Act} (hact : act s a = some t) : Inv t := by
  cases a with
  | connect =>
    cases hact
    refine h.anti (fun c ch hc => ?_) rfl rfl rfl
    rcases find?_connect hc with rfl | hc
    · exact ⟨Channel.tagged_fresh, fun x hx => by cases hx⟩
    · exact ⟨h.sound.tagged c ch hc, fun x hx => ⟨ch, hc, hx⟩⟩
  | disconnect c =>
    cases hact
    refine h.anti (fun c' ch' hc' => ?_) rfl rfl rfl
    obtain ⟨ch, hch, hhandlers, -, -⟩ := find?_disconnect hc'
    exact ⟨(h.sound.disconnect c).tagged c' ch' hc', fun x hx => ⟨ch, hch, hhandlers ▸ hx⟩⟩
  | release c =>
    simp only [act] at hact
    split_ifs at hact
    cases hact
    refine h.anti (fun c' ch hc' => ?_) rfl rfl rfl
    rw [OMap.find?_erase] at hc'
    split_ifs at hc'
    exact ⟨h.sound.tagged c' ch hc', fun x hx => ⟨ch, hc', hx⟩⟩
  | construct kind o =>
    cases hact
    exact (construct_spec h kind o).1
  | reattach object o =>
    obtain ⟨m, hm, rfl⟩ := Option.map_eq_some_iff.mp hact
    have hobject : object ∈ s.modules.keys :=
      OMap.mem_keys.mpr ⟨m, OMap.find?_eq_some.mp hm⟩
    obtain ⟨hsound, hadds, -⟩ := reattach_spec h hm o
    refine ⟨?_, fun k hk => ?_, objects_of_adds h.objects hadds (h.modules object hobject)⟩
    · simp only [find?_insert_eq]
      exact hsound
    · obtain ⟨v, hv⟩ := OMap.mem_keys.mp hk
      rcases OMap.mem_insert.mp hv with heq | ⟨hv, -⟩
      · cases heq
        exact h.modules _ hobject
      · exact h.modules k (OMap.mem_keys.mpr ⟨v, hv⟩)
  | destroy object o =>
    obtain ⟨m, hm, rfl⟩ := Option.map_eq_some_iff.mp hact
    exact (destroy_spec h hm o).1
  | event c eventName =>
    simp only [act] at hact
    split at hact
    · split_ifs at hact
      cases hact
      exact ⟨h.sound, h.modules, h.objects⟩
    · cases hact

/-- **One step.** -/
theorem safe_act_iff (h : Inv s) (hsafe : Safe s) {a : Act} (hact : act s a = some t) :
    Safe t ↔ Good s a := by
  obtain ⟨hn, hcalls⟩ := hsafe
  cases a with
  | connect =>
    cases hact
    refine ⟨fun _ => trivial, fun _ => ⟨fun c ch hc hconnected x hx => ?_, hcalls⟩⟩
    rcases find?_connect hc with rfl | hc
    · cases hx
    · exact hn c ch hc hconnected x hx
  | disconnect c =>
    cases hact
    exact ⟨fun _ => trivial, fun _ => ⟨hn.disconnect c, hcalls⟩⟩
  | release c =>
    simp only [act] at hact
    split_ifs at hact
    cases hact
    refine ⟨fun _ => trivial, fun _ => ⟨fun c' ch hc' hconnected x hx => ?_, hcalls⟩⟩
    simp only [OMap.find?_erase] at hc'
    split_ifs at hc'
    exact hn c' ch hc' hconnected x hx
  | construct kind o =>
    cases hact
    have hiff := (construct_spec h kind o).2 hn
    refine ⟨fun hs => hiff.mp hs.1, fun hgood => ⟨hiff.mpr hgood, ?_⟩⟩
    rw [construct_calls]
    exact hcalls
  | reattach object o =>
    obtain ⟨m, hm, rfl⟩ := Option.map_eq_some_iff.mp hact
    refine ⟨fun _ => trivial, fun _ => ⟨?_, hcalls⟩⟩
    simp only [find?_insert_eq]
    exact (reattach_spec h hm o).2.2 hn
  | destroy object o =>
    obtain ⟨m, hm, rfl⟩ := Option.map_eq_some_iff.mp hact
    exact ⟨fun _ => trivial, fun _ => ⟨(destroy_spec h hm o).2 hn, hcalls⟩⟩
  | event c eventName =>
    simp only [act] at hact
    split at hact
    · next ch hc =>
      split_ifs at hact with hconnected
      cases hact
      refine ⟨fun _ => trivial, fun _ => ⟨hn, fun call hcall => ?_⟩⟩
      rcases List.mem_append.mp hcall with hcall | hcall
      · exact hcalls call hcall
      · obtain ⟨x, hx, rfl⟩ := List.mem_map.mp hcall
        exact hn c ch hc hconnected x (List.mem_of_mem_filter hx)
    · cases hact

theorem step_eq {a : Act} (hstep : step s a = some t) : act s a = some t := by
  unfold step at hstep
  split_ifs at hstep
  exact hstep

end Steps

/-- **When no subscription dangles.** -/
theorem no_dangling_iff {as : List Act} {u : State} (hrun : Run step (fun _ _ => True) init as u) :
    (∀ pre post t, as = pre ++ post → Run step (fun _ _ => True) init pre t → Safe t) ↔
      ∀ a t, Occurs step (fun _ _ => True) init as a t → Good t a :=
  Run.always_iff Inv Safe Good inv_init (fun _ _ _ hs hstep => inv_act hs (step_eq hstep))
    ⟨fun _ _ h => (by cases h), fun _ h => by cases h⟩
    (fun _ _ _ hinv hsafe hstep => safe_act_iff hinv hsafe (step_eq hstep)) hrun

/-! ## Two runs -/

/-- Everything in a constructor succeeds, on the first channel. -/
def succeeding : Construction := ⟨true, ⟨some 0, true⟩, false, ⟨none, false⟩, .created⟩

instance (channels : OMap ℕ Channel) (o : Attach) (c : ℕ) : Decidable (Usable channels o c) := by
  unfold Usable
  infer_instance

/-- A pipeline and a player are constructed; the channel is lost, and the pipeline attaches to the
next one; the stubs of the media keys cannot be made; the events go to the pipeline, and it is
destroyed. -/
theorem no_dangling_reconnect : ∃ u, Run step (fun _ _ => True) init
      [.connect, .construct .mediaPipeline succeeding, .construct .webAudioPlayer succeeding,
        .event 0 .qosEvent, .disconnect 0, .connect, .reattach 0 ⟨some 1, true⟩,
        .construct .mediaKeys ⟨true, ⟨some 1, false⟩, false, ⟨none, false⟩, .created⟩,
        .event 1 .qosEvent, .destroy 0 ⟨none, false⟩] u ∧
    u.calls = [(0, true), (0, true)] ∧ Safe u := by
  refine Run.exists_of_runs (·.calls) [(0, true), (0, true)] (by decide) fun u hrun hcalls => ?_
  refine ⟨hcalls, (no_dangling_iff hrun).mpr (fun a t h => ?_) _ [] u (List.append_nil _).symm
    hrun⟩
  have hmem := h.mem
  simp only [List.mem_cons, List.not_mem_nil, or_false] at hmem
  rcases hmem with rfl | rfl | rfl | rfl | rfl | rfl | rfl | rfl | rfl | rfl
  all_goals first | trivial | exact fun hr => by cases hr.2.2

/-- A web audio player that the server refuses to create: its constructor throws, and the next event
calls into the object. -/
theorem refused_player_called : ¬ ∀ as u, Run step (fun _ _ => True) init as u → Safe u := by
  intro hall
  obtain ⟨u, hrun, hcalls⟩ : ∃ u, Run step (fun _ _ => True) init
      [.connect, .construct .webAudioPlayer { succeeding with create := .refused },
        .event 0 .webAudioPlayerStateEvent] u ∧ u.calls = [(0, false)] :=
    Run.exists_of_runs (·.calls) _ (by decide) fun _ _ hb => hb
  have hsafe := (hall _ u hrun).2 _ (hcalls ▸ List.mem_singleton_self _)
  cases hsafe

end Rialto.Ipc.Subscriptions
