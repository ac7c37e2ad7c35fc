import Mathlib.Data.Int.Notation
import Mathlib.Data.List.Forall2
import Mathlib.Data.Nat.Notation
import Mathlib.Tactic.Common
import Mathlib.Tactic.SplitIfs

/-! # File descriptors in messages

Fields of a message that are marked `field_is_fd` hold file descriptors. The sender takes them out
of the message and attaches them to the datagram, the receiver puts the descriptors that arrive into
the fields. Requests go from `ChannelImpl::getMessageFds` to `addRequestFileDescriptors` of the
server, replies and events from `getResponseFileDescriptors` of the server to
`ChannelImpl::addReplyFileDescriptors`.

A message is the list of its fields in the order of its descriptor, with the presence of every
`int32` field; the library that writes it to bytes and parses it again keeps the fields. A socket
hands over the descriptors in order, as new descriptors of the same files (`Delivers`).

* `addFileDescriptors_roundTrip`: descriptors for exactly the fields that are set go to these
  fields.
* `request_roundTrip_iff`, `reply_roundTrip`: what each direction does.
* `fds_delivered_iff`: both together. Requests arrive if and only if every marked field is set: the
  server counts the fields that are set, the client sends one descriptor for each marked field. -/

namespace Rialto.Ipc.FileDescriptors

variable {β F : Type*}

/-- A field of a message: a singular `int32` with its default, or a field of another type. -/
inductive Field (β : Type*)
  | int32 (fieldIsFd : Bool) (defaultValue : ℤ) (value : Option ℤ)
  | other (fieldIsFd : Bool) (content : β)
  deriving DecidableEq, Repr

/-- A message, field by field. -/
abbrev Message (β : Type*) := List (Field β)

/-! ## The four walks -/

/-- `ChannelImpl::getMessageFds`. A field of another type is logged and passed over; `GetInt32`
returns the default of a field that is not set. -/
def getMessageFds : Message β → List ℤ
  | [] => []
  | .int32 true defaultValue value :: fields => value.getD defaultValue :: getMessageFds fields
  | .int32 false _ _ :: fields => getMessageFds fields
  | .other _ _ :: fields => getMessageFds fields

/-- The loop that `addRequestFileDescriptors` and `addReplyFileDescriptors` share; `none` when it
returns `false`. -/
def addFileDescriptors : Message β → List ℤ → Option (Message β)
  | [], [] => some []
  | [], _ :: _ => none
  | .other true _ :: _, _ => none
  | .other false content :: fields, fds =>
    (addFileDescriptors fields fds).map (.other false content :: ·)
  | .int32 false defaultValue value :: fields, fds =>
    (addFileDescriptors fields fds).map (.int32 false defaultValue value :: ·)
  | .int32 true defaultValue none :: fields, fds =>
    (addFileDescriptors fields fds).map (.int32 true defaultValue none :: ·)
  | .int32 true _ (some _) :: _, [] => none
  | .int32 true defaultValue (some _) :: fields, fd :: fds =>
    (addFileDescriptors fields fds).map (.int32 true defaultValue (some fd) :: ·)

def addRequestFileDescriptors (request : Message β) (requestFds : List ℤ) : Option (Message β) :=
  addFileDescriptors request requestFds

def addReplyFileDescriptors (reply : Message β) (fds : List ℤ) : Option (Message β) :=
  addFileDescriptors reply fds

/-- The loop of `getResponseFileDescriptors`, with the descriptors found so far. -/
def responseFds : Message β → List ℤ → List ℤ × Message β
  | [], fds => (fds, [])
  | .other true content :: fields, _ => ([], .other true content :: fields)
  | .other false content :: fields, fds =>
    ((responseFds fields fds).1, .other false content :: (responseFds fields fds).2)
  | .int32 false defaultValue value :: fields, fds =>
    ((responseFds fields fds).1, .int32 false defaultValue value :: (responseFds fields fds).2)
  | .int32 true defaultValue none :: fields, fds =>
    ((responseFds fields fds).1, .int32 true defaultValue none :: (responseFds fields fds).2)
  | .int32 true defaultValue (some fd) :: fields, fds =>
    ((responseFds fields (fds ++ [fd])).1,
      .int32 true defaultValue (some (-1)) :: (responseFds fields (fds ++ [fd])).2)

/-- `getResponseFileDescriptors`: the descriptors, and the message with `-1` in their place. -/
def getResponseFileDescriptors (response : Message β) : List ℤ × Message β :=
  responseFds response []

/-- `readMessageFds`: descriptors beyond the limit are closed. -/
def readMessageFds (fds : List ℤ) (limit : ℕ) : List ℤ := fds.take limit

/-- The limit of the server for one message. -/
def serverFdLimit : ℕ := 16

/-- The limit of the client for one message. -/
def clientFdLimit : ℕ := 32

/-! ## What a round trip is -/

/-- Marked fields have the type `int32`. -/
def WellTyped (m : Message β) : Prop := ∀ content, Field.other true content ∉ m

/-- The number of marked fields. -/
def markedCount : Message β → ℕ
  | [] => 0
  | .int32 true _ _ :: fields => markedCount fields + 1
  | .int32 false _ _ :: fields => markedCount fields
  | .other true _ :: fields => markedCount fields + 1
  | .other false _ :: fields => markedCount fields

/-- Every marked field is set. -/
def AllSet (m : Message β) : Prop := ∀ defaultValue, Field.int32 true defaultValue none ∉ m

/-- The descriptors in the marked fields that are set. -/
def setFds : Message β → List ℤ
  | [] => []
  | .int32 true _ (some fd) :: fields => fd :: setFds fields
  | .int32 true _ none :: fields => setFds fields
  | .int32 false _ _ :: fields => setFds fields
  | .other _ _ :: fields => setFds fields

/-- The descriptors `received` are those of the files behind `sent`, in order. -/
def Delivers (sentFile receivedFile : ℤ → F) (sent received : List ℤ) : Prop :=
  received.map receivedFile = sent.map sentFile

/-- Two fields that differ in the descriptor only, and a set descriptor is of the same file. -/
inductive SameField (sentFile receivedFile : ℤ → F) : Field β → Field β → Prop
  | fd (defaultValue : ℤ) {v v' : ℤ} (h : receivedFile v' = sentFile v) :
      SameField sentFile receivedFile (.int32 true defaultValue (some v))
        (.int32 true defaultValue (some v'))
  | unset (defaultValue : ℤ) : SameField sentFile receivedFile (.int32 true defaultValue none)
      (.int32 true defaultValue none)
  | int32 (defaultValue : ℤ) (value : Option ℤ) : SameField sentFile receivedFile
      (.int32 false defaultValue value) (.int32 false defaultValue value)
  | other (content : β) : SameField sentFile receivedFile (.other false content)
      (.other false content)

/-- **The round trip.** The receiver accepts the message, the descriptors received are those in the
fields that are set, none missing and none left over, and each field has the file that the sender
had in it. -/
def RoundTrip (sentFile receivedFile : ℤ → F) (m : Message β) (received : List ℤ)
    (result : Option (Message β)) : Prop :=
  ∃ m', result = some m' ∧ setFds m' = received ∧
    List.Forall₂ (SameField sentFile receivedFile) m m'

/-! ## The receivers -/

/-- A message and what it becomes when descriptors are replaced by any numbers. -/
inductive SameShape : Field β → Field β → Prop
  | fd (defaultValue v v' : ℤ) :
      SameShape (.int32 true defaultValue (some v)) (.int32 true defaultValue (some v'))
  | unset (defaultValue : ℤ) :
      SameShape (.int32 true defaultValue none) (.int32 true defaultValue none)
  | int32 (defaultValue : ℤ) (value : Option ℤ) :
      SameShape (.int32 false defaultValue value) (.int32 false defaultValue value)
  | other (content : β) : SameShape (.other false content) (.other false content)

theorem sameShape_refl : ∀ {m : Message β}, WellTyped m → List.Forall₂ SameShape m m
  | [], _ => List.Forall₂.nil
  | f :: m, h => by
    refine List.Forall₂.cons ?_ (sameShape_refl fun c hc => h c (List.mem_cons_of_mem _ hc))
    cases f with
    | int32 fieldIsFd d v =>
      cases fieldIsFd with
      | false => exact SameShape.int32 d v
      | true => cases v with
        | none => exact SameShape.unset d
        | some v => exact SameShape.fd d v v
    | other fieldIsFd c =>
      cases fieldIsFd with
      | false => exact SameShape.other c
      | true => exact absurd (List.mem_cons_self ..) (h c)

/-- A field that takes no descriptor is passed over. -/
theorem RoundTrip.skip {sentFile receivedFile : ℤ → F} {m m₁ : Message β} {received : List ℤ}
    {f : Field β} (hf : SameField sentFile receivedFile f f)
    (hadd : addFileDescriptors (f :: m₁) received = (addFileDescriptors m₁ received).map (f :: ·))
    (hset : ∀ m' : Message β, setFds (f :: m') = setFds m')
    (h : RoundTrip sentFile receivedFile m received (addFileDescriptors m₁ received)) :
    RoundTrip sentFile receivedFile (f :: m) received (addFileDescriptors (f :: m₁) received) := by
  obtain ⟨m', hm', hfds, hsame⟩ := h
  refine ⟨f :: m', ?_, ?_, List.Forall₂.cons hf hsame⟩
  · rw [hadd, hm']
    rfl
  · rw [hset, hfds]

/-- **The receivers' loop.** Descriptors for exactly the fields that are set go to these fields. -/
theorem addFileDescriptors_roundTrip {sentFile receivedFile : ℤ → F} {m m₁ : Message β}
    (hshape : List.Forall₂ SameShape m m₁) : ∀ {received : List ℤ},
      Delivers sentFile receivedFile (setFds m) received →
        RoundTrip sentFile receivedFile m received (addFileDescriptors m₁ received) := by
  induction hshape with
  | nil =>
    intro received h
    obtain rfl : received = [] := by simpa [Delivers, setFds] using h
    exact ⟨[], rfl, rfl, List.Forall₂.nil⟩
  | cons hf _ ih =>
    intro received h
    cases hf with
    | fd d v v' =>
      cases received with
      | nil => simp [Delivers, setFds] at h
      | cons fd received =>
        obtain ⟨hfd, hrest⟩ : receivedFile fd = sentFile v ∧ Delivers sentFile receivedFile
            (setFds _) received := by simpa [Delivers, setFds] using h
        obtain ⟨m', hm', hset, hsame⟩ := ih hrest
        refine ⟨.int32 true d (some fd) :: m', ?_, ?_, List.Forall₂.cons (.fd d hfd) hsame⟩
        · rw [addFileDescriptors, hm']
          rfl
        · rw [setFds, hset]
    | unset d => exact (ih h).skip (.unset d) rfl fun _ => rfl
    | int32 d v => exact (ih h).skip (.int32 d v) rfl fun _ => rfl
    | other c => exact (ih h).skip (.other c) rfl fun _ => rfl

/-- The receivers take as many descriptors as there are fields set. -/
theorem length_of_addFileDescriptors : ∀ {m m' : Message β} {fds : List ℤ},
    addFileDescriptors m fds = some m' → fds.length = (setFds m).length := by
  intro m
  induction m with
  | nil =>
    intro m' fds h
    cases fds with
    | nil => rfl
    | cons fd fds => cases h
  | cons f m ih =>
    intro m' fds h
    have rest : ∀ {g : Field β} {fds' : List ℤ},
        (addFileDescriptors m fds').map (g :: ·) = some m' →
          fds'.length = (setFds m).length := by
      intro g fds' hmap
      obtain ⟨m₁, hm₁, -⟩ := Option.map_eq_some_iff.mp hmap
      exact ih hm₁
    cases f with
    | other fieldIsFd c =>
      cases fieldIsFd with
      | false => exact rest h
      | true => cases h
    | int32 fieldIsFd d v =>
      cases fieldIsFd with
      | false => exact rest h
      | true => cases v with
        | none => exact rest h
        | some v => cases fds with
          | nil => cases h
          | cons fd fds => exact congrArg (· + 1) (rest h)

/-! ## The senders -/

/-- What `getMessageFds` takes and what the receiver expects. -/
theorem getMessageFds_spec : ∀ {m : Message β}, WellTyped m →
    (getMessageFds m).length = markedCount m ∧
      (AllSet m → getMessageFds m = setFds m) ∧
      ((setFds m).length = markedCount m ↔ AllSet m) ∧ (setFds m).length ≤ markedCount m := by
  intro m
  induction m with
  | nil =>
    have hnil : AllSet ([] : Message β) := fun _ h => nomatch h
    exact fun _ => ⟨rfl, fun _ => rfl, ⟨fun _ => hnil, fun _ => rfl⟩, Nat.le_refl _⟩
  | cons f m ih =>
    intro hm
    obtain ⟨hlen, hset, hall, hle⟩ := ih fun c hc => hm c (List.mem_cons_of_mem _ hc)
    have tail : AllSet (f :: m) → AllSet m := fun h d hd => h d (List.mem_cons_of_mem _ hd)
    have cons : (∀ d, f ≠ .int32 true d none) → (AllSet (f :: m) ↔ AllSet m) := by
      intro hf
      refine ⟨tail, fun h d hd => ?_⟩
      rcases List.mem_cons.mp hd with heq | hd
      · exact hf d heq.symm
      · exact h d hd
    cases f with
    | other fieldIsFd c =>
      cases fieldIsFd with
      | false =>
        have hcons := cons fun _ h => nomatch h
        exact ⟨hlen, fun h => hset (tail h), hall.trans hcons.symm, hle⟩
      | true => exact absurd (List.mem_cons_self ..) (hm c)
    | int32 fieldIsFd d v =>
      cases fieldIsFd with
      | false =>
        have hcons := cons fun _ h => nomatch h
        exact ⟨hlen, fun h => hset (tail h), hall.trans hcons.symm, hle⟩
      | true =>
        cases v with
        | none =>
          have hnot : ¬ AllSet (.int32 true d none :: m) := fun h => h d (List.mem_cons_self ..)
          refine ⟨congrArg (· + 1) hlen, fun h => absurd h hnot,
            ⟨fun h => ?_, fun h => absurd h hnot⟩, Nat.le_succ_of_le hle⟩
          change (setFds m).length = markedCount m + 1 at h
          omega
        | some v =>
          have hcons := cons fun _ h => nomatch h
          refine ⟨congrArg (· + 1) hlen, fun h => congrArg (v :: ·) (hset (tail h)), ?_,
            Nat.succ_le_succ hle⟩
          rw [hcons, ← hall]
          exact Nat.succ_inj

/-- `getResponseFileDescriptors` takes exactly the descriptors of the fields that are set. -/
theorem responseFds_spec : ∀ {m : Message β}, WellTyped m → ∀ fds : List ℤ,
    (responseFds m fds).1 = fds ++ setFds m ∧ List.Forall₂ SameShape m (responseFds m fds).2 := by
  intro m
  induction m with
  | nil => exact fun _ fds => ⟨(List.append_nil fds).symm, List.Forall₂.nil⟩
  | cons f m ih =>
    intro hm fds
    have ih' := ih fun c hc => hm c (List.mem_cons_of_mem _ hc)
    cases f with
    | other fieldIsFd c =>
      cases fieldIsFd with
      | false => exact ⟨(ih' fds).1, List.Forall₂.cons (.other c) (ih' fds).2⟩
      | true => exact absurd (List.mem_cons_self ..) (hm c)
    | int32 fieldIsFd d v =>
      cases fieldIsFd with
      | false => exact ⟨(ih' fds).1, List.Forall₂.cons (.int32 d v) (ih' fds).2⟩
      | true =>
        cases v with
        | none => exact ⟨(ih' fds).1, List.Forall₂.cons (.unset d) (ih' fds).2⟩
        | some v =>
          obtain ⟨hfds, hshape⟩ := ih' (fds ++ [v])
          refine ⟨?_, List.Forall₂.cons (.fd d v (-1)) hshape⟩
          rw [responseFds, hfds, List.append_assoc]
          rfl

/-! ## Both directions -/

theorem readMessageFds_of_length {fds : List ℤ} {limit : ℕ} (h : fds.length ≤ limit) :
    readMessageFds fds limit = fds := List.take_of_length_le h

theorem Delivers.length_eq {sentFile receivedFile : ℤ → F} {sent received : List ℤ}
    (h : Delivers sentFile receivedFile sent received) : received.length = sent.length := by
  have := congrArg List.length h
  simpa using this

theorem request_roundTrip_iff {sentFile receivedFile : ℤ → F} {m : Message β} (hm : WellTyped m)
    (hlimit : markedCount m ≤ serverFdLimit) {received : List ℤ}
    (hd : Delivers sentFile receivedFile (getMessageFds m) received) :
    RoundTrip sentFile receivedFile m received
      (addRequestFileDescriptors m (readMessageFds received serverFdLimit)) ↔ AllSet m := by
  obtain ⟨hlen, hset, hall, -⟩ := getMessageFds_spec hm
  have hrlen := hd.length_eq
  rw [readMessageFds_of_length (by omega)]
  constructor
  · rintro ⟨m', hm', -, -⟩
    have := length_of_addFileDescriptors hm'
    exact hall.mp (by omega)
  · intro h
    rw [hset h] at hd
    exact addFileDescriptors_roundTrip (sameShape_refl hm) hd

/-- Replies are written to bytes before the descriptors are taken out, events after it; either way
they arrive. -/
theorem reply_roundTrip {sentFile receivedFile : ℤ → F} {m : Message β} (hm : WellTyped m)
    (hlimit : markedCount m ≤ clientFdLimit) {received : List ℤ}
    (hd : Delivers sentFile receivedFile (getResponseFileDescriptors m).1 received) :
    RoundTrip sentFile receivedFile m received
        (addReplyFileDescriptors m (readMessageFds received clientFdLimit)) ∧
      RoundTrip sentFile receivedFile m received (addReplyFileDescriptors
        (getResponseFileDescriptors m).2 (readMessageFds received clientFdLimit)) := by
  obtain ⟨hfds, hshape⟩ := responseFds_spec hm []
  obtain ⟨-, -, -, hle⟩ := getMessageFds_spec hm
  unfold getResponseFileDescriptors at hd ⊢
  rw [hfds, List.nil_append] at hd
  rw [readMessageFds_of_length (by rw [hd.length_eq]; omega)]
  exact ⟨addFileDescriptors_roundTrip (sameShape_refl hm) hd,
    addFileDescriptors_roundTrip hshape hd⟩

/-- **Descriptors in messages.** For every message whose marked fields are `int32`, up to the
limit of the server: a request makes the round trip if and only if all its marked fields are set;
a reply and an event always do. -/
theorem fds_delivered_iff (sentFile receivedFile : ℤ → F) {m : Message β} (hm : WellTyped m)
    (hlimit : markedCount m ≤ serverFdLimit) :
    (∀ received, Delivers sentFile receivedFile (getMessageFds m) received →
      (RoundTrip sentFile receivedFile m received
        (addRequestFileDescriptors m (readMessageFds received serverFdLimit)) ↔ AllSet m)) ∧
    ∀ received, Delivers sentFile receivedFile (getResponseFileDescriptors m).1 received →
      RoundTrip sentFile receivedFile m received
          (addReplyFileDescriptors m (readMessageFds received clientFdLimit)) ∧
        RoundTrip sentFile receivedFile m received (addReplyFileDescriptors
          (getResponseFileDescriptors m).2 (readMessageFds received clientFdLimit)) := by
  refine ⟨fun received hd => request_roundTrip_iff hm hlimit hd, fun received hd => ?_⟩
  exact reply_roundTrip hm (Nat.le_trans hlimit (by decide)) hd

/-- A request with two descriptors, both set. -/
theorem fds_delivered_two : RoundTrip (fun fd => fd + 100) (fun fd => fd)
    [Field.int32 true 0 (some 5), .other false "name", .int32 true 0 (some 6)] [105, 106]
    (addRequestFileDescriptors
      [Field.int32 true 0 (some 5), .other false "name", .int32 true 0 (some 6)]
      (readMessageFds [105, 106] serverFdLimit)) :=
  ((fds_delivered_iff (fun fd => fd + 100) (fun fd => fd) (by simp [WellTyped]) (by decide)).1
    [105, 106] (by rfl)).mpr (by simp [AllSet])

/-- A request with two optional descriptors of which the second is set: the default of the first
field is sent along as a descriptor, and the server refuses the request as it expects one. -/
theorem unset_descriptor_refused :
    Delivers (fun fd => fd + 100) (fun fd => fd) (getMessageFds
        [Field.int32 true 0 none, .int32 true 0 (some 5), .other false "name"]) [100, 105] ∧
      addRequestFileDescriptors [Field.int32 true 0 none, .int32 true 0 (some 5),
        .other false "name"] (readMessageFds [100, 105] serverFdLimit) = none ∧
      ¬ ∀ (m : Message String) (received : List ℤ), WellTyped m → markedCount m ≤ serverFdLimit →
        Delivers (fun fd => fd + 100) (fun fd => fd) (getMessageFds m) received →
        RoundTrip (fun fd => fd + 100) (fun fd => fd) m received
          (addRequestFileDescriptors m (readMessageFds received serverFdLimit)) := by
  refine ⟨rfl, rfl, fun h => ?_⟩
  obtain ⟨m', hm', -⟩ := h [.int32 true 0 none, .int32 true 0 (some 5), .other false "name"]
    [100, 105] (by simp [WellTyped]) (by decide) rfl
  exact nomatch (show none = some m' from hm')

end Rialto.Ipc.FileDescriptors
