import Rialto.WebAudio.FrameCounts

/-! # The end of the stream comes last

`setEos` is passed on at once when no frame is stored, and otherwise by the drain that hands over
the last stored byte. Whether frames are stored is a number of bytes divided by the size of a frame,
so a rest of less than a frame is overlooked.

* `History`: the player with the bytes of the accepted calls and the requests made so far.
* `EosAfterBytes`: what a step that passes the end of the stream on has handed over before.
* `WholeFrames`: the condition on a request; `eos_last_iff`: the end of the stream comes last all
  along a run exactly when every request meets it. -/

namespace Rialto.WebAudio.EosOrder

open Rialto.Lib.Memory Rialto.Lib.Runs Rialto.Lib.Word Rialto.WebAudio.Server Rialto.WebAudio.Ring
  Rialto.WebAudio.Stream Rialto.WebAudio.Wakeups

/-- The player, the number of bytes of the `writeBuffer` calls that it has accepted, how many of
them came before the last `setEos` request, and the number of these requests. -/
structure History where
  state : State
  accepted : ℕ
  beforeRequest : ℕ
  requests : ℕ

def init (p : Partition) : History := ⟨Wakeups.init p, 0, 0, 0⟩

/-- The bytes that the player accepts with an action. -/
def acceptedBy (p : Partition) (s : Player) : Wakeups.Act → ℕ
  | .writeBuffer _ numberOfFrames _ _ =>
    if s.expectWriteBuffer then numberOfFrames * p.bytesPerFrame else 0
  | _ => 0

/-- The history with the player after an action. -/
def record (p : Partition) (s : History) (t : State) : Wakeups.Act → History
  | .setEos =>
    { state := t, accepted := s.accepted, beforeRequest := s.accepted, requests := s.requests + 1 }
  | a => { s with state := t, accepted := s.accepted + acceptedBy p s.state.player a }

def step (p : Partition) (s : History) (a : Wakeups.Act) : Option History :=
  (Wakeups.step p s.state a).map fun t => record p s t a

/-- The frames of a call that the player expects fit its free ranges, as a client checks. -/
def Fits (p : Partition) (s : History) : Wakeups.Act → Prop
  | .writeBuffer _ numberOfFrames _ _ => s.state.player.expectWriteBuffer = true →
      numberOfFrames * p.bytesPerFrame ≤ free s.state.player.availableBuffer
  | _ => True

/-- When a step passes the end of the stream on, all bytes accepted before the request have been
handed over. -/
def EosAfterBytes (s t : History) : Prop :=
  ∀ pre post, t.state.player.gst = s.state.player.gst ++ (pre ++ .setEos :: post) →
    t.beforeRequest ≤ (handedOver (s.state.player.gst ++ pre)).length

/-- The condition on a request: nothing is stored, or a frame at least. -/
def WholeFrames (p : Partition) (s : History) : Wakeups.Act → Prop
  | .setEos => storedBytes p s.state.player.availableBuffer = 0 ∨
      p.bytesPerFrame ≤ storedBytes p s.state.player.availableBuffer
  | _ => True

/-- How often the end of the stream was passed on. -/
def eosCalls : List GstCall → ℕ
  | [] => 0
  | .setEos :: cs => eosCalls cs + 1
  | .writeBuffer _ _ :: cs => eosCalls cs

@[simp] theorem eosCalls_append (cs ds : List GstCall) :
    eosCalls (cs ++ ds) = eosCalls cs + eosCalls ds := by
  induction cs with
  | nil => simp [eosCalls]
  | cons c cs ih =>
    cases c with
    | writeBuffer o accepted => simp [eosCalls, ih]
    | setEos =>
      simp only [List.cons_append, eosCalls, ih]
      omega

/-- One for a request that the next complete drain will pass on. -/
def pending (s : Player) : ℕ := if s.isEosRequested then 1 else 0

/-! ## The calls of an operation -/

section operations

variable {p : Partition} {s : Player}

theorem storedBytes_eq (hc : Consistent p s.availableBuffer) :
    storedBytes p s.availableBuffer = p.maxDataLength - free s.availableBuffer := by
  rw [storedBytes_eq_length hc, storedOffer_addrs hc, Lib.Cyclic.length_cyc]

/-- What an operation passes on to GStreamer: the end of the stream, if at all, when all that was
stored before has been handed over, and no more often than it was requested. -/
structure PassesOn (p : Partition) (s t : Player) (calls : List GstCall) : Prop where
  gst : t.gst = s.gst ++ calls
  last : ∀ pre post, calls = pre ++ .setEos :: post →
    (handedOver s.gst).length + storedBytes p s.availableBuffer ≤ (handedOver (s.gst ++ pre)).length
  once : eosCalls calls + pending t ≤ pending s

theorem passesOn_nil {t : Player} (hgst : t.gst = s.gst)
    (hpending : t.isEosRequested = s.isEosRequested) : PassesOn p s t [] where
  gst := by rw [hgst, List.append_nil]
  last := fun pre post h => by simp at h
  once := by simp [pending, eosCalls, hpending]

theorem passesOn_offer {t : Player} {o : Server.Offer} {bytes : List UInt8}
    (hgst : t.gst = s.gst ++ [GstCall.writeBuffer o bytes])
    (hpending : t.isEosRequested = s.isEosRequested) :
    PassesOn p s t [.writeBuffer o bytes] where
  gst := hgst
  last := fun pre post h => by
    rcases List.singleton_eq_append_iff.mp h with ⟨-, h⟩ | ⟨-, h⟩
    · cases h
    · cases h
  once := by simp [pending, eosCalls, hpending]

/-- The last of the stored bytes, and the end of the stream behind them. -/
theorem passesOn_end {t : Player} {o : Server.Offer} {bytes : List UInt8}
    (hgst : t.gst = s.gst ++ [GstCall.writeBuffer o bytes] ++ [GstCall.setEos])
    (hrequested : s.isEosRequested = true) (hdone : t.isEosRequested = false)
    (hall : storedBytes p s.availableBuffer ≤ bytes.length) :
    PassesOn p s t [.writeBuffer o bytes, .setEos] where
  gst := by rw [hgst, List.append_assoc, List.singleton_append]
  last := fun pre post h => by
    rcases pre with _ | ⟨c, pre⟩
    · cases h
    · obtain ⟨rfl, -⟩ := List.cons.inj h
      rw [handedOver_append, List.length_append]
      simp only [handedOver, List.length_append]
      omega
  once := by simp [pending, eosCalls, hrequested, hdone]

/-- New data behind what an operation has passed on. -/
theorem PassesOn.offer {t t' : Player} {calls : List GstCall} (h : PassesOn p s t calls)
    {o : Server.Offer} {bytes : List UInt8} (hgst : t'.gst = t.gst ++ [GstCall.writeBuffer o bytes])
    (hpending : t'.isEosRequested = t.isEosRequested) :
    PassesOn p s t' (calls ++ [GstCall.writeBuffer o bytes]) where
  gst := by rw [hgst, h.gst, List.append_assoc]
  last := fun pre post heq => by
    rcases List.eq_nil_or_concat post with rfl | ⟨post, c, rfl⟩
    · have hlast := (List.append_inj' heq rfl).2
      cases hlast
    · rw [List.concat_eq_append, ← List.cons_append, ← List.append_assoc] at heq
      exact h.last pre post (List.append_inj' heq rfl).1
  once := by
    have honce := h.once
    unfold pending at honce ⊢
    rw [hpending, eosCalls_append]
    exact honce

theorem drain_passesOn (hc : Consistent p s.availableBuffer) (shm : Mem UInt8) (accept : ℕ) :
    ∃ calls, PassesOn p s (writeStoredBuffers p shm accept s).2 calls := by
  have hstored := storedBytes_eq hc
  have hoffer := storedOffer_length hc
  have hle := free_le hc
  have hfits := p.fits
  unfold writeStoredBuffers
  by_cases hempty : add32 s.availableBuffer.lengthWrap s.availableBuffer.lengthMain =
      p.maxDataLength
  · rw [if_pos hempty]
    exact ⟨[], passesOn_nil rfl rfl⟩
  · rw [if_neg hempty]
    dsimp only [gstWriteBuffer]
    by_cases hall : min accept ((storedOffer p s.availableBuffer).mainLength +
        (storedOffer p s.availableBuffer).wrapLength) =
        add32 (storedOffer p s.availableBuffer).mainLength
          (storedOffer p s.availableBuffer).wrapLength
    · have hlength : storedBytes p s.availableBuffer ≤
          ((readAt shm (storedOffer p s.availableBuffer).addrs).take
            (min accept ((storedOffer p s.availableBuffer).mainLength +
              (storedOffer p s.availableBuffer).wrapLength))).length := by
        rw [hall, add32_of_lt (by omega), List.length_take, length_readAt, Offer.addrs,
          List.length_append, List.length_range', List.length_range']
        omega
      rw [if_pos hall]
      by_cases heos : s.isEosRequested = true
      · rw [if_pos heos]
        exact ⟨_, passesOn_end rfl heos rfl hlength⟩
      · rw [if_neg heos]
        exact ⟨_, passesOn_offer rfl rfl⟩
    · rw [if_neg hall]
      exact ⟨_, passesOn_offer rfl rfl⟩

theorem write_passesOn (hc : Consistent p s.availableBuffer) (shm : Mem UInt8)
    (numberOfFrames acceptStored acceptNew : ℕ) : ∃ calls,
    PassesOn p s (writeBufferInternal p shm numberOfFrames acceptStored acceptNew s).2 calls := by
  unfold writeBufferInternal
  by_cases hexpect : s.expectWriteBuffer = true
  · rw [if_pos hexpect]
    obtain ⟨calls, hgst, hlast, honce⟩ := drain_passesOn
      (s := { s with expectWriteBuffer := false, writeDataTimer := false }) hc shm acceptStored
    dsimp only at hgst hlast honce ⊢
    rcases hr : writeStoredBuffers p shm acceptStored
      { s with expectWriteBuffer := false, writeDataTimer := false } with ⟨all, s'⟩
    rw [hr] at hgst honce
    have hdrain : PassesOn p s s' calls := ⟨hgst, hlast, honce⟩
    cases all with
    | false => exact ⟨calls, hdrain.gst, hdrain.last, hdrain.once⟩
    | true =>
      dsimp only
      split_ifs with h0
      · exact ⟨calls, hdrain⟩
      · exact ⟨_, hdrain.offer rfl rfl⟩
  · rw [if_neg hexpect]
    exact ⟨[], passesOn_nil rfl rfl⟩

end operations

/-! ## Runs -/

/-- The ring, with all bytes accepted handed over or stored, and a request for every time the end of
the stream was or will be passed on. -/
structure Inv (p : Partition) (s : History) : Prop where
  consistent : Consistent p s.state.player.availableBuffer
  balance : (handedOver s.state.player.gst).length +
    storedBytes p s.state.player.availableBuffer = s.accepted
  before : s.beforeRequest ≤ s.accepted
  requested : eosCalls s.state.player.gst + pending s.state.player ≤ s.requests

section runs

variable {p : Partition} {s t : History}

theorem inv_init (p : Partition) : Inv p (init p) where
  consistent := consistent_init p
  balance := by
    have hzero : storedBytes p (initWebAudioPlayerInternal p).availableBuffer = 0 := by
      rw [storedBytes_eq (consistent_init p)]
      exact Nat.sub_self _
    show 0 + storedBytes p (initWebAudioPlayerInternal p).availableBuffer = 0
    rw [hzero]
  before := Nat.le_refl _
  requested := Nat.le_refl _

/-- A step of the player that passes `calls` on, in terms of the history. -/
theorem PassesOn.eosAfterBytes {calls : List GstCall} (hs : Inv p s)
    (h : PassesOn p s.state.player t.state.player calls) (hle : t.beforeRequest ≤ s.accepted) :
    EosAfterBytes s t := by
  intro pre post heq
  rw [h.gst] at heq
  have hlast := h.last pre post (List.append_cancel_left heq)
  rw [hs.balance] at hlast
  exact hle.trans hlast

theorem PassesOn.requested {calls : List GstCall} (hs : Inv p s)
    (h : PassesOn p s.state.player t.state.player calls) (hle : s.requests ≤ t.requests) :
    eosCalls t.state.player.gst + pending t.state.player ≤ t.requests := by
  have honce := h.once
  have hbefore := hs.requested
  rw [h.gst, eosCalls_append]
  omega

/-- A step that is no request, and passes `calls` on. -/
theorem PassesOn.step {calls : List GstCall} (hs : Inv p s)
    (h : PassesOn p s.state.player t.state.player calls)
    (hconsistent : Consistent p t.state.player.availableBuffer)
    (hbalance : (handedOver t.state.player.gst).length +
      storedBytes p t.state.player.availableBuffer = t.accepted)
    (haccepted : s.accepted ≤ t.accepted) (hbefore : t.beforeRequest = s.beforeRequest)
    (hrequests : t.requests = s.requests) : Inv p t ∧ EosAfterBytes s t := by
  have hle : t.beforeRequest ≤ s.accepted := by
    rw [hbefore]
    exact hs.before
  exact ⟨⟨hconsistent, hbalance, hle.trans haccepted, h.requested hs hrequests.ge⟩,
    h.eosAfterBytes hs hle⟩

/-- A step of the player that leaves the ring and the calls alone. -/
theorem step_same (hs : Inv p s) (hbuffer : t.state.player.availableBuffer =
      s.state.player.availableBuffer) (hgst : t.state.player.gst = s.state.player.gst)
    (hpending : t.state.player.isEosRequested = s.state.player.isEosRequested)
    (haccepted : t.accepted = s.accepted) (hbefore : t.beforeRequest = s.beforeRequest)
    (hrequests : t.requests = s.requests) : Inv p t ∧ EosAfterBytes s t := by
  refine (passesOn_nil hgst hpending).step hs ?_ ?_ haccepted.ge hbefore hrequests
  · rw [hbuffer]
    exact hs.consistent
  · rw [hbuffer, hgst, haccepted]
    exact hs.balance

theorem balance_drain {s : Player} (hc : Consistent p s.availableBuffer) (shm : Mem UInt8)
    (accept : ℕ) :
    (handedOver (writeStoredBuffers p shm accept s).2.gst).length +
        storedBytes p (writeStoredBuffers p shm accept s).2.availableBuffer =
      (handedOver s.gst).length + storedBytes p s.availableBuffer := by
  have hdrain := drain_spec hc shm accept
  have hcontents := congrArg List.length hdrain.contents
  rw [length_stored shm hdrain.consistent, List.length_drop, length_stored shm hc] at hcontents
  rw [storedBytes_eq hdrain.consistent, storedBytes_eq hc, hdrain.handed, List.length_append,
    List.length_take, length_stored shm hc, hcontents]
  omega

theorem balance_write {s : Player} (hc : Consistent p s.availableBuffer)
    (hexpect : s.expectWriteBuffer = true) (shm : Mem UInt8) {numberOfFrames : ℕ}
    (hfits : numberOfFrames * p.bytesPerFrame ≤ free s.availableBuffer)
    (acceptStored acceptNew : ℕ) :
    Consistent p (writeBufferInternal p shm numberOfFrames acceptStored acceptNew
        s).2.availableBuffer ∧
      (handedOver
          (writeBufferInternal p shm numberOfFrames acceptStored acceptNew s).2.gst).length +
          storedBytes p (writeBufferInternal p shm numberOfFrames acceptStored acceptNew
            s).2.availableBuffer =
        (handedOver s.gst).length + storedBytes p s.availableBuffer +
          numberOfFrames * p.bytesPerFrame := by
  have hle := free_le hc
  have hp := p.fits
  obtain ⟨-, hcons, ⟨k, hhanded, hcontents⟩, -⟩ :=
    write_spec hc hexpect shm (by omega) hfits acceptStored acceptNew
  have hnew : (readAt shm ((freeAddrs s.availableBuffer).take
      (numberOfFrames * p.bytesPerFrame))).length = numberOfFrames * p.bytesPerFrame := by
    rw [length_readAt, List.length_take, freeAddrs_eq hc, Lib.Cyclic.length_cyc]
    omega
  have hlength := congrArg List.length hcontents
  rw [length_stored shm hcons, List.length_drop, List.length_append, hnew,
    length_stored shm hc] at hlength
  refine ⟨hcons, ?_⟩
  rw [storedBytes_eq hcons, storedBytes_eq hc, hhanded, List.length_append, List.length_take,
    List.length_append, hnew, length_stored shm hc, hlength]
  omega

/-- A request is passed on at once when no whole frame is stored. -/
theorem setEos_iff :
    getQueuedFramesInShm p s.state.player = 0 ↔
      storedBytes p s.state.player.availableBuffer < p.bytesPerFrame := by
  have hsame : getQueuedFramesInShm p s.state.player =
      storedBytes p s.state.player.availableBuffer / p.bytesPerFrame := rfl
  rw [hsame, Nat.div_eq_zero_iff]
  have hpos := p.bytesPerFrame_pos
  omega

theorem step_setEos (hs : Inv p s) :
    Inv p (record p s { s.state with player := setEos p s.state.player } .setEos) ∧
      (EosAfterBytes s (record p s { s.state with player := setEos p s.state.player } .setEos) ↔
        WholeFrames p s .setEos) := by
  have hbalance := hs.balance
  have hrequested := hs.requested
  have hiff := setEos_iff (p := p) (s := s)
  by_cases hqueued : getQueuedFramesInShm p s.state.player = 0
  · have hsent : setEos p s.state.player =
        { s.state.player with gst := s.state.player.gst ++ [GstCall.setEos] } := by
      unfold setEos
      rw [if_neg (not_not.mpr hqueued)]
    have hless := hiff.mp hqueued
    refine ⟨⟨?_, ?_, Nat.le_refl _, ?_⟩, fun h => ?_, fun h => ?_⟩
    · simp only [record, hsent]
      exact hs.consistent
    · simp only [record, hsent, handedOver_append, handedOver, List.append_nil]
      exact hbalance
    · simp only [record, hsent, eosCalls_append, eosCalls]
      unfold pending at hrequested ⊢
      dsimp only
      omega
    · have hle := h [] [] (by simp [record, hsent])
      simp only [record, List.append_nil] at hle
      exact Or.inl (by omega)
    · intro pre post heq
      have hzero : storedBytes p s.state.player.availableBuffer = 0 :=
        h.resolve_right (by omega)
      simp only [record]
      rw [handedOver_append, List.length_append]
      omega
  · have hdeferred : setEos p s.state.player = { s.state.player with isEosRequested := true } := by
      unfold setEos
      rw [if_pos hqueued]
    have hframe : p.bytesPerFrame ≤ storedBytes p s.state.player.availableBuffer :=
      Nat.le_of_not_lt (mt hiff.mpr hqueued)
    refine ⟨⟨?_, ?_, Nat.le_refl _, ?_⟩, iff_of_true (fun pre post heq => ?_) (Or.inr hframe)⟩
    · simp only [record, hdeferred]
      exact hs.consistent
    · simp only [record, hdeferred]
      exact hbalance
    · simp only [record, hdeferred]
      unfold pending at hrequested ⊢
      simp only [if_true]
      omega
    · simp [record, hdeferred] at heq

/-- Every step that is no request hands the stored bytes over before the end of the stream. -/
theorem step_other (hs : Inv p s) {a : Wakeups.Act} (hfits : Fits p s a) (ha : a ≠ .setEos)
    (hstep : step p s a = some t) : Inv p t ∧ EosAfterBytes s t := by
  obtain ⟨t', hplayer, rfl⟩ := Option.map_eq_some_iff.mp hstep
  cases a with
  | getBufferAvailable =>
    cases hplayer
    exact step_same hs rfl rfl rfl rfl rfl rfl
  | writeBuffer shm numberOfFrames acceptStored acceptNew =>
    simp only [Wakeups.step] at hplayer
    by_cases hexpect : s.state.player.expectWriteBuffer = true
    · rw [if_pos hexpect] at hplayer
      cases hplayer
      obtain ⟨calls, hcalls⟩ :=
        write_passesOn hs.consistent shm numberOfFrames acceptStored acceptNew
      obtain ⟨hcons, hbalance⟩ :=
        balance_write hs.consistent hexpect shm (hfits hexpect) acceptStored acceptNew
      have haccepted : acceptedBy p s.state.player
          (.writeBuffer shm numberOfFrames acceptStored acceptNew) =
            numberOfFrames * p.bytesPerFrame := if_pos hexpect
      refine hcalls.step hs hcons ?_ (Nat.le_add_right _ _) rfl rfl
      simp only [record, haccepted]
      rw [hbalance, hs.balance]
    · have hreject : writeBufferInternal p shm numberOfFrames acceptStored acceptNew
          s.state.player = (false, s.state.player) := by
        unfold writeBufferInternal
        rw [if_neg hexpect]
      have haccepted : acceptedBy p s.state.player
          (.writeBuffer shm numberOfFrames acceptStored acceptNew) = 0 := if_neg hexpect
      rw [if_neg hexpect, hreject] at hplayer
      cases hplayer
      refine step_same hs rfl rfl rfl ?_ rfl rfl
      simp only [record, haccepted, Nat.add_zero]
  | setEos => exact absurd rfl ha
  | timerFires =>
    simp only [Wakeups.step] at hplayer
    split_ifs at hplayer
    cases hplayer
    exact step_same hs rfl rfl rfl rfl rfl rfl
  | timerPosts =>
    simp only [Wakeups.step] at hplayer
    split_ifs at hplayer
    cases hplayer
    exact step_same hs rfl rfl rfl rfl rfl rfl
  | timerEnds =>
    simp only [Wakeups.step] at hplayer
    split_ifs at hplayer
    cases hplayer
    exact step_same hs rfl rfl rfl rfl rfl rfl
  | writeDataTask shm accept =>
    simp only [Wakeups.step] at hplayer
    by_cases hqueued : s.state.queued = 0
    · rw [if_pos hqueued] at hplayer
      cases hplayer
    rw [if_neg hqueued] at hplayer
    cases hplayer
    obtain ⟨calls, hgst, hlast, honce⟩ := drain_passesOn hs.consistent shm accept
    have hcalls : PassesOn p s.state.player
        (handleWriteDataTimer p shm accept s.state.player) calls := ⟨hgst, hlast, honce⟩
    refine hcalls.step hs (drain_spec hs.consistent shm accept).consistent ?_ (Nat.le_refl _) rfl
      rfl
    exact (balance_drain hs.consistent shm accept).trans hs.balance

/-- **Every step** hands the stored bytes over before the end of the stream when it meets its
condition, and only then. -/
theorem step_iff (hs : Inv p s) {a : Wakeups.Act} (hfits : Fits p s a)
    (hstep : step p s a = some t) : Inv p t ∧ (EosAfterBytes s t ↔ WholeFrames p s a) := by
  by_cases ha : a = .setEos
  · subst ha
    cases hstep
    exact step_setEos hs
  · obtain ⟨hinv, hafter⟩ := step_other hs hfits ha hstep
    refine ⟨hinv, iff_of_true hafter ?_⟩
    unfold WholeFrames
    split
    · exact absurd rfl ha
    · trivial

/-- **The end of the stream comes last** all along a run whose writes fit the free ranges, and is
passed on at most once for each request, exactly when at every request nothing is stored or a frame
at least. -/
theorem eos_last_iff (p : Partition) {as : List Wakeups.Act} {s : History}
    (h : Run (step p) (Fits p) (init p) as s) :
    ((∀ a t t', Occurs (step p) (Fits p) (init p) as a t → step p t a = some t' →
      EosAfterBytes t t') ∧ eosCalls s.state.player.gst ≤ s.requests) ↔
    ∀ a t, Occurs (step p) (Fits p) (init p) as a t → WholeFrames p t a := by
  have hinv : ∀ {as s}, Run (step p) (Fits p) (init p) as s → Inv p s := fun hrun =>
    hrun.invariant (Inv p) (fun _ _ _ ht hfits hstep => (step_iff ht hfits hstep).1) (inv_init p)
  constructor
  · rintro ⟨hafter, -⟩ a t hocc
    obtain ⟨t', -, hfits, hstep, -⟩ := hocc.rest h
    obtain ⟨pre, post, rfl, hpre⟩ := hocc
    exact (step_iff (hinv hpre) hfits hstep).2.mp (hafter a t t' ⟨pre, post, rfl, hpre⟩ hstep)
  · intro hwhole
    refine ⟨fun a t t' hocc hstep => ?_, ?_⟩
    · have hfits := h.occurs_ok hocc
      obtain ⟨pre, post, rfl, hpre⟩ := id hocc
      exact (step_iff (hinv hpre) hfits hstep).2.mpr (hwhole a t hocc)
    · have hrequested := (hinv h).requested
      omega

end runs

/-! ## Two runs -/

instance (p : Partition) (s : History) : (a : Wakeups.Act) → Decidable (Fits p s a)
  | .writeBuffer _ numberOfFrames _ _ =>
    inferInstanceAs (Decidable (s.state.player.expectWriteBuffer = true →
      numberOfFrames * p.bytesPerFrame ≤ free s.state.player.availableBuffer))
  | .getBufferAvailable | .setEos | .timerFires | .timerPosts | .timerEnds | .writeDataTask .. =>
    .isTrue trivial

instance (p : Partition) (s : History) : (a : Wakeups.Act) → Decidable (WholeFrames p s a)
  | .setEos =>
    inferInstanceAs (Decidable (storedBytes p s.state.player.availableBuffer = 0 ∨
      p.bytesPerFrame ≤ storedBytes p s.state.player.availableBuffer))
  | .getBufferAvailable | .writeBuffer .. | .timerFires | .timerPosts | .timerEnds
  | .writeDataTask .. =>
    .isTrue trivial

/-- A partition of two two-byte frames. -/
def twoByteFrames : Partition :=
  { smallPartition with bytesPerFrame := 2, bytesPerFrame_pos := Nat.succ_pos 1 }

/-- Three bytes are stored at the request, and the drain that takes them passes it on. -/
def deferredRequest : List Wakeups.Act :=
  [.getBufferAvailable, .writeBuffer (fun _ => 7) 2 0 1, .setEos, .timerFires, .timerPosts,
    .writeDataTask (fun _ => 7) 3]

theorem eos_last_deferred : ∃ s, Run (step twoByteFrames) (Fits twoByteFrames)
    (init twoByteFrames) deferredRequest s ∧
    ((handedOver s.state.player.gst).length = 4 ∧ eosCalls s.state.player.gst = 1) ∧
    (∀ a t t', Occurs (step twoByteFrames) (Fits twoByteFrames) (init twoByteFrames)
      deferredRequest a t → step twoByteFrames t a = some t' → EosAfterBytes t t') ∧
    eosCalls s.state.player.gst ≤ s.requests := by
  have hwhole : ∃ s, Run (step twoByteFrames)
      (fun t a => Fits twoByteFrames t a ∧ WholeFrames twoByteFrames t a) (init twoByteFrames)
      deferredRequest s ∧ ((handedOver s.state.player.gst).length = 4 ∧
        eosCalls s.state.player.gst = 1) :=
    Run.exists_of_runsIf (fun s => ((handedOver s.state.player.gst).length,
      eosCalls s.state.player.gst)) (4, 1) (by decide +kernel) fun _ _ h => Prod.mk.inj h
  obtain ⟨s, hrun, hcounts⟩ := hwhole
  have hfits := hrun.mono fun _ _ h => h.1
  exact ⟨s, hfits, hcounts,
    (eos_last_iff twoByteFrames hfits).mpr fun a t hocc => (hrun.occurs_ok hocc).2⟩

/-- One byte of a frame is left at the request, and the end of the stream overtakes it. -/
theorem eos_before_byte : ∃ s, Run (step twoByteFrames) (Fits twoByteFrames)
    (init twoByteFrames) [.getBufferAvailable, .writeBuffer (fun _ => 7) 1 0 1] s ∧
    ∃ t, step twoByteFrames s .setEos = some t ∧ ¬EosAfterBytes s t := by
  refine Run.exists_of_runsIf (fun s => (s.accepted, (handedOver s.state.player.gst).length,
    getQueuedFramesInShm twoByteFrames s.state.player)) (2, 1, 0) (by decide +kernel)
    fun s _ hcounts => ⟨_, rfl, fun hafter => ?_⟩
  obtain ⟨haccepted, hcounts⟩ := Prod.mk.inj hcounts
  obtain ⟨hhanded, hqueued⟩ := Prod.mk.inj hcounts
  have hgst : (setEos twoByteFrames s.state.player).gst = s.state.player.gst ++ [.setEos] := by
    unfold setEos
    rw [if_neg (not_not.mpr hqueued)]
  have hle : s.accepted ≤ (handedOver (s.state.player.gst ++ [])).length := hafter [] [] hgst
  rw [List.append_nil, haccepted, hhanded] at hle
  omega

end Rialto.WebAudio.EosOrder
