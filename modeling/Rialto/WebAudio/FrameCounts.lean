import Rialto.WebAudio.Wakeups

/-! # Frame counts that the server does not check

`writeBuffer` takes the frame count of the client as it is. A count that is too large for the free
ranges moves them out of the partition, unless GStreamer takes enough of the new data at once.

* `store_iff`, `new_iff`: for which byte counts `updateAvailableBuffer` stays in the partition, when
  the new data is stored behind other data and when it is offered at once.
* `Fine`: the condition on a call; `ring_within_iff`: the ranges stay in the partition all along a
  run exactly when every call meets it. -/

namespace Rialto.WebAudio.FrameCounts

open Rialto.Lib.Memory Rialto.Lib.Runs Rialto.Lib.Word Rialto.Lib.WordRing
open Rialto.WebAudio.Server Rialto.WebAudio.Ring
  Rialto.WebAudio.Stream Rialto.WebAudio.Wakeups

/-! ## Ranges in the partition -/

/-- A range of the partition, or an empty one. -/
def RangeIn (p : Partition) (off len : ℕ) : Prop :=
  len = 0 ∨ p.partitionOffset ≤ off ∧ off + len ≤ p.partitionOffset + p.maxDataLength

/-- The free ranges lie in the partition and are not longer than it. -/
structure Described (p : Partition) (b : WebAudioShmInfo) : Prop where
  main : RangeIn p b.offsetMain b.lengthMain
  wrap : RangeIn p b.offsetWrap b.lengthWrap
  length_le : b.lengthMain + b.lengthWrap ≤ p.maxDataLength

/-- The ranges of a hand-over lie in the partition. -/
def OfferIn (p : Partition) (o : Server.Offer) : Prop :=
  RangeIn p o.mainPtr o.mainLength ∧ RangeIn p o.wrapPtr o.wrapLength

def OffersIn (p : Partition) (gst : List GstCall) : Prop :=
  ∀ o accepted, GstCall.writeBuffer o accepted ∈ gst → OfferIn p o

/-- The free ranges and all ranges handed to GStreamer lie in the partition. -/
structure Within (p : Partition) (s : Player) : Prop where
  available : Described p s.availableBuffer
  offers : OffersIn p s.gst

section ranges

variable {p : Partition} {b : WebAudioShmInfo} {n g : ℕ}

theorem described_of_consistent (hc : Consistent p b) : Described p b := by
  have h0 := hc.offsetWrap
  have h1 := hc.lo
  have h2 := hc.hi
  have h3 := hc.wrap_le
  have hle := free_le hc
  unfold free at hle
  refine ⟨Or.inr ⟨h1, h2⟩, Or.inr ⟨?_, ?_⟩, hle⟩
  · omega
  · omega

theorem storedOffer_in (hc : Consistent p b) : OfferIn p (storedOffer p b) := by
  have h0 := hc.offsetWrap
  have h1 := hc.lo
  have h2 := hc.hi
  have h3 := hc.wrap_le
  have h4 := hc.wrap
  have hfits := p.fits
  unfold storedOffer OfferIn RangeIn
  by_cases hwrap : b.lengthWrap = 0
  · rw [if_neg (not_not.mpr hwrap)]
    simp (disch := omega) only [add32_of_lt, sub32_of_le]
    omega
  · have hend := h4 hwrap
    rw [if_pos hwrap]
    simp (disch := omega) only [add32_of_lt, sub32_of_le]
    exact ⟨Or.inr (by omega), Or.inl trivial⟩

/-- The free ranges of an empty store: to the end of the partition, and in front of the position. -/
theorem empty_lengths (hc : Consistent p b) (hempty : free b = p.maxDataLength) :
    b.lengthMain = p.partitionOffset + p.maxDataLength - b.offsetMain ∧
      b.lengthWrap = b.offsetMain - p.partitionOffset := by
  have h1 := hc.lo
  have h2 := hc.hi
  have h3 := hc.wrap_le
  have h4 := hc.wrap
  unfold free at hempty
  by_cases hwrap : b.lengthWrap = 0
  · omega
  · have hend := h4 hwrap
    omega

/-- **Storing `n` bytes behind others** stays in the partition when they are free. -/
theorem store_iff (hc : Consistent p b) (hn : n < w32) :
    Described p (updateAvailableBuffer p b n 0) ↔ n ≤ free b := by
  constructor
  · intro hd
    by_contra hlt
    have h0 := hc.offsetWrap
    have h3 := hc.wrap_le
    have hfits := p.fits
    have hpos := p.maxDataLength_pos
    have hle := free_le hc
    unfold free at hlt hle
    have hmain := hd.main
    unfold updateAvailableBuffer at hmain
    rw [if_neg (by omega), if_pos (Nat.zero_le _)] at hmain
    simp only [RangeIn, add32, sub32, w32] at hmain hfits hn
    omega
  · intro hle
    exact described_of_consistent (update_spec hc hle (Nat.zero_le _) (Or.inr (Or.inl rfl))).1

/-- New data that is too much for the partition, but not by more than GStreamer takes of it at the
end of the partition, leaves a ring. -/
theorem consistent_new (hc : Consistent p b) (hempty : free b = p.maxDataLength) (hn : n < w32)
    (hg : g ≤ n) (hle : n ≤ p.maxDataLength + min b.lengthMain g) :
    Consistent p (updateAvailableBuffer p b n g) := by
  obtain ⟨hmain, hwrap⟩ := empty_lengths hc hempty
  have h0 := hc.offsetWrap
  have h1 := hc.lo
  have h2 := hc.hi
  have hfits := p.fits
  by_cases hnm : n ≤ b.lengthMain
  · have hfree : n ≤ free b := by
      unfold free
      omega
    exact (update_spec hc hfree (by omega) (Or.inr (Or.inr hempty))).1
  · unfold updateAvailableBuffer
    rw [if_neg hnm, h0]
    by_cases hgm : g ≤ b.lengthMain
    · rw [if_pos hgm]
      simp (disch := omega) only [add32_of_lt, sub32_of_le]
      simp only [add32, sub32, w32] at hfits hn ⊢
      exact ⟨rfl, by dsimp only; omega, by dsimp only; omega, by dsimp only; omega,
        fun h => absurd rfl h⟩
    · rw [if_neg hgm]
      simp (disch := omega) only [add32_of_lt, sub32_of_le]
      exact ⟨rfl, by dsimp only; omega, by dsimp only; omega, by dsimp only; omega,
        fun _ => by dsimp only; omega⟩

/-- **Offering `n` new bytes of which `g` are taken**: what is offered and what stays free is in the
partition up to a whole partition, and beyond that only as far as the bytes taken and the room
behind the position go. -/
theorem new_iff (hc : Consistent p b) (hempty : free b = p.maxDataLength) (hn : n < w32)
    (hg : g ≤ n) :
    (OfferIn p (newOffer b n) ∧ Described p (updateAvailableBuffer p b n g)) ↔
      n ≤ p.maxDataLength + min b.lengthMain g := by
  obtain ⟨hmain, hwrap⟩ := empty_lengths hc hempty
  have h0 := hc.offsetWrap
  have h1 := hc.lo
  have h2 := hc.hi
  have hfits := p.fits
  constructor
  · rintro ⟨⟨-, hoffer⟩, hd⟩
    by_contra hlt
    have hnm : ¬n ≤ b.lengthMain := by omega
    unfold newOffer at hoffer
    rw [if_neg hnm] at hoffer
    simp (disch := omega) only [RangeIn, sub32_of_le] at hoffer
    have hd := hd.main
    unfold updateAvailableBuffer at hd
    rw [if_neg hnm, h0, if_pos (by omega)] at hd
    simp (disch := omega) only [RangeIn, add32_of_lt, sub32_of_le] at hd
    simp only [add32, sub32, w32] at hd hfits hn
    omega
  · intro hle
    refine ⟨?_, described_of_consistent (consistent_new hc hempty hn hg hle)⟩
    unfold newOffer OfferIn RangeIn
    split_ifs with hnm
    · dsimp only
      omega
    · simp (disch := omega) only [sub32_of_le]
      omega

theorem length_newOffer (hn : n < w32) :
    (newOffer b n).mainLength + (newOffer b n).wrapLength = n := by
  unfold newOffer
  split_ifs with hnm
  · rfl
  · simp (disch := omega) only [sub32_of_le]
    omega

end ranges

/-! ## The operations -/

/-- **The condition on a byte count**, after the multiplication in 32 bits: when GStreamer leaves
stored data, the new data fits the free bytes and those that it takes; when it takes all, the new
data fits the partition, or exceeds it by no more than what lies behind the position and by no more
than what GStreamer takes of it. -/
def CountFine (p : Partition) (b : WebAudioShmInfo) (n acceptStored acceptNew : ℕ) : Prop :=
  if acceptStored < p.maxDataLength - free b then n ≤ free b + acceptStored
  else n ≤ p.maxDataLength +
    min (p.partitionOffset + p.maxDataLength - b.offsetMain) (min acceptNew n)

instance (p : Partition) (b : WebAudioShmInfo) (n acceptStored acceptNew : ℕ) :
    Decidable (CountFine p b n acceptStored acceptNew) := by
  unfold CountFine
  infer_instance

/-- The condition on an action: a call that the player expects has a fine byte count. -/
def Fine (p : Partition) (s : State) : Wakeups.Act → Prop
  | .writeBuffer _ numberOfFrames acceptStored acceptNew => s.player.expectWriteBuffer = true →
      CountFine p s.player.availableBuffer (mul32 numberOfFrames p.bytesPerFrame) acceptStored
        acceptNew
  | _ => True

section operations

variable {p : Partition} {s : Player} {gst : List GstCall}

@[simp] theorem offersIn_snoc_writeBuffer {o : Server.Offer} {accepted : List UInt8} :
    OffersIn p (gst ++ [GstCall.writeBuffer o accepted]) ↔ OffersIn p gst ∧ OfferIn p o := by
  constructor
  · exact fun h => ⟨fun o' accepted' hmem => h o' accepted' (List.mem_append_left _ hmem),
      h o accepted (by simp)⟩
  · rintro ⟨h, ho⟩ o' accepted' hmem
    rcases List.mem_append.mp hmem with hmem | hmem
    · exact h o' accepted' hmem
    · cases List.mem_singleton.mp hmem
      exact ho

@[simp] theorem offersIn_snoc_setEos : OffersIn p (gst ++ [GstCall.setEos]) ↔ OffersIn p gst := by
  constructor
  · exact fun h o accepted hmem => h o accepted (List.mem_append_left _ hmem)
  · intro h o accepted hmem
    rcases List.mem_append.mp hmem with hmem | hmem
    · exact h o accepted hmem
    · cases List.mem_singleton.mp hmem

/-- What a drain does to the ranges. -/
structure DrainedRanges (p : Partition) (accept : ℕ) (s : Player) (r : Bool × Player) : Prop where
  consistent : Consistent p r.2.availableBuffer
  room : free r.2.availableBuffer =
    free s.availableBuffer + min accept (p.maxDataLength - free s.availableBuffer)
  offsetMain : r.2.availableBuffer.offsetMain = s.availableBuffer.offsetMain
  all : r.1 = true ↔ p.maxDataLength - free s.availableBuffer ≤ accept
  offers : OffersIn p r.2.gst ↔ OffersIn p s.gst

theorem drained_ranges (hc : Consistent p s.availableBuffer) (shm : Mem UInt8) (accept : ℕ) :
    DrainedRanges p accept s (writeStoredBuffers p shm accept s) := by
  obtain ⟨hcons, -, hcontents, -, hall, -, -⟩ := drain_spec hc shm accept
  have hbefore := length_stored shm hc
  have hafter := length_stored shm hcons
  have hle := free_le hc
  have hle' := free_le hcons
  rw [hcontents, List.length_drop] at hafter
  refine ⟨hcons, by omega, ?_, by rw [hall, hbefore], ?_⟩
  · have hmain : ∀ g, (updateAvailableBuffer p s.availableBuffer 0 g).offsetMain =
        s.availableBuffer.offsetMain := fun g => by
      have h1 := hc.hi
      have hfits := p.fits
      unfold updateAvailableBuffer
      rw [if_pos (Nat.zero_le _)]
      dsimp only
      split_ifs
      · exact add32_of_lt (by omega)
      · exact add32_of_lt (by omega)
    unfold writeStoredBuffers
    dsimp only
    split_ifs
    · rfl
    · exact hmain _
    · exact hmain _
    · exact hmain _
  · have hin := storedOffer_in hc
    unfold writeStoredBuffers gstWriteBuffer
    dsimp only
    split_ifs
    · exact Iff.rfl
    · rw [offersIn_snoc_setEos, offersIn_snoc_writeBuffer, and_iff_left hin]
    · rw [offersIn_snoc_writeBuffer, and_iff_left hin]
    · rw [offersIn_snoc_writeBuffer, and_iff_left hin]

/-- **A call** leaves the ranges in the partition when its byte count is fine, and only then; and
what it leaves is a ring again. -/
theorem write_iff (hc : Consistent p s.availableBuffer) (hoffers : OffersIn p s.gst)
    (hexpect : s.expectWriteBuffer = true) (shm : Mem UInt8)
    (numberOfFrames acceptStored acceptNew : ℕ) :
    (Within p (writeBufferInternal p shm numberOfFrames acceptStored acceptNew s).2 ↔
      CountFine p s.availableBuffer (mul32 numberOfFrames p.bytesPerFrame) acceptStored
        acceptNew) ∧
    (CountFine p s.availableBuffer (mul32 numberOfFrames p.bytesPerFrame) acceptStored acceptNew →
      Consistent p
        (writeBufferInternal p shm numberOfFrames acceptStored acceptNew s).2.availableBuffer) := by
  have hn : mul32 numberOfFrames p.bytesPerFrame < w32 := mul32_lt _ _
  have hdrained := drained_ranges
    (s := { s with expectWriteBuffer := false, writeDataTimer := false }) hc shm acceptStored
  have hle := free_le hc
  unfold writeBufferInternal
  rw [if_pos hexpect]
  dsimp only at hdrained ⊢
  rcases hr : writeStoredBuffers p shm acceptStored
    { s with expectWriteBuffer := false, writeDataTimer := false } with ⟨all, s'⟩
  rw [hr] at hdrained
  obtain ⟨hcons, hroom, hmain, hall, hoff⟩ := hdrained
  dsimp only at hcons hroom hmain hall hoff
  have hoffers' : OffersIn p s'.gst := hoff.mpr hoffers
  have hzero : numberOfFrames = 0 → mul32 numberOfFrames p.bytesPerFrame = 0 := fun h => by
    rw [h, mul32_of_lt (by omega), Nat.zero_mul]
  generalize mul32 numberOfFrames p.bytesPerFrame = n at hn hzero ⊢
  unfold CountFine
  cases all with
  | false =>
    have hlt : acceptStored < p.maxDataLength - free s.availableBuffer := by
      by_contra hge
      cases hall.mpr (Nat.le_of_not_lt hge)
    have hfree : free s'.availableBuffer = free s.availableBuffer + acceptStored := by omega
    rw [if_pos hlt, ← hfree]
    dsimp only
    refine ⟨⟨fun h => (store_iff hcons hn).mp h.available,
      fun h => ⟨(store_iff hcons hn).mpr h, hoffers'⟩⟩, fun h => ?_⟩
    exact (update_spec hcons h (Nat.zero_le _) (Or.inr (Or.inl rfl))).1
  | true =>
    have hge : p.maxDataLength - free s.availableBuffer ≤ acceptStored := hall.mp rfl
    have hempty : free s'.availableBuffer = p.maxDataLength := by omega
    have hlength := (empty_lengths hcons hempty).1
    rw [hmain] at hlength
    rw [if_neg (Nat.not_lt.mpr hge), ← hlength]
    dsimp only
    by_cases h0 : numberOfFrames = 0
    · rw [if_pos h0, hzero h0]
      exact ⟨iff_of_true ⟨described_of_consistent hcons, hoffers'⟩ (Nat.zero_le _), fun _ => hcons⟩
    · rw [if_neg h0]
      simp only [gstWriteBuffer, length_newOffer hn]
      have hiff := new_iff hcons hempty hn (Nat.min_le_right acceptNew n)
      rw [← hiff]
      refine ⟨⟨fun h => ?_, fun h => ?_⟩, fun h => ?_⟩
      · exact ⟨(offersIn_snoc_writeBuffer.mp h.offers).2, h.available⟩
      · exact ⟨h.2, offersIn_snoc_writeBuffer.mpr ⟨hoffers', h.1⟩⟩
      · exact consistent_new hcons hempty hn (Nat.min_le_right acceptNew n) (hiff.mp h)

end operations

/-! ## Runs -/

section runs

variable {p : Partition} {s t : State}

/-- **Every step** from a ring keeps the ranges in the partition when its action is fine, and only
then; and as long as it does, the ranges are a ring. -/
theorem step_iff (hc : Consistent p s.player.availableBuffer) (hs : Within p s.player)
    {a : Wakeups.Act} (hstep : Wakeups.step p s a = some t) :
    (Within p t.player ↔ Fine p s a) ∧
      (Within p t.player → Consistent p t.player.availableBuffer) := by
  cases a with
  | getBufferAvailable =>
    cases hstep
    exact ⟨iff_of_true ⟨hs.available, hs.offers⟩ trivial, fun _ => hc⟩
  | writeBuffer shm numberOfFrames acceptStored acceptNew =>
    simp only [Wakeups.step] at hstep
    by_cases hexpect : s.player.expectWriteBuffer = true
    · rw [if_pos hexpect] at hstep
      cases hstep
      obtain ⟨hiff, hkeep⟩ := write_iff hc hs.offers hexpect shm numberOfFrames acceptStored
        acceptNew
      refine ⟨hiff.trans ⟨fun h _ => h, fun h => h hexpect⟩, fun h => hkeep (hiff.mp h)⟩
    · have hreject : writeBufferInternal p shm numberOfFrames acceptStored acceptNew s.player =
          (false, s.player) := by
        unfold writeBufferInternal
        rw [if_neg hexpect]
      rw [if_neg hexpect, hreject] at hstep
      cases hstep
      exact ⟨iff_of_true hs fun h => absurd h hexpect, fun _ => hc⟩
  | setEos =>
    cases hstep
    have hsame := (setEos_buffer p s.player).1
    have hgst : OffersIn p (setEos p s.player).gst := by
      unfold setEos
      split_ifs
      · exact hs.offers
      · exact offersIn_snoc_setEos.mpr hs.offers
    refine ⟨iff_of_true ⟨?_, hgst⟩ trivial, fun _ => ?_⟩
    · show Described p (setEos p s.player).availableBuffer
      rw [hsame]
      exact hs.available
    · show Consistent p (setEos p s.player).availableBuffer
      rw [hsame]
      exact hc
  | timerFires =>
    simp only [Wakeups.step] at hstep
    split_ifs at hstep
    cases hstep
    exact ⟨iff_of_true hs trivial, fun _ => hc⟩
  | timerPosts =>
    simp only [Wakeups.step] at hstep
    split_ifs at hstep
    cases hstep
    exact ⟨iff_of_true hs trivial, fun _ => hc⟩
  | timerEnds =>
    simp only [Wakeups.step] at hstep
    split_ifs at hstep
    cases hstep
    exact ⟨iff_of_true hs trivial, fun _ => hc⟩
  | writeDataTask shm accept =>
    simp only [Wakeups.step] at hstep
    by_cases hqueued : s.queued = 0
    · rw [if_pos hqueued] at hstep
      cases hstep
    rw [if_neg hqueued] at hstep
    cases hstep
    obtain ⟨hcons, -, -, -, hoffers⟩ := drained_ranges hc shm accept
    exact ⟨iff_of_true ⟨described_of_consistent hcons, hoffers.mpr hs.offers⟩ trivial,
      fun _ => hcons⟩

/-- **The ranges stay in the partition** all along a run exactly when every call that the player
expects has a fine byte count. -/
theorem ring_within_iff (p : Partition) {as : List Wakeups.Act} {s : State}
    (h : Run (Wakeups.step p) (fun _ _ => True) (Wakeups.init p) as s) :
    (∀ pre post t, as = pre ++ post →
      Run (Wakeups.step p) (fun _ _ => True) (Wakeups.init p) pre t → Within p t.player) ↔
    ∀ a t, Occurs (Wakeups.step p) (fun _ _ => True) (Wakeups.init p) as a t → Fine p t a :=
  h.always_iff_of_kept (fun t => Consistent p t.player.availableBuffer) (fun t => Within p t.player)
    (Fine p) (consistent_init p)
    ⟨described_of_consistent (consistent_init p), fun _ _ hmem => absurd hmem List.not_mem_nil⟩
    fun _ _ _ hc hs hstep => step_iff hc hs hstep

end runs

/-! ## Two runs -/

instance (p : Partition) (s : State) (a : Wakeups.Act) : Decidable (Fine p s a) := by
  cases a <;> unfold Fine <;> infer_instance

/-- Three bytes of which one is taken, and one more behind them. -/
def fittingCounts : List Wakeups.Act :=
  [.getBufferAvailable, .writeBuffer (fun _ => 0) 3 0 1, .getBufferAvailable,
    .writeBuffer (fun _ => 0) 1 0 0]

theorem within_fitting : ∃ s, Run (Wakeups.step smallPartition) (fun _ _ => True)
    (Wakeups.init smallPartition) fittingCounts s ∧ s.player.availableBuffer = ⟨4, 0, 0, 1⟩ ∧
    ∀ pre post t, fittingCounts = pre ++ post →
      Run (Wakeups.step smallPartition) (fun _ _ => True) (Wakeups.init smallPartition) pre t →
      Within smallPartition t.player := by
  have hfine : ∃ s, Run (Wakeups.step smallPartition) (Fine smallPartition)
      (Wakeups.init smallPartition) fittingCounts s ∧ s.player.availableBuffer = ⟨4, 0, 0, 1⟩ :=
    Run.exists_of_runsIf (fun s => s.player.availableBuffer) _ (by decide +kernel) fun _ _ h => h
  obtain ⟨s, hrun, hbuffer⟩ := hfine
  have hall := hrun.mono (fun _ _ _ => trivial)
  exact ⟨s, hall, hbuffer,
    (ring_within_iff smallPartition hall).mpr fun a t hocc => hrun.occurs_ok hocc⟩

/-- Nine bytes for a partition of four, of which GStreamer takes none: the free range begins behind
the partition and is almost as long as the address space. -/
theorem large_count_leaves : ∃ s, Run (Wakeups.step smallPartition) (fun _ _ => True)
    (Wakeups.init smallPartition) [.getBufferAvailable, .writeBuffer (fun _ => 0) 9 0 0] s ∧
    s.player.availableBuffer = ⟨5, 4294967291, 0, 0⟩ ∧
    ¬Described smallPartition s.player.availableBuffer := by
  refine Run.exists_of_runs (fun s => s.player.availableBuffer) ⟨5, 4294967291, 0, 0⟩
    (by decide +kernel) fun s _ hbuffer => ⟨hbuffer, fun hd => ?_⟩
  have hle := hd.length_le
  rw [hbuffer] at hle
  simp [smallPartition] at hle

end Rialto.WebAudio.FrameCounts
