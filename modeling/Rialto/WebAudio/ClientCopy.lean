import Rialto.WebAudio.Client

/-! # What the client copies

`WebAudioPlayer::writeBuffer` compares a 32-bit product with a 32-bit sum, and copies the whole main
range when the data fits it.

* `memcpys`: the copies of a call; `writeBuffer_shm`: they are what it does to the shared memory.
* `CopiesExactly`: the caller's frames, and nothing else, are read and written, or the call is
  refused when they are too many.
* `copies_exactly_iff`: the byte counts for which that holds. -/

namespace Rialto.WebAudio.ClientCopy

open Rialto.Lib.Memory Rialto.Lib.Word Rialto.WebAudio.Server Rialto.WebAudio.Ring
open Rialto.WebAudio.Client

open Rialto.WebAudio.Stream (smallPartition)

/-- The `memcpy` calls for `dataLength` bytes; `src` counts from the caller's pointer. -/
def memcpys (info : WebAudioShmInfo) (dataLength : ℕ) : List Copy :=
  if info.lengthMain < dataLength then
    [⟨info.offsetMain, 0, info.lengthMain⟩,
      ⟨info.offsetWrap, info.lengthMain, sub32 dataLength info.lengthMain⟩]
  else [⟨info.offsetMain, 0, info.lengthMain⟩]

/-- The copies of a call of `writeBuffer`. -/
def copiesOf (p : Partition) (w : Session) (numberOfFrames : ℕ) (mapped : Bool) : List Copy :=
  match copyTarget p w numberOfFrames mapped with
  | none => []
  | some info => memcpys info (mul32 numberOfFrames p.bytesPerFrame)

/-- A call with frames that fit the free ranges as integers reads exactly their bytes and writes
them to the first free addresses in order; a call with more frames is refused, whatever the server
would answer, and writes nothing. -/
def CopiesExactly (p : Partition) (w : Session) (info : WebAudioShmInfo) (numberOfFrames : ℕ)
    (mapped : Bool) : Prop :=
  if numberOfFrames * p.bytesPerFrame ≤ free info then
    reads (copiesOf p w numberOfFrames mapped) = List.range (numberOfFrames * p.bytesPerFrame) ∧
      writes (copiesOf p w numberOfFrames mapped) =
        (freeAddrs info).take (numberOfFrames * p.bytesPerFrame)
  else
    writes (copiesOf p w numberOfFrames mapped) = [] ∧
      ∀ data processed reply acceptStored acceptNew,
        (writeBuffer p w numberOfFrames data mapped processed reply acceptStored acceptNew).1 =
          false

/-- Frames that fit take the whole main range and pass the check of the 32-bit numbers; other frames
fail it. Without shared memory every call is refused. -/
def ExactCount (p : Partition) (info : WebAudioShmInfo) (numberOfFrames : ℕ) (mapped : Bool) :
    Prop :=
  if numberOfFrames * p.bytesPerFrame ≤ free info then
    if mapped then
      info.lengthMain ≤ numberOfFrames * p.bytesPerFrame ∧
        numberOfFrames * p.bytesPerFrame ≤ add32 info.lengthMain info.lengthWrap
    else numberOfFrames * p.bytesPerFrame = 0
  else mapped = true →
    add32 info.lengthMain info.lengthWrap < mul32 numberOfFrames p.bytesPerFrame

section calls

variable {p : Partition} {w : Session} {info : WebAudioShmInfo} {numberOfFrames : ℕ} {mapped : Bool}

theorem copyOut_eq (data shm : Mem UInt8) (dataLength : ℕ) :
    copyOut info data dataLength shm = copies data shm (memcpys info dataLength) := by
  unfold copyOut memcpys
  split_ifs <;> rfl

/-- The copies are all that a call does to the shared memory. -/
theorem writeBuffer_shm (data : Mem UInt8) (processed : Bool) (reply : Reply)
    (acceptStored acceptNew : ℕ) :
    (writeBuffer p w numberOfFrames data mapped processed reply acceptStored acceptNew).2.shm =
      copies data w.shm (copiesOf p w numberOfFrames mapped) := by
  unfold writeBuffer copiesOf
  rcases copyTarget p w numberOfFrames mapped with _ | info
  · rfl
  · exact copyOut_eq data w.shm _

/-- A call copies when there is shared memory and the check of the 32-bit numbers passes. -/
theorem copyTarget_copies (hinfo : w.info = some info) (hmapped : mapped = true)
    (hle : mul32 numberOfFrames p.bytesPerFrame ≤ add32 info.lengthMain info.lengthWrap) :
    copyTarget p w numberOfFrames mapped = some info := by
  unfold copyTarget
  rw [hinfo]
  dsimp only
  rw [if_neg (Nat.not_lt.mpr hle), if_pos hmapped]

theorem copyTarget_refuses (hinfo : w.info = some info)
    (h : ¬(mapped = true ∧
      mul32 numberOfFrames p.bytesPerFrame ≤ add32 info.lengthMain info.lengthWrap)) :
    copyTarget p w numberOfFrames mapped = none := by
  unfold copyTarget
  rw [hinfo]
  dsimp only
  by_cases hlt : add32 info.lengthMain info.lengthWrap < mul32 numberOfFrames p.bytesPerFrame
  · rw [if_pos hlt]
  · rw [if_neg hlt, if_neg fun hmapped => h ⟨hmapped, Nat.le_of_not_lt hlt⟩]

theorem length_reads_memcpys {n : ℕ} (hn : n < w32) :
    (reads (memcpys info n)).length = max info.lengthMain n := by
  unfold memcpys
  by_cases h : info.lengthMain < n
  · rw [if_pos h]
    simp only [reads, List.flatMap_cons, List.flatMap_nil, List.append_nil, List.length_append,
      List.length_range', sub32_of_le h.le hn]
    omega
  · rw [if_neg h]
    simp only [reads, List.flatMap_cons, List.flatMap_nil, List.append_nil, List.length_range']
    omega

/-- The copies of a count that takes the whole main range are exact. -/
theorem memcpys_exact {n : ℕ} (hmain : info.lengthMain ≤ n) (hn : n < w32) (hle : n ≤ free info) :
    reads (memcpys info n) = List.range n ∧
      writes (memcpys info n) = (freeAddrs info).take n := by
  unfold free at hle
  have htake : (freeAddrs info).take n = List.range' info.offsetMain info.lengthMain ++
      List.range' info.offsetWrap (n - info.lengthMain) := by
    rw [freeAddrs, List.take_append, List.length_range',
      List.take_of_length_le (by simpa using hmain), List.take_range'_of_length_ge (by omega)]
  unfold memcpys
  by_cases h : info.lengthMain < n
  · rw [if_pos h, htake]
    simp only [reads, writes, List.flatMap_cons, List.flatMap_nil, List.append_nil,
      sub32_of_le h.le hn, and_true]
    have hsum := List.range'_append_1 (s := 0) (m := info.lengthMain) (n := n - info.lengthMain)
    rw [Nat.zero_add, Nat.add_sub_cancel' hmain] at hsum
    rw [hsum, List.range_eq_range']
  · have heq : n = info.lengthMain := by omega
    rw [if_neg h, htake, heq, Nat.sub_self]
    simp only [reads, writes, List.flatMap_cons, List.flatMap_nil, List.append_nil,
      List.range'_zero, and_true]
    exact (List.range_eq_range' ..).symm

end calls

/-- **The client copies exactly the caller's frames**, or refuses too many, exactly when the byte
count meets the condition. -/
theorem copies_exactly_iff (p : Partition) {w : Session} {info : WebAudioShmInfo}
    (hinfo : w.info = some info) (hmain : info.lengthMain < w32) (numberOfFrames : ℕ)
    (mapped : Bool) :
    CopiesExactly p w info numberOfFrames mapped ↔ ExactCount p info numberOfFrames mapped := by
  have hproduct : ∀ {m}, numberOfFrames * p.bytesPerFrame ≤ m → m < w32 →
      mul32 numberOfFrames p.bytesPerFrame = numberOfFrames * p.bytesPerFrame :=
    fun hle hlt => mul32_of_lt (Nat.lt_of_le_of_lt hle hlt)
  have hsum : add32 info.lengthMain info.lengthWrap < w32 := Nat.mod_lt _ (by decide)
  have hword : mul32 numberOfFrames p.bytesPerFrame < w32 := Nat.mod_lt _ (by decide)
  unfold CopiesExactly ExactCount
  by_cases hcopies : mapped = true ∧
      mul32 numberOfFrames p.bytesPerFrame ≤ add32 info.lengthMain info.lengthWrap
  · obtain ⟨hmapped, hle⟩ := hcopies
    have htarget := copyTarget_copies hinfo hmapped hle
    have hcalls : copiesOf p w numberOfFrames mapped =
        memcpys info (mul32 numberOfFrames p.bytesPerFrame) := by
      unfold copiesOf
      rw [htarget]
    by_cases hfit : numberOfFrames * p.bytesPerFrame ≤ free info
    · rw [if_pos hfit, if_pos hfit, if_pos hmapped, hcalls]
      constructor
      · rintro ⟨hreads, -⟩
        have hlength := congrArg List.length hreads
        rw [length_reads_memcpys hword, List.length_range] at hlength
        have hlt : numberOfFrames * p.bytesPerFrame < w32 := by omega
        rw [mul32_of_lt hlt] at hle
        exact ⟨by omega, hle⟩
      · rintro ⟨hle', hcheck⟩
        rw [hproduct hcheck hsum]
        exact memcpys_exact hle' (Nat.lt_of_le_of_lt hcheck hsum) hfit
    · rw [if_neg hfit, if_neg hfit]
      refine iff_of_false (fun h => ?_) fun h => absurd (h hmapped) (Nat.not_lt.mpr hle)
      -- the server's answer is lost
      have hreturned := h.2 (fun _ => 0) false .none 0 0
      unfold writeBuffer at hreturned
      rw [htarget] at hreturned
      cases hreturned
  · have htarget := copyTarget_refuses hinfo hcopies
    have hcalls : copiesOf p w numberOfFrames mapped = [] := by
      unfold copiesOf
      rw [htarget]
    by_cases hfit : numberOfFrames * p.bytesPerFrame ≤ free info
    · rw [if_pos hfit, if_pos hfit, hcalls]
      have hnone : (reads [] = List.range (numberOfFrames * p.bytesPerFrame) ∧
          writes [] = (freeAddrs info).take (numberOfFrames * p.bytesPerFrame)) ↔
            numberOfFrames * p.bytesPerFrame = 0 := by
        constructor
        · rintro ⟨hreads, -⟩
          exact List.range_eq_nil.mp hreads.symm
        · intro h0
          rw [h0]
          exact ⟨rfl, rfl⟩
      rw [hnone]
      by_cases hmapped : mapped = true
      · rw [if_pos hmapped]
        refine iff_of_false (fun h0 => hcopies ⟨hmapped, ?_⟩) fun h => hcopies ⟨hmapped, ?_⟩
        · unfold mul32
          rw [h0]
          exact Nat.zero_le _
        · rw [hproduct h.2 hsum]
          exact h.2
      · rw [if_neg hmapped]
    · rw [if_neg hfit, if_neg hfit, hcalls]
      refine iff_of_true ⟨rfl, fun data processed reply acceptStored acceptNew => ?_⟩
        fun hmapped => Nat.lt_of_not_le fun hle => hcopies ⟨hmapped, hle⟩
      unfold writeBuffer
      rw [htarget]

/-- What exact copies do to the shared memory: they change the first free addresses only, depend on
the caller's frames only, and change nothing when the call is refused. -/
theorem CopiesExactly.shm {p : Partition} {w : Session} {info : WebAudioShmInfo}
    {numberOfFrames : ℕ} {mapped : Bool} (h : CopiesExactly p w info numberOfFrames mapped)
    (data : Mem UInt8) (processed : Bool) (reply : Reply) (acceptStored acceptNew : ℕ) :
    (∀ a, (numberOfFrames * p.bytesPerFrame ≤ free info →
        a ∉ (freeAddrs info).take (numberOfFrames * p.bytesPerFrame)) →
      (writeBuffer p w numberOfFrames data mapped processed reply acceptStored
        acceptNew).2.shm a = w.shm a) ∧
    ∀ data', (∀ i < numberOfFrames * p.bytesPerFrame, data i = data' i) →
      (writeBuffer p w numberOfFrames data mapped processed reply acceptStored
        acceptNew).2.shm =
      (writeBuffer p w numberOfFrames data' mapped processed reply acceptStored
        acceptNew).2.shm := by
  unfold CopiesExactly at h
  rw [writeBuffer_shm]
  by_cases hfit : numberOfFrames * p.bytesPerFrame ≤ free info
  · rw [if_pos hfit] at h
    obtain ⟨hreads, hwrites⟩ := h
    refine ⟨fun a ha => copies_of_notMem data w.shm ?_, fun data' hdata => ?_⟩
    · rw [hwrites]
      exact ha hfit
    · rw [writeBuffer_shm]
      refine copies_congr w.shm fun i hi => hdata i ?_
      rw [hreads] at hi
      exact List.mem_range.mp hi
  · rw [if_neg hfit] at h
    have hnone : ∀ a, a ∉ writes (copiesOf p w numberOfFrames mapped) := by
      intro a ha
      rw [h.1] at ha
      cases ha
    refine ⟨fun a _ => copies_of_notMem data w.shm (hnone a), fun data' _ => funext fun a => ?_⟩
    rw [writeBuffer_shm, copies_of_notMem data w.shm (hnone a),
      copies_of_notMem data' w.shm (hnone a)]

/-- For the ranges of a ring the sum of the lengths does not wrap; the product may. -/
theorem exactCount_of_consistent {p : Partition} {info : WebAudioShmInfo}
    (hc : Consistent p info) (numberOfFrames : ℕ) :
    ExactCount p info numberOfFrames true ↔
      (numberOfFrames * p.bytesPerFrame ≤ free info →
        info.lengthMain ≤ numberOfFrames * p.bytesPerFrame) ∧
      (free info < numberOfFrames * p.bytesPerFrame →
        free info < mul32 numberOfFrames p.bytesPerFrame) := by
  have hle := free_le hc
  have hfits := p.fits
  have hsum : add32 info.lengthMain info.lengthWrap = free info := by
    unfold free at hle ⊢
    exact add32_of_lt (by omega)
  unfold ExactCount
  rw [hsum]
  by_cases hfit : numberOfFrames * p.bytesPerFrame ≤ free info
  · rw [if_pos hfit, if_pos rfl]
    exact ⟨fun h => ⟨fun _ => h.1, fun hlt => absurd hfit (Nat.not_le.mpr hlt)⟩,
      fun h => ⟨h.1 hfit, hfit⟩⟩
  · rw [if_neg hfit]
    exact ⟨fun h => ⟨fun hle => absurd hle hfit, fun _ => h rfl⟩,
      fun h _ => h.2 (Nat.lt_of_not_le hfit)⟩

/-! ## Three calls -/

/-- A client that was given `info`. -/
def given (p : Partition) (info : WebAudioShmInfo) : Session :=
  { Session.init p (fun _ => 0) with info := some info }

/-- Three bytes for a main range of two and a wrap range of two. -/
theorem copies_exactly_three :
    CopiesExactly smallPartition (given smallPartition ⟨2, 2, 0, 2⟩) ⟨2, 2, 0, 2⟩ 3 true :=
  (copies_exactly_iff smallPartition rfl (by decide) 3 true).mpr (by unfold ExactCount; decide)

/-- A partition of one four-byte frame. -/
def fourByteFrames : Partition :=
  { smallPartition with bytesPerFrame := 4, bytesPerFrame_pos := Nat.succ_pos 3 }

/-- One byte for a main range of four: four bytes are read and written. And `2 ^ 30` frames of four
bytes for a range of four: the product is `0`, and four bytes are written. -/
theorem copies_too_much :
    ¬CopiesExactly smallPartition (given smallPartition ⟨0, 4, 0, 0⟩) ⟨0, 4, 0, 0⟩ 1 true ∧
    ¬CopiesExactly fourByteFrames (given fourByteFrames ⟨0, 4, 0, 0⟩) ⟨0, 4, 0, 0⟩ 1073741824
      true := by
  constructor
  · intro h
    unfold CopiesExactly at h
    rw [if_pos (by decide)] at h
    exact absurd h.1 (by decide)
  · intro h
    unfold CopiesExactly at h
    rw [if_neg (by decide)] at h
    exact absurd h.1 (by decide)

end Rialto.WebAudio.ClientCopy
