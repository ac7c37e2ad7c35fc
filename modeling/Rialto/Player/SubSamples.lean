import Mathlib.Algebra.GroupWithZero.Nat
import Rialto.Media.FramesV2
import Rialto.Player.Attach

/-! # The sub-sample table of a buffer

`createBuffer` writes the sub-samples of an encrypted segment as pairs of a 16-bit and a 32-bit
number, most significant byte first. The metadata in the shared memory has 32 bits for both.

* `readSubSamples`: the pairs as a decryptor reads them.
* `SameSums`: they divide the sample as the sub-samples of the segment do.
* `sub_samples_iff`: they do exactly when all numbers of clear bytes fit 16 bits. -/

namespace Rialto.Player.SubSamples

open Rialto.Lib.Endian Rialto.Lib.Memory Rialto.Lib.Word Rialto.Media.Segment Rialto.Media.Frames
open Rialto.Player.Attach (Env ProtectionData createBuffer putBe)

/-- A segment that was read, as the player has it. -/
def toSegment (s : MediaSegment) : Attach.Segment where
  type :=
    match s.type with
    | .audio => some .audio
    | .video => some .video
    | .unknown => none
  segmentClass :=
    match s.fields with
    | .plain => .other
    | .audio sampleRate numberOfChannels => .audio sampleRate.toInt numberOfChannels.toInt
    | .video width height => .video width.toInt height.toInt
  data := s.data
  timeStamp := s.timeStamp
  duration := s.duration
  encrypted := s.encrypted
  mediaKeySessionId := s.mediaKeySessionId.toInt
  keyId := s.keyId
  initVector := s.initVector
  subSamples := s.subSamples.map fun p => ⟨p.numClearBytes, p.numEncryptedBytes⟩
  initWithLast15 := s.initWithLast15.toNat

/-! ## Reading the table -/

/-- The number that the bytes are, most significant first. -/
def readBe (bytes : List UInt8) : ℕ := leValue bytes.reverse

def readSubSamples : ℕ → List UInt8 → List SubSamplePair
  | 0, _ => []
  | n + 1, bytes => ⟨readBe (bytes.take 2), readBe ((bytes.drop 2).take 4)⟩ ::
      readSubSamples n (bytes.drop 6)

def clearBytes (pairs : List SubSamplePair) : ℕ := (pairs.map SubSamplePair.numClearBytes).sum

def encryptedBytes (pairs : List SubSamplePair) : ℕ :=
  (pairs.map SubSamplePair.numEncryptedBytes).sum

/-- After every pair as many bytes were clear and as many encrypted. -/
structure SameSums (pairs subSamples : List SubSamplePair) : Prop where
  length : pairs.length = subSamples.length
  clear : ∀ n, clearBytes (pairs.take n) = clearBytes (subSamples.take n)
  encrypted : ∀ n, encryptedBytes (pairs.take n) = encryptedBytes (subSamples.take n)

/-- The sums of all prefixes determine the numbers. -/
theorem eq_of_sum_take : ∀ {xs ys : List ℕ}, xs.length = ys.length →
    (∀ n, (xs.take n).sum = (ys.take n).sum) → xs = ys
  | [], [], _, _ => rfl
  | x :: xs, y :: ys, hlen, hsum => by
    have hhead : x = y := by simpa using hsum 1
    subst hhead
    have htail : xs = ys := by
      refine eq_of_sum_take (Nat.succ.inj hlen) fun n => ?_
      have h := hsum (n + 1)
      simp only [List.take_succ_cons, List.sum_cons] at h
      omega
    rw [htail]

theorem sameSums_iff {pairs subSamples : List SubSamplePair} :
    SameSums pairs subSamples ↔ pairs = subSamples := by
  constructor
  · rintro ⟨hlen, hclear, hencrypted⟩
    have h1 : pairs.map SubSamplePair.numClearBytes =
        subSamples.map SubSamplePair.numClearBytes := by
      refine eq_of_sum_take (by simpa using hlen) fun n => ?_
      rw [← List.map_take, ← List.map_take]
      exact hclear n
    have h2 : pairs.map SubSamplePair.numEncryptedBytes =
        subSamples.map SubSamplePair.numEncryptedBytes := by
      refine eq_of_sum_take (by simpa using hlen) fun n => ?_
      rw [← List.map_take, ← List.map_take]
      exact hencrypted n
    refine List.ext_getElem hlen fun n hn hn' => ?_
    have hc : pairs[n].numClearBytes = subSamples[n].numClearBytes := by
      have h := congrArg (fun l : List ℕ => l[n]?) h1
      simpa [hn, hn'] using h
    have he : pairs[n].numEncryptedBytes = subSamples[n].numEncryptedBytes := by
      have h := congrArg (fun l : List ℕ => l[n]?) h2
      simpa [hn, hn'] using h
    rcases hp : pairs[n] with ⟨a, b⟩
    rcases hq : subSamples[n] with ⟨c, d⟩
    rw [hp, hq] at hc he
    cases hc
    cases he
    rfl
  · rintro rfl
    exact ⟨rfl, fun _ => rfl, fun _ => rfl⟩

/-! ## The table of `createBuffer` -/

/-- The bytes of the sub-samples in the buffer of the protection data. -/
def table (pairs : List SubSamplePair) : List UInt8 :=
  pairs.flatMap fun p => putBe 2 p.numClearBytes ++ putBe 4 p.numEncryptedBytes

/-- What the table has room for. -/
def stored (p : SubSamplePair) : SubSamplePair :=
  ⟨p.numClearBytes % 65536, p.numEncryptedBytes % w32⟩

@[simp] theorem length_putBe (n v : ℕ) : (putBe n v).length = n := by
  rw [putBe, List.length_reverse, length_leBytes]

theorem readBe_putBe (n v : ℕ) : readBe (putBe n v) = v % 256 ^ n := by
  rw [readBe, putBe, List.reverse_reverse, leValue_leBytes]

theorem readSubSamples_table : ∀ (pairs : List SubSamplePair) {n : ℕ}, n ≤ pairs.length →
    readSubSamples n (table pairs) = (pairs.take n).map stored
  | _, 0, _ => rfl
  | p :: pairs, n + 1, hn => by
    have hsplit : table (p :: pairs) =
        putBe 2 p.numClearBytes ++ (putBe 4 p.numEncryptedBytes ++ table pairs) := by
      rw [table, List.flatMap_cons, List.append_assoc]
      rfl
    have hclear : (table (p :: pairs)).take 2 = putBe 2 p.numClearBytes := by
      rw [hsplit]
      exact List.take_left' (length_putBe 2 _)
    have hrest : (table (p :: pairs)).drop 2 = putBe 4 p.numEncryptedBytes ++ table pairs := by
      rw [hsplit]
      exact List.drop_left' (length_putBe 2 _)
    have hencrypted : ((table (p :: pairs)).drop 2).take 4 = putBe 4 p.numEncryptedBytes := by
      rw [hrest]
      exact List.take_left' (length_putBe 4 _)
    have hnext : (table (p :: pairs)).drop 6 = table pairs := by
      rw [show 6 = 2 + 4 from rfl, ← List.drop_drop, hrest]
      exact List.drop_left' (length_putBe 4 _)
    rw [readSubSamples, hclear, hencrypted, hnext, readBe_putBe, readBe_putBe,
      readSubSamples_table pairs (Nat.le_of_succ_le_succ hn)]
    rfl

section player

variable {K : Type*} {env : Env K} {s : MediaSegment} {data : ProtectionData}

/-- The table and the count that `createBuffer` makes of a segment. -/
theorem protection_createBuffer (h : (createBuffer env (toSegment s)).protection = some data) :
    data.subsampleCount = s.subSamples.length % w32 ∧ data.subsamples = table s.subSamples := by
  have hcount : (toSegment s).subSamples.length % 2 ^ 32 = s.subSamples.length % w32 := by
    rw [show (toSegment s).subSamples.length = s.subSamples.length from List.length_map _]
    rfl
  have htable : ((toSegment s).subSamples.flatMap fun p =>
      putBe 2 p.numClearBytes ++ putBe 4 p.numEncryptedBytes) = table s.subSamples :=
    List.flatMap_map _ _ _
  unfold createBuffer at h
  dsimp only at h
  split_ifs at h
  all_goals
    cases h
    exact ⟨hcount, htable⟩

/-- The table of any encrypted segment. -/
theorem sameSums_createBuffer_iff
    (h : (createBuffer env (toSegment s)).protection = some data) :
    SameSums (readSubSamples data.subsampleCount data.subsamples) s.subSamples ↔
      s.subSamples.length < w32 ∧
        ∀ p ∈ s.subSamples, p.numClearBytes < 65536 ∧ p.numEncryptedBytes < w32 := by
  obtain ⟨hcount, htable⟩ := protection_createBuffer h
  rw [sameSums_iff, hcount, htable, readSubSamples_table _ (Nat.mod_le _ _)]
  constructor
  · intro heq
    have hlen : s.subSamples.length < w32 := by
      have hl := congrArg List.length heq
      rw [List.length_map, List.length_take, Nat.min_eq_left (Nat.mod_le _ _)] at hl
      rw [← hl]
      exact Nat.mod_lt _ (by decide)
    rw [Nat.mod_eq_of_lt hlen, List.take_length] at heq
    refine ⟨hlen, fun p hp => ?_⟩
    rw [← heq] at hp
    obtain ⟨q, -, rfl⟩ := List.mem_map.mp hp
    exact ⟨Nat.mod_lt _ (by decide), Nat.mod_lt _ (by decide)⟩
  · rintro ⟨hlen, hfit⟩
    rw [Nat.mod_eq_of_lt hlen, List.take_length]
    refine (List.map_congr_left fun p hp => ?_).trans (List.map_id _)
    obtain ⟨h1, h2⟩ := hfit p hp
    rw [stored, Nat.mod_eq_of_lt h1, Nat.mod_eq_of_lt h2, id]

end player

/-- **Fidelity of the table**: of a segment that `createSegment` makes of metadata in the shared
memory, the table divides the sample as its sub-samples do exactly when each of them has less than
`2 ^ 16` clear bytes. (`2 ^ 32` sub-samples have no room in the metadata.) -/
theorem sub_samples_iff {K : Type*} (env : Env K) {metadata : MediaSegmentMetadata}
    {type : MediaSourceType} {segment : MediaSegment}
    (hsegment : createSegment metadata type = some segment) (shm : Mem UInt8) (off : ℕ)
    {data : ProtectionData}
    (hdata : (createBuffer env (toSegment (setData segment shm off metadata.length))).protection =
      some data) :
    SameSums (readSubSamples data.subsampleCount data.subsamples) segment.subSamples ↔
      metadata.subSampleInfo.length < w32 ∧
        ∀ info ∈ metadata.subSampleInfo, info.numClearBytes.toNat < 65536 := by
  have hsub : segment.subSamples = metadata.subSampleInfo.map fun info =>
      ⟨info.numClearBytes.toNat, info.numEncryptedBytes.toNat⟩ := by
    obtain ⟨fields, -, rfl⟩ := Option.map_eq_some_iff.mp hsegment
    rfl
  have hiff := sameSums_createBuffer_iff hdata
  rw [show (setData segment shm off metadata.length).subSamples = segment.subSamples from rfl]
    at hiff
  rw [hiff, hsub, List.length_map, List.forall_mem_map]
  refine and_congr_right' (forall₂_congr fun info _ => ?_)
  exact and_iff_left info.numEncryptedBytes.toNat_lt

/-- Metadata of an encrypted audio segment with these sub-samples. -/
def metadataOf (infos : List SubsampleInfo) : MediaSegmentMetadata :=
  ⟨0, 10, 20, 1, some 13, some 2, none, none, none, none, some 7, some [9], some [8], some 0, infos⟩

/-- A service without Netflix and a buffer that takes the protection data. -/
def plainEnv : Env Unit := ⟨fun _ => false, fun _ _ => true, fun c _ _ => c, true, true⟩

/-- The largest number of clear bytes, and a second pair. -/
theorem sub_samples_two : ∃ segment data,
    createSegment (metadataOf [⟨65535, 7⟩, ⟨3, 4294967295⟩]) .audio = some segment ∧
    (createBuffer plainEnv (toSegment (setData segment (fun _ => 0) 0 0))).protection = some data ∧
    SameSums (readSubSamples data.subsampleCount data.subsamples) segment.subSamples := by
  have hsegment : createSegment (metadataOf [⟨65535, 7⟩, ⟨3, 4294967295⟩]) .audio = some _ := rfl
  exact ⟨_, _, hsegment, rfl,
    (sub_samples_iff plainEnv hsegment (fun _ => 0) 0 rfl).mpr (by decide)⟩

/-- Of 65536 clear bytes the table has none. -/
theorem sub_sample_of_65536 : ¬∀ (K : Type) (env : Env K) metadata type segment shm off data,
    createSegment metadata type = some segment →
      (createBuffer env (toSegment (setData segment shm off metadata.length))).protection =
        some data →
      SameSums (readSubSamples data.subsampleCount data.subsamples) segment.subSamples := by
  intro hall
  have h := hall Unit plainEnv (metadataOf [⟨65536, 16⟩]) .audio _ (fun _ => 0) 0 _ rfl rfl
  have hclear := h.clear 1
  revert hclear
  decide

end Rialto.Player.SubSamples
