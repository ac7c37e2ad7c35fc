import Rialto.Service.Players
import Rialto.Shm.Isolation

/-! # Partitions and players

The ids in the partitions of the current buffer are to be the ids of the players. A web audio player
maps its partition before its GStreamer player is created, and nothing unmaps it when that fails; a
service that is switched to active gets a new buffer, whatever players there are.

* `Fine`: what every buffer of the service keeps, `Inv` of the whole state.
* `Keeps`: no web audio player fails behind its mapping, and the service is switched to active only
  when there is no player.
* `agree_iff_keeps`: the ids agree all along a run exactly if every request keeps them, and where
  they agree, no partition is wanting before the maximum is reached.
* `failed_player_keeps_partition`: a run in which a partition is lost. -/

namespace Rialto.Service.Partitions

open Rialto.Lib.OrdMap Rialto.Lib.Runs Rialto.Lib.Word Rialto.Shm.Buffer Rialto.Shm.Mapping
open Rialto.Service.Players
open Rialto.Service.SessionServer (PlaybackService toUnsigned)

/-! ## Buffers -/

/-- An id is in a partition. -/
def InBuffer (b : SharedMemoryBuffer) (k : Kind) (id : ℤ) : Prop :=
  ∃ p ∈ partitions b k.playbackType, p.id = id

/-- What a buffer keeps: its partitions are free or have non-negative ids, all different, there are
as many as configured, and those for web audio are not empty. -/
structure Fine (max : Kind → ℤ) (b : SharedMemoryBuffer) : Prop where
  ids : ∀ k : Kind, ∀ p ∈ partitions b k.playbackType, p.id = noIdAssigned ∨ 0 ≤ p.id
  distinct : ∀ k : Kind, Distinct (partitions b k.playbackType)
  number : ∀ k : Kind, ((partitions b k.playbackType).length : ℤ) = max k
  audio : ∀ x ∈ (partitions b .webAudio).map lens, x.2 ≠ 0

theorem playbackType_inj {k l : Kind} (h : k.playbackType = l.playbackType) : k = l := by
  cases k <;> cases l <;> first | rfl | cases h

theorem length_assign (ps : List Partition) (it : ℕ) (id : ℤ) :
    (assign ps it id).length = ps.length :=
  List.length_modify ..

theorem mem_assign_id {ps : List Partition} {it : ℕ} {id : ℤ} {q : Partition}
    (h : q ∈ assign ps it id) : q.id = id ∨ q ∈ ps := by
  obtain ⟨j, hj⟩ := List.mem_iff_getElem?.mp h
  rw [getElem?_assign] at hj
  split_ifs at hj
  · obtain ⟨p, -, rfl⟩ := Option.map_eq_some_iff.mp hj
    exact Or.inl rfl
  · exact Or.inr (List.mem_of_getElem? hj)

/-- The ids after an assignment to a partition. -/
theorem exists_assign {ps : List Partition} {it : ℕ} {p : Partition} (hp : ps[it]? = some p)
    (id x : ℤ) : (∃ q ∈ assign ps it id, q.id = x) ↔
      x = id ∨ ∃ j q, j ≠ it ∧ ps[j]? = some q ∧ q.id = x := by
  constructor
  · rintro ⟨q, hq, rfl⟩
    obtain ⟨j, hj⟩ := List.mem_iff_getElem?.mp hq
    rw [getElem?_assign] at hj
    split_ifs at hj with heq
    · obtain ⟨p', -, rfl⟩ := Option.map_eq_some_iff.mp hj
      exact Or.inl rfl
    · exact Or.inr ⟨j, q, Ne.symm heq, hj, rfl⟩
  · rintro (rfl | ⟨j, q, hne, hq, rfl⟩)
    · refine ⟨{ p with id := x }, List.mem_of_getElem? (i := it) ?_, rfl⟩
      rw [getElem?_assign, if_pos rfl, hp]
      rfl
    · refine ⟨q, List.mem_of_getElem? (i := j) ?_, rfl⟩
      rw [getElem?_assign, if_neg (Ne.symm hne)]
      exact hq

theorem Fine.reassign {max : Kind → ℤ} {b : SharedMemoryBuffer} (h : Fine max b) {k : Kind} {it : ℕ}
    {id : ℤ} (hid : id = noIdAssigned ∨ 0 ≤ id)
    (hnew : 0 ≤ id → ∀ p ∈ partitions b k.playbackType, p.id ≠ id) :
    Fine max (reassign b k.playbackType it id) := by
  refine ⟨fun l => ?_, fun l => ?_, fun l => ?_, ?_⟩
  · rw [partitions_reassign]
    split_ifs with heq
    · intro q hq
      rcases mem_assign_id hq with rfl | hq
      · exact hid
      · exact h.ids k q hq
    · exact h.ids l
  · rw [partitions_reassign]
    split_ifs with heq
    · exact (h.distinct k).assign hnew
    · exact h.distinct l
  · rw [partitions_reassign]
    split_ifs with heq
    · rw [length_assign, playbackType_inj heq]
      exact h.number l
    · exact h.number l
  · rw [(sameLayout_reassign b k.playbackType it id).lens]
    exact h.audio

/-- **Mapping a partition.** -/
theorem mapPartition_spec {max : Kind → ℤ} {b : SharedMemoryBuffer} (h : Fine max b) (k : Kind)
    {id : ℤ} (hid : 0 ≤ id) :
    (∃ b', Shm.Buffer.mapPartition b k.playbackType id = (true, b') ∧ Fine max b' ∧
      ∀ l x, 0 ≤ x → (InBuffer b' l x ↔ (l = k ∧ x = id) ∨ InBuffer b l x)) ∨
    Shm.Buffer.mapPartition b k.playbackType id = (false, b) ∧
      ∀ p ∈ partitions b k.playbackType, p.id ≠ id ∧ p.id ≠ noIdAssigned := by
  rcases mapPartition_cases b k.playbackType id with
    ⟨hin, heq⟩ | ⟨it, p, hnew, hp, hfree, heq⟩ | ⟨hfull, heq⟩
  · refine Or.inl ⟨b, heq, h, fun l x _ => ⟨Or.inr, ?_⟩⟩
    rintro (⟨rfl, rfl⟩ | hx)
    · exact hin
    · exact hx
  · refine Or.inl ⟨_, heq, h.reassign (Or.inr hid) fun _ => hnew, fun l x hx => ?_⟩
    unfold InBuffer
    rw [partitions_reassign]
    split_ifs with hkl
    · cases playbackType_inj hkl
      rw [exists_assign hp]
      simp only [true_and]
      refine or_congr_right ⟨?_, ?_⟩
      · rintro ⟨j, q, -, hq, rfl⟩
        exact ⟨q, List.mem_of_getElem? hq, rfl⟩
      · rintro ⟨q, hq, rfl⟩
        obtain ⟨j, hj⟩ := List.mem_iff_getElem?.mp hq
        refine ⟨j, q, ?_, hj, rfl⟩
        -- the partition taken was free
        rintro rfl
        rw [hp] at hj
        cases hj
        rw [hfree] at hx
        exact absurd hx (by decide)
    · have hne : l ≠ k := fun h => hkl (by rw [h])
      simp only [hne, false_and, false_or]
  · exact Or.inr ⟨heq, hfull⟩

/-- **Unmapping a partition.** -/
theorem unmapPartition_spec {max : Kind → ℤ} {b : SharedMemoryBuffer} (h : Fine max b) (k : Kind)
    {id : ℤ} (hid : 0 ≤ id) :
    Fine max (Shm.Buffer.unmapPartition b k.playbackType id).2 ∧
      ∀ l x, 0 ≤ x → (InBuffer (Shm.Buffer.unmapPartition b k.playbackType id).2 l x ↔
        InBuffer b l x ∧ ¬(l = k ∧ x = id)) := by
  have hneg : ¬(0 : ℤ) ≤ noIdAssigned := by decide
  rcases unmapPartition_cases b k.playbackType id with ⟨hnone, heq⟩ | ⟨it, p, hp, rfl, heq⟩
  · rw [heq]
    refine ⟨h, fun l x _ => ⟨fun hx => ⟨hx, ?_⟩, fun hx => hx.1⟩⟩
    rintro ⟨rfl, rfl⟩
    obtain ⟨p, hp, hpid⟩ := hx
    exact hnone p hp hpid
  · rw [heq]
    refine ⟨h.reassign (Or.inl rfl) fun hpos => absurd hpos hneg, fun l x hx => ?_⟩
    unfold InBuffer
    rw [partitions_reassign]
    split_ifs with hkl
    · cases playbackType_inj hkl
      have hfree : x ≠ noIdAssigned := by
        rintro rfl
        exact hneg hx
      rw [exists_assign hp]
      simp only [hfree, false_or, true_and]
      constructor
      · rintro ⟨j, q, hj, hq, rfl⟩
        exact ⟨⟨q, List.mem_of_getElem? hq, rfl⟩,
          fun hsame => hj (h.distinct k j it q p hq hp hsame hx)⟩
      · rintro ⟨⟨q, hq, rfl⟩, hne⟩
        obtain ⟨j, hj⟩ := List.mem_iff_getElem?.mp hq
        refine ⟨j, q, ?_, hj, rfl⟩
        rintro rfl
        rw [hp] at hj
        cases hj
        exact hne rfl
    · have hne : l ≠ k := fun h => hkl (by rw [h])
      simp only [hne, false_and, not_false_eq_true, and_true]

/-! ### New buffers -/

/-- The values of an `int`. -/
def IsInt (x : ℤ) : Prop := -2147483648 ≤ x ∧ x < 2147483648

theorem toInt_toUnsigned {x : ℤ} (hx : IsInt x) : toInt (toUnsigned x) = x := by
  unfold IsInt at hx
  unfold toInt toUnsigned w32
  split_ifs <;> omega

theorem toSize_of_nonneg {x : ℤ} (hx : IsInt x) (hpos : 0 ≤ x) : (toSize x : ℤ) = x := by
  unfold IsInt at hx
  unfold toSize w64
  omega

theorem length_calculatePartitionSize {k : Kind} {num : ℤ} {ps : List Partition}
    (h : calculatePartitionSize k.playbackType num = some ps) : (ps.length : ℤ) = num := by
  have hcases : ∃ p, ¬num < 0 ∧ List.replicate num.toNat p = ps := by
    cases k <;> simp only [calculatePartitionSize, emptyPartition, Kind.playbackType] at h <;>
      split_ifs at h with hneg <;> cases h <;> exact ⟨_, hneg, rfl⟩
  obtain ⟨p, hneg, rfl⟩ := hcases
  rw [List.length_replicate]
  omega

theorem calculatePartitionSize_lens {num : ℤ} {ps : List Partition}
    (h : calculatePartitionSize .webAudio num = some ps) : ∀ x ∈ ps.map lens, x.2 ≠ 0 := by
  simp only [calculatePartitionSize, emptyPartition] at h
  split_ifs at h
  cases h
  intro x hx
  rw [List.map_replicate] at hx
  rw [List.eq_of_mem_replicate hx]
  decide

/-- A new buffer is fine, and no partition is taken. -/
theorem fine_create {sys : Sys} {max : Kind → ℤ} (hmax : ∀ k, IsInt (max k))
    {b : SharedMemoryBuffer}
    (h : Shm.Buffer.create sys (toUnsigned (max .session)) (toUnsigned (max .webAudio)) = some b) :
    Fine max b ∧ ∀ k x, 0 ≤ x → ¬InBuffer b k x := by
  unfold Shm.Buffer.create at h
  rw [toInt_toUnsigned (hmax _), toInt_toUnsigned (hmax _)] at h
  obtain ⟨generic, hg, h⟩ := Option.bind_eq_some_iff.mp h
  obtain ⟨webAudio, hw, h⟩ := Option.bind_eq_some_iff.mp h
  dsimp only at h
  split_ifs at h
  cases h
  have hparts : ∀ k : Kind, ∃ ps, calculatePartitionSize k.playbackType (max k) = some ps ∧
      partitions ⟨generic, webAudio, calculateBufferSize generic webAudio % w32⟩ k.playbackType =
        ps := by
    intro k
    cases k
    · exact ⟨generic, hg, rfl⟩
    · exact ⟨webAudio, hw, rfl⟩
  have hfree : ∀ k : Kind, ∀ p ∈ partitions
      ⟨generic, webAudio, calculateBufferSize generic webAudio % w32⟩ k.playbackType,
        p.id = noIdAssigned := by
    intro k
    obtain ⟨ps, hps, heq⟩ := hparts k
    rw [heq]
    exact calculatePartitionSize_id hps
  have hneg : ¬(0 : ℤ) ≤ noIdAssigned := by decide
  refine ⟨⟨fun k p hp => Or.inl (hfree k p hp), fun k i j p q hi _ _ hpos => ?_,
    fun k => ?_, ?_⟩, ?_⟩
  · rw [hfree k p (List.mem_of_getElem? hi)] at hpos
    exact absurd hpos hneg
  · obtain ⟨ps, hps, heq⟩ := hparts k
    rw [heq]
    exact length_calculatePartitionSize hps
  · exact calculatePartitionSize_lens hw
  · rintro k x hx ⟨p, hp, rfl⟩
    rw [hfree k p hp] at hx
    exact hneg hx

/-! ### The partition of a web audio player -/

theorem find_partition {max : Kind → ℤ} {b : SharedMemoryBuffer} (h : Fine max b) {id : ℤ}
    (hin : InBuffer b .webAudio id) :
    findId b.webAudioPartitions id < b.webAudioPartitions.length ∧
      ∃ p, b.webAudioPartitions[findId b.webAudioPartitions id]? = some p ∧
        p.dataBufferAudioLen ≠ 0 := by
  have hfound : findId b.webAudioPartitions id ≠ b.webAudioPartitions.length := by
    rw [Ne, findId_eq_length]
    obtain ⟨p, hp, hpid⟩ := hin
    exact fun hall => hall p hp hpid
  obtain ⟨p, hp, -⟩ := getElem_findId hfound
  exact ⟨Nat.lt_of_le_of_ne List.findIdx_le_length hfound, p, hp,
    h.audio (lens p) (List.mem_map_of_mem (List.mem_of_getElem? hp))⟩

theorem getMaxDataLen_ne_zero {max : Kind → ℤ} {b : SharedMemoryBuffer} (h : Fine max b) {id : ℤ}
    (hin : InBuffer b .webAudio id) : getMaxDataLen b .webAudio id .audio ≠ 0 := by
  obtain ⟨-, p, hp, haudio⟩ := find_partition h hin
  simpa only [getMaxDataLen, getPlaybackTypePartition, hp] using haudio

theorem getDataOffset_isSome {max : Kind → ℤ} {b : SharedMemoryBuffer} (h : Fine max b) {id : ℤ}
    (hin : InBuffer b .webAudio id) :
    ∃ offset, getDataOffset b .webAudio id .audio = some offset := by
  obtain ⟨hlt, p, hp, haudio⟩ := find_partition h hin
  have hptr : ∃ ptr, getDataPtrForPartition b .webAudio id = some ptr := by
    unfold getDataPtrForPartition
    rw [Shm.Isolation.walk_of_notMem 0 (fun q _ => by simp)]
    dsimp only
    rw [Shm.Isolation.walk_findIdx]
    · exact ⟨_, rfl⟩
    · simpa [findId] using hlt
  obtain ⟨ptr, hptr⟩ := hptr
  refine ⟨(ptr + p.dataBufferVideoLen) % w32, ?_⟩
  simp [getDataOffset, getDataPtr, getPlaybackTypePartition, hp, hptr, haudio]

/-! ## Agreement -/

/-- The id is in a partition of the current buffer. -/
def Mapped (s : State) (k : Kind) (id : ℤ) : Prop :=
  id ≠ noIdAssigned ∧ ∃ b, s.shmBuffer = some b ∧ InBuffer b k id

/-- **The ids mapped are those of the players.** -/
def Agree (s : State) : Prop := ∀ k id, Mapped s k id ↔ Live s k id

/-- The invariant. A player whose buffer was replaced has no partition in the current one. -/
structure Inv (s : State) : Prop where
  range : ∀ k, IsInt (s.max k)
  buffer : s.isActive = true → ∃ b, s.shmBuffer = some b
  fine : ∀ b, s.shmBuffer = some b → Fine s.max b
  live : ∀ k id, Live s k id → 0 ≤ id
  stale : ∀ k id g, (id, g) ∈ (s.players k).entries → g ≠ s.generation → ¬Mapped s k id

theorem Inv.nonneg {s : State} (h : Inv s) {k : Kind} {id : ℤ} (hm : Mapped s k id) : 0 ≤ id := by
  obtain ⟨hid, b, hb, p, hp, rfl⟩ := hm
  exact ((h.fine b hb).ids k p hp).resolve_left hid

theorem mapped_some {s : State} {b : SharedMemoryBuffer} (hb : s.shmBuffer = some b) {k : Kind}
    {id : ℤ} : Mapped s k id ↔ id ≠ noIdAssigned ∧ InBuffer b k id := by
  unfold Mapped
  rw [hb]
  simp

/-- Where the ids agree and no partition is free, the maximum is reached. -/
theorem max_of_full {s : State} (h : Inv s) (hagree : Agree s) {b : SharedMemoryBuffer}
    (hb : s.shmBuffer = some b) {k : Kind}
    (hfull : ∀ p ∈ partitions b k.playbackType, p.id ≠ noIdAssigned) :
    ((s.players k).entries.length : ℤ) = s.max k := by
  have hfine := h.fine b hb
  have hpos : ∀ p ∈ partitions b k.playbackType, 0 ≤ p.id := fun p hp =>
    (hfine.ids k p hp).resolve_left (hfull p hp)
  have hnodup : ((partitions b k.playbackType).map Partition.id).Nodup := by
    rw [List.nodup_iff_injective_getElem]
    rintro ⟨i, hi⟩ ⟨j, hj⟩ heq
    simp only [List.length_map] at hi hj
    simp only [List.getElem_map] at heq
    have hij := hfine.distinct k i j _ _ (List.getElem?_eq_getElem hi) (List.getElem?_eq_getElem hj)
      heq (hpos _ (List.getElem_mem hi))
    simp only [hij]
  have hmem : ∀ id, id ∈ (s.players k).keys ↔
      id ∈ (partitions b k.playbackType).map Partition.id := by
    intro id
    rw [List.mem_map]
    refine (hagree k id).symm.trans ((mapped_some hb).trans ⟨fun hm => hm.2, ?_⟩)
    rintro ⟨p, hp, rfl⟩
    exact ⟨hfull p hp, p, hp, rfl⟩
  have hperm := (List.perm_ext_iff_of_nodup (s.players k).keys_nodup hnodup).mpr hmem
  have hlen := hperm.length_eq
  rw [OMap.keys, List.length_map, List.length_map] at hlen
  rw [hlen]
  exact hfine.number k

/-! ## Constructors -/

/-- The id was given a partition. -/
structure Taken (max : Kind → ℤ) (b : SharedMemoryBuffer) (k : Kind) (id : ℤ)
    (b' : SharedMemoryBuffer) : Prop where
  fine : Fine max b'
  ids : ∀ l x, 0 ≤ x → (InBuffer b' l x ↔ (l = k ∧ x = id) ∨ InBuffer b l x)

/-- What a constructor can come back with, when `leaks` says that it fails behind its mapping. -/
inductive Constructs (s : State) (b : SharedMemoryBuffer) (k : Kind) (id : ℤ) (leaks : Prop) :
    Except Refusal Unit × State → Prop
  | refused (h : ¬leaks) : Constructs s b k id leaks (.error .notConstructed, s)
  | full (h : ∀ p ∈ partitions b k.playbackType, p.id ≠ noIdAssigned) :
    Constructs s b k id leaks (.error .noPartition, s)
  | failed (b' : SharedMemoryBuffer) (h : leaks) (taken : Taken s.max b k id b') :
    Constructs s b k id leaks (.error .notConstructed, { s with shmBuffer := some b' })
  | ok (b' : SharedMemoryBuffer) (h : ¬leaks) (taken : Taken s.max b k id b') :
    Constructs s b k id leaks (.ok (), { s with shmBuffer := some b' })

section Constructors

variable {s : State} {b : SharedMemoryBuffer} {id : ℤ}

theorem mapPartition_state (h : Inv s) (hb : s.shmBuffer = some b) (k : Kind) (hid : 0 ≤ id) :
    (∃ b', mapPartition s k id = (true, { s with shmBuffer := some b' }) ∧ Taken s.max b k id b') ∨
    mapPartition s k id = (false, s) ∧
      ∀ p ∈ partitions b k.playbackType, p.id ≠ noIdAssigned := by
  have hsame : { s with shmBuffer := some b } = s := by
    obtain ⟨⟨isActive, maxPlaybacks, maxWebAudioPlayers, shmBuffer⟩, generation, players⟩ := s
    cases hb
    rfl
  rcases mapPartition_spec (h.fine b hb) k hid with ⟨b', heq, hfine, hids⟩ | ⟨heq, hfull⟩
  · refine Or.inl ⟨b', ?_, hfine, hids⟩
    simp only [Players.mapPartition, hb, heq]
  · refine Or.inr ⟨?_, fun p hp => (hfull p hp).2⟩
    simp only [Players.mapPartition, hb, heq, hsame]

theorem constructs_mediaPipeline (h : Inv s) (hb : s.shmBuffer = some b) (hid : 0 ≤ id)
    (env : Env) :
    Constructs s b .session id False (createMediaPipelineServerInternal s id env) := by
  unfold createMediaPipelineServerInternal
  split_ifs
  · exact .refused not_false
  · exact .refused not_false
  · rcases mapPartition_state h hb .session hid with ⟨b', heq, htaken⟩ | ⟨heq, hfull⟩
    · rw [heq]
      exact .ok b' not_false htaken
    · rw [heq]
      exact .full hfull

/-- The constructor of a web audio player fails behind its mapping. -/
def FailsLate (audioMimeType : String) (config : Option PcmConfig) (env : Env) : Prop :=
  configured audioMimeType config = true ∧ env.mainThread = true ∧ env.gstPlayer = false

theorem constructs_webAudioPlayer (h : Inv s) (hb : s.shmBuffer = some b) (hid : 0 ≤ id)
    (audioMimeType : String) (config : Option PcmConfig) (env : Env) :
    Constructs s b .webAudio id (FailsLate audioMimeType config env)
      (createWebAudioPlayerServerInternal s id audioMimeType config env) := by
  unfold createWebAudioPlayerServerInternal
  split_ifs with hconfig hmain
  · exact .refused fun hlate => by simp [hlate.1] at hconfig
  · exact .refused fun hlate => by simp [hlate.2.1] at hmain
  · unfold initWebAudioPlayerInternal
    rcases mapPartition_state h hb .webAudio hid with ⟨b', heq, htaken⟩ | ⟨heq, hfull⟩
    · have hin : InBuffer b' .webAudio id := (htaken.ids _ _ hid).mpr (Or.inl ⟨rfl, rfl⟩)
      obtain ⟨offset, hoffset⟩ := getDataOffset_isSome htaken.fine hin
      rw [heq]
      simp only [Option.bind_some, hoffset, Option.map_some, Option.getD_some,
        getMaxDataLen_ne_zero htaken.fine hin, if_false]
      split_ifs with hgst
      · exact .failed b' ⟨by simpa using hconfig, by simpa using hmain, by simpa using hgst⟩ htaken
      · exact .ok b' (fun hlate => by simp [hlate.2.2] at hgst) htaken
    · rw [heq]
      exact .full hfull

end Constructors

/-! ## Requests -/

section Requests

variable {s : State} {k : Kind} {id : ℤ}

/-- The partition of an id was taken, and the id is not that of a player. -/
theorem agree_taken {b b' : SharedMemoryBuffer} (h : Inv s) (hb : s.shmBuffer = some b)
    (hid : 0 ≤ id) (htaken : Taken s.max b k id b') (l : Kind) (x : ℤ) :
    Mapped { s with shmBuffer := some b' } l x ↔ (l = k ∧ x = id) ∨ Mapped s l x := by
  have hneg : ¬(0 : ℤ) ≤ noIdAssigned := by decide
  rw [mapped_some (s := { s with shmBuffer := some b' }) rfl, mapped_some hb]
  constructor
  · rintro ⟨hx, hin⟩
    have hpos : 0 ≤ x := by
      obtain ⟨p, hp, rfl⟩ := hin
      exact (htaken.fine.ids l p hp).resolve_left hx
    exact ((htaken.ids l x hpos).mp hin).imp_right fun hin => ⟨hx, hin⟩
  · rintro (⟨rfl, rfl⟩ | ⟨hx, hin⟩)
    · refine ⟨?_, (htaken.ids _ _ hid).mpr (Or.inl ⟨rfl, rfl⟩)⟩
      rintro rfl
      exact hneg hid
    · have hpos : 0 ≤ x := h.nonneg ((mapped_some hb).mpr ⟨hx, hin⟩)
      exact ⟨hx, (htaken.ids l x hpos).mpr (Or.inr hin)⟩

theorem Inv.taken {b b' : SharedMemoryBuffer} (h : Inv s) (hb : s.shmBuffer = some b)
    (hid : 0 ≤ id) (habsent : ¬Live s k id) (htaken : Taken s.max b k id b') :
    Inv { s with shmBuffer := some b' } := by
  refine ⟨h.range, fun _ => ⟨b', rfl⟩, fun c hc => ?_, h.live, fun l x g hg hne hm => ?_⟩
  · cases hc
    exact htaken.fine
  · rcases (agree_taken h hb hid htaken l x).mp hm with ⟨rfl, rfl⟩ | hm
    · exact habsent (OMap.mem_keys.mpr ⟨g, hg⟩)
    · exact h.stale l x g hg hne hm

theorem mem_add_entries {l : Kind} {x : ℤ} {g : ℕ}
    (hg : (x, g) ∈ ((s.add k id).players l).entries) :
    (l = k ∧ x = id ∧ g = s.generation) ∨ (x, g) ∈ (s.players l).entries := by
  unfold State.add at hg
  dsimp only at hg
  by_cases heq : l = k
  · subst heq
    rw [Function.update_self] at hg
    rcases OMap.mem_of_mem_emplace hg with hg | hg
    · cases hg
      exact Or.inl ⟨rfl, rfl, rfl⟩
    · exact Or.inr hg
  · rw [Function.update_of_ne heq] at hg
    exact Or.inr hg

theorem Inv.add (h : Inv s) (hid : 0 ≤ id) : Inv (s.add k id) := by
  refine ⟨h.range, h.buffer, h.fine, fun l x hx => ?_, fun l x g hg hne => ?_⟩
  · rcases (live_add s k l id x).mp hx with ⟨-, rfl⟩ | hx
    · exact hid
    · exact h.live l x hx
  · rcases mem_add_entries hg with ⟨-, -, rfl⟩ | hg
    · exact absurd rfl hne
    · exact h.stale l x g hg hne

/-- **A creation.** It keeps the invariant, it keeps the agreement exactly if the constructor does
not fail behind its mapping, and it wants a partition only at the maximum. -/
theorem create_spec (h : Inv s) (hid : 0 ≤ id) {leaks : Prop}
    {construct : State → Except Refusal Unit × State}
    (hconstruct : ∀ b, s.shmBuffer = some b → Constructs s b k id leaks (construct s)) :
    Inv (create s k id construct).2 ∧
    (Agree s → (Agree (create s k id construct).2 ↔ (Admitted s k id → ¬leaks))) ∧
    (Agree s → (create s k id construct).1 = .error .noPartition →
      ((s.players k).entries.length : ℤ) = s.max k) := by
  rcases create_cases s k id construct with ⟨hnot, r, hr, heq⟩ | ⟨hadm, hcases⟩
  · rw [heq]
    refine ⟨h, fun hagree => ⟨fun _ hadm => absurd hadm hnot, fun _ => hagree⟩, fun _ hnone => ?_⟩
    cases hnone
    exact absurd rfl hr
  · obtain ⟨b, hb⟩ := h.buffer hadm.active
    have habsent : ¬Live s k id := OMap.find?_eq_none.mp hadm.absent
    have hc := hconstruct b hb
    generalize construct s = res at hc hcases
    cases hc with
    | refused hleaks =>
      obtain ⟨r, s', hres, heq⟩ | ⟨s', hres, -⟩ := hcases
      · cases hres
        rw [heq]
        refine ⟨h, fun hagree => ⟨fun _ _ => hleaks, fun _ => hagree⟩, fun _ hnone => ?_⟩
        cases hnone
      · cases hres
    | full hfull =>
      obtain ⟨r, s', hres, heq⟩ | ⟨s', hres, -⟩ := hcases
      · cases hres
        rw [heq]
        refine ⟨h, fun hagree => ?_, fun hagree _ => max_of_full h hagree hb hfull⟩
        -- the service has checked that there is room
        have hmax := max_of_full h hagree hb hfull
        have hsize := toSize_of_nonneg (h.range k) (by omega)
        exact absurd (by omega) hadm.room
      · cases hres
    | failed b' hleaks htaken =>
      obtain ⟨r, s', hres, heq⟩ | ⟨s', hres, -⟩ := hcases
      · cases hres
        rw [heq]
        refine ⟨h.taken hb hid habsent htaken, fun hagree => ⟨fun hagree' => ?_, fun hno => ?_⟩,
          fun _ hnone => ?_⟩
        · have hmapped := (agree_taken h hb hid htaken k id).mpr (Or.inl ⟨rfl, rfl⟩)
          exact absurd ((hagree' k id).mp hmapped) habsent
        · exact absurd hleaks (hno hadm)
        · cases hnone
      · cases hres
    | ok b' hleaks htaken =>
      obtain ⟨r, s', hres, -⟩ | ⟨s', hres, heq⟩ := hcases
      · cases hres
      · cases hres
        rw [heq]
        refine ⟨(h.taken hb hid habsent htaken).add hid,
          fun hagree => ⟨fun _ _ => hleaks, fun _ l x => ?_⟩, fun _ hnone => ?_⟩
        · refine Iff.trans ?_ (live_add _ k l id x).symm
          refine (agree_taken h hb hid htaken l x).trans (or_congr_right (hagree l x))
        · cases hnone

/-- What the destructor of a player leaves. -/
theorem unmapPartition_state (h : Inv s) {g : ℕ} (hg : (id, g) ∈ (s.players k).entries) :
    ∃ buffer, unmapPartition s k g id = { s with shmBuffer := buffer } ∧
      (s.isActive = true → ∃ b, buffer = some b) ∧ (∀ b, buffer = some b → Fine s.max b) ∧
      ∀ l x, Mapped { s with shmBuffer := buffer } l x ↔ Mapped s l x ∧ ¬(l = k ∧ x = id) := by
  have hid : 0 ≤ id := h.live k id (OMap.mem_keys.mpr ⟨g, hg⟩)
  unfold Players.unmapPartition
  split_ifs with hgen
  · refine ⟨_, rfl, fun hactive => ?_, fun b' hb' => ?_, fun l x => ?_⟩
    · obtain ⟨b, hb⟩ := h.buffer hactive
      exact ⟨_, by rw [hb]; rfl⟩
    · obtain ⟨b, hb, rfl⟩ := Option.map_eq_some_iff.mp hb'
      exact (unmapPartition_spec (h.fine b hb) k hid).1
    · cases hb : s.shmBuffer with
      | none => simp [Mapped, hb]
      | some b =>
        obtain ⟨hfine, hids⟩ := unmapPartition_spec (h.fine b hb) k hid
        rw [Option.map_some, mapped_some (s := { s with shmBuffer := some _ }) rfl, mapped_some hb]
        constructor
        · rintro ⟨hx, hin⟩
          have hpos : 0 ≤ x := by
            obtain ⟨p, hp, rfl⟩ := hin
            exact (hfine.ids l p hp).resolve_left hx
          obtain ⟨hin, hne⟩ := (hids l x hpos).mp hin
          exact ⟨⟨hx, hin⟩, hne⟩
        · rintro ⟨⟨hx, hin⟩, hne⟩
          have hpos : 0 ≤ x := h.nonneg ((mapped_some hb).mpr ⟨hx, hin⟩)
          exact ⟨hx, (hids l x hpos).mpr ⟨hin, hne⟩⟩
  · refine ⟨s.shmBuffer, rfl, h.buffer, h.fine, fun l x => ⟨fun hm => ⟨hm, ?_⟩, fun hm => hm.1⟩⟩
    rintro ⟨rfl, rfl⟩
    exact h.stale l x g hg hgen hm

/-- **A destruction.** -/
theorem destroy_spec (h : Inv s) (k : Kind) (id : ℤ) :
    Inv (destroy s k id).2 ∧ (Agree s → Agree (destroy s k id).2) := by
  cases hfind : (s.players k).find? id with
  | none =>
    have heq : (destroy s k id).2 = s := by simp only [destroy, hfind]
    rw [heq]
    exact ⟨h, fun hagree => hagree⟩
  | some g =>
    have hg := OMap.find?_eq_some.mp hfind
    obtain ⟨buffer, hunmap, hbuffer, hfine, hmapped⟩ := unmapPartition_state h hg
    have heq : (destroy s k id).2 = { s with
        shmBuffer := buffer
        players := Function.update s.players k ((s.players k).erase id) } := by
      simp only [destroy, hfind, hunmap]
    have hlive := fun l x => live_destroy s k l id x
    rw [heq] at hlive ⊢
    refine ⟨⟨h.range, hbuffer, hfine, fun l x hx => h.live l x ((hlive l x).mp hx).1,
      fun l x g' hg' hne hm => ?_⟩, fun hagree l x => ?_⟩
    · refine h.stale l x g' ?_ hne ((hmapped l x).mp hm).1
      dsimp only at hg'
      by_cases hl : l = k
      · subst hl
        rw [Function.update_self] at hg'
        exact (OMap.mem_erase.mp hg').1
      · rwa [Function.update_of_ne hl] at hg'
    · rw [hlive, ← hagree l x]
      exact hmapped l x

/-- **A switch to active.** The new buffer has no ids. -/
theorem switchToActive_spec (h : Inv s) (sys : Sys) :
    Inv (switchToActive s sys).2 ∧
    (Agree s → (Agree (switchToActive s sys).2 ↔
      ((s.toPlaybackService.createBuffer sys).isSome = true → ∀ k id, ¬Live s k id))) := by
  unfold Players.switchToActive PlaybackService.switchToActive
  cases hcreate : s.toPlaybackService.createBuffer sys with
  | none =>
    dsimp only
    refine ⟨⟨h.range, fun hactive => ?_, h.fine, h.live, h.stale⟩,
      fun hagree => ⟨fun _ hsome => ?_, fun _ => hagree⟩⟩
    · cases hactive
    · cases hsome
  | some b =>
    dsimp only
    obtain ⟨hfine, hempty⟩ := @fine_create sys s.max h.range b hcreate
    let s' : State := { s with
      isActive := true, shmBuffer := some b, generation := s.generation + 1 }
    have hunmapped : ∀ k x, ¬Mapped s' k x := by
      rintro k x ⟨hx, b', hb', hin⟩
      cases hb'
      have hpos : 0 ≤ x := by
        obtain ⟨p, hp, rfl⟩ := hin
        exact (hfine.ids k p hp).resolve_left hx
      exact hempty k x hpos hin
    show Inv s' ∧ (Agree s → (Agree s' ↔ _))
    refine ⟨⟨h.range, fun _ => ⟨b, rfl⟩, fun c hc => ?_, h.live, fun k x _ _ _ => hunmapped k x⟩,
      fun _ => ⟨fun hagree _ k x hlive => ?_, fun hnone k x => ?_⟩⟩
    · cases hc
      exact hfine
    · exact hunmapped k x ((hagree k x).mpr hlive)
    · exact ⟨fun hm => absurd hm (hunmapped k x), fun hlive => absurd hlive (hnone rfl k x)⟩

/-- **A switch to inactive.** -/
theorem switchToInactive_spec (h : Inv s) :
    Inv (switchToInactive s) ∧ Agree (switchToInactive s) := by
  have hunmapped : ∀ k x, ¬Mapped (Players.switchToInactive s) k x := by
    rintro k x ⟨-, b, hb, -⟩
    cases hb
  have hnone : ∀ k x, ¬Live (Players.switchToInactive s) k x := fun _ _ hlive => by cases hlive
  refine ⟨⟨h.range, fun hactive => ?_, fun b hb => ?_, fun k x hx => absurd hx (hnone k x),
    fun k x _ _ _ => hunmapped k x⟩, fun k x => ?_⟩
  · cases hactive
  · cases hb
  · exact ⟨fun hm => absurd hm (hunmapped k x), fun hx => absurd hx (hnone k x)⟩

end Requests

/-! ## Runs -/

/-- The requests. The ids come from counters that start at zero. -/
inductive Act
  | createSession (id : ℤ) (env : Env)
  | destroySession (id : ℤ)
  | createWebAudioPlayer (id : ℤ) (audioMimeType : String) (config : Option PcmConfig) (env : Env)
  | destroyWebAudioPlayer (id : ℤ)
  | switchToActive (sys : Sys)
  | switchToInactive
  deriving DecidableEq

def step (s : State) : Act → Option State
  | .createSession id env => if 0 ≤ id then some (createSession s id env).2 else none
  | .destroySession id => some (destroySession s id).2
  | .createWebAudioPlayer id audioMimeType config env =>
    if 0 ≤ id then some (createWebAudioPlayer s id audioMimeType config env).2 else none
  | .destroyWebAudioPlayer id => some (destroyWebAudioPlayer s id).2
  | .switchToActive sys => some (Players.switchToActive s sys).2
  | .switchToInactive => some (Players.switchToInactive s)

/-- **The condition on a request.** -/
def Keeps (s : State) : Act → Prop
  | .createWebAudioPlayer id audioMimeType config env =>
    Admitted s .webAudio id → ¬FailsLate audioMimeType config env
  | .switchToActive sys =>
    (s.toPlaybackService.createBuffer sys).isSome = true → ∀ k id, ¬Live s k id
  | _ => True

theorem createSession_spec {s : State} (h : Inv s) {id : ℤ} (hid : 0 ≤ id) (env : Env) :
    Inv (createSession s id env).2 ∧
    (Agree s → (Agree (createSession s id env).2 ↔ (Admitted s .session id → ¬False))) ∧
    (Agree s → (createSession s id env).1 = .error .noPartition →
      ((s.players .session).entries.length : ℤ) = s.max .session) :=
  create_spec h hid fun _ hb => constructs_mediaPipeline h hb hid env

theorem createWebAudioPlayer_spec {s : State} (h : Inv s) {id : ℤ} (hid : 0 ≤ id)
    (audioMimeType : String) (config : Option PcmConfig) (env : Env) :
    Inv (createWebAudioPlayer s id audioMimeType config env).2 ∧
    (Agree s → (Agree (createWebAudioPlayer s id audioMimeType config env).2 ↔
      (Admitted s .webAudio id → ¬FailsLate audioMimeType config env))) ∧
    (Agree s → (createWebAudioPlayer s id audioMimeType config env).1 = .error .noPartition →
      ((s.players .webAudio).entries.length : ℤ) = s.max .webAudio) :=
  create_spec h hid fun _ hb => constructs_webAudioPlayer h hb hid audioMimeType config env

/-- A request keeps the invariant, and the agreement exactly if it meets the condition. -/
theorem step_spec {s s' : State} {a : Act} (h : Inv s) (hstep : step s a = some s') :
    Inv s' ∧ (Agree s → (Agree s' ↔ Keeps s a)) := by
  cases a with
  | createSession id env =>
    simp only [step] at hstep
    split_ifs at hstep with hid
    cases hstep
    obtain ⟨hinv, hagree, -⟩ := createSession_spec h hid env
    exact ⟨hinv, fun hs => (hagree hs).trans ⟨fun _ => trivial, fun _ _ => not_false⟩⟩
  | destroySession id =>
    cases hstep
    obtain ⟨hinv, hagree⟩ := destroy_spec h .session id
    exact ⟨hinv, fun hs => ⟨fun _ => trivial, fun _ => hagree hs⟩⟩
  | createWebAudioPlayer id audioMimeType config env =>
    simp only [step] at hstep
    split_ifs at hstep with hid
    cases hstep
    obtain ⟨hinv, hagree, -⟩ := createWebAudioPlayer_spec h hid audioMimeType config env
    exact ⟨hinv, hagree⟩
  | destroyWebAudioPlayer id =>
    cases hstep
    obtain ⟨hinv, hagree⟩ := destroy_spec h .webAudio id
    exact ⟨hinv, fun hs => ⟨fun _ => trivial, fun _ => hagree hs⟩⟩
  | switchToActive sys =>
    cases hstep
    exact switchToActive_spec h sys
  | switchToInactive =>
    cases hstep
    obtain ⟨hinv, hagree⟩ := switchToInactive_spec h
    exact ⟨hinv, fun _ => ⟨fun _ => trivial, fun _ => hagree⟩⟩

theorem inv_init {maxPlaybacks maxWebAudioPlayers : ℤ} (hp : IsInt maxPlaybacks)
    (hw : IsInt maxWebAudioPlayers) : Inv (init maxPlaybacks maxWebAudioPlayers) where
  range := fun k => by cases k <;> assumption
  buffer := fun h => by cases h
  fine := fun _ h => by cases h
  live := fun _ _ h => by cases h
  stale := fun _ _ _ h => by cases h

theorem agree_init (maxPlaybacks maxWebAudioPlayers : ℤ) :
    Agree (init maxPlaybacks maxWebAudioPlayers) := by
  refine fun k id => ⟨?_, fun h => by cases h⟩
  rintro ⟨-, b, hb, -⟩
  cases hb

/-- **Along a run of requests the ids mapped in the current buffer are those of the sessions and of
the web audio players after every request if and only if no web audio player fails behind its
mapping and the service gets a new buffer only when there are no players. Where they agree, a
creation is refused for want of a partition only when the maximum is reached.** -/
theorem agree_iff_keeps {maxPlaybacks maxWebAudioPlayers : ℤ} (hp : IsInt maxPlaybacks)
    (hw : IsInt maxWebAudioPlayers) {as : List Act} {s : State}
    (hrun : Run step (fun _ _ => True) (init maxPlaybacks maxWebAudioPlayers) as s) :
    ((∀ pre post t, as = pre ++ post →
        Run step (fun _ _ => True) (init maxPlaybacks maxWebAudioPlayers) pre t → Agree t) ↔
      ∀ a t, Occurs step (fun _ _ => True) (init maxPlaybacks maxWebAudioPlayers) as a t →
        Keeps t a) ∧
    (Agree s → ∀ id, 0 ≤ id →
      (∀ env, (createSession s id env).1 = .error .noPartition →
        ((s.players .session).entries.length : ℤ) = s.maxPlaybacks) ∧
      ∀ audioMimeType config env,
        (createWebAudioPlayer s id audioMimeType config env).1 = .error .noPartition →
          ((s.players .webAudio).entries.length : ℤ) = s.maxWebAudioPlayers) := by
  have hinv : Inv s :=
    hrun.invariant Inv (fun _ _ _ hs _ hstep => (step_spec hs hstep).1) (inv_init hp hw)
  refine ⟨?_, fun hagree id hid => ⟨fun env => ?_, fun audioMimeType config env => ?_⟩⟩
  · exact Run.always_iff Inv Agree Keeps (inv_init hp hw)
      (fun _ _ _ hs hstep => (step_spec hs hstep).1)
      (agree_init _ _) (fun _ _ _ hs hagree hstep => (step_spec hs hstep).2 hagree) hrun
  · exact (createSession_spec hinv hid env).2.2 hagree
  · exact (createWebAudioPlayer_spec hinv hid audioMimeType config env).2.2 hagree

/-! ## Runs on fixed inputs -/

/-- All system calls succeed. -/
def sys : Sys := ⟨true, true, true, true⟩

def env : Env := ⟨true, true, true⟩

/-- Stereo, 16 bits a sample. -/
def stereo : Option PcmConfig := some ⟨2, 16⟩

/-- A session and a web audio player; the player is destroyed, and another gets its partition. -/
def serving : List Act :=
  [.switchToActive sys, .createSession 0 env, .createWebAudioPlayer 0 "audio/x-raw" stereo env,
    .destroyWebAudioPlayer 0, .createWebAudioPlayer 1 "audio/x-raw" stereo env]

theorem agree_iff_keeps_serving :
    IsInt 1 ∧ ∃ s, Run step (fun _ _ => True) (init 1 1) serving s ∧
      (s.players .session).keys = [0] ∧ (s.players .webAudio).keys = [1] ∧
      ((∀ pre post t, serving = pre ++ post →
          Run step (fun _ _ => True) (init 1 1) pre t → Agree t) ↔
        ∀ a t, Occurs step (fun _ _ => True) (init 1 1) serving a t → Keeps t a) ∧
      (Agree s → ∀ id, 0 ≤ id →
        (∀ env, (createSession s id env).1 = .error .noPartition →
          ((s.players .session).entries.length : ℤ) = s.maxPlaybacks) ∧
        ∀ audioMimeType config env,
          (createWebAudioPlayer s id audioMimeType config env).1 = .error .noPartition →
            ((s.players .webAudio).entries.length : ℤ) = s.maxWebAudioPlayers) := by
  have hint : IsInt 1 := ⟨by decide, by decide⟩
  have hview : (runs step (init 1 1) serving).map
      (fun s => ((s.players .session).keys, (s.players .webAudio).keys)) = some ([0], [1]) := by
    decide +kernel
  obtain ⟨s, hs, hview⟩ := Option.map_eq_some_iff.mp hview
  simp only [Prod.mk.injEq] at hview
  exact ⟨hint, s, Run.of_runs hs, hview.1, hview.2, agree_iff_keeps hint hint (Run.of_runs hs)⟩

/-- The GStreamer player of the only web audio player cannot be created. -/
def failing : List Act :=
  [.switchToActive sys, .createWebAudioPlayer 0 "audio/x-raw" stereo ⟨true, true, false⟩]

/-- The partition is lost: no web audio player is live, one may be, and the next is refused. -/
theorem failed_player_keeps_partition :
    ∃ as s, Run step (fun _ _ => True) (init 1 1) as s ∧ Mapped s .webAudio 0 ∧
      ¬Live s .webAudio 0 ∧ (s.players .webAudio).entries = [] ∧ s.maxWebAudioPlayers = 1 ∧
      (createWebAudioPlayer s 1 "audio/x-raw" stereo env).1 = .error .noPartition := by
  have hview : (runs step (init 1 1) failing).map (fun s =>
      (s.shmBuffer.map fun b => b.webAudioPartitions.map Partition.id,
        (s.players .webAudio).entries,
        s.maxWebAudioPlayers,
        match (createWebAudioPlayer s 1 "audio/x-raw" stereo env).1 with
        | .error r => some r
        | .ok _ => none)) = some (some [0], [], 1, some .noPartition) := by
    decide +kernel
  obtain ⟨s, hs, hview⟩ := Option.map_eq_some_iff.mp hview
  simp only [Prod.mk.injEq] at hview
  obtain ⟨hids, hentries, hmax, hrefused⟩ := hview
  obtain ⟨b, hb, hids⟩ := Option.map_eq_some_iff.mp hids
  refine ⟨failing, s, Run.of_runs hs, ⟨by decide, b, hb, ?_⟩, ?_, hentries, hmax, ?_⟩
  · have hmem : (0 : ℤ) ∈ b.webAudioPartitions.map Partition.id := by
      rw [hids]
      exact List.mem_cons_self
    obtain ⟨p, hp, hpid⟩ := List.mem_map.mp hmem
    exact ⟨p, hp, hpid⟩
  · simp [Live, OMap.keys, hentries]
  · split at hrefused
    · rename_i r hr
      cases hrefused
      exact hr
    · cases hrefused

end Rialto.Service.Partitions
