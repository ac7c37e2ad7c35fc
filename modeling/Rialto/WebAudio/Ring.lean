import Rialto.Lib.Cyclic
import Rialto.WebAudio.Server

/-! # The free ranges as a ring

The main and wrap ranges of a `Consistent` description are one cyclic range of the partition: `free`
bytes from the position `pos` on (`freeAddrs_eq`); the ranges `writeStoredBuffers` offers are the
rest of the turn (`storedOffer_addrs`), and the ranges offered for `n` new bytes are the first `n`
free ones (`newOffer_addrs`). `updateAvailableBuffer` moves the position by the bytes stored and
gives the bytes consumed back (`update_spec`); its cases for wrapped and unwrapped data are all the
same step of the ring. -/

namespace Rialto.WebAudio.Ring

open Rialto.Lib.Cyclic Rialto.Lib.Word Rialto.WebAudio.Server

variable {p : Partition} {b : WebAudioShmInfo}

/-- **The free ranges are a cyclic range of the partition.** The wrap range starts the partition,
and is empty unless the main range reaches the end of the partition. -/
structure Consistent (p : Partition) (b : WebAudioShmInfo) : Prop where
  offsetWrap : b.offsetWrap = p.partitionOffset
  lo : p.partitionOffset ≤ b.offsetMain
  hi : b.offsetMain + b.lengthMain ≤ p.partitionOffset + p.maxDataLength
  wrap_le : p.partitionOffset + b.lengthWrap ≤ b.offsetMain
  wrap : b.lengthWrap ≠ 0 → b.offsetMain + b.lengthMain = p.partitionOffset + p.maxDataLength

/-- The position of the first free byte. -/
def pos (p : Partition) (b : WebAudioShmInfo) : ℕ := b.offsetMain - p.partitionOffset

/-- The number of free bytes. -/
def free (b : WebAudioShmInfo) : ℕ := b.lengthMain + b.lengthWrap

/-- The free addresses, in the order in which they are written. -/
def freeAddrs (b : WebAudioShmInfo) : List ℕ :=
  List.range' b.offsetMain b.lengthMain ++ List.range' b.offsetWrap b.lengthWrap

/-- The addresses of the stored bytes, in the order in which `writeStoredBuffers` offers them. -/
def storedAddrs (p : Partition) (b : WebAudioShmInfo) : List ℕ := (storedOffer p b).addrs

theorem consistent_init (p : Partition) :
    Consistent p (initWebAudioPlayerInternal p).availableBuffer where
  offsetWrap := rfl
  lo := le_rfl
  hi := le_rfl
  wrap_le := le_rfl
  wrap := fun h => absurd rfl h

section Views
variable (hc : Consistent p b)
include hc

theorem free_le : free b ≤ p.maxDataLength := by
  have h1 := hc.hi
  have h2 := hc.wrap_le
  have h3 := hc.wrap
  unfold free
  omega

theorem pos_le : pos p b ≤ p.maxDataLength := by
  have h1 := hc.hi
  unfold pos
  omega

theorem freeAddrs_eq : freeAddrs b = cyc p.partitionOffset p.maxDataLength (pos p b) (free b) := by
  have h1 := hc.lo
  have h2 := hc.hi
  have h3 := hc.wrap_le
  have hpos : p.partitionOffset + pos p b = b.offsetMain := by unfold pos; omega
  by_cases hw : b.lengthWrap = 0
  · rw [cyc_eq_range' (by unfold pos free; omega), hpos]
    simp [freeAddrs, free, hw]
  · have h4 := hc.wrap hw
    rw [cyc_eq_wrap (pos_le hc) (free_le hc) (by unfold pos free; omega), hpos, freeAddrs,
      hc.offsetWrap, show p.maxDataLength - pos p b = b.lengthMain by unfold pos; omega,
      show pos p b + free b - p.maxDataLength = b.lengthWrap by unfold pos free; omega]

theorem storedOffer_addrs : storedAddrs p b =
    cyc p.partitionOffset p.maxDataLength (pos p b + free b) (p.maxDataLength - free b) := by
  have h0 := hc.offsetWrap
  have h1 := hc.lo
  have h2 := hc.hi
  have h3 := hc.wrap_le
  have hfits := p.fits
  unfold storedAddrs storedOffer Offer.addrs
  by_cases hw : b.lengthWrap = 0
  · rw [if_neg (not_not.mpr hw)]
    simp (disch := omega) only [add32_of_lt, sub32_of_le]
    rw [cyc_eq_wrap (by unfold pos free; omega) (by omega) (by unfold pos free; omega)]
    congr 2
    · unfold pos free; omega
    · unfold pos free; omega
    · unfold pos free; omega
  · have h4 := hc.wrap hw
    rw [if_pos hw]
    simp (disch := omega) only [add32_of_lt, sub32_of_le]
    rw [show pos p b + free b = b.lengthWrap + p.maxDataLength by unfold pos free; omega,
      cyc_add_period, cyc_eq_range' (by unfold free; omega), List.range'_zero, List.append_nil, h0]
    congr 1
    unfold free
    omega

/-- The lengths offered add up to the number of stored bytes. -/
theorem storedOffer_length :
    (storedOffer p b).mainLength + (storedOffer p b).wrapLength = p.maxDataLength - free b := by
  have h := congrArg List.length (storedOffer_addrs hc)
  simpa [storedAddrs, Offer.addrs] using h

theorem newOffer_addrs {n : ℕ} (hn : n ≤ free b) :
    (newOffer b n).addrs = cyc p.partitionOffset p.maxDataLength (pos p b) n := by
  have hle := free_le hc
  have hfits := p.fits
  rw [← take_cyc _ _ _ hn, ← freeAddrs_eq hc, freeAddrs]
  unfold newOffer Offer.addrs
  unfold free at hn hle
  split_ifs with h
  · rw [List.take_append_of_le_length (by simpa using h), List.range'_zero, List.append_nil,
      List.take_range'_of_length_ge h]
  · rw [List.take_append, List.take_of_length_le (by simp; omega), List.length_range',
      List.take_range'_of_length_ge (by omega), sub32_of_le (by omega) (by omega)]

theorem newOffer_length {n : ℕ} (hn : n ≤ free b) :
    (newOffer b n).mainLength + (newOffer b n).wrapLength = n := by
  have h := congrArg List.length (newOffer_addrs hc hn)
  simpa [Offer.addrs] using h

/-- **The free and the stored addresses partition `[P, P + M)`.** -/
theorem free_stored_perm : (freeAddrs b ++ storedAddrs p b).Perm
    (List.range' p.partitionOffset p.maxDataLength) := by
  have hle := free_le hc
  rw [freeAddrs_eq hc, storedOffer_addrs hc, ← cyc_append,
    show free b + (p.maxDataLength - free b) = p.maxDataLength by omega]
  exact cyc_perm p.maxDataLength_pos

/-- The test of `writeStoredBuffers` for an empty store. -/
theorem no_data_iff : add32 b.lengthWrap b.lengthMain = p.maxDataLength ↔
    free b = p.maxDataLength := by
  have hle := free_le hc
  have hfits := p.fits
  unfold free at hle ⊢
  rw [add32_of_lt (by omega)]
  omega

end Views

/-! ## One step of the ring -/

/-- **`updateAvailableBuffer` moves the ring.** Storing `n` bytes and consuming `g` moves the
position by `n` and changes the free space by `g - n`. It is only called to consume without storing
(`n = 0`), to store without consuming (`g = 0`), and for new data when the store is empty. -/
theorem update_spec (hc : Consistent p b) {n g : ℕ} (hn : n ≤ free b)
    (hg : g ≤ p.maxDataLength - free b + n)
    (hcall : n = 0 ∨ g = 0 ∨ free b = p.maxDataLength) :
    Consistent p (updateAvailableBuffer p b n g) ∧
      free (updateAvailableBuffer p b n g) = free b - n + g ∧
      (pos p (updateAvailableBuffer p b n g) = pos p b + n ∨
        pos p (updateAvailableBuffer p b n g) + p.maxDataLength = pos p b + n) := by
  have h0 := hc.offsetWrap
  have h1 := hc.lo
  have h2 := hc.hi
  have h3 := hc.wrap_le
  have h4 := hc.wrap
  have hle := free_le hc
  have hfits := p.fits
  unfold free at hn hg hcall hle
  unfold updateAvailableBuffer
  by_cases hnm : n ≤ b.lengthMain
  · rw [if_pos hnm]
    simp (disch := omega) only [add32_of_lt, sub32_of_le]
    split_ifs with hge
    · refine ⟨⟨h0, ?_, ?_, ?_, ?_⟩, ?_, Or.inl ?_⟩ <;> simp only [free, pos] <;> omega
    · refine ⟨⟨h0, ?_, ?_, ?_, ?_⟩, ?_, Or.inl ?_⟩ <;> simp only [free, pos] <;> omega
  · have hw := h4 (by omega)
    rw [if_neg hnm]
    simp (disch := omega) only [add32_of_lt, sub32_of_le]
    split_ifs with hge
    · refine ⟨⟨h0, ?_, ?_, ?_, ?_⟩, ?_, Or.inr ?_⟩ <;> simp only [free, pos] <;> omega
    · refine ⟨⟨h0, ?_, ?_, ?_, ?_⟩, ?_, Or.inr ?_⟩ <;> simp only [free, pos] <;> omega

/-- The cyclic range after a step of the ring, as one of the ring before it. -/
theorem update_cyc (hc : Consistent p b) {n g : ℕ} (hn : n ≤ free b)
    (hg : g ≤ p.maxDataLength - free b + n)
    (hcall : n = 0 ∨ g = 0 ∨ free b = p.maxDataLength) (k m : ℕ) :
    cyc p.partitionOffset p.maxDataLength (pos p (updateAvailableBuffer p b n g) + k) m =
      cyc p.partitionOffset p.maxDataLength (pos p b + n + k) m := by
  rcases (update_spec hc hn hg hcall).2.2 with h | h
  · rw [h]
  · rw [← h, Nat.add_right_comm, cyc_add_period]

/-- Consuming `g` stored bytes frees the first `g` of them. -/
theorem storedAddrs_consume (hc : Consistent p b) {g : ℕ} (hg : g ≤ p.maxDataLength - free b) :
    storedAddrs p (updateAvailableBuffer p b 0 g) = (storedAddrs p b).drop g := by
  have hn : 0 ≤ free b := Nat.zero_le _
  obtain ⟨hc', hf, -⟩ := update_spec (g := g) hc hn (by omega) (Or.inl rfl)
  rw [storedOffer_addrs hc', storedOffer_addrs hc, drop_cyc _ _ _ hg,
    update_cyc hc hn (by omega) (Or.inl rfl), hf]
  congr 1 <;> omega

/-- The free ranges named earlier stay the first free ones when stored bytes are consumed. -/
theorem freeAddrs_consume (hc : Consistent p b) {g : ℕ} (hg : g ≤ p.maxDataLength - free b) :
    freeAddrs b <+: freeAddrs (updateAvailableBuffer p b 0 g) := by
  have hn : 0 ≤ free b := Nat.zero_le _
  obtain ⟨hc', hf, -⟩ := update_spec (g := g) hc hn (by omega) (Or.inl rfl)
  have h := update_cyc (g := g) hc hn (by omega) (Or.inl rfl) 0 (free b - 0 + g)
  rw [Nat.add_zero, Nat.add_zero] at h
  rw [freeAddrs_eq hc, freeAddrs_eq hc', hf, h]
  exact cyc_prefix _ _ _ (by omega)

/-- Storing `n` bytes appends the first `n` free addresses to the stored ones. -/
theorem storedAddrs_store (hc : Consistent p b) {n : ℕ} (hn : n ≤ free b) :
    storedAddrs p (updateAvailableBuffer p b n 0) =
      storedAddrs p b ++ (newOffer b n).addrs := by
  have hle := free_le hc
  obtain ⟨hc', hf, -⟩ := update_spec (g := 0) hc hn (by omega) (Or.inr (Or.inl rfl))
  rw [storedOffer_addrs hc', storedOffer_addrs hc, newOffer_addrs hc hn,
    update_cyc hc hn (by omega) (Or.inr (Or.inl rfl)), hf,
    show p.maxDataLength - (free b - n + 0) = p.maxDataLength - free b + n by omega, cyc_append,
    show pos p b + n + (free b - n + 0) = pos p b + free b by omega,
    show pos p b + free b + (p.maxDataLength - free b) = pos p b + p.maxDataLength by omega,
    cyc_add_period]

/-- Storing `n` bytes in an empty store of which `g` are consumed at once. -/
theorem storedAddrs_new (hc : Consistent p b) {n g : ℕ} (hempty : free b = p.maxDataLength)
    (hn : n ≤ free b) (hg : g ≤ n) :
    storedAddrs p (updateAvailableBuffer p b n g) = (newOffer b n).addrs.drop g := by
  obtain ⟨hc', hf, -⟩ := update_spec (g := g) hc hn (by omega) (Or.inr (Or.inr hempty))
  rw [storedOffer_addrs hc', newOffer_addrs hc hn, drop_cyc _ _ _ hg,
    update_cyc hc hn (by omega) (Or.inr (Or.inr hempty)), hf,
    show pos p b + n + (free b - n + g) = pos p b + g + p.maxDataLength by omega, cyc_add_period]
  congr 1
  omega

end Rialto.WebAudio.Ring
