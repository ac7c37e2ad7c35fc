import Mathlib.Data.List.GetD
import Mathlib.Tactic.Common
import Mathlib.Tactic.SplitIfs

/-! # A byte-addressed memory

A memory is a total function from addresses. `write m off bs` is `memcpy` of `bs` to `off`, `fill`
is `memset`, and `readAt m addrs` reads a list of addresses in order, so that a buffer split over
several ranges is read as the list of its addresses.

* `readAt_write_of_notMem`: a write outside the addresses read changes nothing (the frame rule);
* `readRange_write_self`: reading back the range just written;
* `readRange_write_append`: what is stored grows by what is written behind it;
* `readRange_write_inside`: what is stored when a part of it is written;
* `write_append`: a copy behind another one;
* `copies_of_notMem`, `copies_congr`: what a sequence of copies changes, and what it depends on. -/

namespace Rialto.Lib.Memory

variable {β : Type*}

/-- A memory with cells of type `β`. -/
abbrev Mem (β : Type*) : Type _ := ℕ → β

/-- Copy `bs` to the range starting at `off`. -/
def write (m : Mem β) (off : ℕ) (bs : List β) : Mem β :=
  fun a => if off ≤ a then bs.getD (a - off) (m a) else m a

/-- Set `n` cells starting at `off` to `b`. -/
def fill (m : Mem β) (off : ℕ) (b : β) (n : ℕ) : Mem β :=
  write m off (List.replicate n b)

/-- The contents of the cells `addrs`, in order. -/
def readAt (m : Mem β) (addrs : List ℕ) : List β := addrs.map m

/-- The contents of the range of length `n` starting at `off`. -/
def readRange (m : Mem β) (off n : ℕ) : List β := readAt m (List.range' off n)

@[simp] theorem readAt_nil (m : Mem β) : readAt m [] = [] := rfl

@[simp] theorem readAt_append (m : Mem β) (xs ys : List ℕ) :
    readAt m (xs ++ ys) = readAt m xs ++ readAt m ys := List.map_append

@[simp] theorem length_readAt (m : Mem β) (xs : List ℕ) : (readAt m xs).length = xs.length :=
  List.length_map ..

@[simp] theorem length_readRange (m : Mem β) (off n : ℕ) : (readRange m off n).length = n := by
  simp [readRange]

theorem readAt_take (m : Mem β) (xs : List ℕ) (n : ℕ) :
    readAt m (xs.take n) = (readAt m xs).take n := List.map_take ..

theorem readAt_drop (m : Mem β) (xs : List ℕ) (n : ℕ) :
    readAt m (xs.drop n) = (readAt m xs).drop n := List.map_drop ..

theorem readAt_congr {m m' : Mem β} {xs : List ℕ} (h : ∀ a ∈ xs, m a = m' a) :
    readAt m xs = readAt m' xs := List.map_congr_left h

theorem write_of_notMem {m : Mem β} {off : ℕ} {bs : List β} {a : ℕ}
    (h : a < off ∨ off + bs.length ≤ a) : write m off bs a = m a := by
  unfold write
  split_ifs with hle
  · rw [List.getD_eq_default _ _ (by omega)]
  · rfl

theorem write_of_mem {m : Mem β} {off : ℕ} {bs : List β} {i : ℕ} (h : i < bs.length) :
    write m off bs (off + i) = bs[i] := by
  unfold write
  rw [if_pos (Nat.le_add_right _ _), Nat.add_sub_cancel_left, List.getD_eq_getElem _ _ h]

/-- **The frame rule.** -/
theorem readAt_write_of_notMem {m : Mem β} {off : ℕ} {bs : List β} {xs : List ℕ}
    (h : ∀ a ∈ xs, a < off ∨ off + bs.length ≤ a) :
    readAt (write m off bs) xs = readAt m xs :=
  readAt_congr fun a ha => write_of_notMem (h a ha)

theorem readRange_write_self (m : Mem β) (off : ℕ) (bs : List β) :
    readRange (write m off bs) off bs.length = bs := by
  refine List.ext_getElem (by simp) fun i h1 h2 => ?_
  simp only [readRange, readAt, List.getElem_map, List.getElem_range', Nat.one_mul]
  exact write_of_mem h2

@[simp] theorem write_nil (m : Mem β) (off : ℕ) : write m off [] = m := by
  funext a
  simp [write]

/-- Two copies, the second behind the first, are one. -/
theorem write_append (m : Mem β) (off : ℕ) (xs ys : List β) :
    write (write m off xs) (off + xs.length) ys = write m off (xs ++ ys) := by
  funext a
  by_cases h1 : a < off
  · rw [write_of_notMem (Or.inl (by omega)), write_of_notMem (Or.inl h1),
      write_of_notMem (Or.inl h1)]
  · obtain ⟨i, rfl⟩ := Nat.exists_eq_add_of_le (Nat.le_of_not_lt h1)
    by_cases hi : i < xs.length
    · have hlen : i < (xs ++ ys).length := by simp only [List.length_append]; omega
      rw [write_of_notMem (Or.inl (by omega)), write_of_mem hi, write_of_mem hlen,
        List.getElem_append_left hi]
    · obtain ⟨j, rfl⟩ := Nat.exists_eq_add_of_le (Nat.le_of_not_lt hi)
      by_cases hj : j < ys.length
      · have hlen : xs.length + j < (xs ++ ys).length := by simp only [List.length_append]; omega
        have heq : off + (xs.length + j) = off + xs.length + j := (Nat.add_assoc _ _ _).symm
        rw [write_of_mem hlen, List.getElem_append_right (Nat.le_add_right _ _), heq,
          write_of_mem hj]
        simp
      · rw [write_of_notMem (Or.inr (by omega)), write_of_notMem (Or.inr (by omega)),
          write_of_notMem (Or.inr (by simp only [List.length_append]; omega))]

/-- A range disjoint from the one written reads as before. -/
theorem readRange_write_of_disjoint (m : Mem β) {off off' n : ℕ} {bs : List β}
    (h : off' + n ≤ off ∨ off + bs.length ≤ off') :
    readRange (write m off bs) off' n = readRange m off' n := by
  refine readAt_write_of_notMem fun a ha => ?_
  simp only [List.mem_range', Nat.one_mul] at ha
  omega

theorem readRange_take (m : Mem β) (off : ℕ) {k n : ℕ} (h : k ≤ n) :
    (readRange m off n).take k = readRange m off k := by
  unfold readRange
  rw [← readAt_take, List.take_range'_of_length_ge h]

theorem readRange_append (m : Mem β) (off a b : ℕ) :
    readRange m off (a + b) = readRange m off a ++ readRange m (off + a) b := by
  unfold readRange
  rw [← readAt_append, List.range'_append_1]

theorem getElem?_readRange (m : Mem β) (off : ℕ) {i n : ℕ} (h : i < n) :
    (readRange m off n)[i]? = some (m (off + i)) := by
  simp only [readRange, readAt, List.getElem?_map, List.getElem?_range' h, Option.map_some,
    Nat.one_mul]

/-- A list that is stored is stored piece by piece. -/
theorem readRange_of_append {m : Mem β} {off : ℕ} {xs ys : List β}
    (h : readRange m off (xs ++ ys).length = xs ++ ys) :
    readRange m off xs.length = xs ∧ readRange m (off + xs.length) ys.length = ys := by
  rw [List.length_append, readRange_append] at h
  exact List.append_inj h (length_readRange _ _ _)

/-- Two memories that agree on a range read the same there. -/
theorem readRange_congr {m m' : Mem β} {off n : ℕ}
    (h : ∀ a, off ≤ a → a < off + n → m a = m' a) : readRange m off n = readRange m' off n := by
  refine readAt_congr fun a ha => ?_
  simp only [List.mem_range', Nat.one_mul] at ha
  obtain ⟨i, hi, rfl⟩ := ha
  exact h _ (by omega) (by omega)

/-- Writing behind a list that is stored stores the list with what was written. -/
theorem readRange_write_append {m : Mem β} {off : ℕ} {xs : List β} (bs : List β)
    (h : readRange m off xs.length = xs) :
    readRange (write m (off + xs.length) bs) off (xs ++ bs).length = xs ++ bs := by
  rw [List.length_append, readRange_append, readRange_write_self,
    readRange_write_of_disjoint _ (Or.inl (Nat.le_refl _)), h]

/-- Writing inside a range replaces a part of what is read there. -/
theorem readRange_write_inside (m : Mem β) (off : ℕ) {i n : ℕ} {bs : List β}
    (h : i + bs.length ≤ n) : readRange (write m (off + i) bs) off n =
      (readRange m off n).take i ++ bs ++ (readRange m off n).drop (i + bs.length) := by
  obtain ⟨k, rfl⟩ := Nat.exists_eq_add_of_le h
  rw [readRange_append, readRange_append, readRange_append, readRange_append,
    readRange_write_of_disjoint _ (Or.inl (Nat.le_refl _)), readRange_write_self,
    readRange_write_of_disjoint _ (Or.inr (Nat.le_of_eq (Nat.add_assoc ..)))]
  congr 1
  · rw [List.append_assoc, List.take_left' (length_readRange ..)]
  · rw [List.drop_left' (by rw [List.length_append, length_readRange, length_readRange])]

theorem readRange_fill (m : Mem β) (off n : ℕ) (b : β) :
    readRange (fill m off b n) off n = List.replicate n b := by
  have h := readRange_write_self m off (List.replicate n b)
  rw [List.length_replicate] at h
  exact h

/-! ## Sequences of copies -/

/-- A copy of `length` cells from `src` in one memory to `dst` in another. -/
structure Copy where
  dst : ℕ
  src : ℕ
  length : ℕ
  deriving DecidableEq, Repr

/-- The memory `m` after copies from `data`. -/
def copies (data m : Mem β) (cs : List Copy) : Mem β :=
  cs.foldl (fun m c => write m c.dst (readRange data c.src c.length)) m

/-- The addresses that copies read, in order. -/
def reads (cs : List Copy) : List ℕ := cs.flatMap fun c => List.range' c.src c.length

/-- The addresses that copies write, in order. -/
def writes (cs : List Copy) : List ℕ := cs.flatMap fun c => List.range' c.dst c.length

theorem copies_of_notMem (data : Mem β) {a : ℕ} : ∀ {cs : List Copy} (m : Mem β),
    a ∉ writes cs → copies data m cs a = m a := by
  intro cs
  induction cs with
  | nil => exact fun _ _ => rfl
  | cons c cs ih =>
    intro m h
    rw [writes, List.flatMap_cons, List.mem_append, not_or] at h
    obtain ⟨hc, hcs⟩ := h
    have hframe : write m c.dst (readRange data c.src c.length) a = m a := by
      rw [List.mem_range'_1] at hc
      exact write_of_notMem (by rw [length_readRange]; omega)
    exact (ih _ hcs).trans hframe

theorem copies_congr {data data' : Mem β} : ∀ {cs : List Copy} (m : Mem β),
    (∀ a ∈ reads cs, data a = data' a) → copies data m cs = copies data' m cs := by
  intro cs
  induction cs with
  | nil => exact fun _ _ => rfl
  | cons c cs ih =>
    intro m h
    rw [reads, List.flatMap_cons] at h
    have hrange : readRange data c.src c.length = readRange data' c.src c.length :=
      readAt_congr fun a ha => h a (List.mem_append_left _ ha)
    unfold copies at ih ⊢
    rw [List.foldl_cons, List.foldl_cons, hrange]
    exact ih _ fun a ha => h a (List.mem_append_right _ ha)

end Rialto.Lib.Memory
