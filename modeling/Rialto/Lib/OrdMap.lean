import Mathlib.Data.List.Nodup
import Mathlib.Data.List.Perm.Basic
import Mathlib.Order.Lattice
import Mathlib.Tactic.Common
import Mathlib.Tactic.SplitIfs

/-! # Ordered maps

A map is the list of its entries in increasing order of the keys; the field `sorted` says so, hence
no key occurs twice. `emplace` inserts unless the key is there, `insert` replaces, `erase` and
`eraseIf` remove. Every operation is described by the entries it leaves (`mem_emplace`,
`mem_insert`, `mem_erase`, `mem_eraseIf`). -/

namespace Rialto.Lib.OrdMap

variable {K V : Type*} [LinearOrder K]

/-- An ordered map. -/
structure OMap (K V : Type*) [LinearOrder K] where
  entries : List (K × V)
  sorted : entries.Pairwise fun a b => a.1 < b.1
  deriving DecidableEq

namespace OMap

/-- The empty map. -/
def empty : OMap K V := ⟨[], List.Pairwise.nil⟩

@[simp] theorem entries_empty : (empty : OMap K V).entries = [] := rfl

/-- The keys, in order. -/
def keys (m : OMap K V) : List K := m.entries.map Prod.fst

/-- The value of a key. -/
def find? (m : OMap K V) (k : K) : Option V := (m.entries.find? fun e => e.1 = k).map Prod.snd

theorem keys_nodup (m : OMap K V) : m.keys.Nodup := by
  refine List.Pairwise.map _ ?_ m.sorted
  intro a b h
  exact ne_of_lt h

theorem eq_of_mem {m : OMap K V} {k : K} {v w : V} (h : (k, v) ∈ m.entries)
    (h' : (k, w) ∈ m.entries) : v = w := by
  have hinj := List.inj_on_of_nodup_map m.keys_nodup h h' rfl
  exact congrArg Prod.snd hinj

theorem find?_eq_some {m : OMap K V} {k : K} {v : V} :
    m.find? k = some v ↔ (k, v) ∈ m.entries := by
  unfold find?
  constructor
  · intro h
    obtain ⟨e, he, rfl⟩ := Option.map_eq_some_iff.mp h
    have hk := List.find?_some he
    simp only [decide_eq_true_eq] at hk
    subst hk
    exact List.mem_of_find?_eq_some he
  · intro h
    rcases he : m.entries.find? fun e => e.1 = k with _ | e
    · have := List.find?_eq_none.mp he (k, v) h
      simp at this
    · have hk := List.find?_some he
      simp only [decide_eq_true_eq] at hk
      have hmem := List.mem_of_find?_eq_some he
      subst hk
      rw [he]
      exact congrArg some (eq_of_mem hmem h)

theorem mem_keys {m : OMap K V} {k : K} : k ∈ m.keys ↔ ∃ v, (k, v) ∈ m.entries := by
  simp [keys]

theorem find?_eq_none {m : OMap K V} {k : K} : m.find? k = none ↔ k ∉ m.keys := by
  rw [mem_keys, Option.eq_none_iff_forall_ne_some]
  simp only [ne_eq, find?_eq_some, not_exists]

/-- Insert an entry in order, in front of a larger key; an entry of the same key is replaced. -/
def insertEntry (k : K) (v : V) : List (K × V) → List (K × V)
  | [] => [(k, v)]
  | e :: es => if k < e.1 then (k, v) :: e :: es else if e.1 < k then e :: insertEntry k v es
      else (k, v) :: es

theorem mem_insertEntry {k : K} {v : V} : ∀ {es : List (K × V)},
    (es.Pairwise fun a b => a.1 < b.1) → ∀ {e : K × V},
      e ∈ insertEntry k v es ↔ e = (k, v) ∨ e ∈ es ∧ e.1 ≠ k
  | [], _, e => by simp [insertEntry]
  | d :: es, hs, e => by
    obtain ⟨hd, hs'⟩ := List.pairwise_cons.mp hs
    have ih := mem_insertEntry (k := k) (v := v) hs' (e := e)
    unfold insertEntry
    split_ifs with h1 h2
    · have hne : ∀ x ∈ d :: es, x.1 ≠ k := by
        intro x hx
        rcases List.mem_cons.mp hx with rfl | hx
        · exact (ne_of_lt h1).symm
        · exact (ne_of_lt (lt_trans h1 (hd x hx))).symm
      rw [List.mem_cons]
      exact ⟨fun h => h.imp_right fun h => ⟨h, hne e h⟩, fun h => h.imp_right And.left⟩
    · rw [List.mem_cons, ih, List.mem_cons]
      constructor
      · rintro (rfl | rfl | ⟨h, hk⟩)
        · exact Or.inr ⟨Or.inl rfl, ne_of_lt h2⟩
        · exact Or.inl rfl
        · exact Or.inr ⟨Or.inr h, hk⟩
      · rintro (rfl | ⟨rfl | h, hk⟩)
        · exact Or.inr (Or.inl rfl)
        · exact Or.inl rfl
        · exact Or.inr (Or.inr ⟨h, hk⟩)
    · have hk : d.1 = k := le_antisymm (not_lt.mp h1) (not_lt.mp h2)
      rw [List.mem_cons, List.mem_cons]
      constructor
      · rintro (rfl | h)
        · exact Or.inl rfl
        · exact Or.inr ⟨Or.inr h, hk ▸ (ne_of_lt (hd e h)).symm⟩
      · rintro (rfl | ⟨rfl | h, hne⟩)
        · exact Or.inl rfl
        · exact absurd hk hne
        · exact Or.inr h

theorem insertEntry_sorted {k : K} {v : V} : ∀ {es : List (K × V)},
    (es.Pairwise fun a b => a.1 < b.1) → (insertEntry k v es).Pairwise fun a b => a.1 < b.1
  | [], _ => by simp [insertEntry]
  | d :: es, hs => by
    obtain ⟨hd, hs'⟩ := List.pairwise_cons.mp hs
    unfold insertEntry
    split_ifs with h1 h2
    · refine List.pairwise_cons.mpr ⟨fun x hx => ?_, hs⟩
      rcases List.mem_cons.mp hx with rfl | hx
      · exact h1
      · exact lt_trans h1 (hd x hx)
    · refine List.pairwise_cons.mpr ⟨fun x hx => ?_, insertEntry_sorted hs'⟩
      rcases (mem_insertEntry hs').mp hx with rfl | ⟨hx, -⟩
      · exact h2
      · exact hd x hx
    · have hk : d.1 = k := le_antisymm (not_lt.mp h1) (not_lt.mp h2)
      exact List.pairwise_cons.mpr ⟨fun x hx => hk ▸ hd x hx, hs'⟩

/-- Insert an entry, replacing one of the same key. -/
def insert (m : OMap K V) (k : K) (v : V) : OMap K V :=
  ⟨insertEntry k v m.entries, insertEntry_sorted m.sorted⟩

/-- Insert an entry unless the key is there. -/
def emplace (m : OMap K V) (k : K) (v : V) : OMap K V :=
  if (m.find? k).isSome then m else m.insert k v

/-- Remove the entries that satisfy `f`. -/
def eraseIf (m : OMap K V) (f : K × V → Bool) : OMap K V :=
  ⟨m.entries.filter fun e => !f e, m.sorted.filter _⟩

/-- Remove the entry of a key. -/
def erase (m : OMap K V) (k : K) : OMap K V := m.eraseIf fun e => e.1 = k

@[simp] theorem mem_insert {m : OMap K V} {k : K} {v : V} {e : K × V} :
    e ∈ (m.insert k v).entries ↔ e = (k, v) ∨ e ∈ m.entries ∧ e.1 ≠ k :=
  mem_insertEntry m.sorted

theorem mem_emplace {m : OMap K V} {k : K} {v : V} (hk : k ∉ m.keys) {e : K × V} :
    e ∈ (m.emplace k v).entries ↔ e = (k, v) ∨ e ∈ m.entries := by
  unfold emplace
  rw [find?_eq_none.mpr hk, if_neg (by simp), mem_insert]
  refine or_congr_right ⟨And.left, fun h => ⟨h, ?_⟩⟩
  rintro rfl
  exact hk (mem_keys.mpr ⟨e.2, h⟩)

theorem mem_of_mem_emplace {m : OMap K V} {k : K} {v : V} {e : K × V}
    (h : e ∈ (m.emplace k v).entries) : e = (k, v) ∨ e ∈ m.entries := by
  unfold emplace at h
  split_ifs at h
  · exact Or.inr h
  · exact (mem_insert.mp h).imp_right And.left

theorem subset_emplace {m : OMap K V} {k : K} {v : V} {e : K × V} (h : e ∈ m.entries) :
    e ∈ (m.emplace k v).entries := by
  by_cases hk : k ∈ m.keys
  · unfold emplace
    rw [if_pos (Option.isSome_iff_ne_none.mpr fun hf => find?_eq_none.mp hf hk)]
    exact h
  · exact (mem_emplace hk).mpr (Or.inr h)

@[simp] theorem mem_eraseIf {m : OMap K V} {f : K × V → Bool} {e : K × V} :
    e ∈ (m.eraseIf f).entries ↔ e ∈ m.entries ∧ f e = false := by
  simp [eraseIf]

@[simp] theorem mem_erase {m : OMap K V} {k : K} {e : K × V} :
    e ∈ (m.erase k).entries ↔ e ∈ m.entries ∧ e.1 ≠ k := by
  simp [erase]

theorem mem_keys_emplace {m : OMap K V} {k l : K} {v : V} :
    l ∈ (m.emplace k v).keys ↔ l = k ∨ l ∈ m.keys := by
  constructor
  · intro h
    obtain ⟨w, hw⟩ := mem_keys.mp h
    rcases mem_of_mem_emplace hw with hw | hw
    · exact Or.inl (congrArg Prod.fst hw)
    · exact Or.inr (mem_keys.mpr ⟨w, hw⟩)
  · rintro (rfl | h)
    · by_cases hl : l ∈ m.keys
      · obtain ⟨w, hw⟩ := mem_keys.mp hl
        exact mem_keys.mpr ⟨w, subset_emplace hw⟩
      · exact mem_keys.mpr ⟨v, (mem_emplace hl).mpr (Or.inl rfl)⟩
    · obtain ⟨w, hw⟩ := mem_keys.mp h
      exact mem_keys.mpr ⟨w, subset_emplace hw⟩

theorem mem_keys_erase {m : OMap K V} {k l : K} : l ∈ (m.erase k).keys ↔ l ∈ m.keys ∧ l ≠ k := by
  simp only [mem_keys, mem_erase, ne_eq, exists_and_right]

theorem find?_insert (m : OMap K V) (k l : K) (v : V) :
    (m.insert k v).find? l = if l = k then some v else m.find? l := by
  ext w
  rw [find?_eq_some, mem_insert]
  split_ifs with h
  · subst h
    simp [eq_comm]
  · simp [h, find?_eq_some]

theorem find?_erase (m : OMap K V) (k l : K) :
    (m.erase k).find? l = if l = k then none else m.find? l := by
  ext w
  rw [find?_eq_some, mem_erase]
  split_ifs with h
  · simp [h]
  · simp [h, find?_eq_some]

theorem find?_emplace_of_ne (m : OMap K V) {k l : K} (h : l ≠ k) (v : V) :
    (m.emplace k v).find? l = m.find? l := by
  unfold emplace
  split_ifs
  · rfl
  · rw [find?_insert, if_neg h]

theorem find?_emplace {m : OMap K V} {k : K} (h : m.find? k = none) (v : V) :
    (m.emplace k v).find? k = some v := by
  rw [emplace, h, if_neg (by simp), find?_insert, if_pos rfl]

/-- A map is determined by its entries. -/
theorem ext_of_mem {m m' : OMap K V} (h : ∀ e, e ∈ m.entries ↔ e ∈ m'.entries) : m = m' := by
  have hperm : m.entries.Perm m'.entries :=
    (List.perm_ext_iff_of_nodup (List.Nodup.of_map _ m.keys_nodup)
      (List.Nodup.of_map _ m'.keys_nodup)).mpr h
  have heq : m.entries = m'.entries :=
    hperm.eq_of_pairwise (fun _ _ _ _ h1 h2 => absurd (lt_trans h1 h2) (lt_irrefl _)) m.sorted
      m'.sorted
  cases m
  cases m'
  cases heq
  rfl

theorem insertEntry_of_lt {k : K} {v : V} : ∀ {es : List (K × V)}, (∀ e ∈ es, e.1 < k) →
    insertEntry k v es = es ++ [(k, v)]
  | [], _ => rfl
  | d :: es, h => by
    have hd : d.1 < k := h d List.mem_cons_self
    rw [insertEntry, if_neg (lt_asymm hd), if_pos hd,
      insertEntry_of_lt fun e he => h e (List.mem_cons_of_mem _ he)]
    rfl

/-- A key behind all others goes to the end. -/
theorem entries_emplace_of_lt {m : OMap K V} {k : K} (h : ∀ e ∈ m.entries, e.1 < k) (v : V) :
    (m.emplace k v).entries = m.entries ++ [(k, v)] := by
  have hk : k ∉ m.keys := by
    intro hk
    obtain ⟨w, hw⟩ := mem_keys.mp hk
    exact lt_irrefl _ (h _ hw)
  unfold emplace
  rw [find?_eq_none.mpr hk, if_neg (by simp)]
  exact insertEntry_of_lt h

theorem map_insertEntry {β : Type*} {f : K × V → β} {k : K} {v v' : V} (hf : f (k, v') = f (k, v)) :
    ∀ {es : List (K × V)}, (es.Pairwise fun a b => a.1 < b.1) → (k, v) ∈ es →
      (insertEntry k v' es).map f = es.map f
  | [], _, hmem => nomatch hmem
  | d :: es, hs, hmem => by
    obtain ⟨hd, hs'⟩ := List.pairwise_cons.mp hs
    rcases List.mem_cons.mp hmem with rfl | hmem
    · rw [insertEntry, if_neg (lt_irrefl _), if_neg (lt_irrefl _), List.map_cons, List.map_cons, hf]
    · have hlt : d.1 < k := hd _ hmem
      rw [insertEntry, if_neg (lt_asymm hlt), if_pos hlt, List.map_cons, List.map_cons,
        map_insertEntry hf hs' hmem]

/-- What does not tell a new value from the old one does not see it replaced. -/
theorem map_insert_of_find? {β : Type*} {f : K × V → β} {m : OMap K V} {k : K} {v v' : V}
    (h : m.find? k = some v) (hf : f (k, v') = f (k, v)) :
    (m.insert k v').entries.map f = m.entries.map f :=
  map_insertEntry hf m.sorted (find?_eq_some.mp h)

/-- Inserting what is there changes nothing. -/
theorem insert_of_find? {m : OMap K V} {k : K} {v : V} (h : m.find? k = some v) :
    m.insert k v = m := by
  have hmem := find?_eq_some.mp h
  refine ext_of_mem fun e => ?_
  rw [mem_insert]
  constructor
  · rintro (rfl | he)
    · exact hmem
    · exact he.1
  · intro he
    by_cases hk : e.1 = k
    · subst hk
      exact Or.inl (Prod.ext rfl (eq_of_mem he hmem))
    · exact Or.inr ⟨he, hk⟩

/-- The entries removed and kept are those of the map. -/
theorem eraseIf_perm (m : OMap K V) (f : K × V → Bool) :
    (m.entries.filter f ++ (m.eraseIf f).entries).Perm m.entries :=
  List.filter_append_perm f m.entries

theorem insertEntry_perm {k : K} {v : V} : ∀ {es : List (K × V)}, k ∉ es.map Prod.fst →
    (insertEntry k v es).Perm ((k, v) :: es)
  | [], _ => List.Perm.refl _
  | d :: es, hk => by
    simp only [List.map_cons, List.mem_cons, not_or] at hk
    unfold insertEntry
    split_ifs with h1 h2
    · exact List.Perm.refl _
    · exact ((insertEntry_perm hk.2).cons d).trans (List.Perm.swap _ _ _)
    · exact absurd (le_antisymm (not_lt.mp h2) (not_lt.mp h1)) hk.1

theorem emplace_perm {m : OMap K V} {k : K} {v : V} (hk : k ∉ m.keys) :
    (m.emplace k v).entries.Perm ((k, v) :: m.entries) := by
  unfold emplace
  rw [find?_eq_none.mpr hk, if_neg (by simp)]
  exact insertEntry_perm hk

/-- Removing the entry of a key that is there. -/
theorem erase_perm {m : OMap K V} {k : K} {v : V} (h : (k, v) ∈ m.entries) :
    ((k, v) :: (m.erase k).entries).Perm m.entries := by
  have hf : m.entries.filter (fun e => e.1 = k) = [(k, v)] := by
    have hsub : ∀ e ∈ m.entries.filter (fun e => e.1 = k), e = (k, v) := by
      rintro ⟨a, b⟩ he
      simp only [List.mem_filter, decide_eq_true_eq] at he
      obtain ⟨he, rfl⟩ := he
      rw [eq_of_mem he h]
    have hnd : (m.entries.filter (fun e => e.1 = k)).Nodup :=
      (List.Nodup.of_map _ m.keys_nodup).filter _
    have hmem : (k, v) ∈ m.entries.filter (fun e => e.1 = k) := by simpa using h
    rcases hl : m.entries.filter (fun e => e.1 = k) with _ | ⟨a, _ | ⟨b, l⟩⟩
    · rw [hl] at hmem; cases hmem
    · rw [hl, hsub a (by rw [hl]; simp)]
    · rw [hl] at hnd hsub
      have ha := hsub a (by simp)
      have hb := hsub b (by simp)
      rw [ha, hb] at hnd
      simp at hnd
  have := m.eraseIf_perm fun e => e.1 = k
  rw [hf] at this
  exact this

/-- Inserting an entry leaves the entries of the other keys. -/
theorem insert_perm (m : OMap K V) (k : K) (v : V) :
    ((k, v) :: (m.erase k).entries).Perm (m.insert k v).entries := by
  have hrest : (m.erase k).entries.Perm ((m.insert k v).erase k).entries := by
    refine (List.perm_ext_iff_of_nodup ?_ ?_).mpr fun e => ?_
    · exact List.Nodup.of_map _ (m.erase k).keys_nodup
    · exact List.Nodup.of_map _ ((m.insert k v).erase k).keys_nodup
    · rw [mem_erase, mem_erase, mem_insert]
      refine ⟨fun h => ⟨Or.inr h, h.2⟩, fun h => ?_⟩
      rcases h.1 with rfl | he
      · exact absurd rfl h.2
      · exact he
  exact (hrest.cons _).trans (erase_perm (mem_insert.mpr (Or.inl rfl)))

/-! ## Counting entries -/

theorem countP_emplace_le (m : OMap K V) (k : K) (v : V) (p : K × V → Bool) :
    (m.emplace k v).entries.countP p ≤ m.entries.countP p + if p (k, v) then 1 else 0 := by
  by_cases hk : k ∈ m.keys
  · unfold emplace
    rw [if_pos (Option.isSome_iff_ne_none.mpr fun hf => find?_eq_none.mp hf hk)]
    exact Nat.le_add_right _ _
  · exact Nat.le_of_eq (((emplace_perm hk).countP_eq p).trans List.countP_cons)

theorem countP_erase {m : OMap K V} {k : K} {v : V} (h : (k, v) ∈ m.entries)
    (p : K × V → Bool) :
    (m.erase k).entries.countP p + (if p (k, v) then 1 else 0) = m.entries.countP p := by
  rw [← (erase_perm h).countP_eq, List.countP_cons]

/-- Replacing an entry by one that is counted alike. -/
theorem countP_replace {m : OMap K V} {k : K} {v : V} (h : (k, v) ∈ m.entries) (v' : V)
    {p : K × V → Bool} (hp : p (k, v') = p (k, v)) :
    (m.insert k v').entries.countP p = m.entries.countP p := by
  rw [← (insert_perm m k v').countP_eq, ← (erase_perm h).countP_eq, List.countP_cons,
    List.countP_cons, hp]

theorem count_keys_emplace {m : OMap K V} {k : K} {v : V} (hk : k ∉ m.keys) (n : K) :
    (m.emplace k v).keys.count n = (if k = n then 1 else 0) + m.keys.count n := by
  have h := ((emplace_perm (v := v) hk).map Prod.fst).count_eq n
  rw [List.map_cons, List.count_cons] at h
  simp only [beq_iff_eq] at h
  rw [keys, h, Nat.add_comm]
  rfl

theorem count_keys_erase {m : OMap K V} {k : K} {v : V} (h : (k, v) ∈ m.entries) (n : K) :
    (if k = n then 1 else 0) + (m.erase k).keys.count n = m.keys.count n := by
  have h := ((erase_perm h).map Prod.fst).count_eq n
  rw [List.map_cons, List.count_cons] at h
  simp only [beq_iff_eq] at h
  rw [Nat.add_comm]
  exact h

theorem count_keys_eraseIf (m : OMap K V) (f : K × V → Bool) (n : K) :
    ((m.entries.filter f).map Prod.fst).count n + (m.eraseIf f).keys.count n = m.keys.count n := by
  have h := ((eraseIf_perm m f).map Prod.fst).count_eq n
  rw [List.map_append, List.count_append] at h
  exact h

end OMap

end Rialto.Lib.OrdMap
