import Mathlib.Data.List.Pairwise
import Rialto.Player.Context

/-! # The buffers of the generic player

A buffer is in the data of a queued `AttachSamples`, in `audioBuffers` or `videoBuffers`, pushed, or
unreferenced. `line` has the buffers of a source in the order in which they get to the appsrc.

* `Conserved`: every buffer created is in one place, once, and a line is in the order of creation.
* `Meets`: a source is removed only when none of its buffers waits, segments have a known type and
  `AttachSamples` gets those of the matching class, and is not constructed while data of the same
  source is still to be read from the shared memory.
* `buffers_leave_once`: then every buffer leaves once, in order.
* `removed_buffer_leaks`: a source that is removed with a buffer waiting. -/

namespace Rialto.Player.Buffers

open Rialto.Lib.Runs Rialto.Player.Context
open Rialto.Pipeline.Session (Source)

/-! ## Places -/

/-- The buffers of a source that a queued task has. -/
def Task.holding (t : Source) : Task → List ℕ
  | .attachSamples audioData videoData =>
    match t with
    | .audio => audioData
    | .video => videoData
  | _ => []

def queued (t : Source) (queue : List Task) : List ℕ := queue.flatMap (Task.holding t)

/-- The buffers of a source that were pushed or wait to be pushed. -/
def front (s : State) (t : Source) : List ℕ := s.pushed t ++ s.buffers t

/-- The buffers of a source, in the order in which they get to the appsrc. -/
def line (s : State) (t : Source) : List ℕ := front s t ++ queued t s.queue

/-- How often a buffer is somewhere. -/
def places (s : State) (b : ℕ) : ℕ :=
  (line s .audio).count b + (line s .video).count b + s.unreffed.count b

/-- Data of the source is read when the task is executed. -/
def Task.reads (t : Source) : Task → Bool
  | .readShmDataAndAttachSamples segments => segments.any (·.type = some t)
  | _ => false

/-- **The invariant.** -/
structure Conserved (s : State) : Prop where
  own : ∀ t, ∀ b ∈ line s t, s.created[b]? = some (some t)
  once : ∀ b, places s b = if b < s.nextBuffer then 1 else 0
  ordered : ∀ t, (line s t).Pairwise (· < ·)
  ahead : ∀ t pre task post, s.queue = pre ++ task :: post → Task.reads t task = true →
    queued t post = []

theorem conserved_init : Conserved init where
  own := fun _ _ h => by cases h
  once := fun _ => rfl
  ordered := fun _ => List.Pairwise.nil
  ahead := by
    intro t pre task post h
    cases pre <;> cases h

theorem queued_append (t : Source) (q q' : List Task) :
    queued t (q ++ q') = queued t q ++ queued t q' := List.flatMap_append

@[simp] theorem queued_nil (t : Source) : queued t [] = [] := rfl

/-! ## What leaves the buffers in their places -/

/-- Nothing is created, unreferenced or queued, and buffers at most move on to the appsrc. -/
structure Keeps (s s' : State) : Prop where
  created : s'.created = s.created
  front : ∀ t, front s' t = front s t
  unreffed : s'.unreffed = s.unreffed
  queue : s'.queue = s.queue

theorem Keeps.refl (s : State) : Keeps s s := ⟨rfl, fun _ => rfl, rfl, rfl⟩

theorem Keeps.trans {s s' s'' : State} (h : Keeps s s') (h' : Keeps s' s'') : Keeps s s'' :=
  ⟨h'.created.trans h.created, fun t => (h'.front t).trans (h.front t),
    h'.unreffed.trans h.unreffed, h'.queue.trans h.queue⟩

theorem Keeps.conserved {s s' : State} (h : Keeps s s') (hs : Conserved s) : Conserved s' := by
  have hline : ∀ t, line s' t = line s t := fun t => by rw [line, line, h.front, h.queue]
  refine ⟨fun t => ?_, fun b => ?_, fun t => ?_, ?_⟩
  · rw [hline, h.created]
    exact hs.own t
  · rw [places, hline, hline, h.unreffed, State.nextBuffer, h.created]
    exact hs.once b
  · rw [hline]
    exact hs.ordered t
  · rw [h.queue]
    exact hs.ahead

section Keeps

variable (s : State) (env : Env) (t : Source)

theorem keeps_cancelUnderflow : Keeps s (cancelUnderflow s t) := by
  unfold cancelUnderflow
  dsimp only
  split_ifs <;> exact ⟨rfl, fun _ => rfl, rfl, rfl⟩

theorem keeps_needDataTask : Keeps s (needDataTask s env t) := by
  unfold needDataTask
  dsimp only
  split_ifs <;> exact ⟨rfl, fun _ => rfl, rfl, rfl⟩

theorem keeps_attachSource (mimeTypeKnown : Bool) :
    Keeps s (attachSource s env t mimeTypeKnown) := by
  unfold attachSource
  split_ifs <;> exact ⟨rfl, fun _ => rfl, rfl, rfl⟩

theorem keeps_eos : Keeps s (eos s t) := by
  have h := keeps_cancelUnderflow s t
  unfold eos
  dsimp only
  split_ifs
  · exact ⟨h.created, h.front, h.unreffed, h.queue⟩
  · exact h

theorem keeps_underflow (enabled : Bool) : Keeps s (underflow s t enabled) := by
  unfold underflow
  split_ifs <;> exact ⟨rfl, fun _ => rfl, rfl, rfl⟩

theorem keeps_attachData : Keeps s (attachData s t) := by
  unfold attachData
  dsimp only
  split_ifs
  · exact Keeps.refl s
  · refine Keeps.trans ?_ (keeps_cancelUnderflow _ t)
    refine ⟨rfl, fun u => ?_, rfl, rfl⟩
    by_cases heq : u = t
    · subst heq
      simp [front]
    · simp [front, Function.update_of_ne heq]
  · exact ⟨rfl, fun _ => rfl, rfl, rfl⟩

end Keeps

/-! ## Buffers for segments -/

/-- The numbers of the segments of a kind, from a number on. -/
def numbers (p : Segment → Bool) : List Segment → ℕ → List ℕ
  | [], _ => []
  | segment :: segments, n =>
    if p segment then n :: numbers p segments (n + 1) else numbers p segments (n + 1)

theorem numbers_cons (p : Segment → Bool) (segment : Segment) (segments : List Segment) (n : ℕ) :
    numbers p (segment :: segments) n =
      if p segment then n :: numbers p segments (n + 1) else numbers p segments (n + 1) := rfl

theorem dataOf_eq (t : Source) : ∀ (segments : List Segment) (n : ℕ), dataOf t segments n =
    numbers (fun segment => segment.type = some t && segment.classMatches) segments n
  | [], _ => rfl
  | segment :: segments, n => by rw [dataOf, numbers, dataOf_eq t segments]

/-- A number is the one of a segment of the kind. -/
theorem mem_numbers {p : Segment → Bool} : ∀ {segments : List Segment} {n b : ℕ},
    b ∈ numbers p segments n → n ≤ b ∧ ∃ segment, segments[b - n]? = some segment ∧ p segment = true
  | [], _, _, hb => by cases hb
  | segment :: segments, n, b, hb => by
    have hlater : b ∈ numbers p segments (n + 1) →
        n ≤ b ∧ ∃ seg, (segment :: segments)[b - n]? = some seg ∧ p seg = true := by
      intro hb
      obtain ⟨hle, seg, hseg, hp⟩ := mem_numbers hb
      refine ⟨by omega, seg, ?_, hp⟩
      rw [show b - n = b - (n + 1) + 1 by omega, List.getElem?_cons_succ]
      exact hseg
    rw [numbers_cons] at hb
    split_ifs at hb with hp
    · rcases List.mem_cons.mp hb with rfl | hb
      · exact ⟨le_rfl, segment, by rw [Nat.sub_self]; rfl, hp⟩
      · exact hlater hb
    · exact hlater hb

theorem numbers_ordered {p : Segment → Bool} : ∀ (segments : List Segment) (n : ℕ),
    (numbers p segments n).Pairwise (· < ·)
  | [], _ => List.Pairwise.nil
  | segment :: segments, n => by
    unfold numbers
    split_ifs
    · exact List.Pairwise.cons (fun b hb => (mem_numbers hb).1) (numbers_ordered segments (n + 1))
    · exact numbers_ordered segments (n + 1)

/-- Where every segment is of one of two kinds, every number is in one of the two lists. -/
theorem count_numbers {p q : Segment → Bool} : ∀ {segments : List Segment} {n : ℕ},
    (∀ segment ∈ segments, p segment = !q segment) → ∀ b,
    (numbers p segments n).count b + (numbers q segments n).count b =
      if n ≤ b ∧ b < n + segments.length then 1 else 0
  | [], n, _, b => by
    rw [if_neg (by simp)]
    rfl
  | segment :: segments, n, hkinds, b => by
    have ih := count_numbers (n := n + 1)
      (fun seg hseg => hkinds seg (List.mem_cons_of_mem _ hseg)) b
    have hkind := hkinds segment List.mem_cons_self
    have hone : (numbers p (segment :: segments) n).count b +
        (numbers q (segment :: segments) n).count b = (if n = b then 1 else 0) +
        ((numbers p segments (n + 1)).count b + (numbers q segments (n + 1)).count b) := by
      rw [numbers_cons, numbers_cons]
      cases hq : q segment with
      | true =>
        rw [hq] at hkind
        simp only [hkind, Bool.not_true, if_true, Bool.false_eq_true, if_false, List.count_cons,
          beq_iff_eq]
        omega
      | false =>
        rw [hq] at hkind
        simp only [hkind, Bool.not_false, if_true, Bool.false_eq_true, if_false, List.count_cons,
          beq_iff_eq]
        omega
    rw [hone, ih, List.length_cons]
    split_ifs <;> omega

/-! ## Attaching -/

theorem attachBuffer_front (s : State) (t u : Source) (b : ℕ) :
    front (attachBuffer s t b) u = front s u ++ if u = t then [b] else [] := by
  unfold attachBuffer
  rw [(keeps_attachData _ t).front]
  by_cases heq : u = t
  · subst heq
    simp [front]
  · simp [front, heq]

/-- Only the buffers of the source, and none is created or queued. -/
theorem attachBuffer_rest (s : State) (t : Source) (b : ℕ) :
    (attachBuffer s t b).created = s.created ∧ (attachBuffer s t b).unreffed = s.unreffed ∧
      (attachBuffer s t b).queue = s.queue := by
  have h := keeps_attachData
    { s with buffers := Function.update s.buffers t (s.buffers t ++ [b]) } t
  exact ⟨h.created, h.unreffed, h.queue⟩

theorem attachAll_spec (t : Source) : ∀ (bs : List ℕ) (s : State),
    (∀ u, front (attachAll t bs s) u = front s u ++ if u = t then bs else []) ∧
      (attachAll t bs s).created = s.created ∧ (attachAll t bs s).unreffed = s.unreffed ∧
      (attachAll t bs s).queue = s.queue
  | [], s => by
    refine ⟨fun u => ?_, rfl, rfl, rfl⟩
    rw [ite_self, List.append_nil]
    rfl
  | b :: bs, s => by
    obtain ⟨hfront, hnext, hunreffed, hqueue⟩ :=
      attachAll_spec t bs (attachBuffer (findAppSrc s t) t b)
    obtain ⟨hnext', hunreffed', hqueue'⟩ := attachBuffer_rest (findAppSrc s t) t b
    refine ⟨fun u => ?_, hnext.trans hnext', hunreffed.trans hunreffed', hqueue.trans hqueue'⟩
    rw [attachAll, hfront, attachBuffer_front, List.append_assoc]
    by_cases heq : u = t
    · simp only [heq, if_true]
      rfl
    · simp only [heq, if_false]
      rfl

theorem readAll_spec : ∀ (segments : List Segment) (s : State),
    (∀ u, front (readAll segments s) u =
        front s u ++ numbers (fun segment => segment.type = some u) segments s.nextBuffer) ∧
      (readAll segments s).created = s.created ++ segments.map Segment.type ∧
      (readAll segments s).unreffed = s.unreffed ∧ (readAll segments s).queue = s.queue
  | [], s => ⟨fun u => (List.append_nil _).symm, (List.append_nil _).symm, rfl, rfl⟩
  | segment :: segments, s => by
    let s₁ := { s with created := s.created ++ [segment.type] }
    have hnumber : s₁.nextBuffer = s.nextBuffer + 1 := List.length_append
    have hcreated : s₁.created ++ segments.map Segment.type =
        s.created ++ (segment :: segments).map Segment.type := by
      rw [List.map_cons, List.append_cons]
    cases htype : segment.type with
    | none =>
      obtain ⟨hfront, hnext, hunreffed, hqueue⟩ := readAll_spec segments s₁
      have heq : readAll (segment :: segments) s = readAll segments s₁ := by
        rw [readAll]
        split
        · rfl
        · simp_all
      rw [heq]
      refine ⟨fun u => ?_, hnext.trans hcreated, hunreffed, hqueue⟩
      rw [hfront, hnumber, numbers_cons, htype]
      rfl
    | some t =>
      let s₂ := if segment.classMatches then findAppSrc s₁ t else s₁
      have heq : readAll (segment :: segments) s =
          readAll segments (attachBuffer s₂ t s.nextBuffer) := by
        rw [readAll]
        split
        · simp_all
        · simp_all [s₂, s₁]
      have hkeeps : Keeps s₁ s₂ := by
        show Keeps s₁ (if segment.classMatches then findAppSrc s₁ t else s₁)
        split_ifs <;> exact ⟨rfl, fun _ => rfl, rfl, rfl⟩
      obtain ⟨hfront, hnext, hunreffed, hqueue⟩ :=
        readAll_spec segments (attachBuffer s₂ t s.nextBuffer)
      obtain ⟨hnext', hunreffed', hqueue'⟩ := attachBuffer_rest s₂ t s.nextBuffer
      have hsame : (attachBuffer s₂ t s.nextBuffer).created = s₁.created :=
        hnext'.trans hkeeps.created
      have hnumber' : (attachBuffer s₂ t s.nextBuffer).nextBuffer = s.nextBuffer + 1 :=
        (congrArg List.length hsame).trans hnumber
      rw [heq]
      refine ⟨fun u => ?_, ?_, ?_, ?_⟩
      · rw [hfront, hnumber', attachBuffer_front, hkeeps.front, numbers_cons, htype,
          List.append_assoc]
        show front s u ++ _ = _
        by_cases hu : u = t
        · subst hu
          simp
        · simp [hu, Ne.symm hu]
      · rw [hnext, hsame, hcreated]
      · exact hunreffed.trans (hunreffed'.trans hkeeps.unreffed)
      · exact hqueue.trans (hqueue'.trans hkeeps.queue)

/-! ## New buffers -/

theorem Conserved.lt {s : State} (h : Conserved s) {t : Source} {b : ℕ} (hb : b ∈ line s t) :
    b < s.nextBuffer := by
  obtain ⟨hlt, -⟩ := List.getElem?_eq_some_iff.mp (h.own t b hb)
  exact hlt

/-- New buffers, numbered in order, come to the end of their lines. -/
theorem Conserved.grow {s s' : State} (h : Conserved s) {segments : List Segment}
    {p : Source → Segment → Bool}
    (hkinds : ∀ segment ∈ segments, p .audio segment = !p .video segment)
    (htypes : ∀ t segment, p t segment = true → segment.type = some t)
    (hline : ∀ t, line s' t = line s t ++ numbers (p t) segments s.nextBuffer)
    (hcreated : s'.created = s.created ++ segments.map Segment.type)
    (hunreffed : s'.unreffed = s.unreffed)
    (hahead : ∀ t pre task post, s'.queue = pre ++ task :: post → Task.reads t task = true →
      queued t post = []) : Conserved s' := by
  refine ⟨fun t b hb => ?_, fun b => ?_, fun t => ?_, hahead⟩
  · rw [hline] at hb
    rw [hcreated]
    rcases List.mem_append.mp hb with hb | hb
    · rw [List.getElem?_append_left (h.lt hb)]
      exact h.own t b hb
    · obtain ⟨hle, segment, hsegment, hp⟩ := mem_numbers hb
      rw [List.getElem?_append_right hle, List.getElem?_map]
      show Option.map _ segments[b - s.nextBuffer]? = _
      rw [hsegment, Option.map_some, htypes t segment hp]
  · have honce := h.once b
    have hnew := count_numbers (n := s.nextBuffer) hkinds b
    have hnext : s'.nextBuffer = s.nextBuffer + segments.length := by
      rw [State.nextBuffer, hcreated, List.length_append, List.length_map]
      rfl
    unfold places at honce ⊢
    rw [hline, hline, hunreffed, hnext, List.count_append, List.count_append]
    split_ifs at honce hnew ⊢ <;> omega
  · rw [hline, List.pairwise_append]
    refine ⟨h.ordered t, numbers_ordered _ _, fun a ha b hb => ?_⟩
    exact Nat.lt_of_lt_of_le (h.lt ha) (mem_numbers hb).1

/-! ## Steps -/

/-- The task keeps the buffers: it reads segments of known types, or removes a source whose buffers
were all pushed. -/
def Orderly (s : State) : Task → Prop
  | .readShmDataAndAttachSamples segments => ∀ segment ∈ segments, segment.type ≠ none
  | .removeSource t => t = .audio → s.buffers .audio = []
  | _ => True

/-- **The condition on a step.** -/
def Meets (s : State) : Act → Prop
  | .attachSamples mediaSegments => ∀ segment ∈ mediaSegments, segment.classMatches = true ∧
      ∃ t, segment.type = some t ∧ ∀ task ∈ s.queue, Task.reads t task = false
  | .work _ => ∀ task, s.queue.head? = some task → Orderly s task
  | _ => True

theorem cut_snoc {α : Type} {l pre post : List α} {x y : α} (h : l ++ [x] = pre ++ y :: post) :
    (y = x ∧ post = []) ∨ ∃ post', post = post' ++ [x] ∧ l = pre ++ y :: post' := by
  rcases List.eq_nil_or_concat post with rfl | ⟨post', z, rfl⟩
  · obtain ⟨-, hx⟩ := List.append_inj' h rfl
    cases hx
    exact Or.inl ⟨rfl, rfl⟩
  · rw [List.concat_eq_append, ← List.cons_append, ← List.append_assoc] at h
    obtain ⟨rfl, hx⟩ := List.append_inj' h rfl
    cases hx
    exact Or.inr ⟨post', List.concat_eq_append, rfl⟩

section Steps

variable {s : State} {task : Task} {rest : List Task}

/-- A task without buffers is enqueued. -/
theorem Conserved.enqueue (h : Conserved s) {s' : State} (hfront : ∀ t, front s' t = front s t)
    (hcreated : s'.created = s.created) (hunreffed : s'.unreffed = s.unreffed)
    (hqueue : s'.queue = s.queue ++ [task]) (hhold : ∀ t, Task.holding t task = []) :
    Conserved s' := by
  have hline : ∀ t, line s' t = line s t := by
    intro t
    have hlast : queued t [task] = [] := by simp [queued, hhold]
    rw [line, line, hfront, hqueue, queued_append, hlast, List.append_nil]
  refine ⟨fun t => ?_, fun b => ?_, fun t => ?_, fun t pre task' post hcut hreads => ?_⟩
  · rw [hline, hcreated]
    exact h.own t
  · rw [places, hline, hline, hunreffed, State.nextBuffer, hcreated]
    exact h.once b
  · rw [hline]
    exact h.ordered t
  · rw [hqueue] at hcut
    rcases cut_snoc hcut with ⟨-, rfl⟩ | ⟨post', rfl, hcut'⟩
    · rfl
    · rw [queued_append, h.ahead t pre task' post' hcut' hreads]
      simp [queued, hhold]

theorem Conserved.attachSamples (h : Conserved s) {segments : List Segment}
    (hok : Meets s (.attachSamples segments)) :
    Conserved { s with
      created := s.created ++ segments.map Segment.type
      queue := s.queue ++ [.attachSamples (dataOf .audio segments s.nextBuffer)
        (dataOf .video segments s.nextBuffer)] } := by
  have hhold : ∀ t, queued t [.attachSamples (dataOf .audio segments s.nextBuffer)
      (dataOf .video segments s.nextBuffer)] = dataOf t segments s.nextBuffer := by
    intro t
    cases t <;> simp [queued, Task.holding]
  refine h.grow (p := fun t segment => segment.type = some t && segment.classMatches) ?_ ?_
    (fun t => ?_) rfl rfl fun t pre task post hcut hreads => ?_
  · intro segment hsegment
    obtain ⟨hclass, t, htype, -⟩ := hok segment hsegment
    cases t <;> simp [hclass, htype]
  · intro t segment hp
    simp only [Bool.and_eq_true, decide_eq_true_eq] at hp
    exact hp.1
  · rw [line, line, ← dataOf_eq, List.append_assoc, ← hhold t, ← queued_append]
    rfl
  · rcases cut_snoc (l := s.queue) hcut with ⟨rfl, -⟩ | ⟨post', rfl, hcut'⟩
    · cases hreads
    · have hmem : task ∈ s.queue := by
        rw [hcut']
        exact List.mem_append_right _ List.mem_cons_self
      rw [queued_append, h.ahead t pre task post' hcut' hreads, hhold, dataOf_eq, List.nil_append,
        List.eq_nil_iff_forall_not_mem]
      intro b hb
      obtain ⟨-, segment, hsegment, hp⟩ := mem_numbers hb
      obtain ⟨-, u, htype, hnone⟩ := hok segment (List.mem_of_getElem? hsegment)
      simp only [htype, Option.some.injEq, Bool.and_eq_true, decide_eq_true_eq] at hp
      have hfalse := hnone task hmem
      rw [hp.1, hreads] at hfalse
      cases hfalse

/-- The next task is taken from the queue, with the buffers it has. -/
theorem Conserved.pop (h : Conserved s) (hqueue : s.queue = task :: rest) {s' : State}
    (hfront : ∀ t, front s' t = front s t ++ Task.holding t task)
    (hcreated : s'.created = s.created) (hunreffed : s'.unreffed = s.unreffed)
    (hrest : s'.queue = rest) : Conserved s' := by
  have hline : ∀ t, line s' t = line s t := by
    intro t
    rw [line, line, hfront, hqueue, hrest, List.append_assoc]
    rfl
  refine ⟨fun t => ?_, fun b => ?_, fun t => ?_, fun t pre task' post hcut => ?_⟩
  · rw [hline, hcreated]
    exact h.own t
  · rw [places, hline, hline, hunreffed, State.nextBuffer, hcreated]
    exact h.once b
  · rw [hline]
    exact h.ordered t
  · refine h.ahead t (task :: pre) task' post ?_
    rw [hqueue, ← hrest, hcut]
    rfl

/-- All buffers that wait are unreferenced. -/
theorem Conserved.unref (h : Conserved s) {s' : State} (hpushed : s'.pushed = s.pushed)
    (hbuffers : ∀ t, s'.buffers t = []) (hcreated : s'.created = s.created)
    (hunreffed : s'.unreffed = s.unreffed ++ s.buffers .audio ++ s.buffers .video)
    (hqueue : s'.queue = s.queue) : Conserved s' := by
  have hline : ∀ t, line s' t = s.pushed t ++ queued t s.queue := by
    intro t
    rw [line, front, hpushed, hbuffers, hqueue, List.append_nil]
  have hsub : ∀ t, (line s' t).Sublist (line s t) := by
    intro t
    rw [hline, line, front]
    exact (List.sublist_append_left _ _).append_right _
  refine ⟨fun t b hb => ?_, fun b => ?_, fun t => (h.ordered t).sublist (hsub t), ?_⟩
  · rw [hcreated]
    exact h.own t b ((hsub t).subset hb)
  · have honce := h.once b
    simp only [places, line, front, List.count_append] at honce
    rw [places, hline, hline, hunreffed, State.nextBuffer, hcreated]
    simp only [List.count_append]
    rw [← State.nextBuffer, ← honce]
    omega
  · rw [hqueue]
    exact h.ahead

theorem Conserved.read (h : Conserved s) {segments : List Segment}
    (hqueue : s.queue = .readShmDataAndAttachSamples segments :: rest)
    (hok : ∀ segment ∈ segments, segment.type ≠ none) :
    Conserved (readAll segments { s with queue := rest }) := by
  have hpop : Conserved { s with queue := rest } :=
    h.pop hqueue (fun t => (List.append_nil _).symm) rfl rfl rfl
  obtain ⟨hfront, hnext, hunreffed, hrest⟩ := readAll_spec segments { s with queue := rest }
  refine hpop.grow (p := fun t segment => segment.type = some t) ?_
    (fun t segment hp => of_decide_eq_true hp) (fun t => ?_) hnext hunreffed ?_
  · intro segment hsegment
    obtain ⟨t, htype⟩ := Option.ne_none_iff_exists'.mp (hok segment hsegment)
    cases t <;> simp [htype]
  · rw [line, line, hfront, hrest, List.append_assoc, List.append_assoc]
    congr 1
    show numbers _ segments s.nextBuffer ++ queued t rest =
      queued t rest ++ numbers _ segments s.nextBuffer
    -- what is read comes behind the buffers that are queued, because there are none
    by_cases hnumbers : numbers (fun segment => segment.type = some t) segments s.nextBuffer = []
    · rw [hnumbers, List.append_nil, List.nil_append]
    · obtain ⟨b, hb⟩ := List.exists_mem_of_ne_nil _ hnumbers
      obtain ⟨-, segment, hsegment, htype⟩ := mem_numbers hb
      have hnone : queued t rest = [] := h.ahead t [] _ rest hqueue
        (List.any_eq_true.mpr ⟨segment, List.mem_of_getElem? hsegment, htype⟩)
      rw [hnone, List.append_nil, List.nil_append]
  · rw [hrest]
    exact hpop.ahead

/-- A task that has no buffers and leaves them in their places. -/
theorem Conserved.pop_keeps (h : Conserved s) (hqueue : s.queue = task :: rest)
    (hhold : ∀ t, Task.holding t task = []) {s' : State}
    (hkeeps : Keeps { s with queue := rest } s') :
    Conserved s' := by
  refine hkeeps.conserved (h.pop hqueue (fun t => ?_) rfl rfl rfl)
  rw [hhold, List.append_nil]
  rfl

theorem keeps_removeSource (t : Source) (hempty : t = .audio → s.buffers .audio = []) :
    Keeps s (removeSource s t) := by
  unfold removeSource
  split_ifs with ht
  · refine ⟨rfl, fun u => ?_, rfl, rfl⟩
    rw [front, ← hempty ht, Function.update_eq_self]
    rfl
  · exact Keeps.refl s

theorem keeps_notifyNeedMediaData (s : State) (env : Env) (t : Source) :
    Keeps s (notifyNeedMediaData s env t) := ⟨rfl, fun _ => rfl, rfl, rfl⟩

theorem Conserved.setPosition (h : Conserved s) (env : Env) :
    Conserved (setPosition s env) := by
  have hunref : ∀ ended : Source → Bool, Conserved { s with
      needData := fun _ => false
      needDataPending := fun _ => false
      unreffed := s.unreffed ++ s.buffers .audio ++ s.buffers .video
      buffers := fun _ => []
      ended := ended } := fun ended => h.unref rfl (fun _ => rfl) rfl rfl rfl
  unfold Context.setPosition
  dsimp only
  split_ifs
  · exact ((keeps_needDataTask _ env .audio).trans (keeps_needDataTask _ env .video)).conserved
      (hunref fun _ => false)
  · exact hunref s.ended

/-- The buffers of an `AttachSamples` go to the ends of their fronts. -/
theorem attachAll_front (s : State) (audioData videoData : List ℕ) (t : Source) :
    front (attachAll .video videoData (attachAll .audio audioData s)) t =
      front s t ++ Task.holding t (.attachSamples audioData videoData) := by
  rw [(attachAll_spec .video videoData _).1, (attachAll_spec .audio audioData _).1]
  cases t with
  | audio => exact List.append_nil _
  | video => rw [if_neg (by decide), if_pos rfl, List.append_nil]; rfl

theorem Conserved.attachAll (h : Conserved s) {audioData videoData : List ℕ}
    (hqueue : s.queue = .attachSamples audioData videoData :: rest) :
    Conserved
      (attachAll .video videoData (attachAll .audio audioData { s with queue := rest })) := by
  obtain ⟨-, hnext, hunreffed, hrest⟩ := attachAll_spec .audio audioData { s with queue := rest }
  obtain ⟨-, hnext', hunreffed', hrest'⟩ :=
    attachAll_spec .video videoData (Context.attachAll .audio audioData { s with queue := rest })
  exact h.pop hqueue (attachAll_front { s with queue := rest } audioData videoData)
    (hnext'.trans hnext) (hunreffed'.trans hunreffed) (hrest'.trans hrest)

theorem Conserved.execute (h : Conserved s) (env : Env) (hqueue : s.queue = task :: rest)
    (hok : Orderly s task) : Conserved (execute { s with queue := rest } env task) := by
  cases task with
  | attachSamples audioData videoData =>
    have hall := h.attachAll hqueue
    unfold Context.execute
    dsimp only
    split_ifs
    · exact (keeps_notifyNeedMediaData _ env .audio).conserved hall
    · exact (keeps_notifyNeedMediaData _ env .video).conserved hall
    · exact hall
  | readShmDataAndAttachSamples segments =>
    have hread := h.read hqueue hok
    unfold Context.execute
    dsimp only
    split
    · exact hread
    · exact (keeps_notifyNeedMediaData _ env _).conserved hread
  | setPosition =>
    exact (h.pop_keeps hqueue (fun _ => rfl) (Keeps.refl _)).setPosition env
  | removeSource t =>
    exact h.pop_keeps hqueue (fun _ => rfl)
      (keeps_removeSource (s := { s with queue := rest }) t hok)
  | needData t => exact h.pop_keeps hqueue (fun _ => rfl) (keeps_needDataTask _ env t)
  | attachSource t mimeTypeKnown =>
    exact h.pop_keeps hqueue (fun _ => rfl) (keeps_attachSource _ env t mimeTypeKnown)
  | eos t => exact h.pop_keeps hqueue (fun _ => rfl) (keeps_eos _ t)
  | underflow t enabled => exact h.pop_keeps hqueue (fun _ => rfl) (keeps_underflow _ t enabled)
  | enoughData t =>
    refine h.pop_keeps hqueue (fun _ => rfl) ?_
    unfold Context.execute
    dsimp only
    split_ifs <;> exact ⟨rfl, fun _ => rfl, rfl, rfl⟩
  | checkAudioUnderflow =>
    refine h.pop_keeps hqueue (fun _ => rfl) ?_
    unfold Context.execute
    dsimp only
    split_ifs
    · exact keeps_underflow _ .audio _
    · exact Keeps.refl _
  | finishSetupSource =>
    refine h.pop_keeps hqueue (fun _ => rfl) ?_
    unfold Context.execute finishSetupSource
    dsimp only
    split_ifs <;> exact ⟨rfl, fun _ => rfl, rfl, rfl⟩
  | setupAudioDecoder | play | pause | stop =>
    exact h.pop_keeps hqueue (fun _ => rfl) ⟨rfl, fun _ => rfl, rfl, rfl⟩

end Steps

/-! ## Runs -/

theorem isPlain_holding {task : Task} (h : task.isPlain = true) (t : Source) :
    Task.holding t task = [] := by
  cases task with
  | attachSamples => cases h
  | _ => rfl

theorem step_conserved {s s' : State} {a : Act} (h : Conserved s) (hok : Meets s a)
    (hstep : step s a = some s') : Conserved s' := by
  have henqueue : ∀ (task : Task) (wish : Option Wish), (∀ t, Task.holding t task = []) →
      Conserved { s with queue := s.queue ++ [task], requested := wish } :=
    fun task wish hhold => h.enqueue (fun _ => rfl) rfl rfl rfl hhold
  unfold step at hstep
  split at hstep
  · cases hstep
  · cases a with
    | attachSamples mediaSegments =>
      cases hstep
      exact h.attachSamples hok
    | underflowCallback t =>
      cases hstep
      exact henqueue _ s.requested fun _ => rfl
    | request wish =>
      cases hstep
      exact henqueue _ (some wish) fun _ => by cases wish <;> rfl
    | enqueue task =>
      dsimp only at hstep
      split at hstep
      · rename_i hplain
        cases hstep
        exact henqueue task s.requested (isPlain_holding hplain)
      · cases hstep
    | work env =>
      dsimp only at hstep
      split at hstep
      · cases hstep
      · rename_i task rest hqueue
        cases hstep
        exact h.execute env hqueue (hok task (by rw [hqueue]; rfl))
    | destroy =>
      dsimp only at hstep
      split at hstep
      · cases hstep
        exact h.unref rfl (fun _ => rfl) rfl rfl rfl
      · cases hstep

theorem run_conserved {as : List Act} {s : State} (h : Run step Meets init as s) : Conserved s :=
  h.invariant Conserved (fun _ _ _ hs hok hstep => step_conserved hs hok hstep) conserved_init

/-- **In every run whose steps meet the condition, the buffers of a source are pushed to its appsrc
in the order of creation, and when the player is destroyed, every buffer created was either pushed
or unreferenced, once.** -/
theorem buffers_leave_once {as : List Act} {s : State} (h : Run step Meets init as s) :
    (∀ t, (s.pushed t).Pairwise (· < ·) ∧ ∀ b ∈ s.pushed t, s.created[b]? = some (some t)) ∧
    ∀ s', step s .destroy = some s' → ∀ b < s'.created.length,
      (s'.pushed .audio).count b + (s'.pushed .video).count b + s'.unreffed.count b = 1 := by
  have hs := run_conserved h
  refine ⟨fun t => ?_, fun s' hstep b hb => ?_⟩
  · have hsub : (s.pushed t).Sublist (line s t) :=
      (List.sublist_append_left _ _).trans (List.sublist_append_left _ _)
    exact ⟨(hs.ordered t).sublist hsub, fun b hb => hs.own t b (hsub.subset hb)⟩
  · have honce := (step_conserved (a := .destroy) hs trivial hstep).once b
    rw [if_pos (show b < s'.nextBuffer from hb)] at honce
    unfold step at hstep
    split_ifs at hstep with hdestroyed hqueue
    cases hstep
    simpa [places, line, front, queued, destroy, changePipelineState, hqueue] using honce

/-! ## Runs on fixed inputs -/

def env : Env := ⟨true, true, false⟩

/-- Both sources are attached; data of audio waits, is pushed with the next, and waits again when
there is enough; the data that comes last is unreferenced. -/
def playing : List Act :=
  [.enqueue (.attachSource .audio true), .enqueue (.attachSource .video true),
    .enqueue (.readShmDataAndAttachSamples [⟨some .audio, true⟩]), .enqueue (.needData .audio),
    .work env, .work env, .work env, .work env,
    .enqueue (.readShmDataAndAttachSamples [⟨some .audio, true⟩, ⟨some .video, true⟩]),
    .enqueue (.enoughData .audio), .work env, .work env,
    .attachSamples [⟨some .audio, true⟩, ⟨some .video, true⟩], .work env]

/-- A source is removed while a buffer of it waits. -/
def removing : List Act :=
  [.enqueue (.attachSource .audio true), .work env,
    .enqueue (.readShmDataAndAttachSamples [⟨some .audio, true⟩]), .work env,
    .enqueue (.removeSource .audio), .work env]

instance (s : State) : (task : Task) → Decidable (Orderly s task)
  | .readShmDataAndAttachSamples segments =>
    inferInstanceAs (Decidable (∀ segment ∈ segments, segment.type ≠ none))
  | .removeSource t => inferInstanceAs (Decidable (t = .audio → s.buffers .audio = []))
  | .attachSamples _ _ | .needData _ | .enoughData _ | .setPosition | .attachSource _ _ | .eos _
  | .underflow _ _ | .checkAudioUnderflow | .setupAudioDecoder | .finishSetupSource | .play
  | .pause | .stop =>
    isTrue trivial

/-- The condition, as it is checked along a run. -/
def checked (s : State) : Act → Bool
  | .attachSamples mediaSegments => mediaSegments.all fun segment => segment.classMatches &&
      (segment.type.any fun t => s.queue.all fun task => !Task.reads t task)
  | .work _ => s.queue.head?.all fun task => Orderly s task
  | _ => true

theorem meets_of_checked {s : State} {a : Act} (h : checked s a = true) : Meets s a := by
  cases a with
  | attachSamples mediaSegments =>
    intro segment hsegment
    have hall := List.all_eq_true.mp h segment hsegment
    simp only [Bool.and_eq_true, Option.any_eq_true, List.all_eq_true] at hall
    obtain ⟨hclass, t, htype, hnone⟩ := hall
    exact ⟨hclass, t, htype, fun task htask => by simpa using hnone task htask⟩
  | work env =>
    intro task htask
    simpa [checked, htask] using h
  | _ => trivial

theorem buffers_leave_once_playing :
    ∃ s s', Run step Meets init playing s ∧ step s .destroy = some s' ∧
      s'.pushed .audio = [0, 1] ∧ s'.unreffed = [3, 2, 4] ∧
      (∀ t, (s.pushed t).Pairwise (· < ·) ∧ ∀ b ∈ s.pushed t, s.created[b]? = some (some t)) ∧
      ∀ b < s'.created.length,
        (s'.pushed .audio).count b + (s'.pushed .video).count b + s'.unreffed.count b = 1 := by
  have hview : ((runsIf step (fun s a => checked s a = true) init playing).bind fun s =>
      (step s .destroy).map fun s' => (s'.pushed .audio, s'.unreffed)) =
        some ([0, 1], [3, 2, 4]) := by
    decide +kernel
  obtain ⟨s, hs, hview⟩ := Option.bind_eq_some_iff.mp hview
  obtain ⟨s', hs', hview⟩ := Option.map_eq_some_iff.mp hview
  have hrun := (Run.of_runsIf hs).mono fun _ _ => meets_of_checked
  obtain ⟨hpushed, hleave⟩ := buffers_leave_once hrun
  exact ⟨s, s', hrun, hs', congrArg Prod.fst hview, congrArg Prod.snd hview, hpushed, hleave s' hs'⟩

/-- The buffer is neither pushed nor unreferenced. -/
theorem removed_buffer_leaks :
    ∃ as s s', Run step (fun _ _ => True) init as s ∧ step s .destroy = some s' ∧
      s'.created = [some .audio] ∧ s'.pushed .audio = [] ∧ s'.pushed .video = [] ∧
      s'.unreffed = [] := by
  have hview : ((runs step init removing).bind fun s => (step s .destroy).map fun s' =>
      (s'.created, s'.pushed .audio, s'.pushed .video, s'.unreffed)) =
        some ([some .audio], [], [], []) := by
    decide +kernel
  obtain ⟨s, hs, hview⟩ := Option.bind_eq_some_iff.mp hview
  obtain ⟨s', hs', hview⟩ := Option.map_eq_some_iff.mp hview
  simp only [Prod.mk.injEq] at hview
  exact ⟨removing, s, s', Run.of_runs hs, hs', hview⟩

end Rialto.Player.Buffers
