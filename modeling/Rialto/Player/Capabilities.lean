import Mathlib.Data.Finset.Basic
import Mathlib.Data.List.Perm.Basic

/-! # The supported mime types

`GstCapabilities` collects the caps of the sink pads of all decoders, and of all parsers that can be
put before a decoder, and asks for each row of a table whether one of them accepts it. Caps that are
equal to caps already collected are dropped, also from the decoders that the parsers are tried with.
What GStreamer answers about caps is a parameter (`Gst`).

* `State`: the vector of caps, and which references to caps were obtained and released.
* `Covers`: every caps of a set has one with the same answers in the vector.
* `supported_iff`: the mime types found are those of the playable caps, and every reference is
  released once. -/

namespace Rialto.Player.Capabilities

/-! ## Factories and caps -/

inductive PadDirection
  | unknown
  | src
  | sink
  deriving DecidableEq

/-- `GstStaticPadTemplate` -/
structure PadTemplate (C : Type*) where
  direction : PadDirection
  staticCaps : C

/-- An element factory is the list of its static pad templates. -/
abbrev Factory (C : Type*) : Type _ := List (PadTemplate C)

/-- What GStreamer answers about caps. A string may be no caps. -/
structure Gst (C : Type*) where
  capsFromString : String → Option C
  isSubset : Option C → C → Bool
  canIntersect : C → C → Bool
  isStrictlyEqual : C → C → Bool

/-- Equal caps get equal answers. -/
structure Gst.EqualAnswers {C : Type*} (g : Gst C) : Prop where
  isSubset : ∀ a b x, g.isStrictlyEqual a b = true → g.isSubset x a = g.isSubset x b
  canIntersect : ∀ a b x, g.isStrictlyEqual a b = true → g.canIntersect a x = g.canIntersect b x

/-- A reference to caps, as `gst_static_caps_get` returns it. -/
structure Ref (C : Type*) where
  id : ℕ
  caps : C

/-- The vector `supportedCaps`, the number of references obtained from pad templates and the
references released. -/
structure State (C : Type*) where
  supportedCaps : List (Ref C)
  obtained : ℕ
  released : List ℕ

def State.empty {C : Type*} : State C := ⟨[], 0, []⟩

section capabilities

variable {C : Type*}

def gstStaticCapsGet (t : PadTemplate C) (s : State C) : Ref C × State C :=
  (⟨s.obtained, t.staticCaps⟩, { s with obtained := s.obtained + 1 })

def gstCapsUnref (r : Ref C) (s : State C) : State C :=
  { s with released := s.released ++ [r.id] }

/-! ## The collection -/

def isCapsInVector (g : Gst C) (capsVector : List (Ref C)) (caps : C) : Bool :=
  capsVector.any fun compared => g.isStrictlyEqual caps compared.caps

def addAllUniqueSinkPadsCapsToVector (g : Gst C) : Factory C → State C → State C
  | [], s => s
  | t :: ts, s =>
    if t.direction = .sink then
      let r := gstStaticCapsGet t s
      addAllUniqueSinkPadsCapsToVector g ts
        (if isCapsInVector g r.2.supportedCaps r.1.caps then gstCapsUnref r.1 r.2
        else { r.2 with supportedCaps := r.2.supportedCaps ++ [r.1] })
    else addAllUniqueSinkPadsCapsToVector g ts s

def canCreateParserDecoderChain (g : Gst C) (decoderCaps : C) :
    Factory C → State C → Bool × State C
  | [], s => (false, s)
  | t :: ts, s =>
    if t.direction = .src then
      let r := gstStaticCapsGet t s
      if g.canIntersect decoderCaps r.1.caps then (true, gstCapsUnref r.1 r.2)
      else canCreateParserDecoderChain g decoderCaps ts (gstCapsUnref r.1 r.2)
    else canCreateParserDecoderChain g decoderCaps ts s

/-- The loop of `getSupportedCapsFromDecoders`; GStreamer returns no list when there is no
factory. -/
def getSupportedCapsFromDecoders (g : Gst C) : List (Factory C) → State C → State C
  | [], s => s
  | f :: fs, s => getSupportedCapsFromDecoders g fs (addAllUniqueSinkPadsCapsToVector g f s)

/-- The inner loop of `appendSupportedCapsFromParserDecoderChains`. -/
def appendForDecoderCaps (g : Gst C) (decoderCaps : C) : List (Factory C) → State C → State C
  | [], s => s
  | f :: fs, s =>
    let r := canCreateParserDecoderChain g decoderCaps f s
    appendForDecoderCaps g decoderCaps fs
      (if r.1 then addAllUniqueSinkPadsCapsToVector g f r.2 else r.2)

/-- The outer loop, over the copy of the vector. -/
def appendForAll (g : Gst C) (parsers : List (Factory C)) : List (Ref C) → State C → State C
  | [], s => s
  | d :: ds, s => appendForAll g parsers ds (appendForDecoderCaps g d.caps parsers s)

def appendSupportedCapsFromParserDecoderChains (g : Gst C) (parsers : List (Factory C))
    (s : State C) : State C :=
  if s.supportedCaps.isEmpty then s
  else if parsers.isEmpty then s
  else appendForAll g parsers s.supportedCaps s

/-! ## The mime types -/

def capsToMimeVec : List (String × List String) :=
  [("audio/mpeg, mpegversion=(int)4", ["audio/mp4", "audio/aac", "audio/x-eac3"]),
    ("audio/x-eac3", ["audio/x-eac3"]),
    ("audio/x-opus", ["audio/x-opus"]),
    ("video/x-av1", ["video/x-av1"]),
    ("video/x-h264", ["video/h264"]),
    ("video/x-h265", ["video/h265"]),
    ("video/x-vp9", ["video/x-vp9"])]

/-- The mime types that the rows of the table add for one caps. -/
def insertMimes (g : Gst C) (caps : C) :
    List (String × List String) → Finset String → Finset String
  | [], supportedMimes => supportedMimes
  | row :: rows, supportedMimes =>
    insertMimes g caps rows
      (if g.isSubset (g.capsFromString row.1) caps then supportedMimes ∪ row.2.toFinset
      else supportedMimes)

def convertFromCapsVectorToMimeSet (g : Gst C) : List (Ref C) → Finset String → Finset String
  | [], supportedMimes => supportedMimes
  | r :: rs, supportedMimes =>
    convertFromCapsVectorToMimeSet g rs (insertMimes g r.caps capsToMimeVec supportedMimes)

def unrefAll : List (Ref C) → State C → State C
  | [], s => s
  | r :: rs, s => unrefAll rs (gstCapsUnref r s)

/-- `fillSupportedMimeTypes`: `m_supportedMimeTypes`, and the references at the end. -/
def fillSupportedMimeTypes (g : Gst C) (decoders parsers : List (Factory C)) :
    Finset String × State C :=
  let s := appendSupportedCapsFromParserDecoderChains g parsers
    (getSupportedCapsFromDecoders g decoders State.empty)
  if s.supportedCaps.isEmpty then (∅, s)
  else (convertFromCapsVectorToMimeSet g s.supportedCaps ∅, unrefAll s.supportedCaps s)

/-! ## What is playable -/

/-- The caps of the sink pads of a factory. -/
def SinkCaps (f : Factory C) (c : C) : Prop :=
  ∃ t ∈ f, t.direction = .sink ∧ t.staticCaps = c

/-- A source pad of the parser fits the caps. -/
def Feeds (g : Gst C) (f : Factory C) (decoderCaps : C) : Prop :=
  ∃ t ∈ f, t.direction = .src ∧ g.canIntersect decoderCaps t.staticCaps = true

/-- The caps of the decoders, and of the parsers that can be put before one. -/
def Playable (g : Gst C) (decoders parsers : List (Factory C)) (c : C) : Prop :=
  (∃ f ∈ decoders, SinkCaps f c) ∨
    ∃ f ∈ parsers, SinkCaps f c ∧ ∃ d ∈ decoders, ∃ c', SinkCaps d c' ∧ Feeds g f c'

/-- A row of the table lists the mime type, and its caps are a subset of playable ones. -/
def Supported (g : Gst C) (decoders parsers : List (Factory C)) (mime : String) : Prop :=
  ∃ row ∈ capsToMimeVec, mime ∈ row.2 ∧
    ∃ c, Playable g decoders parsers c ∧ g.isSubset (g.capsFromString row.1) c = true

/-! ## The caps collected -/

/-- The same answers, for every question about caps. -/
structure SameAnswers (g : Gst C) (c c' : C) : Prop where
  isSubset : ∀ x, g.isSubset x c = g.isSubset x c'
  canIntersect : ∀ x, g.canIntersect c x = g.canIntersect c' x

/-- The vector holds caps of the set `X` only, and answers for all of it. -/
structure Covers (g : Gst C) (s : State C) (X : C → Prop) : Prop where
  sound : ∀ r ∈ s.supportedCaps, X r.caps
  complete : ∀ c, X c → ∃ r ∈ s.supportedCaps, SameAnswers g c r.caps

variable {g : Gst C} {s : State C} {X Y : C → Prop}

theorem Covers.congr (h : Covers g s X) (hiff : ∀ c, Y c ↔ X c) : Covers g s Y where
  sound := fun r hr => (hiff r.caps).mpr (h.sound r hr)
  complete := fun c hc => h.complete c ((hiff c).mp hc)

/-- One sink pad: its caps are pushed, or equal to caps that are there. -/
theorem Covers.add (hg : g.EqualAnswers) (h : Covers g s X) (t : PadTemplate C) :
    Covers g (if isCapsInVector g s.supportedCaps t.staticCaps
        then gstCapsUnref (gstStaticCapsGet t s).1 (gstStaticCapsGet t s).2
        else { (gstStaticCapsGet t s).2 with
          supportedCaps := s.supportedCaps ++ [(gstStaticCapsGet t s).1] })
      (fun c => X c ∨ t.staticCaps = c) := by
  by_cases hin : isCapsInVector g s.supportedCaps t.staticCaps = true
  · rw [if_pos hin]
    refine ⟨fun r hr => Or.inl (h.sound r hr), fun c hc => ?_⟩
    rcases hc with hc | rfl
    · exact h.complete c hc
    · obtain ⟨r, hr, hequal⟩ := List.any_eq_true.mp hin
      exact ⟨r, hr, fun x => hg.isSubset _ _ x hequal, fun x => hg.canIntersect _ _ x hequal⟩
  · rw [if_neg hin]
    refine ⟨fun r hr => ?_, fun c hc => ?_⟩
    · rcases List.mem_append.mp hr with hr | hr
      · exact Or.inl (h.sound r hr)
      · rw [List.mem_singleton.mp hr]
        exact Or.inr rfl
    · rcases hc with hc | rfl
      · obtain ⟨r, hr, hsame⟩ := h.complete c hc
        exact ⟨r, List.mem_append_left _ hr, hsame⟩
      · exact ⟨_, List.mem_append_right _ (List.mem_singleton_self _), fun _ => rfl, fun _ => rfl⟩

theorem sinkCaps_cons {t : PadTemplate C} {ts : Factory C} {c : C} :
    SinkCaps (t :: ts) c ↔ (t.direction = .sink ∧ t.staticCaps = c) ∨ SinkCaps ts c := by
  simp [SinkCaps]

theorem covers_addAll (hg : g.EqualAnswers) : ∀ {f : Factory C} {s : State C} {X : C → Prop},
    Covers g s X →
      Covers g (addAllUniqueSinkPadsCapsToVector g f s) (fun c => X c ∨ SinkCaps f c) := by
  intro f
  induction f with
  | nil =>
    intro s X h
    exact h.congr fun c => by simp [SinkCaps]
  | cons t ts ih =>
    intro s X h
    unfold addAllUniqueSinkPadsCapsToVector
    by_cases hsink : t.direction = .sink
    · rw [if_pos hsink]
      refine (ih (h.add hg t)).congr fun c => ?_
      rw [sinkCaps_cons]
      tauto
    · rw [if_neg hsink]
      refine (ih h).congr fun c => ?_
      rw [sinkCaps_cons]
      tauto

theorem feeds_cons {t : PadTemplate C} {ts : Factory C} {c : C} :
    Feeds g (t :: ts) c ↔
      (t.direction = .src ∧ g.canIntersect c t.staticCaps = true) ∨ Feeds g ts c := by
  simp [Feeds]

/-- Whether the parser fits, and the vector as it was. -/
theorem canCreateParserDecoderChain_spec (decoderCaps : C) : ∀ {f : Factory C} {s : State C},
    ((canCreateParserDecoderChain g decoderCaps f s).1 = true ↔ Feeds g f decoderCaps) ∧
      (canCreateParserDecoderChain g decoderCaps f s).2.supportedCaps = s.supportedCaps := by
  intro f
  induction f with
  | nil =>
    intro s
    exact ⟨by simp [canCreateParserDecoderChain, Feeds], rfl⟩
  | cons t ts ih =>
    intro s
    unfold canCreateParserDecoderChain
    rw [feeds_cons]
    by_cases hsrc : t.direction = .src
    · rw [if_pos hsrc]
      dsimp only
      by_cases hfits : g.canIntersect decoderCaps t.staticCaps = true
      · rw [gstStaticCapsGet, if_pos hfits]
        exact ⟨iff_of_true rfl (Or.inl ⟨hsrc, hfits⟩), rfl⟩
      · rw [gstStaticCapsGet, if_neg hfits]
        refine ⟨ih.1.trans ?_, ih.2⟩
        tauto
    · rw [if_neg hsrc]
      refine ⟨ih.1.trans ?_, ih.2⟩
      tauto

theorem covers_decoders (hg : g.EqualAnswers) : ∀ {fs : List (Factory C)} {s : State C}
    {X : C → Prop}, Covers g s X →
      Covers g (getSupportedCapsFromDecoders g fs s) (fun c => X c ∨ ∃ f ∈ fs, SinkCaps f c) := by
  intro fs
  induction fs with
  | nil =>
    intro s X h
    exact h.congr fun c => by simp
  | cons f fs ih =>
    intro s X h
    refine (ih (covers_addAll hg h)).congr fun c => ?_
    simp only [List.mem_cons, exists_eq_or_imp]
    tauto

theorem covers_appendForDecoderCaps (hg : g.EqualAnswers) (decoderCaps : C) :
    ∀ {fs : List (Factory C)} {s : State C} {X : C → Prop}, Covers g s X →
      Covers g (appendForDecoderCaps g decoderCaps fs s)
        (fun c => X c ∨ ∃ f ∈ fs, SinkCaps f c ∧ Feeds g f decoderCaps) := by
  intro fs
  induction fs with
  | nil =>
    intro s X h
    exact h.congr fun c => by simp
  | cons f fs ih =>
    intro s X h
    obtain ⟨hfeeds, hsame⟩ :=
      canCreateParserDecoderChain_spec (g := g) decoderCaps (f := f) (s := s)
    have hkept : Covers g (canCreateParserDecoderChain g decoderCaps f s).2 X :=
      ⟨fun r hr => h.sound r (hsame ▸ hr), fun c hc => hsame ▸ h.complete c hc⟩
    unfold appendForDecoderCaps
    dsimp only
    by_cases hchain : (canCreateParserDecoderChain g decoderCaps f s).1 = true
    · rw [if_pos hchain]
      refine (ih (covers_addAll hg hkept)).congr fun c => ?_
      have hfeeds' := hfeeds.mp hchain
      simp only [List.mem_cons, exists_eq_or_imp]
      tauto
    · rw [if_neg hchain]
      refine (ih hkept).congr fun c => ?_
      have hfeeds' := mt hfeeds.mpr hchain
      simp only [List.mem_cons, exists_eq_or_imp]
      tauto

theorem covers_appendForAll (hg : g.EqualAnswers) {parsers : List (Factory C)} :
    ∀ {ds : List (Ref C)} {s : State C} {X : C → Prop}, Covers g s X →
      Covers g (appendForAll g parsers ds s)
        (fun c => X c ∨ ∃ f ∈ parsers, SinkCaps f c ∧ ∃ d ∈ ds, Feeds g f d.caps) := by
  intro ds
  induction ds with
  | nil =>
    intro s X h
    exact h.congr fun c => by simp
  | cons d ds ih =>
    intro s X h
    refine (ih (covers_appendForDecoderCaps hg d.caps h)).congr fun c => ?_
    simp only [List.mem_cons, exists_eq_or_imp]
    constructor
    · rintro (hc | ⟨f, hf, hsink, hd | hds⟩)
      · exact Or.inl (Or.inl hc)
      · exact Or.inl (Or.inr ⟨f, hf, hsink, hd⟩)
      · exact Or.inr ⟨f, hf, hsink, hds⟩
    · rintro ((hc | ⟨f, hf, hsink, hd⟩) | ⟨f, hf, hsink, hds⟩)
      · exact Or.inl hc
      · exact Or.inr ⟨f, hf, hsink, Or.inl hd⟩
      · exact Or.inr ⟨f, hf, hsink, Or.inr hds⟩

/-- **The caps collected answer for the playable ones**, although the parsers are tried with the
decoders' caps without duplicates. -/
theorem covers_playable (hg : g.EqualAnswers) (decoders parsers : List (Factory C)) :
    Covers g (appendSupportedCapsFromParserDecoderChains g parsers
      (getSupportedCapsFromDecoders g decoders State.empty)) (Playable g decoders parsers) := by
  have hnone : Covers g (State.empty : State C) fun _ => False :=
    ⟨fun r hr => (by cases hr), fun _ hc => hc.elim⟩
  have hdecoders : Covers g (getSupportedCapsFromDecoders g decoders State.empty)
      fun c => ∃ f ∈ decoders, SinkCaps f c :=
    (covers_decoders hg hnone).congr fun c => by simp
  -- a parser fits the caps of a decoder exactly if it fits caps in the vector
  have hfeeds : ∀ f, (∃ d ∈ decoders, ∃ c', SinkCaps d c' ∧ Feeds g f c') ↔
      ∃ r ∈ (getSupportedCapsFromDecoders g decoders State.empty).supportedCaps,
        Feeds g f r.caps := by
    intro f
    constructor
    · rintro ⟨d, hd, c', hsink, t, ht, hsrc, hfits⟩
      obtain ⟨r, hr, hsame⟩ := hdecoders.complete c' ⟨d, hd, hsink⟩
      exact ⟨r, hr, t, ht, hsrc, (hsame.canIntersect _).symm.trans hfits⟩
    · rintro ⟨r, hr, hfits⟩
      obtain ⟨d, hd, hsink⟩ := hdecoders.sound r hr
      exact ⟨d, hd, r.caps, hsink, hfits⟩
  unfold appendSupportedCapsFromParserDecoderChains
  split_ifs with hempty hparsers
  · refine hdecoders.congr fun c => ⟨fun h => h.resolve_right ?_, Or.inl⟩
    rintro ⟨f, -, -, hf⟩
    obtain ⟨r, hr, -⟩ := (hfeeds f).mp hf
    rw [List.isEmpty_iff.mp hempty] at hr
    cases hr
  · refine hdecoders.congr fun c => ⟨fun h => h.resolve_right ?_, Or.inl⟩
    rintro ⟨f, hf, -⟩
    rw [List.isEmpty_iff.mp hparsers] at hf
    cases hf
  · refine (covers_appendForAll hg hdecoders).congr fun c => ?_
    simp only [Playable, hfeeds]

/-! ## The mime types found -/

theorem mem_insertMimes {caps : C} {mime : String} :
    ∀ {rows : List (String × List String)} {supportedMimes : Finset String},
      mime ∈ insertMimes g caps rows supportedMimes ↔ mime ∈ supportedMimes ∨
        ∃ row ∈ rows, mime ∈ row.2 ∧ g.isSubset (g.capsFromString row.1) caps = true := by
  intro rows
  induction rows with
  | nil =>
    intro supportedMimes
    simp [insertMimes]
  | cons row rows ih =>
    intro supportedMimes
    unfold insertMimes
    rw [ih]
    simp only [List.mem_cons, exists_eq_or_imp]
    by_cases hsubset : g.isSubset (g.capsFromString row.1) caps = true
    · rw [if_pos hsubset, Finset.mem_union, List.mem_toFinset]
      tauto
    · rw [if_neg hsubset]
      tauto

theorem mem_convert {mime : String} :
    ∀ {rs : List (Ref C)} {supportedMimes : Finset String},
      mime ∈ convertFromCapsVectorToMimeSet g rs supportedMimes ↔ mime ∈ supportedMimes ∨
        ∃ r ∈ rs, ∃ row ∈ capsToMimeVec,
          mime ∈ row.2 ∧ g.isSubset (g.capsFromString row.1) r.caps = true := by
  intro rs
  induction rs with
  | nil =>
    intro supportedMimes
    simp [convertFromCapsVectorToMimeSet]
  | cons r rs ih =>
    intro supportedMimes
    unfold convertFromCapsVectorToMimeSet
    rw [ih, mem_insertMimes]
    simp only [List.mem_cons, exists_eq_or_imp, or_assoc]

theorem mem_supportedMimeTypes (hg : g.EqualAnswers) (decoders parsers : List (Factory C))
    (mime : String) :
    mime ∈ (fillSupportedMimeTypes g decoders parsers).1 ↔
      Supported g decoders parsers mime := by
  obtain ⟨hsound, hcomplete⟩ := covers_playable hg decoders parsers
  unfold fillSupportedMimeTypes Supported
  dsimp only
  by_cases hempty : (appendSupportedCapsFromParserDecoderChains g parsers
      (getSupportedCapsFromDecoders g decoders State.empty)).supportedCaps.isEmpty = true
  · rw [if_pos hempty]
    refine iff_of_false (Finset.notMem_empty _) ?_
    rintro ⟨row, -, -, c, hplayable, -⟩
    obtain ⟨r, hr, -⟩ := hcomplete c hplayable
    rw [List.isEmpty_iff.mp hempty] at hr
    cases hr
  · rw [if_neg hempty, mem_convert]
    constructor
    · rintro (hnone | ⟨r, hr, row, hrow, hmime, hsubset⟩)
      · exact absurd hnone (Finset.notMem_empty _)
      · exact ⟨row, hrow, hmime, r.caps, hsound r hr, hsubset⟩
    · rintro ⟨row, hrow, hmime, c, hplayable, hsubset⟩
      obtain ⟨r, hr, hsame⟩ := hcomplete c hplayable
      exact Or.inr ⟨r, hr, row, hrow, hmime, (hsame.isSubset _).symm.trans hsubset⟩

/-! ## The references -/

/-- Every reference obtained is released, or in the vector. -/
def Balanced (s : State C) : Prop :=
  (s.released ++ s.supportedCaps.map Ref.id).Perm (List.range s.obtained)

theorem Balanced.unref (h : Balanced s) (t : PadTemplate C) :
    Balanced (gstCapsUnref (gstStaticCapsGet t s).1 (gstStaticCapsGet t s).2) := by
  unfold Balanced gstCapsUnref gstStaticCapsGet at *
  dsimp only
  rw [List.range_succ, List.append_assoc]
  have hmoved : (s.released ++ ([s.obtained] ++ s.supportedCaps.map Ref.id)).Perm
      (s.released ++ (s.supportedCaps.map Ref.id ++ [s.obtained])) :=
    List.perm_append_comm.append_left _
  rw [← List.append_assoc s.released (s.supportedCaps.map Ref.id)] at hmoved
  exact hmoved.trans (h.append_right _)

theorem Balanced.push (h : Balanced s) (t : PadTemplate C) :
    Balanced { (gstStaticCapsGet t s).2 with
      supportedCaps := s.supportedCaps ++ [(gstStaticCapsGet t s).1] } := by
  unfold Balanced gstStaticCapsGet at *
  dsimp only
  rw [List.range_succ, List.map_append, ← List.append_assoc]
  exact h.append_right _

theorem balanced_addAll : ∀ {f : Factory C} {s : State C}, Balanced s →
    Balanced (addAllUniqueSinkPadsCapsToVector g f s) := by
  intro f
  induction f with
  | nil => exact fun h => h
  | cons t ts ih =>
    intro s h
    unfold addAllUniqueSinkPadsCapsToVector
    dsimp only
    split_ifs
    · exact ih (h.unref t)
    · exact ih (h.push t)
    · exact ih h

theorem balanced_canCreate (decoderCaps : C) : ∀ {f : Factory C} {s : State C}, Balanced s →
    Balanced (canCreateParserDecoderChain g decoderCaps f s).2 := by
  intro f
  induction f with
  | nil => exact fun h => h
  | cons t ts ih =>
    intro s h
    unfold canCreateParserDecoderChain
    dsimp only
    split_ifs
    · exact h.unref t
    · exact ih (h.unref t)
    · exact ih h

theorem balanced_decoders : ∀ {fs : List (Factory C)} {s : State C}, Balanced s →
    Balanced (getSupportedCapsFromDecoders g fs s) := by
  intro fs
  induction fs with
  | nil => exact fun h => h
  | cons f fs ih => exact fun h => ih (balanced_addAll h)

theorem balanced_appendForDecoderCaps (decoderCaps : C) : ∀ {fs : List (Factory C)} {s : State C},
    Balanced s → Balanced (appendForDecoderCaps g decoderCaps fs s) := by
  intro fs
  induction fs with
  | nil => exact fun h => h
  | cons f fs ih =>
    intro s h
    unfold appendForDecoderCaps
    dsimp only
    split_ifs
    · exact ih (balanced_addAll (balanced_canCreate decoderCaps h))
    · exact ih (balanced_canCreate decoderCaps h)

theorem balanced_appendForAll {parsers : List (Factory C)} : ∀ {ds : List (Ref C)} {s : State C},
    Balanced s → Balanced (appendForAll g parsers ds s) := by
  intro ds
  induction ds with
  | nil => exact fun h => h
  | cons d ds ih => exact fun h => ih (balanced_appendForDecoderCaps d.caps h)

theorem unrefAll_spec : ∀ (rs : List (Ref C)) (s : State C),
    (unrefAll rs s).released = s.released ++ rs.map Ref.id ∧
      (unrefAll rs s).obtained = s.obtained := by
  intro rs
  induction rs with
  | nil => exact fun _ => ⟨(List.append_nil _).symm, rfl⟩
  | cons r rs ih =>
    intro s
    obtain ⟨hreleased, hobtained⟩ := ih (gstCapsUnref r s)
    refine ⟨hreleased.trans ?_, hobtained⟩
    simp [gstCapsUnref]

/-- **Every reference is released once.** -/
theorem released_once (g : Gst C) (decoders parsers : List (Factory C)) :
    (fillSupportedMimeTypes g decoders parsers).2.released.Perm
      (List.range (fillSupportedMimeTypes g decoders parsers).2.obtained) := by
  have hbalanced : Balanced (appendSupportedCapsFromParserDecoderChains g parsers
      (getSupportedCapsFromDecoders g decoders State.empty)) := by
    have hdecoders : Balanced (getSupportedCapsFromDecoders g decoders State.empty) :=
      balanced_decoders (List.Perm.refl [])
    unfold appendSupportedCapsFromParserDecoderChains
    split_ifs
    · exact hdecoders
    · exact hdecoders
    · exact balanced_appendForAll hdecoders
  unfold fillSupportedMimeTypes
  dsimp only
  split_ifs with hempty
  · unfold Balanced at hbalanced
    rwa [List.isEmpty_iff.mp hempty, List.map_nil, List.append_nil] at hbalanced
  · obtain ⟨hreleased, hobtained⟩ := unrefAll_spec
      (appendSupportedCapsFromParserDecoderChains g parsers
        (getSupportedCapsFromDecoders g decoders State.empty)).supportedCaps
      (appendSupportedCapsFromParserDecoderChains g parsers
        (getSupportedCapsFromDecoders g decoders State.empty))
    rw [hreleased, hobtained]
    exact hbalanced

/-- GStreamer, if no two caps were equal: nothing is ever dropped. -/
def Gst.neverEqual (g : Gst C) : Gst C := { g with isStrictlyEqual := fun _ _ => false }

/-- **The supported mime types are those of the playable caps**: neither the order of the factories
nor the dropping of equal caps matters, and every reference to caps is released once. -/
theorem supported_iff (g : Gst C) (hg : g.EqualAnswers) (decoders parsers : List (Factory C)) :
    (∀ mime, mime ∈ (fillSupportedMimeTypes g decoders parsers).1 ↔
      Supported g decoders parsers mime) ∧
    (∀ decoders' parsers', decoders.Perm decoders' → parsers.Perm parsers' →
      (fillSupportedMimeTypes g decoders' parsers').1 =
        (fillSupportedMimeTypes g decoders parsers).1) ∧
    (fillSupportedMimeTypes g.neverEqual decoders parsers).1 =
      (fillSupportedMimeTypes g decoders parsers).1 ∧
    (fillSupportedMimeTypes g decoders parsers).2.released.Perm
      (List.range (fillSupportedMimeTypes g decoders parsers).2.obtained) := by
  have hnever : g.neverEqual.EqualAnswers :=
    ⟨fun a b x h => (by cases h), fun a b x h => (by cases h)⟩
  refine ⟨mem_supportedMimeTypes hg decoders parsers, fun decoders' parsers' hd hp => ?_, ?_,
    released_once g decoders parsers⟩
  · refine Finset.ext fun mime => ?_
    rw [mem_supportedMimeTypes hg, mem_supportedMimeTypes hg]
    unfold Supported Playable
    simp only [hd.mem_iff, hp.mem_iff]
  · refine Finset.ext fun mime => ?_
    rw [mem_supportedMimeTypes hnever, mem_supportedMimeTypes hg]
    rfl

end capabilities

/-! ## A decoder with a parser -/

/-- Caps that are strings, and equal if they fit. -/
def plainGst : Gst String where
  capsFromString := some
  isSubset subset superset := subset == some superset
  canIntersect a b := a == b
  isStrictlyEqual a b := a == b

theorem plainGst_equalAnswers : plainGst.EqualAnswers where
  isSubset a b x h := by rw [eq_of_beq h]
  canIntersect a b x h := by rw [eq_of_beq h]

/-- Two decoders for the same caps, and a parser that leads to them. -/
theorem supported_parsed_h264 :
    "video/h264" ∈ (fillSupportedMimeTypes plainGst
      [[⟨.sink, "video/x-vp9"⟩], [⟨.src, "video/x-raw"⟩, ⟨.sink, "video/x-vp9"⟩]]
      [[⟨.sink, "video/x-h264"⟩, ⟨.src, "video/x-vp9"⟩]]).1 := by
  refine ((supported_iff plainGst plainGst_equalAnswers _ _).1 _).mpr ?_
  refine ⟨("video/x-h264", ["video/h264"]), by decide, by decide, "video/x-h264", Or.inr ?_,
    by decide⟩
  exact ⟨_, List.mem_singleton_self _, ⟨_, List.mem_cons_self, rfl, rfl⟩, _, List.mem_cons_self, _,
    ⟨_, List.mem_cons_self, rfl, rfl⟩,
    ⟨_, List.mem_cons_of_mem _ List.mem_cons_self, rfl, by decide⟩⟩

end Rialto.Player.Capabilities
