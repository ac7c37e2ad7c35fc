import Mathlib.Algebra.GroupWithZero.Nat
import Mathlib.Logic.Function.Basic
import Rialto.Lib.OrdMap
import Rialto.Lib.Runs
import Rialto.Lib.Word
import Rialto.Media.Segment

/-! # The active requests of a pipeline without shared memory

`ActiveRequests` collects, for each need-data request, the segments that are added to it, up to the
`maxMediaBytes` of the request. The bytes are counted in a `uint32_t`, and so is the sum that is
compared with the maximum.

* `History`: the requests with what each was inserted with and which segments were accepted for it.
* `Accounted`: no request holds more than its maximum, a segment that is rejected changes nothing,
  and `getSegments` returns the accepted segments in order.
* `accounted_iff`: this holds all along a run exactly when no sum that wraps passes the check. -/

namespace Rialto.Media.Accounting

open Rialto.Lib.OrdMap Rialto.Lib.Runs Rialto.Lib.Word Rialto.Media.Segment

structure ActiveRequestsData where
  type : MediaSourceType
  bytesWritten : UInt32
  maxMediaBytes : UInt32
  segments : List MediaSegment

structure ActiveRequests where
  currentId : ℕ
  requestMap : OMap ℕ ActiveRequestsData

/-- A `unique_ptr<MediaSegment>`: null, a segment without data or one with data. -/
inductive SegmentPtr
  | null
  | noData
  | segment (s : MediaSegment)

def dataLength (s : MediaSegment) : UInt32 := UInt32.ofNat s.data.length

/-- The segment that is kept is a copy with its own copy of the data. -/
def ActiveRequestsData.addSegment (r : ActiveRequestsData) (s : MediaSegment) :
    AddSegmentStatus × ActiveRequestsData :=
  if r.bytesWritten + dataLength s > r.maxMediaBytes then (.noSpace, r)
  else (.ok, { r with
    segments := r.segments ++ [s], bytesWritten := r.bytesWritten + dataLength s })

def ActiveRequests.new : ActiveRequests := ⟨0, OMap.empty⟩

def insert (a : ActiveRequests) (mediaSourceType : MediaSourceType) (maxMediaBytes : UInt32) :
    ℕ × ActiveRequests :=
  -- `std::map::insert` leaves an entry with the same key as it is
  (a.currentId, ⟨add32 a.currentId 1,
    a.requestMap.emplace a.currentId ⟨mediaSourceType, 0, maxMediaBytes, []⟩⟩)

def getType (a : ActiveRequests) (requestId : ℕ) : MediaSourceType :=
  match a.requestMap.find? requestId with
  | some r => r.type
  | none => .unknown

def erase (a : ActiveRequests) (requestId : ℕ) : ActiveRequests :=
  { a with requestMap := a.requestMap.erase requestId }

def eraseType (a : ActiveRequests) (mediaSourceType : MediaSourceType) : ActiveRequests :=
  { a with requestMap := a.requestMap.eraseIf fun e => e.2.type = mediaSourceType }

def clear (a : ActiveRequests) : ActiveRequests := { a with requestMap := OMap.empty }

def addSegment (a : ActiveRequests) (requestId : ℕ) : SegmentPtr → AddSegmentStatus × ActiveRequests
  | .null => (.error, a)
  | .noData => (.error, a)
  | .segment s =>
    match a.requestMap.find? requestId with
    | some r => ((r.addSegment s).1,
        { a with requestMap := a.requestMap.insert requestId (r.addSegment s).2 })
    | none => (.error, a)

/-- `none` where the source throws. -/
def getSegments (a : ActiveRequests) (requestId : ℕ) : Option (List MediaSegment) :=
  (a.requestMap.find? requestId).map ActiveRequestsData.segments

/-! ## Runs -/

inductive Act
  | insert (mediaSourceType : MediaSourceType) (maxMediaBytes : UInt32)
  | erase (requestId : ℕ)
  | eraseType (mediaSourceType : MediaSourceType)
  | clear
  | addSegment (requestId : ℕ) (segment : SegmentPtr)

/-- The requests with what each id was last inserted with and the segments accepted for it since. -/
structure History where
  requests : ActiveRequests
  insertedWith : ℕ → UInt32
  accepted : ℕ → List MediaSegment

def History.new : History := ⟨ActiveRequests.new, fun _ => 0, fun _ => []⟩

def SegmentPtr.toList : SegmentPtr → List MediaSegment
  | .null => []
  | .noData => []
  | .segment s => [s]

/-- An insertion that finds its id in use inserts nothing. -/
def post (h : History) : Act → History
  | .insert t n =>
    let a := (insert h.requests t n).2
    let id := (insert h.requests t n).1
    match h.requests.requestMap.find? id with
    | some _ => { h with requests := a }
    | none => ⟨a, Function.update h.insertedWith id n, Function.update h.accepted id []⟩
  | .erase id => { h with requests := erase h.requests id }
  | .eraseType t => { h with requests := eraseType h.requests t }
  | .clear => { h with requests := clear h.requests }
  | .addSegment id p =>
    let r := addSegment h.requests id p
    match r.1 with
    | .ok => { h with
        requests := r.2, accepted := Function.update h.accepted id (h.accepted id ++ p.toList) }
    | .noSpace => { h with requests := r.2 }
    | .error => { h with requests := r.2 }

def step (h : History) (a : Act) : Option History := some (post h a)

/-- The exact sum of the data lengths. -/
def held (segments : List MediaSegment) : ℕ := (segments.map fun s => s.data.length).sum

structure Accounted (h : History) : Prop where
  bounded : ∀ id segments, getSegments h.requests id = some segments →
    held segments ≤ (h.insertedWith id).toNat
  inOrder : ∀ id segments, getSegments h.requests id = some segments → segments = h.accepted id
  rejected : ∀ id p, (addSegment h.requests id p).1 ≠ .ok →
    (addSegment h.requests id p).2 = h.requests

/-- No sum that reaches `2 ^ 32` comes back below the maximum of its request. -/
def NoPassingWrap (h : History) : Act → Prop
  | .addSegment id (.segment s) => ∀ segments, getSegments h.requests id = some segments →
    held segments + s.data.length < w32 ∨
      (h.insertedWith id).toNat < held segments + s.data.length - w32
  | _ => True

/-! ## The invariant -/

section states

variable {h : History} {id : ℕ} {r : ActiveRequestsData}

@[simp] theorem toNat_dataLength (s : MediaSegment) : (dataLength s).toNat = s.data.length :=
  UInt32.toNat_ofNat_of_lt' s.dataLength_lt

theorem held_append (l : List MediaSegment) (s : MediaSegment) :
    held (l ++ [s]) = held l + s.data.length := by
  simp [held]

theorem getSegments_eq_some {a : ActiveRequests} {segments : List MediaSegment} :
    getSegments a id = some segments ↔
      ∃ r, a.requestMap.find? id = some r ∧ r.segments = segments :=
  Option.map_eq_some_iff

/-- An entry of the map agrees with the history of its id: the counter is the sum modulo
`2 ^ 32`. -/
structure Tracked (h : History) (id : ℕ) (r : ActiveRequestsData) : Prop where
  counter : r.bytesWritten.toNat = held r.segments % w32
  maximum : r.maxMediaBytes = h.insertedWith id
  segments : r.segments = h.accepted id

def Inv (h : History) : Prop :=
  ∀ id r, h.requests.requestMap.find? id = some r → Tracked h id r

theorem inv_new : Inv History.new := by
  intro id r hr
  exact nomatch hr

/-- What is said of one id. -/
theorem Tracked.of_agree {h' : History} (ht : Tracked h id r)
    (hins : h'.insertedWith id = h.insertedWith id) (hacc : h'.accepted id = h.accepted id) :
    Tracked h' id r :=
  ⟨ht.counter, ht.maximum.trans hins.symm, ht.segments.trans hacc.symm⟩

theorem Tracked.add (ht : Tracked h id r) (s : MediaSegment) :
    Tracked { h with accepted := Function.update h.accepted id (h.accepted id ++ [s]) } id
      { r with segments := r.segments ++ [s], bytesWritten := r.bytesWritten + dataLength s } := by
  refine ⟨?_, ht.maximum, ?_⟩
  · show (r.bytesWritten + dataLength s).toNat = held (r.segments ++ [s]) % w32
    rw [UInt32.toNat_add, ht.counter, toNat_dataLength, held_append, w32, Nat.mod_add_mod]
  · show r.segments ++ [s] = Function.update h.accepted id (h.accepted id ++ [s]) id
    rw [Function.update_self, ht.segments]

/-- The check on the exact sum, where a sum from `2 ^ 32` on has wrapped once. -/
theorem Tracked.passes_iff (ht : Tracked h id r) (hmax : held r.segments < w32)
    (s : MediaSegment) : ¬r.bytesWritten + dataLength s > r.maxMediaBytes ↔
      held r.segments + s.data.length ≤ (h.insertedWith id).toNat ∨
        w32 ≤ held r.segments + s.data.length ∧
          held r.segments + s.data.length - w32 ≤ (h.insertedWith id).toNat := by
  have hlt : s.data.length < w32 := s.dataLength_lt
  have hbound : (h.insertedWith id).toNat < w32 := (h.insertedWith id).toNat_lt
  have hsum : (r.bytesWritten + dataLength s).toNat =
      (held r.segments + s.data.length) % w32 := by
    rw [UInt32.toNat_add, ht.counter, toNat_dataLength, Nat.mod_add_mod, w32]
  rw [gt_iff_lt, UInt32.lt_iff_toNat_lt, hsum, ht.maximum]
  unfold w32 at *
  omega

/-- What a call of `addSegment` does. -/
theorem addSegment_cases (a : ActiveRequests) (id : ℕ) (p : SegmentPtr) :
    (∃ s r, p = .segment s ∧ a.requestMap.find? id = some r ∧
      ¬r.bytesWritten + dataLength s > r.maxMediaBytes ∧
      addSegment a id p = (.ok, { a with requestMap := a.requestMap.insert id { r with
        segments := r.segments ++ [s], bytesWritten := r.bytesWritten + dataLength s } })) ∨
    ((addSegment a id p).1 ≠ .ok ∧ (addSegment a id p).2 = a ∧
      ∀ s r, p = .segment s → a.requestMap.find? id = some r →
        r.bytesWritten + dataLength s > r.maxMediaBytes) := by
  match p with
  | .null => exact Or.inr ⟨by simp [addSegment], rfl, fun s r hp => nomatch hp⟩
  | .noData => exact Or.inr ⟨by simp [addSegment], rfl, fun s r hp => nomatch hp⟩
  | .segment s =>
    rcases hr : a.requestMap.find? id with _ | r
    · have heq : addSegment a id (.segment s) = (.error, a) := by
        simp only [addSegment, hr]
      exact Or.inr ⟨by simp [heq], by rw [heq], fun s' r' _ hr' => nomatch hr'⟩
    · by_cases hgt : r.bytesWritten + dataLength s > r.maxMediaBytes
      · have heq : addSegment a id (.segment s) = (.noSpace, a) := by
          simp only [addSegment, hr, ActiveRequestsData.addSegment, if_pos hgt,
            OMap.insert_of_find? hr]
        refine Or.inr ⟨by simp [heq], by rw [heq], fun s' r' hp hr' => ?_⟩
        cases hp
        cases hr'
        exact hgt
      · refine Or.inl ⟨s, r, rfl, rfl, hgt, ?_⟩
        simp only [addSegment, hr, ActiveRequestsData.addSegment, if_neg hgt]

/-- **What a step does**: entries go and the rest of the history stays, an id that is not in use
gets an entry, or a segment is added. -/
theorem post_cases (h : History) (a : Act) :
    (∃ n m, post h a = { h with requests := ⟨n, m⟩ } ∧
      (∀ id r, m.find? id = some r → h.requests.requestMap.find? id = some r) ∧
      ∀ i s r, a = .addSegment i (.segment s) → h.requests.requestMap.find? i = some r →
        r.bytesWritten + dataLength s > r.maxMediaBytes) ∨
    (∃ t n, a = .insert t n ∧ h.requests.requestMap.find? h.requests.currentId = none ∧
      post h a = ⟨(insert h.requests t n).2,
        Function.update h.insertedWith h.requests.currentId n,
        Function.update h.accepted h.requests.currentId []⟩) ∨
    (∃ i s r, a = .addSegment i (.segment s) ∧ h.requests.requestMap.find? i = some r ∧
      ¬r.bytesWritten + dataLength s > r.maxMediaBytes ∧
      post h a = { h with
        requests := { h.requests with requestMap := h.requests.requestMap.insert i { r with
          segments := r.segments ++ [s], bytesWritten := r.bytesWritten + dataLength s } }
        accepted := Function.update h.accepted i (h.accepted i ++ [s]) }) := by
  cases a with
  | insert t n =>
    rcases hfree : h.requests.requestMap.find? h.requests.currentId with _ | r₀
    · refine Or.inr (Or.inl ⟨t, n, rfl, rfl, ?_⟩)
      simp only [post, insert, hfree]
    · refine Or.inl ⟨add32 h.requests.currentId 1, h.requests.requestMap, ?_, fun _ _ hr => hr, ?_⟩
      · simp only [post, insert, hfree, OMap.emplace, Option.isSome_some, if_true]
      · intro i s r ha
        cases ha
  | erase i =>
    refine Or.inl ⟨_, _, rfl, fun id r hr => ?_, fun i s r ha => by cases ha⟩
    rw [OMap.find?_erase] at hr
    split_ifs at hr
    exact hr
  | eraseType t =>
    refine Or.inl ⟨_, _, rfl, fun id r hr => ?_, fun i s r ha => by cases ha⟩
    exact OMap.find?_eq_some.mpr (OMap.mem_eraseIf.mp (OMap.find?_eq_some.mp hr)).1
  | clear =>
    refine Or.inl ⟨_, _, rfl, fun id r hr => ?_, fun i s r ha => by cases ha⟩
    cases hr
  | addSegment i p =>
    rcases addSegment_cases h.requests i p with ⟨s, r, rfl, hr, hgt, heq⟩ | ⟨hne, heq, hgt⟩
    · refine Or.inr (Or.inr ⟨i, s, r, rfl, hr, hgt, ?_⟩)
      simp only [post, heq, SegmentPtr.toList]
    · refine Or.inl ⟨h.requests.currentId, h.requests.requestMap, ?_, fun _ _ hr => hr, ?_⟩
      · unfold post
        dsimp only
        split
        · contradiction
        · rw [heq]
        · rw [heq]
      · intro j s r ha hr
        cases ha
        exact hgt s r rfl hr

theorem inv_post (hinv : Inv h) (a : Act) : Inv (post h a) := by
  rcases post_cases h a with ⟨n, m, heq, hle, -⟩ | ⟨t, n, -, hfree, heq⟩ |
    ⟨i, s, r₀, -, hr₀, -, heq⟩
  · rw [heq]
    intro id r hr
    exact (hinv id r (hle id r hr)).of_agree rfl rfl
  · rw [heq]
    intro id r hr
    dsimp only [insert] at hr
    by_cases hid : id = h.requests.currentId
    · subst hid
      rw [OMap.find?_emplace hfree] at hr
      cases hr
      refine ⟨rfl, ?_, ?_⟩
      · exact (Function.update_self _ _ h.insertedWith).symm
      · exact (Function.update_self _ _ h.accepted).symm
    · rw [OMap.find?_emplace_of_ne _ hid] at hr
      exact (hinv id r hr).of_agree (Function.update_of_ne hid _ _)
        (Function.update_of_ne hid _ _)
  · rw [heq]
    intro id r hr
    dsimp only at hr
    rw [OMap.find?_insert] at hr
    split_ifs at hr with hid
    · subst hid
      cases hr
      exact ((hinv id r₀ hr₀).add s).of_agree rfl rfl
    · exact (hinv id r hr).of_agree rfl (Function.update_of_ne hid _ _)

/-- Under the invariant only the bound can fail. -/
theorem accounted_iff_bounded (hinv : Inv h) : Accounted h ↔
    ∀ id r, h.requests.requestMap.find? id = some r →
      held r.segments ≤ (h.insertedWith id).toNat := by
  constructor
  · intro hacc id r hr
    exact hacc.bounded id r.segments (getSegments_eq_some.mpr ⟨r, hr, rfl⟩)
  · intro hb
    refine ⟨fun id segments hseg => ?_, fun id segments hseg => ?_, fun id p hne => ?_⟩
    · obtain ⟨r, hr, rfl⟩ := getSegments_eq_some.mp hseg
      exact hb id r hr
    · obtain ⟨r, hr, rfl⟩ := getSegments_eq_some.mp hseg
      exact (hinv id r hr).segments
    · rcases addSegment_cases h.requests id p with ⟨s, r, -, -, -, heq⟩ | ⟨-, heq, -⟩
      · rw [heq] at hne
        exact absurd rfl hne
      · exact heq

theorem accounted_new : Accounted History.new :=
  (accounted_iff_bounded inv_new).mpr fun _ _ hr => nomatch hr

theorem noPassingWrap_iff {a : Act} : NoPassingWrap h a ↔
    ∀ i s r, a = .addSegment i (.segment s) → h.requests.requestMap.find? i = some r →
      held r.segments + s.data.length < w32 ∨
        (h.insertedWith i).toNat < held r.segments + s.data.length - w32 := by
  constructor
  · rintro hno i s r rfl hr
    exact hno r.segments (getSegments_eq_some.mpr ⟨r, hr, rfl⟩)
  · intro hno
    match a with
    | .insert _ _ | .erase _ | .eraseType _ | .clear => trivial
    | .addSegment _ .null | .addSegment _ .noData => trivial
    | .addSegment i (.segment s) =>
      intro segments hseg
      obtain ⟨r, hr, rfl⟩ := getSegments_eq_some.mp hseg
      exact hno i s r rfl hr

/-- A step keeps the accounting exactly when it is no addition that passes by wrapping. -/
theorem accounted_post_iff (hinv : Inv h) (hacc : Accounted h) (a : Act) :
    Accounted (post h a) ↔ NoPassingWrap h a := by
  have hb := (accounted_iff_bounded hinv).mp hacc
  have hlt : ∀ i r, h.requests.requestMap.find? i = some r → held r.segments < w32 :=
    fun i r hr => (hb i r hr).trans_lt (h.insertedWith i).toNat_lt
  rw [accounted_iff_bounded (inv_post hinv a), noPassingWrap_iff]
  rcases post_cases h a with ⟨n, m, heq, hle, hgt⟩ | ⟨t, n, rfl, hfree, heq⟩ |
    ⟨i, s, r₀, rfl, hr₀, hpass, heq⟩
  · rw [heq]
    refine iff_of_true (fun id r hr => hb id r (hle id r hr)) fun i s r ha hr => ?_
    -- a segment that was refused exceeds the maximum also on the wrapped sum
    have hno := mt ((hinv i r hr).passes_iff (hlt i r hr) s).mpr (not_not.mpr (hgt i s r ha hr))
    omega
  · rw [heq]
    refine iff_of_true (fun id r hr => ?_) nofun
    dsimp only [insert] at hr ⊢
    by_cases hid : id = h.requests.currentId
    · subst hid
      rw [OMap.find?_emplace hfree] at hr
      cases hr
      exact Nat.zero_le _
    · rw [OMap.find?_emplace_of_ne _ hid] at hr
      rw [Function.update_of_ne hid]
      exact hb id r hr
  · have hheld := hb i r₀ hr₀
    have hlen : s.data.length < w32 := s.dataLength_lt
    have hmax : (h.insertedWith i).toNat < w32 := (h.insertedWith i).toNat_lt
    have hexact := ((hinv i r₀ hr₀).passes_iff (hlt i r₀ hr₀) s).mp hpass
    rw [heq]
    constructor
    · intro hall j s' r ha hr
      cases ha
      cases hr₀.symm.trans hr
      have hnew := hall i _ ((OMap.find?_insert _ _ _ _).trans (if_pos rfl))
      rw [held_append] at hnew
      dsimp only at hnew
      omega
    · intro hno id r hr
      dsimp only at hr ⊢
      rw [OMap.find?_insert] at hr
      split_ifs at hr with hid
      · subst hid
        cases hr
        have hwrap := hno id s r₀ rfl hr₀
        rw [held_append]
        omega
      · exact hb id r hr

end states

/-- **Accounting**: in a run of calls no request ever holds more than it was inserted with, no
rejected segment changes anything and the accepted ones are kept in order, exactly when at every
`addSegment` to a live request the exact sum stays below `2 ^ 32` or exceeds it by more than the
maximum of the request. -/
theorem accounted_iff {as : List Act} {u : History}
    (hrun : Run step (fun _ _ => True) History.new as u) :
    (∀ pre post h, as = pre ++ post → Run step (fun _ _ => True) History.new pre h →
        Accounted h) ↔
      ∀ a h, Occurs step (fun _ _ => True) History.new as a h → NoPassingWrap h a := by
  refine hrun.always_iff Inv Accounted NoPassingWrap inv_new ?_ accounted_new ?_
  · intro h a h' hinv hstep
    cases hstep
    exact inv_post hinv a
  · intro h a h' hinv hacc hstep
    cases hstep
    exact accounted_post_iff hinv hacc a

/-- A segment of `n` bytes. -/
def segmentOf (n : ℕ) (hn : n < 2 ^ 32) : MediaSegment :=
  { MediaSegment.mk' 1 .video (.video 0 0) 0 0 with
    data := List.replicate n 0
    dataLength_lt := by rwa [List.length_replicate] }

/-- Four bytes of ten. -/
theorem accounted_four : ∃ u,
    Run step (fun _ _ => True) History.new [.insert .video 10,
      .addSegment 0 (.segment (segmentOf 4 (by decide)))] u ∧
    getSegments u.requests 0 = some [segmentOf 4 (by decide)] ∧ Accounted u := by
  have hrun : Run step (fun _ _ => True) History.new [.insert .video 10,
      .addSegment 0 (.segment (segmentOf 4 (by decide)))] _ :=
    Run.cons trivial rfl (Run.cons trivial rfl (Run.nil _))
  refine ⟨_, hrun, by rfl, (accounted_iff hrun).mpr ?_ _ [] _ (List.append_nil _).symm hrun⟩
  intro a h hocc
  rcases hocc.cons_cases with ⟨rfl, -⟩ | ⟨h₁, hstep, hocc⟩
  · trivial
  · cases hstep
    rcases hocc.cons_cases with ⟨rfl, rfl⟩ | ⟨h₂, -, hocc⟩
    · intro segments hseg
      cases hseg
      exact Or.inl (by decide)
    · exact absurd hocc.mem (by simp)

/-- After four bytes of ten, `2 ^ 32 - 2` more are accepted: the sum is `2` in 32 bits. -/
theorem two_to_the_32_of_ten : ¬∀ as u, Run step (fun _ _ => True) History.new as u →
    Accounted u := by
  intro hall
  have hinv := inv_post (inv_post inv_new (.insert .video 10))
    (.addSegment 0 (.segment (segmentOf 4 (by decide))))
  have hacc := hall [.insert .video 10, .addSegment 0 (.segment (segmentOf 4 (by decide)))] _
    (Run.cons trivial rfl (Run.cons trivial rfl (Run.nil _)))
  have hlast := hall [.insert .video 10, .addSegment 0 (.segment (segmentOf 4 (by decide))),
    .addSegment 0 (.segment (segmentOf 4294967294 (by decide)))] _
    (Run.cons trivial rfl (Run.cons trivial rfl (Run.cons trivial rfl (Run.nil _))))
  have hgood := (accounted_post_iff hinv hacc _).mp hlast [segmentOf 4 (by decide)] (by rfl)
  have hlen : (segmentOf 4294967294 (by decide)).data.length = 4294967294 :=
    List.length_replicate
  have hheld : held [segmentOf 4 (by decide)] = 4 := by rfl
  rw [hlen, hheld] at hgood
  revert hgood
  decide

end Rialto.Media.Accounting
