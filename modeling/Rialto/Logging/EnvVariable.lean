import Mathlib.Data.Char
import Mathlib.Data.List.Lex
import Mathlib.Logic.Function.Basic
import Rialto.Lib.OrdMap

/-! # The variable RIALTO_DEBUG

`EnvVariableParser` reads the levels of the components from an environment variable. A string is the
list of its characters; where the source throws, the result is `none`.

* `split`, `stoi`, `parseEnvVar`, `create`: the parser.
* `entries`, `reference`: the grammar of the variable and the levels that it gives.
* `Convertible`: every number that the parser converts has digits and is an `int`.
* `levels_iff`: the parser is constructed and has the levels of the grammar exactly then. -/

namespace Rialto.Logging.EnvVariable

open Rialto.Lib.OrdMap

inductive RialtoComponent
  | default
  | client
  | server
  | ipc
  | serverManager
  | common
  | external
  | last
  deriving DecidableEq

def levelFatal : ℕ := 1
def levelError : ℕ := 2
def levelWarning : ℕ := 4
def levelMilestone : ℕ := 8
def levelInfo : ℕ := 16
def levelDebug : ℕ := 32
def levelExternal : ℕ := 64

def levelDefault : ℕ := levelFatal ||| levelError ||| levelWarning ||| levelMilestone

structure Environment where
  rialtoDebug : Option (List Char)
  rialtoConsoleLog : Option (List Char)

def getRialtoDebug (env : Environment) : List Char := env.rialtoDebug.getD []

def getRialtoConsoleLog (env : Environment) : List Char := env.rialtoConsoleLog.getD []

/-! ## The parser -/

def isNumber (str : List Char) : Bool := str.all Char.isDigit

/-- The delimiters are one character long. -/
def split (s : List Char) (delimiter : Char) : List (List Char) :=
  match h : s.findIdx? (· == delimiter) with
  | some pos => s.take pos :: split (s.drop (pos + 1)) delimiter
  | none => [s]
termination_by s.length
decreasing_by
  have hpos := (List.findIdx?_eq_some_iff_getElem.mp h).1
  rw [List.length_drop]
  omega

/-- The number that the digits are. -/
def value (digits : List Char) : ℕ :=
  digits.foldl (fun n c => 10 * n + (c.toNat - '0'.toNat)) 0

def intMax : ℕ := 2147483647

/-- `std::stoi` of a string of digits. -/
def stoi (str : List Char) : Option ℕ :=
  if str = [] then none
  else if value str ≤ intMax then some (value str)
  else none

def parseItem (flagValues : OMap (List Char) ℕ) (item : List Char) :
    Option (OMap (List Char) ℕ) :=
  match split item ':' with
  | [component, level] =>
    if !isNumber level then some flagValues
    else (stoi level).map fun n => flagValues.insert component n
  | _ => some flagValues

def parseEnvVar (envVar : List Char) : Option (OMap (List Char) ℕ) :=
  (split envVar ';').foldlM parseItem OMap.empty

def levelFromNumber : ℕ → ℕ
  | 0 => levelFatal
  | 1 => levelFatal ||| levelError
  | 2 => levelFatal ||| levelError ||| levelWarning
  | 3 => levelFatal ||| levelError ||| levelWarning ||| levelMilestone
  | 4 => levelFatal ||| levelError ||| levelWarning ||| levelMilestone ||| levelInfo
  | 5 => levelFatal ||| levelError ||| levelWarning ||| levelMilestone ||| levelInfo ||| levelDebug
  | _ => levelDefault

def componentFromStr (component : List Char) : RialtoComponent :=
  if "client".toList = component then .client
  else if "sessionserver".toList = component then .server
  else if "ipc".toList = component then .ipc
  else if "servermanager".toList = component then .serverManager
  else if "common".toList = component then .common
  else .last

structure EnvVariableParser where
  debugLevels : RialtoComponent → Option ℕ
  logToConsole : Bool

def initialLevels : RialtoComponent → Option ℕ
  | .client => some levelDefault
  | .server => some levelDefault
  | .ipc => some levelDefault
  | .serverManager => some levelDefault
  | .common => some levelDefault
  | _ => none

/-- All components of the map get the level. -/
def setAll (debugLevels : RialtoComponent → Option ℕ) (level : ℕ) : RialtoComponent → Option ℕ :=
  fun component => (debugLevels component).map fun _ => level

def setFlag (debugLevels : RialtoComponent → Option ℕ) (flag : List Char × ℕ) :
    RialtoComponent → Option ℕ :=
  match debugLevels (componentFromStr flag.1) with
  | some _ => Function.update debugLevels (componentFromStr flag.1) (some (levelFromNumber flag.2))
  | none => debugLevels

def configureRialtoDebug (debugLevels : RialtoComponent → Option ℕ) (debugFlagEnvVar : List Char) :
    Option (RialtoComponent → Option ℕ) :=
  if debugFlagEnvVar = [] then some debugLevels
  else if isNumber debugFlagEnvVar then
    (stoi debugFlagEnvVar).map fun level => setAll debugLevels (levelFromNumber level)
  else
    (parseEnvVar debugFlagEnvVar).map fun flagValues =>
      match flagValues.find? "*".toList with
      | some level => (flagValues.erase "*".toList).entries.foldl setFlag
          (setAll debugLevels (levelFromNumber level))
      | none => flagValues.entries.foldl setFlag debugLevels

/-- The constructor. -/
def create (env : Environment) : Option EnvVariableParser :=
  (configureRialtoDebug initialLevels (getRialtoDebug env)).map fun debugLevels =>
    ⟨debugLevels, getRialtoConsoleLog env = "1".toList⟩

def getLevel (p : EnvVariableParser) (component : RialtoComponent) : ℕ :=
  if component = .external then levelExternal
  else (p.debugLevels component).getD levelDefault

/-! ## The grammar -/

/-- A number: one digit or more. -/
def IsDigits (str : List Char) : Prop := str ≠ [] ∧ isNumber str = true

instance (str : List Char) : Decidable (IsDigits str) := inferInstanceAs (Decidable (_ ∧ _))

/-- The entry that an item of the list is, if it is one. -/
def entry (item : List Char) : Option (List Char × ℕ) :=
  match item.splitOn ':' with
  | [component, digits] => if IsDigits digits then some (component, value digits) else none
  | _ => none

def entries (str : List Char) : List (List Char × ℕ) := (str.splitOn ';').filterMap entry

/-- The number of the last entry of a name. -/
def lastOf (es : List (List Char × ℕ)) (name : List Char) : Option ℕ :=
  (es.filter fun e => e.1 = name).getLast?.map Prod.snd

/-- The components that can be named. -/
def nameOf : RialtoComponent → Option (List Char)
  | .client => some "client".toList
  | .server => some "sessionserver".toList
  | .ipc => some "ipc".toList
  | .serverManager => some "servermanager".toList
  | .common => some "common".toList
  | _ => none

/-- The number for a component: that of the whole string, of its own entry or of `*`. -/
def numberFor (str name : List Char) : Option ℕ :=
  if IsDigits str then some (value str)
  else (lastOf (entries str) name).or (lastOf (entries str) "*".toList)

def reference (str : List Char) (component : RialtoComponent) : ℕ :=
  match nameOf component with
  | some name => (numberFor str name).elim levelDefault levelFromNumber
  | none => if component = .external then levelExternal else levelDefault

/-- The numbers that the parser converts: the whole string when it has digits only, or else what
follows the `:` of an item with one `:`, when it has digits only. -/
def Convertible (str : List Char) : Prop :=
  if IsDigits str then value str ≤ intMax
  else ∀ item ∈ str.splitOn ';', ∀ component number, item.splitOn ':' = [component, number] →
    isNumber number = true → number ≠ [] ∧ value number ≤ intMax

example : reference "ipc:1;*:0".toList .client = levelFatal ∧
    reference "ipc:1;*:0".toList .ipc = levelFatal ||| levelError := by decide

/-! ## Splitting and converting -/

/-- The loop of `split` cuts at every delimiter. -/
theorem split_eq (s : List Char) (delimiter : Char) : split s delimiter = s.splitOn delimiter := by
  rw [List.splitOn_eq_splitOnP]
  induction s using split.induct delimiter with
  | case1 s pos h ih =>
    obtain ⟨hpos, hat, hbefore⟩ := List.findIdx?_eq_some_iff_getElem.mp h
    have hcut : s = s.take pos ++ s[pos] :: s.drop (pos + 1) := by
      rw [← List.drop_eq_getElem_cons hpos, List.take_append_drop]
    have hfirst : (s.take pos).splitOnP (· == delimiter) = [s.take pos] := by
      refine List.splitOnP_eq_singleton fun c hc => ?_
      obtain ⟨i, hi, rfl⟩ := List.getElem_of_mem hc
      rw [List.length_take] at hi
      rw [List.getElem_take]
      exact Bool.eq_false_iff.mpr (hbefore i (by omega))
    have happend : (s.take pos ++ s[pos] :: s.drop (pos + 1)).splitOnP (· == delimiter) =
        (s.take pos).splitOnP (· == delimiter) ++ (s.drop (pos + 1)).splitOnP (· == delimiter) :=
      List.splitOnP_append_cons _ _ hat
    rw [split]
    split
    · rename_i pos' h'
      cases h.symm.trans h'
      conv_rhs => rw [hcut]
      rw [ih, happend, hfirst]
      rfl
    · rename_i h'
      cases h.symm.trans h'
  | case2 s h =>
    rw [split]
    split
    · rename_i h'
      cases h.symm.trans h'
    · refine (List.splitOnP_eq_singleton fun c hc => ?_).symm
      exact List.findIdx?_eq_none_iff.mp h c hc

theorem stoi_eq (str : List Char) :
    stoi str = if str ≠ [] ∧ value str ≤ intMax then some (value str) else none := by
  unfold stoi
  by_cases h1 : str = []
  · rw [if_pos h1, if_neg fun h => h.1 h1]
  · by_cases h2 : value str ≤ intMax
    · rw [if_neg h1, if_pos h2, if_pos ⟨h1, h2⟩]
    · rw [if_neg h1, if_neg h2, if_neg fun h => h2 h.2]

/-! ## The entries -/

/-- What the condition says of an item. -/
def ItemConvertible (item : List Char) : Prop :=
  ∀ component number, item.splitOn ':' = [component, number] → isNumber number = true →
    number ≠ [] ∧ value number ≤ intMax

section parsing

variable {m : OMap (List Char) ℕ} {item : List Char} {items : List (List Char)}

/-- An entry replaces an earlier one of its name. -/
def addEntry (m : OMap (List Char) ℕ) (e : List Char × ℕ) : OMap (List Char) ℕ := m.insert e.1 e.2

theorem parseItem_of_convertible (h : ItemConvertible item) :
    parseItem m item = some ((entry item).toList.foldl addEntry m) := by
  unfold parseItem entry
  rw [split_eq]
  split
  · rename_i component number hsplit
    by_cases hnum : isNumber number = true
    · obtain ⟨hne, hle⟩ := h component number hsplit hnum
      rw [if_neg (by simp [hnum]), stoi_eq, if_pos ⟨hne, hle⟩, if_pos ⟨hne, hnum⟩]
      rfl
    · rw [if_pos (by simp [hnum]), if_neg fun h => hnum h.2]
      rfl
  · rfl

theorem parseItem_of_not (h : ¬ItemConvertible item) : parseItem m item = none := by
  unfold ItemConvertible at h
  push Not at h
  obtain ⟨component, number, hsplit, hnum, hno⟩ := h
  unfold parseItem
  rw [split_eq, hsplit]
  dsimp only
  rw [if_neg (by simp [hnum]), stoi_eq, if_neg fun h => absurd h.2 (by have := hno h.1; omega)]
  rfl

theorem parseItems_of_convertible : ∀ (items : List (List Char)) (m : OMap (List Char) ℕ),
    (∀ item ∈ items, ItemConvertible item) →
      items.foldlM parseItem m = some ((items.filterMap entry).foldl addEntry m)
  | [], _, _ => rfl
  | item :: items, m, h => by
    have ih := parseItems_of_convertible items ((entry item).toList.foldl addEntry m)
      fun i hi => h i (List.mem_cons_of_mem _ hi)
    rw [List.foldlM_cons, parseItem_of_convertible (h item List.mem_cons_self), Option.bind_eq_bind,
      Option.bind_some, ih, List.filterMap_cons]
    cases entry item with
    | none => rfl
    | some e => rfl

theorem parseItems_of_not : ∀ (items : List (List Char)) (m : OMap (List Char) ℕ),
    (¬∀ item ∈ items, ItemConvertible item) → items.foldlM parseItem m = none
  | [], _, h => absurd (fun item hitem => nomatch hitem) h
  | item :: items, m, h => by
    rw [List.foldlM_cons]
    by_cases hitem : ItemConvertible item
    · rw [parseItem_of_convertible hitem, Option.bind_eq_bind, Option.bind_some]
      refine parseItems_of_not items _ fun hall => h fun i hi => ?_
      rcases List.mem_cons.mp hi with rfl | hi
      · exact hitem
      · exact hall i hi
    · rw [parseItem_of_not hitem]
      rfl

theorem lastOf_cons (e : List Char × ℕ) (es : List (List Char × ℕ)) (name : List Char) :
    lastOf (e :: es) name = (lastOf es name).or (if e.1 = name then some e.2 else none) := by
  unfold lastOf
  rw [List.filter_cons]
  by_cases h : e.1 = name
  · rw [if_pos (by simpa using h), if_pos h, List.getLast?_cons]
    cases (es.filter fun e => e.1 = name).getLast? with
    | none => rfl
    | some _ => rfl
  · rw [if_neg (by simpa using h), if_neg h, Option.or_none]

/-- The last entry of a name stays. -/
theorem find?_foldl_addEntry (name : List Char) : ∀ (es : List (List Char × ℕ))
    (m : OMap (List Char) ℕ),
      (es.foldl addEntry m).find? name = (lastOf es name).or (m.find? name)
  | [], _ => rfl
  | e :: es, m => by
    rw [List.foldl_cons, find?_foldl_addEntry name es, lastOf_cons, addEntry, OMap.find?_insert,
      Option.or_assoc]
    by_cases h : e.1 = name
    · rw [if_pos h, if_pos h.symm, Option.some_or]
    · rw [if_neg h, if_neg (Ne.symm h), Option.none_or]

/-- In a map every entry is the last one of its name. -/
theorem lastOf_entries (m : OMap (List Char) ℕ) (name : List Char) :
    lastOf m.entries name = m.find? name := by
  rcases hlast : (m.entries.filter fun e => e.1 = name).getLast? with _ | e
  · have hnil := List.getLast?_eq_none_iff.mp hlast
    have hnone : m.find? name = none := by
      refine OMap.find?_eq_none.mpr fun hk => ?_
      obtain ⟨w, hw⟩ := OMap.mem_keys.mp hk
      have hmem : (name, w) ∈ m.entries.filter fun e => e.1 = name := by simpa using hw
      rw [hnil] at hmem
      exact nomatch hmem
    rw [lastOf, hlast, hnone]
    rfl
  · have hmem := List.mem_of_getLast? hlast
    simp only [List.mem_filter, decide_eq_true_eq] at hmem
    have hfind : m.find? e.1 = some e.2 := OMap.find?_eq_some.mpr hmem.1
    rw [lastOf, hlast, ← hmem.2, hfind]
    rfl

end parsing

/-! ## The levels -/

section levels

variable {c : RialtoComponent} {name : List Char}

theorem nameOf_componentFromStr (str : List Char) :
    nameOf (componentFromStr str) = some str ∨ componentFromStr str = .last := by
  unfold componentFromStr
  split_ifs with h1 h2 h3 h4 h5
  · exact Or.inl (congrArg some h1)
  · exact Or.inl (congrArg some h2)
  · exact Or.inl (congrArg some h3)
  · exact Or.inl (congrArg some h4)
  · exact Or.inl (congrArg some h5)
  · exact Or.inr rfl

theorem componentFromStr_of_name (hname : nameOf c = some name) : componentFromStr name = c := by
  cases c <;> cases hname <;> decide

theorem componentFromStr_eq_iff (hname : nameOf c = some name) (str : List Char) :
    componentFromStr str = c ↔ str = name := by
  constructor
  · rintro rfl
    rcases nameOf_componentFromStr str with h | h
    · exact Option.some.inj (h.symm.trans hname)
    · rw [h] at hname
      cases hname
  · rintro rfl
    exact componentFromStr_of_name hname

theorem setFlag_at (hname : nameOf c = some name) {levels : RialtoComponent → Option ℕ} {l : ℕ}
    (hl : levels c = some l) (e : List Char × ℕ) :
    setFlag levels e c = some (if e.1 = name then levelFromNumber e.2 else l) := by
  unfold setFlag
  by_cases he : e.1 = name
  · have hc := (componentFromStr_eq_iff hname e.1).mpr he
    rw [hc, hl, if_pos he]
    exact Function.update_self _ _ _
  · have hc : c ≠ componentFromStr e.1 :=
      fun h => he ((componentFromStr_eq_iff hname e.1).mp h.symm)
    rw [if_neg he, ← hl]
    cases levels (componentFromStr e.1) with
    | none => rfl
    | some _ => exact Function.update_of_ne hc _ _

theorem foldl_setFlag (hname : nameOf c = some name) : ∀ (es : List (List Char × ℕ))
    {levels : RialtoComponent → Option ℕ} {l : ℕ}, levels c = some l →
      es.foldl setFlag levels c = some ((lastOf es name).elim l levelFromNumber)
  | [], _, _, hl => hl
  | e :: es, levels, l, hl => by
    rw [List.foldl_cons, foldl_setFlag hname es (setFlag_at hname hl e), lastOf_cons]
    cases lastOf es name with
    | some n => rfl
    | none =>
      rw [Option.none_or]
      split_ifs
      · rfl
      · rfl

theorem setFlag_none {levels : RialtoComponent → Option ℕ} (hl : levels c = none)
    (e : List Char × ℕ) : setFlag levels e c = none := by
  unfold setFlag
  rcases hold : levels (componentFromStr e.1) with _ | old
  · exact hl
  · have hc : c ≠ componentFromStr e.1 := by
      rintro rfl
      cases hl.symm.trans hold
    exact (Function.update_of_ne hc _ _).trans hl

theorem foldl_setFlag_none : ∀ (es : List (List Char × ℕ)) {levels : RialtoComponent → Option ℕ},
    levels c = none → es.foldl setFlag levels c = none
  | [], _, hl => hl
  | e :: es, _, hl => foldl_setFlag_none es (setFlag_none hl e)

theorem initialLevels_eq (c : RialtoComponent) :
    initialLevels c = (nameOf c).map fun _ => levelDefault := by
  cases c <;> rfl

theorem name_ne_star (hname : nameOf c = some name) : name ≠ "*".toList := by
  cases c <;> cases hname <;> decide

/-- A level for every component that can be named, by its name. -/
def levelsOf (f : List Char → ℕ) (c : RialtoComponent) : Option ℕ := (nameOf c).map f

theorem levelsOf_foldl {es : List (List Char × ℕ)} {f : List Char → ℕ} :
    es.foldl setFlag (levelsOf f) =
      levelsOf fun name => (lastOf es name).elim (f name) levelFromNumber := by
  funext c
  unfold levelsOf
  rcases hname : nameOf c with _ | name
  · exact foldl_setFlag_none es (congrArg (Option.map f) hname)
  · exact foldl_setFlag hname es (congrArg (Option.map f) hname)

theorem levelsOf_congr {f g : List Char → ℕ} (h : ∀ name, name ≠ "*".toList → f name = g name) :
    levelsOf f = levelsOf g := by
  funext c
  unfold levelsOf
  rcases hname : nameOf c with _ | name
  · rfl
  · exact congrArg some (h name (name_ne_star hname))

theorem setAll_levelsOf (f : List Char → ℕ) (level : ℕ) :
    setAll (levelsOf f) level = levelsOf fun _ => level := by
  funext c
  exact Option.map_map _ _ _

end levels

/-! ## The parser and the grammar -/

section grammar

variable {str : List Char}

theorem numberFor_digits (h : IsDigits str) (name : List Char) :
    numberFor str name = some (value str) := if_pos h

theorem numberFor_entries (h : ¬IsDigits str) (name : List Char) :
    numberFor str name = (lastOf (entries str) name).or (lastOf (entries str) "*".toList) :=
  if_neg h

/-- The map that `parseEnvVar` makes has the last number of every name. -/
theorem parseEnvVar_of_convertible (h : ∀ item ∈ str.splitOn ';', ItemConvertible item) :
    ∃ m, parseEnvVar str = some m ∧ ∀ name, m.find? name = lastOf (entries str) name := by
  unfold parseEnvVar
  rw [split_eq]
  refine ⟨_, parseItems_of_convertible _ _ h, fun name => ?_⟩
  rw [find?_foldl_addEntry]
  exact Option.or_none

/-- What the variable configures. -/
theorem configureRialtoDebug_of_convertible (h : Convertible str) :
    configureRialtoDebug initialLevels str =
      some (levelsOf fun name => (numberFor str name).elim levelDefault levelFromNumber) := by
  have hinit : initialLevels = levelsOf fun _ => levelDefault := funext initialLevels_eq
  unfold configureRialtoDebug
  unfold Convertible at h
  rw [hinit]
  by_cases hdigits : IsDigits str
  · rw [if_pos hdigits] at h
    rw [if_neg hdigits.1, if_pos hdigits.2, stoi_eq, if_pos ⟨hdigits.1, h⟩, Option.map_some,
      setAll_levelsOf]
    simp only [numberFor_digits hdigits, Option.elim_some]
  · rw [if_neg hdigits] at h
    simp only [numberFor_entries hdigits]
    by_cases hempty : str = []
    · subst hempty
      rfl
    · obtain ⟨m, hparse, hfind⟩ := parseEnvVar_of_convertible h
      rw [if_neg hempty, if_neg fun hnum => hdigits ⟨hempty, hnum⟩, hparse, Option.map_some,
        ← hfind "*".toList]
      cases m.find? "*".toList with
      | some n =>
        refine congrArg some ?_
        dsimp only
        rw [setAll_levelsOf, levelsOf_foldl]
        refine levelsOf_congr fun name hname => ?_
        rw [lastOf_entries, OMap.find?_erase, if_neg hname, hfind]
        cases lastOf (entries str) name with
        | none => rfl
        | some _ => rfl
      | none =>
        refine congrArg some ?_
        dsimp only
        rw [levelsOf_foldl]
        refine levelsOf_congr fun name _ => ?_
        rw [lastOf_entries, hfind, Option.or_none]

theorem configureRialtoDebug_of_not (h : ¬Convertible str)
    (levels : RialtoComponent → Option ℕ) : configureRialtoDebug levels str = none := by
  unfold configureRialtoDebug
  unfold Convertible at h
  by_cases hdigits : IsDigits str
  · rw [if_pos hdigits] at h
    rw [if_neg hdigits.1, if_pos hdigits.2, stoi_eq, if_neg fun hand => h hand.2]
    rfl
  · rw [if_neg hdigits] at h
    have hempty : str ≠ [] := by
      rintro rfl
      refine h fun item hitem component number hsplit => ?_
      rw [List.splitOn_nil, List.mem_singleton] at hitem
      subst hitem
      rw [List.splitOn_nil] at hsplit
      cases hsplit
    have hparse : parseEnvVar str = none := by
      unfold parseEnvVar
      rw [split_eq]
      exact parseItems_of_not _ _ h
    rw [if_neg hempty, if_neg fun hnum => hdigits ⟨hempty, hnum⟩, hparse]
    rfl

/-- The level that the parser has for a component. -/
theorem getLevel_levelsOf (b : Bool) (c : RialtoComponent) :
    getLevel ⟨levelsOf fun name => (numberFor str name).elim levelDefault levelFromNumber, b⟩ c =
      reference str c := by
  cases c <;> rfl

end grammar

/-- **The variable RIALTO_DEBUG**: for every value of it, or none, the parser is constructed with
the levels of the grammar exactly when every number it converts has a digit and is an `int`. -/
theorem levels_iff (env : Environment) :
    (∃ p, create env = some p ∧ ∀ c, getLevel p c = reference (getRialtoDebug env) c) ↔
      Convertible (getRialtoDebug env) := by
  constructor
  · rintro ⟨p, hp, -⟩
    by_contra hno
    unfold create at hp
    rw [configureRialtoDebug_of_not hno] at hp
    cases hp
  · intro h
    unfold create
    rw [configureRialtoDebug_of_convertible h]
    exact ⟨_, rfl, fun c => getLevel_levelsOf _ c⟩

/-- An entry without digits is no entry, and the parser throws. -/
theorem no_digits_throw : ¬∀ env, ∃ p, create env = some p ∧
    ∀ c, getLevel p c = reference (getRialtoDebug env) c := by
  intro hall
  obtain ⟨p, hp, -⟩ := hall ⟨some "ipc:".toList, none⟩
  have hno : ¬Convertible "ipc:".toList := by
    intro h
    exact (h "ipc:".toList (by decide) "ipc".toList [] (by decide) rfl).1 rfl
  unfold create at hp
  rw [show getRialtoDebug ⟨some "ipc:".toList, none⟩ = "ipc:".toList from rfl,
    configureRialtoDebug_of_not hno] at hp
  cases hp

end Rialto.Logging.EnvVariable
