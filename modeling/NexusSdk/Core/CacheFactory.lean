import Mathlib.Data.List.ReduceOption
import NexusSdk.Exceptions

/-! The error map that `CacheFactory.get_cache` builds from the configuration.  The scoped entries are
grouped by class, in the order of the configuration. -/

namespace NexusSdk.Core

open Lib

/-- `pydoc.locate` on the import path of a class. -/
abbrev Locate := String → Except PyExc (Option PyClass)

structure ScopedExceptionSettings where
  className : String
  errors : List String
  target : String
  deriving DecidableEq

/-- `_try_locate_error_classes`. -/
def tryLocateErrorClasses (locate : Locate) (errorClasses : List ScopedExceptionSettings) :
    Except PyExc Bool :=
  errorClasses.allM fun errorClassDef =>
    errorClassDef.errors.allM fun errorClass => return (← locate errorClass).isSome

/-- The settings `runtime.exceptions`, validated. -/
structure RuntimeExceptionsSettings (locate : Locate) where
  globalDefault : String
  scopedEntries : List ScopedExceptionSettings
  located : tryLocateErrorClasses locate scopedEntries = .ok true

/-! ### Building the map -/

/-- `NexusErrorMap.from_config`; the validated errors are all located. -/
def NexusErrorMap.fromConfig (locate : Locate) (value : ScopedExceptionSettings) :
    Except PyExc NexusErrorMap := do
  let target ← locate value.target
  let errors ← value.errors.mapM locate
  return ⟨target, errors.reduceOption⟩

/-- The loop over the scoped entries. -/
def loadErrorMap (locate : Locate) (loadedErrorMap : Dict String (List NexusErrorMap)) :
    List ScopedExceptionSettings → Except PyExc (Dict String (List NexusErrorMap))
  | [] => return loadedErrorMap
  | errorMapConfig :: rest => do
    let entry ← NexusErrorMap.fromConfig locate errorMapConfig
    match loadedErrorMap.get? errorMapConfig.className with
    | none => loadErrorMap locate (loadedErrorMap.set errorMapConfig.className [entry]) rest
    | some entries =>
      loadErrorMap locate (loadedErrorMap.set errorMapConfig.className (entries ++ [entry])) rest

/-- The collection with which the cache is constructed. -/
def getCache (locate : Locate) (exceptions : RuntimeExceptionsSettings locate) :
    Except PyExc NexusErrorMapCollection := do
  let loadedErrorMap ← loadErrorMap locate .empty exceptions.scopedEntries
  match ← locate exceptions.globalDefault with
  | none => .error (.raised fatalStartupConfigurationError
      ("Unable to locate default error map class: " ++ exceptions.globalDefault))
  | some defaultError => return ⟨defaultError, loadedErrorMap⟩

/-! ### The documented resolution -/

section Documented

variable (locate : Locate) (ex : PyExc)

/-- The class at a path, if it is located. -/
def classAt (path : String) : Option PyClass := (locate path).toOption.join

namespace ScopedExceptionSettings

variable (s : ScopedExceptionSettings)

/-- The errors list contains a base class of the exception. -/
def matchesError : Bool :=
  s.errors.any fun path => (classAt locate path).any ex.isInstance

/-- An entry without errors remaps all errors that matched no list. -/
def catchesAll : Bool := s.errors.isEmpty

end ScopedExceptionSettings

/-- The entries of the caller's class. -/
def ofCaller (entries : List ScopedExceptionSettings) (callerFqn : String) :
    List ScopedExceptionSettings :=
  entries.filter fun s => s.className = callerFqn

/-- The target of the first entry with a matching list, else of the entry without errors, else the
default. -/
def documentedTarget (globalDefault : PyClass) (entries : List ScopedExceptionSettings) :
    Option PyClass :=
  match entries.find? (·.matchesError locate ex) with
  | some s => classAt locate s.target
  | none =>
    match entries.find? (·.catchesAll) with
    | some s => classAt locate s.target
    | none => some globalDefault

/-- The targets, as far as they are located, of the entries without errors that stand before the
first match. -/
def shadowing (entries : List ScopedExceptionSettings) : List PyClass :=
  (entries.takeWhile fun s => !s.matchesError locate ex).filterMap fun s =>
    if s.catchesAll then classAt locate s.target else none

/-- The documented entry has a target that is located, and no other one shadows it. -/
def Unshadowed (entries : List ScopedExceptionSettings) : Prop :=
  match entries.find? (·.matchesError locate ex) with
  | some s => ∃ target, classAt locate s.target = some target ∧
      ∀ other ∈ (shadowing locate ex entries).head?, other = target
  | none => ∀ s ∈ entries.find? (·.catchesAll), (classAt locate s.target).isSome = true

/-- What an entry makes of the exception. -/
def remap (s : ScopedExceptionSettings) : Option PyClass :=
  if s.catchesAll || s.matchesError locate ex then classAt locate s.target else none

end Documented

/-! ### What the built map does -/

section Resolution

variable {locate : Locate} {ex : PyExc}

theorem allM_eq_true {α : Type} {p : α → Except PyExc Bool} {l : List α}
    (h : l.allM p = .ok true) : ∀ a ∈ l, p a = .ok true := by
  induction l with
  | nil => exact fun a ha => absurd ha List.not_mem_nil
  | cons b rest ih =>
    rw [List.allM] at h
    obtain ⟨result, hb, hrest⟩ := bind_eq_ok.mp h
    cases result with
    | false => cases hrest
    | true => exact List.forall_mem_cons.mpr ⟨hb, ih hrest⟩

/-- The validated errors are located. -/
theorem exists_classAt {entries : List ScopedExceptionSettings}
    (h : tryLocateErrorClasses locate entries = .ok true) {s : ScopedExceptionSettings}
    (hs : s ∈ entries) {path : String} (hpath : path ∈ s.errors) :
    ∃ cls, locate path = .ok (some cls) := by
  obtain ⟨found, hfound, hsome⟩ := bind_eq_ok.mp (allM_eq_true (allM_eq_true h s hs) path hpath)
  cases found with
  | none => cases hsome
  | some cls => exact ⟨cls, hfound⟩

theorem mapM_locate (ex : PyExc) {paths : List String}
    (h : ∀ path ∈ paths, ∃ cls, locate path = .ok (some cls)) :
    ∃ classes : List PyClass, paths.mapM locate = .ok (classes.map some) ∧
      classes.length = paths.length ∧
      classes.any ex.isInstance =
        paths.any fun path => (classAt locate path).any ex.isInstance := by
  induction paths with
  | nil => exact ⟨[], rfl, rfl, rfl⟩
  | cons path rest ih =>
    obtain ⟨⟨cls, hcls⟩, hrest⟩ := List.forall_mem_cons.mp h
    obtain ⟨classes, hclasses, hlength, hany⟩ := ih hrest
    refine ⟨cls :: classes, ?_, congrArg (· + 1) hlength, ?_⟩
    · rw [List.mapM_cons, hcls, hclasses]
      rfl
    · have hclass : classAt locate path = some cls := by
        rw [classAt, hcls]
        rfl
      rw [List.any_cons, List.any_cons, hany, hclass, Option.any_some]

/-- An entry of the map remaps as its settings say. -/
theorem mapException_fromConfig {s : ScopedExceptionSettings} {entry : NexusErrorMap}
    (hlocated : ∀ path ∈ s.errors, ∃ cls, locate path = .ok (some cls))
    (h : NexusErrorMap.fromConfig locate s = .ok entry) :
    entry.mapException ex = remap locate ex s := by
  obtain ⟨target, htarget, h⟩ := bind_eq_ok.mp h
  obtain ⟨errors, herrors, h⟩ := bind_eq_ok.mp h
  obtain ⟨classes, hclasses, hlength, hany⟩ := mapM_locate ex hlocated
  obtain rfl : errors = classes.map some := Except.ok.inj (herrors.symm.trans hclasses)
  obtain rfl := Except.ok.inj h
  have hclass : classAt locate s.target = target := by
    rw [classAt, htarget]
    rfl
  have hreduce : (classes.map some).reduceOption = classes := by
    simp [List.reduceOption]
  have hcatches : s.catchesAll = decide (classes.length = 0) := by
    rw [ScopedExceptionSettings.catchesAll, hlength]
    cases s.errors <;> rfl
  rw [NexusErrorMap.mapException, remap, ScopedExceptionSettings.matchesError, ← hany, hcatches,
    hclass, hreduce]
  by_cases hempty : classes.length = 0 <;> simp [hempty]

/-- The entries of a class are grouped in their order. -/
theorem findSome?_loadErrorMap (ex : PyExc) {entries : List ScopedExceptionSettings}
    {loaded loaded' : Dict String (List NexusErrorMap)} (callerFqn : String)
    (hlocated : ∀ s ∈ entries, ∀ path ∈ s.errors, ∃ cls, locate path = .ok (some cls))
    (h : loadErrorMap locate loaded entries = .ok loaded') :
    ((loaded'.get? callerFqn).getD []).findSome? (·.mapException ex) =
      (((loaded.get? callerFqn).getD []).findSome? (·.mapException ex)).or
        ((ofCaller entries callerFqn).findSome? (remap locate ex)) := by
  induction entries generalizing loaded with
  | nil =>
    obtain rfl := Except.ok.inj h
    exact (Option.or_none ..).symm
  | cons s rest ih =>
    obtain ⟨hs, hrest⟩ := List.forall_mem_cons.mp hlocated
    obtain ⟨entry, hentry, h⟩ := bind_eq_ok.mp h
    have hstep : loadErrorMap locate
        (loaded.set s.className ((loaded.get? s.className).getD [] ++ [entry])) rest =
          .ok loaded' := by
      cases hget : loaded.get? s.className with
      | none =>
        rw [hget] at h
        exact h
      | some entries =>
        rw [hget] at h
        exact h
    rw [ih hrest hstep, Dict.get?_set]
    by_cases hclass : s.className = callerFqn
    · have hmember : ofCaller (s :: rest) callerFqn = s :: ofCaller rest callerFqn :=
        List.filter_cons_of_pos (by simpa using hclass)
      rw [if_pos hclass.symm, Option.getD_some, hclass, List.findSome?_append, Option.or_assoc,
        hmember]
      congr 1
      rw [List.findSome?_cons, List.findSome?_cons, mapException_fromConfig hs hentry]
      cases remap locate ex s <;> rfl
    · have hmember : ofCaller (s :: rest) callerFqn = ofCaller rest callerFqn :=
        List.filter_cons_of_neg (by simpa using hclass)
      rw [if_neg (Ne.symm hclass), hmember]

theorem mapError_getCache {exceptions : RuntimeExceptionsSettings locate}
    {c : NexusErrorMapCollection} (h : getCache locate exceptions = .ok c) (callerFqn : String) :
    c.mapError ex callerFqn =
      ((ofCaller exceptions.scopedEntries callerFqn).findSome? (remap locate ex)).getD
        c.globalDefault := by
  obtain ⟨loaded, hloaded, h⟩ := bind_eq_ok.mp h
  obtain ⟨defaultError, hdefault, h⟩ := bind_eq_ok.mp h
  cases defaultError with
  | none => cases h
  | some defaultError =>
    obtain rfl := Except.ok.inj h
    have hfound := findSome?_loadErrorMap ex callerFqn
      (fun s hs path hpath => exists_classAt exceptions.located hs hpath) hloaded
    rw [Dict.get?_empty, Option.getD_none, List.findSome?_nil, Option.none_or] at hfound
    rw [← hfound, NexusErrorMapCollection.mapError]
    cases loaded.get? callerFqn <;> rfl

theorem remap_of_matches {s : ScopedExceptionSettings} (h : s.matchesError locate ex = true) :
    remap locate ex s = classAt locate s.target := by
  rw [remap, h, Bool.or_true, if_pos rfl]

theorem remap_of_not_matches {s : ScopedExceptionSettings} (h : s.matchesError locate ex = false) :
    remap locate ex s = if s.catchesAll then classAt locate s.target else none := by
  rw [remap, h, Bool.or_false]

/-- Up to the first match only the entries without errors count. -/
theorem findSome?_remap_of_match {entries : List ScopedExceptionSettings}
    {s : ScopedExceptionSettings}
    (h : entries.find? (·.matchesError locate ex) = some s) :
    ∃ rest, entries.findSome? (remap locate ex) =
      (shadowing locate ex entries).head?.or ((classAt locate s.target).or rest) := by
  obtain ⟨hs, before, after, rfl, hbefore⟩ := List.find?_eq_some_iff_append.mp h
  refine ⟨after.findSome? (remap locate ex), ?_⟩
  have htake : (before ++ s :: after).takeWhile (fun s => !s.matchesError locate ex) = before := by
    rw [List.takeWhile_append_of_pos hbefore, List.takeWhile_cons_of_neg (by simp [hs]),
      List.append_nil]
  have hshadow : before.findSome? (remap locate ex) =
      (shadowing locate ex (before ++ s :: after)).head? := by
    rw [shadowing, htake, ← List.head?_filterMap]
    exact congrArg List.head? (List.filterMap_congr fun s hs =>
      remap_of_not_matches (by simpa using hbefore s hs))
  rw [List.findSome?_append, hshadow, List.findSome?_cons, remap_of_matches hs]
  cases classAt locate s.target <;> rfl

theorem findSome?_remap_of_no_match {entries : List ScopedExceptionSettings}
    (h : entries.find? (·.matchesError locate ex) = none) :
    entries.findSome? (remap locate ex) =
      entries.findSome? fun s => if s.catchesAll then classAt locate s.target else none := by
  rw [← List.head?_filterMap, ← List.head?_filterMap]
  exact congrArg List.head? (List.filterMap_congr fun s hs =>
    remap_of_not_matches (by simpa using List.find?_eq_none.mp h s hs))

theorem findSome?_catchesAll (locate : Locate) {entries : List ScopedExceptionSettings}
    {s : ScopedExceptionSettings} (h : entries.find? (·.catchesAll) = some s) :
    ∃ rest, (entries.findSome? fun s => if s.catchesAll then classAt locate s.target else none) =
      (classAt locate s.target).or rest := by
  obtain ⟨hs, before, after, rfl, hbefore⟩ := List.find?_eq_some_iff_append.mp h
  refine ⟨after.findSome? fun s => if s.catchesAll then classAt locate s.target else none, ?_⟩
  have hnone : (before.findSome? fun s =>
      if s.catchesAll then classAt locate s.target else none) = none :=
    List.findSome?_eq_none_iff.mpr fun s hs => if_neg (by simpa using hbefore s hs)
  rw [List.findSome?_append, hnone, Option.none_or, List.findSome?_cons, if_pos hs]
  cases classAt locate s.target <;> rfl

theorem resolved_iff (globalDefault : PyClass) (entries : List ScopedExceptionSettings) :
    some ((entries.findSome? (remap locate ex)).getD globalDefault) =
        documentedTarget locate ex globalDefault entries ↔
      Unshadowed locate ex entries := by
  unfold documentedTarget Unshadowed
  cases hmatch : entries.find? (·.matchesError locate ex) with
  | some s =>
    obtain ⟨rest, hfound⟩ := findSome?_remap_of_match hmatch
    rw [hfound]
    cases htarget : classAt locate s.target with
    | none => simp [htarget]
    | some target =>
      cases (shadowing locate ex entries).head? with
      | none => simp [htarget]
      | some other => simp [htarget, eq_comm]
  | none =>
    rw [findSome?_remap_of_no_match hmatch]
    cases hall : entries.find? (·.catchesAll) with
    | some s =>
      obtain ⟨rest, hfound⟩ := findSome?_catchesAll locate hall
      rw [hfound]
      cases htarget : classAt locate s.target with
      | none => simp [htarget]
      | some target => simp [htarget]
    | none =>
      have hnone : (entries.findSome? fun s =>
          if s.catchesAll then classAt locate s.target else none) = none :=
        List.findSome?_eq_none_iff.mpr fun s hs =>
          if_neg (by simpa using List.find?_eq_none.mp hall s hs)
      rw [hnone]
      simp

end Resolution

/-! ### The documented resolution and the code's -/

/-- An exception is mapped as documented exactly if the documented entry of the caller's class has a
target that is located, and no entry without errors that stands before it remaps to another one. -/
theorem mapError_documented_iff {locate : Locate} {exceptions : RuntimeExceptionsSettings locate}
    {c : NexusErrorMapCollection} (h : getCache locate exceptions = .ok c) (ex : PyExc)
    (callerFqn : String) :
    some (c.mapError ex callerFqn) =
        documentedTarget locate ex c.globalDefault (ofCaller exceptions.scopedEntries callerFqn) ↔
      Unshadowed locate ex (ofCaller exceptions.scopedEntries callerFqn) := by
  rw [mapError_getCache h]
  exact resolved_iff ..

def timeoutError : PyClass := .extend "builtins.TimeoutError" [exception]

/-- The classes are located by their names. -/
def locateKnown : Locate := fun path =>
  .ok ([fatalNexusError, fatalCachingError, transientCachingError, cassandraError "Timeout",
    timeoutError].find? fun cls => cls.name = path)

/-- Entries in the order of `settings.toml`. -/
def shippedOrder : RuntimeExceptionsSettings locateKnown where
  globalDefault := fatalNexusError.name
  scopedEntries :=
    [⟨inputCacheFqn, ["cassandra.Timeout"], transientCachingError.name⟩,
     ⟨inputCacheFqn, [], fatalCachingError.name⟩]
  located := rfl

/-- The same with an entry of the application, which is merged after those of the framework. -/
def layered : RuntimeExceptionsSettings locateKnown where
  globalDefault := shippedOrder.globalDefault
  scopedEntries := shippedOrder.scopedEntries ++
    [⟨inputCacheFqn, ["builtins.TimeoutError"], transientCachingError.name⟩]
  located := rfl

theorem mapError_documented_shippedOrder : ∃ c, getCache locateKnown shippedOrder = .ok c ∧
    some (c.mapError (.raised (cassandraError "Timeout") "") inputCacheFqn) =
      documentedTarget locateKnown (.raised (cassandraError "Timeout") "") c.globalDefault
        (ofCaller shippedOrder.scopedEntries inputCacheFqn) := by
  have hcache : getCache locateKnown shippedOrder = .ok ⟨fatalNexusError,
      .ofList [(inputCacheFqn, [⟨some transientCachingError, [cassandraError "Timeout"]⟩,
        ⟨some fatalCachingError, []⟩])]⟩ := rfl
  refine ⟨_, hcache, (mapError_documented_iff hcache _ _).mpr ?_⟩
  exact ⟨transientCachingError, rfl, fun other hother => by cases hother⟩

/-- The entry of the application never remaps anything. -/
theorem layered_timeoutError_shadowed : ∃ c, getCache locateKnown layered = .ok c ∧
    c.mapError (.raised timeoutError "") inputCacheFqn = fatalCachingError ∧
    documentedTarget locateKnown (.raised timeoutError "") c.globalDefault
      (ofCaller layered.scopedEntries inputCacheFqn) = some transientCachingError := by
  refine ⟨_, rfl, ?_, ?_⟩
  · decide +kernel
  · decide +kernel

end NexusSdk.Core
