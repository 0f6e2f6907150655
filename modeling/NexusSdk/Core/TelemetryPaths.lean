import NexusSdk.Cache.Alias
import NexusSdk.Core.ConfigExtensions
import NexusSdk.Lib.PosixPath
import NexusSdk.Lib.Text
import NexusSdk.Lib.Traced

/-! The blobs that the recorders of a run write.  The path of a blob is joined from the base path,
the alias of the class of the recorder, the segments that the recorder chose, and a name made of the
run id and the index of the chunk. -/

namespace NexusSdk.Core

open Lib

/-! ### Telemetry -/

structure UserTelemetryPathSegment where
  segment : String
  segmentHeader : String

/-- `__str__`. -/
def UserTelemetryPathSegment.str (s : UserTelemetryPathSegment) : String :=
  s.segmentHeader ++ "=" ++ s.segment

/-- A chunk: what `get_serialization_format` finds for it, and what saving it returns. -/
structure TelemetryChunk (F : Type) where
  format : Except PyExc F
  saved : Except PyExc Unit

/-- `exhausted` is how the iterator ends after its chunks. -/
structure UserTelemetry (F : Type) where
  telemetry : List (TelemetryChunk F)
  exhausted : Except PyExc Unit
  telemetryPathSegments : List UserTelemetryPathSegment

def UserTelemetry.telemetryPath {F : Type} (t : UserTelemetry F) : String :=
  if t.telemetryPathSegments.length = 0 then ""
  else String.intercalate "/" (t.telemetryPathSegments.map UserTelemetryPathSegment.str)

/-- `UserTelemetryRecorder.alias`, by the name of the class. -/
def recorderAlias (text : Cache.Stringcase) (name : String) : String :=
  text.snakecase (.ofList (Cache.underscored (text.lower name).toList))

/-- The case conversions make no dots, separators or wildcards. -/
structure KeepsPlain (text : Cache.Stringcase) : Prop where
  lower : ∀ s, Plain s.toList → Plain (text.lower s).toList
  snakecase : ∀ s, Plain s.toList → Plain (text.snakecase s).toList

/-! ### Recording -/

/-- The recorder classes of an application, whose names are identifiers, and what a run gives
them. -/
structure TelemetryRun (Cls F : Type) where
  className : Cls → String
  className_plain : ∀ cls, Plain (className cls).toList
  text : Cache.Stringcase
  text_plain : KeepsPlain text
  telemetryBasePath : String
  runId : String
  compute : Cls → Except PyExc (Option (UserTelemetry F))
  getOutputName : F → String → String
  parseDataPath : String → Except PyExc Unit

/-- A chunk that is given to the storage client. -/
structure ChunkWrite (Cls F : Type) where
  recorder : Cls
  telemetryPath : String
  format : F
  chunkIndex : Nat

namespace TelemetryRun

variable {Cls F : Type} (env : TelemetryRun Cls F)

def aliasOf (cls : Cls) : String := recorderAlias env.text (env.className cls)

def outputName (w : ChunkWrite Cls F) : String :=
  env.getOutputName w.format (env.runId ++ "_" ++ toString w.chunkIndex)

def blobPath (w : ChunkWrite Cls F) : String :=
  osPathJoin env.telemetryBasePath ["telemetry_group=user",
    "recorder_class=" ++ env.aliasOf w.recorder, w.telemetryPath, env.outputName w]

/-- The loop of `record`, from the index of the next chunk. -/
def recordChunks (cls : Cls) (telemetryPath : String) (exhausted : Except PyExc Unit) :
    Nat → List (TelemetryChunk F) → Traced (ChunkWrite Cls F) PyExc Unit
  | _, [] => .of exhausted
  | chunkIndex, chunk :: rest => do
    let chunkSerializer ← .of chunk.format
    let write := ⟨cls, telemetryPath, chunkSerializer, chunkIndex⟩
    let _ ← .of (env.parseDataPath (env.blobPath write))
    let _ ← .emit write
    let _ ← .of chunk.saved
    recordChunks cls telemetryPath exhausted (chunkIndex + 1) rest

def record (cls : Cls) : Traced (ChunkWrite Cls F) PyExc Unit := do
  match ← .of (env.compute cls) with
  | none => return
  | some telemetry =>
    env.recordChunks cls telemetry.telemetryPath telemetry.exhausted 0 telemetry.telemetry

/-- The chunks that the recorders of these classes write, each in its own time. -/
def Writes (classes : List Cls) (writes : List (ChunkWrite Cls F)) : Prop :=
  writes.Perm (classes.flatMap fun cls => (env.record cls).events)

/-- Every blob has a path of its own, which is under the base path. -/
structure Kept (writes : List (ChunkWrite Cls F)) : Prop where
  distinct : (writes.map env.blobPath).Nodup
  underBase : ∀ w ∈ writes, LiesUnder env.telemetryBasePath.toList (env.blobPath w).toList

/-- The container after the writes: a blob replaces the one of its path. -/
def container (writes : List (ChunkWrite Cls F)) : Dict String (ChunkWrite Cls F) :=
  .ofList (writes.map fun w => (env.blobPath w, w))

/-! ### Places -/

/-- Where a recorder puts a chunk: its telemetry path and the output name. -/
def place (w : ChunkWrite Cls F) : List Char :=
  joinPath w.telemetryPath.toList (env.outputName w).toList

/-- The directory of the recorders with an alias, and a place in it. -/
def inDirectoryOf (recorder : String) (place : List Char) : List Char :=
  directory env.telemetryBasePath.toList ++
    ("telemetry_group=user/recorder_class=" ++ recorder ++ "/").toList ++ place

/-- The places keep the chunks apart.  A place that begins at the root lies under the base path by
itself, and is neither the place of another chunk nor one in the directory of a recorder.  In one
directory different recorders, and different formats of a recorder, use different places. -/
structure Apart (writes : List (ChunkWrite Cls F)) : Prop where
  underBase : ∀ w ∈ writes, IsAbsolute (env.place w) →
    LiesUnder env.telemetryBasePath.toList (env.place w)
  absolute : ∀ w ∈ writes, ∀ w' ∈ writes, w ≠ w' → IsAbsolute (env.place w) →
    env.place w ≠ env.place w' ∧
      (¬ IsAbsolute (env.place w') →
        env.place w ≠ env.inDirectoryOf (env.aliasOf w'.recorder) (env.place w'))
  directory : ∀ w ∈ writes, ∀ w' ∈ writes, env.aliasOf w.recorder = env.aliasOf w'.recorder →
    w.recorder ≠ w'.recorder ∨ w.format ≠ w'.format → env.place w ≠ env.place w'

/-! ### The writes of a run -/

variable {env} {cls : Cls} {w w' : ChunkWrite Cls F} {classes : List Cls}
  {writes : List (ChunkWrite Cls F)}

theorem recordChunks_cons (telemetryPath : String) (exhausted : Except PyExc Unit) (i : Nat)
    (chunk : TelemetryChunk F) (rest : List (TelemetryChunk F)) :
    (env.recordChunks cls telemetryPath exhausted i (chunk :: rest)).events = [] ∨
      ∃ f later,
        (env.recordChunks cls telemetryPath exhausted i (chunk :: rest)).events =
          ⟨cls, telemetryPath, f, i⟩ :: later ∧
        (later = [] ∨
          later = (env.recordChunks cls telemetryPath exhausted (i + 1) rest).events) := by
  rw [recordChunks]
  cases chunk.format with
  | error e => exact .inl rfl
  | ok f =>
    rw [Traced.of_ok_bind]
    dsimp only
    cases env.parseDataPath (env.blobPath ⟨cls, telemetryPath, f, i⟩) with
    | error e => exact .inl rfl
    | ok _ =>
      refine .inr ⟨f, ?_⟩
      cases chunk.saved with
      | error e => exact ⟨[], rfl, .inl rfl⟩
      | ok _ => exact ⟨_, rfl, .inr rfl⟩

/-- The chunks that are written are the first ones, in their order. -/
theorem indices_recordChunks (env : TelemetryRun Cls F) (cls : Cls) (telemetryPath : String)
    (exhausted : Except PyExc Unit) (i : Nat) (chunks : List (TelemetryChunk F)) :
    (env.recordChunks cls telemetryPath exhausted i chunks).events.map ChunkWrite.chunkIndex <+:
      List.range' i chunks.length := by
  induction chunks generalizing i with
  | nil => exact List.nil_prefix
  | cons chunk rest ih =>
    rcases recordChunks_cons telemetryPath exhausted i chunk rest with
      hnone | ⟨f, later, hevents, hlater⟩
    · rw [hnone]
      exact List.nil_prefix
    · rw [hevents, List.map_cons, List.length_cons, List.range'_succ, List.cons_prefix_cons]
      refine ⟨rfl, ?_⟩
      rcases hlater with rfl | rfl
      · exact List.nil_prefix
      · exact ih (i + 1)

theorem mem_recordChunks {telemetryPath : String} {exhausted : Except PyExc Unit} {i : Nat}
    {chunks : List (TelemetryChunk F)}
    (h : w ∈ (env.recordChunks cls telemetryPath exhausted i chunks).events) :
    w.recorder = cls ∧ w.telemetryPath = telemetryPath := by
  induction chunks generalizing i with
  | nil => cases h
  | cons chunk rest ih =>
    rcases recordChunks_cons telemetryPath exhausted i chunk rest with
      hnone | ⟨f, later, hevents, hlater⟩
    · rw [hnone] at h
      cases h
    · rw [hevents] at h
      rcases List.mem_cons.mp h with rfl | h
      · exact ⟨rfl, rfl⟩
      · rcases hlater with rfl | rfl
        · cases h
        · exact ih h

theorem nodup_indices_record (cls : Cls) :
    ((env.record cls).events.map ChunkWrite.chunkIndex).Nodup := by
  rw [record]
  cases env.compute cls with
  | error e => exact List.nodup_nil
  | ok telemetry? =>
    cases telemetry? with
    | none => exact List.nodup_nil
    | some telemetry =>
      have hindices := indices_recordChunks env cls telemetry.telemetryPath telemetry.exhausted 0
        telemetry.telemetry
      exact hindices.sublist.nodup List.nodup_range'

theorem mem_record (h : w ∈ (env.record cls).events) :
    w.recorder = cls ∧
      ∃ t, env.compute cls = .ok (some t) ∧ w.telemetryPath = t.telemetryPath := by
  rw [record] at h
  cases hcompute : env.compute cls with
  | error e =>
    rw [hcompute] at h
    cases h
  | ok telemetry? =>
    rw [hcompute] at h
    cases telemetry? with
    | none => cases h
    | some t =>
      obtain ⟨hrecorder, hpath⟩ := mem_recordChunks h
      exact ⟨hrecorder, t, rfl, hpath⟩

theorem mem_writes (hwrites : env.Writes classes writes) (h : w ∈ writes) :
    w ∈ (env.record w.recorder).events := by
  obtain ⟨cls, -, hw⟩ := List.mem_flatMap.mp (hwrites.mem_iff.mp h)
  rwa [(mem_record hw).1]

theorem nodup_writes (hclasses : classes.Nodup) (hwrites : env.Writes classes writes) :
    writes.Nodup := by
  refine hwrites.nodup_iff.mpr (List.nodup_flatMap.mpr ⟨fun cls _ => ?_, ?_⟩)
  · exact .of_map _ (nodup_indices_record cls)
  · refine hclasses.imp fun hne w hw hw' => hne ?_
    rw [← (mem_record hw).1, (mem_record hw').1]

/-- A recorder and an index determine a chunk. -/
theorem eq_of_index (hwrites : env.Writes classes writes) (hw : w ∈ writes) (hw' : w' ∈ writes)
    (hrecorder : w.recorder = w'.recorder) (hindex : w.chunkIndex = w'.chunkIndex) : w = w' := by
  have hmem := mem_writes hwrites hw
  rw [hrecorder] at hmem
  exact List.inj_on_of_nodup_map (nodup_indices_record w'.recorder) hmem (mem_writes hwrites hw')
    hindex

theorem telemetryPath_eq (hwrites : env.Writes classes writes) (hw : w ∈ writes)
    (hw' : w' ∈ writes) (hrecorder : w.recorder = w'.recorder) :
    w.telemetryPath = w'.telemetryPath := by
  obtain ⟨-, t, ht, hpath⟩ := mem_record (mem_writes hwrites hw)
  obtain ⟨-, t', ht', hpath'⟩ := mem_record (mem_writes hwrites hw')
  rw [hrecorder, ht', Except.ok.injEq, Option.some.injEq] at ht
  rw [hpath, hpath', ht]

/-! ### The paths of blobs -/

theorem mem_of_mem_underscored {s : List Char} {c : Char} (h : c ∈ Cache.underscored s) :
    c = '_' ∨ c ∈ s := by
  cases s with
  | nil => cases h
  | cons d s =>
    rcases List.mem_cons.mp h with rfl | h
    · exact .inr List.mem_cons_self
    · obtain ⟨e, he, hc⟩ := List.mem_flatMap.mp h
      split at hc
      · rcases List.mem_cons.mp hc with rfl | hc
        · exact .inl rfl
        · exact .inr (List.mem_cons_of_mem d (List.mem_singleton.mp hc ▸ he))
      · exact .inr (List.mem_cons_of_mem d (List.mem_singleton.mp hc ▸ he))

theorem plain_aliasOf (cls : Cls) : Plain (env.aliasOf cls).toList := by
  refine env.text_plain.snakecase _ fun c hc => ?_
  rw [String.toList_ofList] at hc
  rcases mem_of_mem_underscored hc with rfl | hc
  · decide
  · exact env.text_plain.lower _ (env.className_plain cls) c hc

theorem separator_not_mem_aliasOf (cls : Cls) : '/' ∉ (env.aliasOf cls).toList :=
  fun h => absurd (plain_aliasOf cls _ h) (by decide)

/-- The blob of a chunk is joined from the directory of the recorder and the place. -/
theorem toList_blobPath (w : ChunkWrite Cls F) :
    (env.blobPath w).toList =
      joinPath (joinPath (joinPath env.telemetryBasePath.toList "telemetry_group=user".toList)
        ("recorder_class=" ++ env.aliasOf w.recorder).toList) (env.place w) := by
  rw [blobPath, osPathJoin, String.toList_ofList, place, ← joinPath_assoc]
  rfl

theorem blobPath_of_absolute (h : IsAbsolute (env.place w)) :
    (env.blobPath w).toList = env.place w := by
  rw [toList_blobPath, joinPath_of_absolute _ h]

theorem blobPath_of_relative (h : ¬ IsAbsolute (env.place w)) :
    (env.blobPath w).toList = env.inDirectoryOf (env.aliasOf w.recorder) (env.place w) := by
  have hgroup : '/' ∉ "telemetry_group=user".toList := by simp
  have hclass : '/' ∉ ("recorder_class=" ++ env.aliasOf w.recorder).toList := by
    simpa using separator_not_mem_aliasOf w.recorder
  have hne : "telemetry_group=user".toList ≠ [] := by simp
  have hne' : ("recorder_class=" ++ env.aliasOf w.recorder).toList ≠ [] := by simp
  rw [toList_blobPath, joinPath_of_relative _ h, directory_joinPath hne' hclass,
    directory_joinPath hne hgroup, inDirectoryOf]
  simp

theorem inDirectoryOf_inj {recorder recorder' : String} {p p' : List Char}
    (hrecorder : '/' ∉ recorder.toList) (hrecorder' : '/' ∉ recorder'.toList)
    (h : env.inDirectoryOf recorder p = env.inDirectoryOf recorder' p') :
    recorder = recorder' ∧ p = p' := by
  simp only [inDirectoryOf, String.toList_append, List.append_assoc,
    List.append_cancel_left_eq] at h
  obtain ⟨hlist, hplace⟩ := eq_of_append_cons hrecorder hrecorder' h
  exact ⟨String.toList_inj.mp hlist, hplace⟩

theorem liesUnder_blobPath (h : ¬ IsAbsolute (env.place w)) :
    LiesUnder env.telemetryBasePath.toList (env.blobPath w).toList := by
  have hgroup : ¬ IsAbsolute "telemetry_group=user".toList := by simp [IsAbsolute]
  have hclass : ¬ IsAbsolute ("recorder_class=" ++ env.aliasOf w.recorder).toList := by
    simp [IsAbsolute]
  rw [toList_blobPath, joinPath_assoc, joinPath_assoc]
  exact liesUnder_joinPath (not_isAbsolute_joinPath hgroup (not_isAbsolute_joinPath hclass h))

/-- Output names keep the chunks of one recorder and format apart. -/
theorem eq_of_place (houtput : ∀ f, (env.getOutputName f).Injective)
    (hwrites : env.Writes classes writes) (hw : w ∈ writes) (hw' : w' ∈ writes)
    (hrecorder : w.recorder = w'.recorder) (hformat : w.format = w'.format)
    (hrelative : ¬ IsAbsolute (env.place w)) (hplace : env.place w = env.place w') : w = w' := by
  have hname : ¬ IsAbsolute (env.outputName w).toList := mt isAbsolute_of_joinPath hrelative
  have hname' : ¬ IsAbsolute (env.outputName w').toList := by
    rw [hplace] at hrelative
    exact mt isAbsolute_of_joinPath hrelative
  rw [place, place, telemetryPath_eq hwrites hw hw' hrecorder] at hplace
  have houtputs : env.outputName w = env.outputName w' :=
    String.toList_inj.mp (joinPath_inj hname hname' hplace)
  rw [outputName, outputName, hformat] at houtputs
  have hindex : toString w.chunkIndex = toString w'.chunkIndex := by
    have hlist := congrArg String.toList (houtput _ houtputs)
    simp only [String.toList_append, List.append_assoc, List.append_cancel_left_eq] at hlist
    exact String.toList_inj.mp hlist
  exact eq_of_index hwrites hw hw' hrecorder (toString_nat_inj hindex)

/-- Chunks of one place in directories of one alias share their path. -/
theorem blobPath_eq (halias : env.aliasOf w.recorder = env.aliasOf w'.recorder)
    (hplace : env.place w = env.place w') : env.blobPath w = env.blobPath w' := by
  refine String.toList_inj.mp ?_
  by_cases h : IsAbsolute (env.place w)
  · rw [blobPath_of_absolute h, blobPath_of_absolute (hplace ▸ h), hplace]
  · rw [blobPath_of_relative h, blobPath_of_relative (hplace ▸ h), halias, hplace]

theorem Kept.apart (h : env.Kept writes) : env.Apart writes := by
  have hinj : ∀ w ∈ writes, ∀ w' ∈ writes, (env.blobPath w).toList = (env.blobPath w').toList →
      w = w' := fun w hw w' hw' heq =>
    List.inj_on_of_nodup_map h.distinct hw hw' (String.toList_inj.mp heq)
  refine ⟨fun w hw habs => ?_,
    fun w hw w' hw' hne habs => ⟨fun hplace => ?_, fun hrel hplace => ?_⟩,
    fun w hw w' hw' halias hdiff hplace => ?_⟩
  · have hunder := h.underBase w hw
    rwa [blobPath_of_absolute habs] at hunder
  · refine hne (hinj w hw w' hw' ?_)
    rw [blobPath_of_absolute habs, blobPath_of_absolute (hplace ▸ habs), hplace]
  · refine hne (hinj w hw w' hw' ?_)
    rw [blobPath_of_absolute habs, blobPath_of_relative hrel, hplace]
  · have heq : w = w' := hinj w hw w' hw' (congrArg String.toList (blobPath_eq halias hplace))
    subst heq
    exact hdiff.elim (fun h => h rfl) fun h => h rfl

theorem Apart.kept (h : env.Apart writes) (houtput : ∀ f, (env.getOutputName f).Injective)
    (hclasses : classes.Nodup) (hwrites : env.Writes classes writes) : env.Kept writes := by
  constructor
  · refine List.Nodup.map_on (fun w hw w' hw' heq => ?_) (nodup_writes hclasses hwrites)
    have hlist := congrArg String.toList heq
    by_contra hne
    by_cases habs : IsAbsolute (env.place w)
    · rw [blobPath_of_absolute habs] at hlist
      obtain ⟨hplace, hdirectory⟩ := h.absolute w hw w' hw' hne habs
      by_cases habs' : IsAbsolute (env.place w')
      · exact hplace (hlist.trans (blobPath_of_absolute habs'))
      · exact hdirectory habs' (hlist.trans (blobPath_of_relative habs'))
    · rw [blobPath_of_relative habs] at hlist
      by_cases habs' : IsAbsolute (env.place w')
      · rw [blobPath_of_absolute habs'] at hlist
        exact (h.absolute w' hw' w hw (Ne.symm hne) habs').2 habs hlist.symm
      · rw [blobPath_of_relative habs'] at hlist
        obtain ⟨halias, hplace⟩ := inDirectoryOf_inj (separator_not_mem_aliasOf _)
          (separator_not_mem_aliasOf _) hlist
        have hsame : ¬ (w.recorder ≠ w'.recorder ∨ w.format ≠ w'.format) := fun hdiff =>
          h.directory w hw w' hw' halias hdiff hplace
        rw [not_or, not_not, not_not] at hsame
        exact hne (eq_of_place houtput hwrites hw hw' hsame.1 hsame.2 habs hplace)
  · intro w hw
    by_cases habs : IsAbsolute (env.place w)
    · rw [blobPath_of_absolute habs]
      exact h.underBase w hw habs
    · exact liesUnder_blobPath habs

end TelemetryRun

/-- The telemetry of a run is kept exactly if its places keep the chunks apart. -/
theorem telemetry_kept_iff {Cls F : Type} (env : TelemetryRun Cls F)
    (houtput : ∀ f, (env.getOutputName f).Injective) {classes : List Cls}
    (hclasses : classes.Nodup) {writes : List (ChunkWrite Cls F)}
    (hwrites : env.Writes classes writes) : env.Kept writes ↔ env.Apart writes :=
  ⟨fun h => h.apart, fun h => h.kept houtput hclasses hwrites⟩

/-! ### Two recorders -/

theorem plain_toLower {c : Char} (h : c ∉ ['.', '/', '*', '?', '[']) :
    c.toLower ∉ ['.', '/', '*', '?', '['] := by
  have hsmall : ∀ d ∈ ['.', '/', '*', '?', '['], d.toNat < 97 := by simp
  rcases toNat_toLower c with ⟨hlow, -, heq⟩ | heq
  · intro hmem
    have hlower := hsmall _ hmem
    omega
  · rwa [heq]

theorem keepsPlain_lettersCase : KeepsPlain Cache.lettersCase where
  lower s hs := by
    intro c hc
    rw [Cache.lettersCase, String.toList_ofList] at hc
    obtain ⟨d, hd, rfl⟩ := List.mem_map.mp hc
    exact plain_toLower (hs d hd)
  snakecase s hs := hs

/-- The names of two classes, the first of which is fixed. -/
def reportNames (second : String) (cls : Bool) : String :=
  if cls then second else "CostReport"

theorem plain_reportNames {second : String} (h : Plain second.toList) (cls : Bool) :
    Plain (reportNames second cls).toList := by
  cases cls with
  | false => simp [reportNames, Plain]
  | true => exact h

/-- Two recorders that each put a chunk in the directory of the same segment. -/
def reportRun (second : String) (hsecond : Plain second.toList) (header : String) :
    TelemetryRun Bool Unit where
  className := reportNames second
  className_plain := plain_reportNames hsecond
  text := Cache.lettersCase
  text_plain := keepsPlain_lettersCase
  telemetryBasePath := "telemetry"
  runId := "run"
  compute _ := .ok (some ⟨[⟨.ok (), .ok ()⟩], .ok (), [⟨"costs", header⟩]⟩)
  getOutputName _ name := name ++ ".parquet"
  parseDataPath _ := .ok ()

/-- The chunks that they write. -/
def firstChunks (header : String) : List (ChunkWrite Bool Unit) :=
  [false, true].map fun cls => ⟨cls, header ++ "=" ++ "costs", (), 0⟩

theorem writes_reportRun {second : String} (hsecond : Plain second.toList) (header : String) :
    (reportRun second hsecond header).Writes [false, true] (firstChunks header) :=
  List.Perm.refl _

theorem output_reportRun {second : String} (hsecond : Plain second.toList) (header : String)
    (f : Unit) : ((reportRun second hsecond header).getOutputName f).Injective := by
  intro a b h
  have hlist := congrArg String.toList (show a ++ ".parquet" = b ++ ".parquet" from h)
  rw [String.toList_append, String.toList_append] at hlist
  exact String.toList_inj.mp (List.append_cancel_right hlist)

/-- A segment that does not begin at the root, and aliases that differ. -/
theorem apart_reportRun {second : String} (hsecond : Plain second.toList) {header : String}
    (hheader : ¬ IsAbsolute (header ++ "=" ++ "costs").toList)
    (haliases : recorderAlias Cache.lettersCase "CostReport" ≠
      recorderAlias Cache.lettersCase second) :
    (reportRun second hsecond header).Apart (firstChunks header) := by
  have hrelative : ∀ w ∈ firstChunks header,
      ¬ IsAbsolute ((reportRun second hsecond header).place w) := by
    intro w hw
    refine not_isAbsolute_joinPath ?_ (by simp [IsAbsolute, reportRun, TelemetryRun.outputName])
    obtain ⟨cls, -, rfl⟩ := List.mem_map.mp hw
    exact hheader
  refine ⟨fun w hw habs => absurd habs (hrelative w hw),
    fun w hw _ _ _ habs => absurd habs (hrelative w hw), fun w hw w' hw' halias hdiff => ?_⟩
  have hrecorder : w.recorder ≠ w'.recorder := hdiff.resolve_right fun hformat => hformat rfl
  rcases List.mem_pair.mp hw with rfl | rfl
  · rcases List.mem_pair.mp hw' with rfl | rfl
    · exact absurd rfl hrecorder
    · exact absurd halias haliases
  · rcases List.mem_pair.mp hw' with rfl | rfl
    · exact absurd halias.symm haliases
    · exact absurd rfl hrecorder

/-- Two reports of one run. -/
theorem telemetry_kept_reports :
    (reportRun "StockReport" (by simp [Plain]) "analysis").Kept (firstChunks "analysis") :=
  (telemetry_kept_iff _ (output_reportRun _ _) (show [false, true].Nodup by decide)
    (writes_reportRun _ _)).mpr
    (apart_reportRun _ (by simp [IsAbsolute]) (by decide +kernel))

/-- The names of the classes differ in case. -/
def sameReports : TelemetryRun Bool Unit :=
  reportRun "Costreport" (by simp [Plain]) "analysis"

/-- The header of the segment begins at the root. -/
def rootedReports : TelemetryRun Bool Unit :=
  reportRun "StockReport" (by simp [Plain]) "/analysis"

theorem paths_sameReports : (firstChunks "analysis").map sameReports.blobPath =
    ["telemetry/telemetry_group=user/recorder_class=costreport/analysis=costs/run_0.parquet",
      "telemetry/telemetry_group=user/recorder_class=costreport/analysis=costs/run_0.parquet"] := by
  decide +kernel

theorem paths_rootedReports : (firstChunks "/analysis").map rootedReports.blobPath =
    ["/analysis=costs/run_0.parquet", "/analysis=costs/run_0.parquet"] := by
  decide +kernel

/-- Classes whose names differ in case share their path, and a segment that begins at the root takes
the chunks of both classes to one path outside the base path. -/
theorem report_overwritten :
    (∀ f, (sameReports.getOutputName f).Injective) ∧
      sameReports.Writes [false, true] (firstChunks "analysis") ∧
      ¬ ((firstChunks "analysis").map sameReports.blobPath).Nodup ∧
      (∀ f, (rootedReports.getOutputName f).Injective) ∧
      rootedReports.Writes [false, true] (firstChunks "/analysis") ∧
      ¬ ((firstChunks "/analysis").map rootedReports.blobPath).Nodup ∧
      ¬ ∀ w ∈ firstChunks "/analysis",
        LiesUnder rootedReports.telemetryBasePath.toList (rootedReports.blobPath w).toList := by
  refine ⟨output_reportRun _ _, writes_reportRun _ _, fun h => ?_, output_reportRun _ _,
    writes_reportRun _ _, fun h => ?_, fun h => ?_⟩
  · rw [paths_sameReports] at h
    exact absurd h (by simp)
  · rw [paths_rootedReports] at h
    exact absurd h (by simp)
  · have hpath : ∀ path ∈ (firstChunks "/analysis").map rootedReports.blobPath,
        LiesUnder rootedReports.telemetryBasePath.toList path.toList := by
      intro path hmem
      obtain ⟨w, hw, rfl⟩ := List.mem_map.mp hmem
      exact h w hw
    rw [paths_rootedReports] at hpath
    have hbase := (hpath _ List.mem_cons_self).2 (by simp [IsAbsolute])
    exact absurd hbase (by simp [IsAbsolute, rootedReports, reportRun])

end NexusSdk.Core
