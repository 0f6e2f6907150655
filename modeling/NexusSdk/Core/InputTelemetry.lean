import NexusSdk.Core.ExitStatus
import NexusSdk.Core.TelemetryPaths

/-! `TelemetryRecorder.record`, which saves each input of a run in a task of its own, and the
telemetry of many runs in one container.  Wherever the tasks of the runs are interleaved, a blob is
replaced by none of another task or of another run. -/

namespace NexusSdk.Core

open Lib

/-! ### Serializers -/

/-- A format for each class of data. -/
structure Serializer (τ F : Type) where
  serializationFormats : Dict τ F

namespace Serializer

variable {τ F : Type} [DecidableEq τ]

/-- The error of a class without a format; `repr` is the `repr` of the class. -/
def getSerializationFormat (s : Serializer τ F) (repr : τ → String) (cls : τ) : Except PyExc F :=
  match s.serializationFormats.get? cls with
  | some format => .ok format
  | none => .error (.raised keyError (repr cls))

/-- Only one format is allowed for each class. -/
def withFormat (s : Serializer τ F) (target : τ) (format : F) : Serializer τ F :=
  ⟨s.serializationFormats.set target format⟩

/-- `TelemetrySerializerFactory.get_serializer` and `ResultSerializerFactory.get_serializer`: the
defaults, and the configured formats in their order. -/
def configured (default : Dict τ F) (formats : List (τ × F)) : Serializer τ F :=
  formats.foldl (fun s item => s.withFormat item.1 item.2) ⟨default⟩

end Serializer

/-! ### Recording -/

/-- The telemetry of a run: that of its recorders, and its inputs by their aliases. -/
structure RunTelemetry (Cls V τ F : Type) extends TelemetryRun Cls F where
  recorders : List Cls
  recorders_nodup : recorders.Nodup
  serializer : Serializer τ F
  /-- `type(data)` -/
  typeOf : V → τ
  repr : τ → String
  inputs : Dict String V
  inputs_plain : ∀ item ∈ inputs.items, Plain item.1.toList
  /-- `save_data_as_blob` of the input with an alias -/
  save : String → F → Except PyExc Unit

/-- An input that is given to the storage client. -/
structure InputWrite (V F : Type) where
  entityName : String
  entityToRecord : V
  format : F

/-- A blob of the telemetry of a run. -/
inductive TelemetryWrite (Cls V F : Type)
  | input (w : InputWrite V F)
  | chunk (w : ChunkWrite Cls F)

namespace RunTelemetry

variable {Cls V τ F : Type} [DecidableEq τ] (t : RunTelemetry Cls V τ F)

/-- The path of a recorded input. -/
def inputPath (entityName : String) : String :=
  osPathJoin t.telemetryBasePath ["telemetry_group=inputs", "entity_name=" ++ entityName, t.runId]

/-- `_record`, the task of an input. -/
def recordInput (entityName : String) (entityToRecord : V) :
    Traced (InputWrite V F) PyExc Unit :=
  match t.serializer.getSerializationFormat t.repr (t.typeOf entityToRecord) with
  | .error e => if e.isInstance keyError then pure () else .raise e
  | .ok format => do
    let _ ← .of (t.parseDataPath (t.inputPath entityName))
    let _ ← .emit ⟨entityName, entityToRecord, format⟩
    .of (t.save entityName format)

/-- The call of `record` with the inputs as keyword arguments, and its tasks. -/
def recordInputs : Except PyExc (List (Traced (InputWrite V F) PyExc Unit)) :=
  if t.inputs.contains "run_id" then
    .error (.raised typeError ("nexus_client_sdk.nexus.telemetry.recorder.TelemetryRecorder." ++
      "record() got multiple values for keyword argument 'run_id'"))
  else if t.inputs.contains "self" then
    .error (.raised typeError
      "TelemetryRecorder.record() got multiple values for argument 'self'")
  else .ok (t.inputs.items.map fun item => t.recordInput item.1 item.2)

/-- The blobs that the tasks of the inputs write. -/
def inputWrites : List (InputWrite V F) :=
  match t.recordInputs with
  | .ok tasks => tasks.flatMap Traced.events
  | .error _ => []

/-- All blobs that the run writes. -/
def telemetryWrites : List (TelemetryWrite Cls V F) :=
  t.inputWrites.map .input ++
    (t.recorders.flatMap fun cls => (t.record cls).events).map .chunk

def blobPathOf : TelemetryWrite Cls V F → String
  | .input w => t.inputPath w.entityName
  | .chunk w => t.blobPath w

/-- An input whose class has a format, and whose path is one. -/
def Recorded (w : InputWrite V F) : Prop :=
  t.inputs.get? w.entityName = some w.entityToRecord ∧
    t.serializer.serializationFormats.get? (t.typeOf w.entityToRecord) = some w.format ∧
    t.parseDataPath (t.inputPath w.entityName) = .ok ()

variable {t} {w w' : InputWrite V F}

/-! ### The inputs of a run -/

theorem events_recordInput (t : RunTelemetry Cls V τ F) (entityName : String)
    (entityToRecord : V) :
    (t.recordInput entityName entityToRecord).events =
      match t.serializer.serializationFormats.get? (t.typeOf entityToRecord),
        t.parseDataPath (t.inputPath entityName) with
      | some format, .ok _ => [⟨entityName, entityToRecord, format⟩]
      | _, _ => [] := by
  unfold recordInput Serializer.getSerializationFormat
  cases t.serializer.serializationFormats.get? (t.typeOf entityToRecord) with
  | none =>
    have hkey : (PyExc.raised keyError (t.repr (t.typeOf entityToRecord))).isInstance keyError :=
      PyClass.isSubclass_self keyError
    simp [hkey]
  | some format =>
    cases t.parseDataPath (t.inputPath entityName) with
    | error e => rfl
    | ok _ => rfl

theorem mem_recordInput {entityName : String} {entityToRecord : V} :
    w ∈ (t.recordInput entityName entityToRecord).events ↔
      w.entityName = entityName ∧ w.entityToRecord = entityToRecord ∧
        t.serializer.serializationFormats.get? (t.typeOf w.entityToRecord) = some w.format ∧
        t.parseDataPath (t.inputPath w.entityName) = .ok () := by
  obtain ⟨name, data, format⟩ := w
  rw [events_recordInput]
  constructor
  · intro h
    split at h
    · next format' _ hformat hpath =>
      obtain ⟨rfl, rfl, rfl⟩ := InputWrite.mk.inj (List.mem_singleton.mp h)
      exact ⟨rfl, rfl, hformat, hpath⟩
    · cases h
  · rintro ⟨rfl, rfl, hformat, hpath⟩
    rw [hformat, hpath]
    exact List.mem_singleton_self _

/-- Unless an alias is a parameter of `record`, exactly these inputs are written. -/
theorem mem_inputWrites (hself : t.inputs.contains "self" = false)
    (hrun : t.inputs.contains "run_id" = false) : w ∈ t.inputWrites ↔ t.Recorded w := by
  have htasks : t.recordInputs =
      .ok (t.inputs.items.map fun item => t.recordInput item.1 item.2) := by
    simp [recordInputs, hself, hrun]
  simp only [inputWrites, htasks, List.mem_flatMap, List.mem_map, Recorded]
  constructor
  · rintro ⟨_, ⟨item, hitem, rfl⟩, hw⟩
    obtain ⟨hname, hdata, hrest⟩ := mem_recordInput.mp hw
    exact ⟨Dict.mem_items_iff.mp (hname ▸ hdata ▸ hitem), hrest⟩
  · rintro ⟨hget, hrest⟩
    exact ⟨_, ⟨_, Dict.mem_items_iff.mpr hget, rfl⟩, mem_recordInput.mpr ⟨rfl, rfl, hrest⟩⟩

theorem recorded_of_mem (h : w ∈ t.inputWrites) : t.Recorded w := by
  cases hrun : t.inputs.contains "run_id" with
  | true => simp [inputWrites, recordInputs, hrun] at h
  | false =>
    cases hself : t.inputs.contains "self" with
    | true => simp [inputWrites, recordInputs, hrun, hself] at h
    | false => exact (mem_inputWrites hself hrun).mp h

theorem eq_of_entityName (hw : w ∈ t.inputWrites) (hw' : w' ∈ t.inputWrites)
    (h : w.entityName = w'.entityName) : w = w' := by
  obtain ⟨hdata, hformat, -⟩ := recorded_of_mem hw
  obtain ⟨hdata', hformat', -⟩ := recorded_of_mem hw'
  obtain ⟨name, data, format⟩ := w
  obtain ⟨name', data', format'⟩ := w'
  dsimp only at *
  subst h
  obtain rfl := Option.some.inj (hdata.symm.trans hdata')
  obtain rfl := Option.some.inj (hformat.symm.trans hformat')
  rfl

theorem plain_of_mem (h : w ∈ t.inputWrites) : Plain w.entityName.toList :=
  t.inputs_plain (w.entityName, w.entityToRecord) (Dict.mem_items_iff.mpr (recorded_of_mem h).1)

theorem entityNames_sublist (t : RunTelemetry Cls V τ F) (items : List (String × V)) :
    ((items.flatMap fun item => (t.recordInput item.1 item.2).events).map
      InputWrite.entityName).Sublist (items.map Prod.fst) := by
  induction items with
  | nil => exact List.Sublist.refl _
  | cons item rest ih =>
    rw [List.flatMap_cons, List.map_append, List.map_cons, events_recordInput]
    split
    · exact ih.cons_cons item.1
    · exact ih.cons item.1

theorem nodup_inputWrites (t : RunTelemetry Cls V τ F) : t.inputWrites.Nodup := by
  unfold inputWrites recordInputs
  split_ifs
  · exact List.nodup_nil
  · exact List.nodup_nil
  · refine List.Nodup.of_map InputWrite.entityName ?_
    simp only [List.flatMap_map]
    exact (entityNames_sublist t t.inputs.items).nodup t.inputs.nodup

theorem nodup_telemetryWrites (t : RunTelemetry Cls V τ F) : t.telemetryWrites.Nodup := by
  have hchunks : (t.recorders.flatMap fun cls => (t.record cls).events).Nodup :=
    TelemetryRun.nodup_writes t.recorders_nodup (List.Perm.refl _)
  refine List.nodup_append.mpr ⟨t.nodup_inputWrites.map fun _ _ => TelemetryWrite.input.inj,
    hchunks.map fun _ _ => TelemetryWrite.chunk.inj, fun x hx y hy hxy => ?_⟩
  obtain ⟨w, -, rfl⟩ := List.mem_map.mp hx
  obtain ⟨c, -, rfl⟩ := List.mem_map.mp hy
  cases hxy

/-! ### Paths -/

omit [DecidableEq τ] in
/-- The path of an input is that of a file named by the run id. -/
theorem toList_inputPath (hrun : ¬ IsAbsolute t.runId.toList) {entityName : String}
    (hname : '/' ∉ entityName.toList) :
    (t.inputPath entityName).toList =
      directory t.telemetryBasePath.toList ++
        ("telemetry_group=inputs/entity_name=".toList ++
          (entityName.toList ++ '/' :: t.runId.toList)) := by
  have hgroup : '/' ∉ "telemetry_group=inputs".toList := by simp
  have hentity : '/' ∉ ("entity_name=" ++ entityName).toList := by simpa using hname
  have hne : "telemetry_group=inputs".toList ≠ [] := by simp
  have hne' : ("entity_name=" ++ entityName).toList ≠ [] := by simp
  show (osPathJoin _ _).toList = _
  rw [osPathJoin, String.toList_ofList]
  show joinPath (joinPath (joinPath _ _) _) _ = _
  rw [joinPath_of_relative _ hrun, directory_joinPath hne' hentity, directory_joinPath hne hgroup]
  simp

omit [DecidableEq τ] in
/-- The path of a chunk ends with its output name. -/
theorem toList_chunkPath {c : ChunkWrite Cls F} (hrelative : ¬ IsAbsolute c.telemetryPath.toList)
    (hname : '/' ∉ (t.outputName c).toList) :
    ∃ inside, (t.blobPath c).toList =
      directory t.telemetryBasePath.toList ++ ("telemetry_group=user".toList ++
        (inside ++ '/' :: (t.outputName c).toList)) := by
  have hplace : ¬ IsAbsolute (t.place c) :=
    not_isAbsolute_joinPath hrelative (not_isAbsolute_of_not_mem hname)
  have hjoin : t.place c = directory c.telemetryPath.toList ++ (t.outputName c).toList :=
    joinPath_of_relative _ (not_isAbsolute_of_not_mem hname)
  rw [TelemetryRun.blobPath_of_relative hplace, hjoin, TelemetryRun.inDirectoryOf]
  -- the directory ends with a separator: that of its segments, or that of the recorder
  by_cases hnil : c.telemetryPath.toList = []
  · refine ⟨("/recorder_class=" ++ t.aliasOf c.recorder).toList, ?_⟩
    rw [hnil, directory_nil]
    simp
  · obtain ⟨d, hd⟩ := exists_directory_concat hnil
    refine ⟨("/recorder_class=" ++ t.aliasOf c.recorder ++ "/").toList ++ d, ?_⟩
    rw [hd]
    simp

/-! ### Runs that share a container -/

section Runs

variable {R : Type} (runs : R → RunTelemetry Cls V τ F)

/-- The blobs that the runs write, each in its own time. -/
def Interleaved (ids : List R) (writes : List (R × TelemetryWrite Cls V F)) : Prop :=
  writes.Perm (ids.flatMap fun r => (runs r).telemetryWrites.map (Prod.mk r))

def pathIn (x : R × TelemetryWrite Cls V F) : String := (runs x.1).blobPathOf x.2

/-- The container after the writes: a blob replaces the one of its path. -/
def containerOf (writes : List (R × TelemetryWrite Cls V F)) :
    Dict String (R × TelemetryWrite Cls V F) :=
  .ofList (writes.map fun x => (pathIn runs x, x))

/-- Runs of one configuration, for different requests.  The chunks of each are kept apart from one
another and under the base path. -/
structure Sharing (base : String) (getOutputName : F → String → String) (ids : List R) : Prop where
  distinct : (ids.map fun r => (runs r).runId).Nodup
  plain : ∀ r ∈ ids, Plain (runs r).runId.toList
  base : ∀ r ∈ ids, (runs r).telemetryBasePath = base
  output : ∀ r ∈ ids, (runs r).getOutputName = getOutputName
  relative : ∀ r ∈ ids, ∀ cls ∈ (runs r).recorders, ∀ c ∈ ((runs r).record cls).events,
    ¬ IsAbsolute c.telemetryPath.toList
  kept : ∀ r ∈ ids,
    (runs r).Kept ((runs r).recorders.flatMap fun cls => ((runs r).record cls).events)

/-- The formats name files, and keep names apart. -/
structure NamesFiles (getOutputName : F → String → String) : Prop where
  apart : ∀ f f' name name', Plain name.toList → Plain name'.toList →
    getOutputName f name = getOutputName f' name' → name = name'
  file : ∀ f name, Plain name.toList → '/' ∉ (getOutputName f name).toList

variable {runs} {base : String} {getOutputName : F → String → String} {ids : List R}
  {writes : List (R × TelemetryWrite Cls V F)} {r r' : R}

theorem plain_chunkName {id : String} (h : Plain id.toList) (i : Nat) :
    Plain (id ++ "_" ++ toString i).toList := by
  intro c hc
  rw [String.toList_append, String.toList_append] at hc
  rcases List.mem_append.mp hc with hc | hc
  · rcases List.mem_append.mp hc with hc | hc
    · exact h c hc
    · obtain rfl : c = '_' := List.mem_singleton.mp hc
      decide
  · have hdigit := isDigit_of_mem_toString hc
    intro hmem
    simp only [List.mem_cons, List.not_mem_nil, or_false] at hmem
    rcases hmem with rfl | rfl | rfl | rfl | rfl <;> simp at hdigit

theorem chunkName_inj {id id' : String} {i i' : Nat}
    (h : id ++ "_" ++ toString i = id' ++ "_" ++ toString i') : id = id' := by
  have hnot (n : Nat) : '_' ∉ (toString n).toList := by
    intro hmem
    have hdigit := isDigit_of_mem_toString hmem
    simp at hdigit
  have hlist := congrArg String.toList h
  simp only [String.toList_append, List.append_assoc] at hlist
  exact String.toList_inj.mp (eq_of_append_cons_last (hnot i) (hnot i') hlist).1

section Members

variable (hshared : Sharing runs base getOutputName ids)

include hshared

/-- The base path, and a group below it. -/
theorem Sharing.path_input (hr : r ∈ ids) {w : InputWrite V F} (hw : w ∈ (runs r).inputWrites) :
    ((runs r).inputPath w.entityName).toList = directory base.toList ++
      ("telemetry_group=inputs/entity_name=".toList ++
        (w.entityName.toList ++ '/' :: (runs r).runId.toList)) := by
  have hname : '/' ∉ w.entityName.toList := fun h => absurd (plain_of_mem hw _ h) (by decide)
  have hid : '/' ∉ (runs r).runId.toList := fun h => absurd (hshared.plain r hr _ h) (by decide)
  rw [toList_inputPath (not_isAbsolute_of_not_mem hid) hname, hshared.base r hr]

omit [DecidableEq τ] in
theorem Sharing.path_chunk (hfiles : NamesFiles getOutputName) (hr : r ∈ ids) {cls : Cls}
    (hcls : cls ∈ (runs r).recorders)
    {c : ChunkWrite Cls F} (hc : c ∈ ((runs r).record cls).events) :
    ∃ inside, ((runs r).blobPath c).toList = directory base.toList ++
        ("telemetry_group=user".toList ++
          (inside ++ '/' :: ((runs r).outputName c).toList)) ∧
      (runs r).outputName c =
        getOutputName c.format ((runs r).runId ++ "_" ++ toString c.chunkIndex) ∧
      '/' ∉ ((runs r).outputName c).toList := by
  have houtput : (runs r).outputName c =
      getOutputName c.format ((runs r).runId ++ "_" ++ toString c.chunkIndex) := by
    rw [TelemetryRun.outputName, hshared.output r hr]
  have hname : '/' ∉ ((runs r).outputName c).toList := by
    rw [houtput]
    exact hfiles.file _ _ (plain_chunkName (hshared.plain r hr) c.chunkIndex)
  obtain ⟨inside, hpath⟩ := toList_chunkPath (hshared.relative r hr cls hcls c hc) hname
  rw [hshared.base r hr] at hpath
  exact ⟨inside, hpath, houtput, hname⟩

/-- A path tells the run and the blob. -/
theorem Sharing.eq_of_path (hfiles : NamesFiles getOutputName) (hr : r ∈ ids) (hr' : r' ∈ ids)
    {w w' : TelemetryWrite Cls V F} (hw : w ∈ (runs r).telemetryWrites)
    (hw' : w' ∈ (runs r').telemetryWrites)
    (h : (runs r).blobPathOf w = (runs r').blobPathOf w') : r = r' ∧ w = w' := by
  have hrun (hid : (runs r).runId = (runs r').runId) : r = r' :=
    List.inj_on_of_nodup_map hshared.distinct hr hr' hid
  have hlist := congrArg String.toList h
  rcases List.mem_append.mp hw with hin | hin <;> rcases List.mem_append.mp hw' with hin' | hin' <;>
    obtain ⟨b, hb, rfl⟩ := List.mem_map.mp hin <;> obtain ⟨b', hb', rfl⟩ := List.mem_map.mp hin'
  · -- two inputs: the alias is followed by the run id
    change ((runs r).inputPath _).toList = ((runs r').inputPath _).toList at hlist
    rw [hshared.path_input hr hb, hshared.path_input hr' hb',
      List.append_cancel_left_eq, List.append_cancel_left_eq] at hlist
    obtain ⟨hname, hid⟩ := eq_of_append_cons
      (fun h => absurd (plain_of_mem hb _ h) (by decide))
      (fun h => absurd (plain_of_mem hb' _ h) (by decide)) hlist
    obtain rfl := hrun (String.toList_inj.mp hid)
    exact ⟨rfl, congrArg _ (eq_of_entityName hb hb' (String.toList_inj.mp hname))⟩
  · -- an input and a chunk are in different groups
    obtain ⟨cls, hcls, hb'⟩ := List.mem_flatMap.mp hb'
    obtain ⟨inside, hpath, -, -⟩ := hshared.path_chunk hfiles hr' hcls hb'
    change ((runs r).inputPath _).toList = ((runs r').blobPath _).toList at hlist
    rw [hshared.path_input hr hb, hpath, List.append_cancel_left_eq] at hlist
    simp at hlist
  · obtain ⟨cls, hcls, hb⟩ := List.mem_flatMap.mp hb
    obtain ⟨inside, hpath, -, -⟩ := hshared.path_chunk hfiles hr hcls hb
    change ((runs r).blobPath _).toList = ((runs r').inputPath _).toList at hlist
    rw [hshared.path_input hr' hb', hpath, List.append_cancel_left_eq] at hlist
    simp at hlist
  · -- two chunks: the output name has the run id
    obtain ⟨cls, hcls, hc⟩ := List.mem_flatMap.mp hb
    obtain ⟨cls', hcls', hc'⟩ := List.mem_flatMap.mp hb'
    obtain ⟨inside, hpath, houtput, hname⟩ := hshared.path_chunk hfiles hr hcls hc
    obtain ⟨inside', hpath', houtput', hname'⟩ := hshared.path_chunk hfiles hr' hcls' hc'
    change ((runs r).blobPath _).toList = ((runs r').blobPath _).toList at hlist
    rw [hpath, hpath', List.append_cancel_left_eq, List.append_cancel_left_eq] at hlist
    have hfile := String.toList_inj.mp (eq_of_append_cons_last hname hname' hlist).2
    rw [houtput, houtput'] at hfile
    have hchunk := hfiles.apart _ _ _ _ (plain_chunkName (hshared.plain r hr) _)
      (plain_chunkName (hshared.plain r' hr') _) hfile
    obtain rfl := hrun (chunkName_inj hchunk)
    exact ⟨rfl, congrArg _ (List.inj_on_of_nodup_map (hshared.kept r hr).distinct hb hb' h)⟩

theorem Sharing.liesUnder (hr : r ∈ ids) {w : TelemetryWrite Cls V F}
    (hw : w ∈ (runs r).telemetryWrites) :
    LiesUnder base.toList ((runs r).blobPathOf w).toList := by
  rw [← hshared.base r hr]
  rcases List.mem_append.mp hw with hw | hw <;> obtain ⟨b, hb, rfl⟩ := List.mem_map.mp hw
  · have hid : ¬ IsAbsolute (runs r).runId.toList :=
      not_isAbsolute_of_not_mem fun h => absurd (hshared.plain r hr _ h) (by decide)
    have hgroup : ¬ IsAbsolute "telemetry_group=inputs".toList := by simp [IsAbsolute]
    have hentity : ¬ IsAbsolute ("entity_name=" ++ b.entityName).toList := by simp [IsAbsolute]
    show LiesUnder _ (osPathJoin _ _).toList
    rw [osPathJoin, String.toList_ofList]
    show LiesUnder _ (joinPath (joinPath (joinPath _ _) _) _)
    rw [joinPath_assoc, joinPath_assoc]
    exact liesUnder_joinPath (not_isAbsolute_joinPath hgroup (not_isAbsolute_joinPath hentity hid))
  · exact (hshared.kept r hr).underBase b hb

end Members

theorem mem_interleaved (hwrites : Interleaved runs ids writes)
    {x : R × TelemetryWrite Cls V F} :
    x ∈ writes ↔ x.1 ∈ ids ∧ x.2 ∈ (runs x.1).telemetryWrites := by
  rw [hwrites.mem_iff, List.mem_flatMap]
  constructor
  · rintro ⟨r, hr, hx⟩
    obtain ⟨w, hw, rfl⟩ := List.mem_map.mp hx
    exact ⟨hr, hw⟩
  · rintro ⟨hr, hw⟩
    exact ⟨x.1, hr, List.mem_map_of_mem hw⟩

theorem nodup_of_interleaved (hids : ids.Nodup) (hwrites : Interleaved runs ids writes) :
    writes.Nodup := by
  refine hwrites.nodup_iff.mpr (List.nodup_flatMap.mpr ⟨fun r _ => ?_, ?_⟩)
  · exact (runs r).nodup_telemetryWrites.map fun _ _ h => (Prod.mk.inj h).2
  · refine hids.imp fun hne x hx hx' => hne ?_
    obtain ⟨_, -, rfl⟩ := List.mem_map.mp hx
    obtain ⟨_, -, h⟩ := List.mem_map.mp hx'
    exact (Prod.mk.inj h).1.symm

theorem nodup_paths (hfiles : NamesFiles getOutputName)
    (hshared : Sharing runs base getOutputName ids) (hwrites : Interleaved runs ids writes) :
    (writes.map (pathIn runs)).Nodup := by
  refine List.Nodup.map_on (fun x hx y hy hpath => ?_)
    (nodup_of_interleaved (.of_map _ hshared.distinct) hwrites)
  obtain ⟨hr, hw⟩ := (mem_interleaved hwrites).mp hx
  obtain ⟨hr', hw'⟩ := (mem_interleaved hwrites).mp hy
  obtain ⟨hrun, hwrite⟩ := hshared.eq_of_path hfiles hr hr' hw hw' hpath
  exact Prod.ext hrun hwrite

/-- The container has exactly what the runs write. -/
theorem get?_containerOf (hfiles : NamesFiles getOutputName)
    (hshared : Sharing runs base getOutputName ids) (hwrites : Interleaved runs ids writes)
    {path : String} {x : R × TelemetryWrite Cls V F} :
    (containerOf runs writes).get? path = some x ↔
      (x.1 ∈ ids ∧ x.2 ∈ (runs x.1).telemetryWrites) ∧ pathIn runs x = path := by
  rw [← mem_interleaved hwrites]
  constructor
  · intro h
    obtain ⟨y, hy, heq⟩ := List.mem_map.mp (Dict.mem_of_mem_ofList (Dict.mem_items_iff.mpr h))
    obtain ⟨rfl, rfl⟩ := Prod.mk.inj heq
    exact ⟨hy, rfl⟩
  · rintro ⟨hx, rfl⟩
    refine Dict.get?_update_of_mem ?_ (List.mem_map_of_mem hx)
    rw [List.map_map]
    exact nodup_paths hfiles hshared hwrites

/-- Runs for different requests keep each other's telemetry: however they are interleaved, the
container has exactly what the runs write, each blob under its own path below the base path, and
the inputs that it has of a run are those with a format. -/
theorem runs_keep_telemetry (hfiles : NamesFiles getOutputName)
    (hshared : Sharing runs base getOutputName ids) (hwrites : Interleaved runs ids writes) :
    (∀ path x, (containerOf runs writes).get? path = some x ↔
      (x.1 ∈ ids ∧ x.2 ∈ (runs x.1).telemetryWrites) ∧ pathIn runs x = path) ∧
    (∀ x ∈ writes, LiesUnder base.toList (pathIn runs x).toList) ∧
    ∀ r ∈ ids, (runs r).inputs.contains "self" = false →
      (runs r).inputs.contains "run_id" = false → ∀ w, (runs r).Recorded w ↔
        (containerOf runs writes).get? ((runs r).inputPath w.entityName) = some (r, .input w) := by
  refine ⟨fun path x => get?_containerOf hfiles hshared hwrites, fun x hx => ?_,
    fun r hr hself hrun w => ?_⟩
  · obtain ⟨hr, hw⟩ := (mem_interleaved hwrites).mp hx
    exact hshared.liesUnder hr hw
  · rw [get?_containerOf hfiles hshared hwrites, ← mem_inputWrites hself hrun]
    constructor
    · intro hw
      exact ⟨⟨hr, List.mem_append_left _ (List.mem_map_of_mem hw)⟩, rfl⟩
    · rintro ⟨⟨-, hw⟩, -⟩
      rcases List.mem_append.mp hw with hw | hw <;> obtain ⟨w', hw', heq⟩ := List.mem_map.mp hw
      · obtain rfl := TelemetryWrite.input.inj heq
        exact hw'
      · cases heq

end Runs

end RunTelemetry

/-- A run with one input and a report of one chunk. -/
def stockRun (id : String) : RunTelemetry Unit Nat Unit Unit where
  className _ := "StockReport"
  className_plain _ := by simp [Plain]
  text := Cache.lettersCase
  text_plain := keepsPlain_lettersCase
  telemetryBasePath := "telemetry"
  runId := id
  compute _ := .ok (some ⟨[⟨.ok (), .ok ()⟩], .ok (), []⟩)
  getOutputName _ name := name ++ ".parquet"
  parseDataPath _ := .ok ()
  recorders := [()]
  recorders_nodup := List.nodup_singleton ()
  serializer := .configured .empty [((), ())]
  typeOf _ := ()
  repr _ := "<class 'dict'>"
  inputs := .ofList [("stock", 7)]
  inputs_plain item hitem := by
    obtain rfl := List.mem_singleton.mp (Dict.mem_of_mem_ofList hitem)
    simp [Plain]
  save _ _ := .ok ()

theorem namesFiles_stockRun : RunTelemetry.NamesFiles (stockRun "a").getOutputName where
  apart _ _ _ _ _ _ h := by
    have hlist := congrArg String.toList h
    simp only [stockRun, String.toList_append] at hlist
    exact String.toList_inj.mp (List.append_cancel_right hlist)
  file _ name h := by
    have hname : '/' ∉ name.toList := fun hc => absurd (h _ hc) (by decide)
    simpa [stockRun] using hname

theorem sharing_stockRuns :
    RunTelemetry.Sharing stockRun "telemetry" (stockRun "a").getOutputName ["a", "b"] := by
  have hevents (id : String) : ((stockRun id).record ()).events = [⟨(), "", (), 0⟩] := rfl
  have hplace (id : String) (hid : id ∈ ["a", "b"]) :
      ¬ IsAbsolute ((stockRun id).place ⟨(), "", (), 0⟩) := by
    rcases List.mem_pair.mp hid with rfl | rfl <;> decide +kernel
  refine ⟨by decide, fun id hid => ?_, fun _ _ => rfl, fun _ _ => rfl, fun id _ _ _ c hc => ?_,
    fun id hid => ⟨?_, fun c hc => ?_⟩⟩
  · rcases List.mem_pair.mp hid with rfl | rfl <;> simp [stockRun, Plain]
  · rw [hevents] at hc
    obtain rfl := List.mem_singleton.mp hc
    simp [IsAbsolute]
  · exact List.nodup_singleton _
  · obtain ⟨_, -, hc⟩ := List.mem_flatMap.mp hc
    rw [hevents] at hc
    obtain rfl := List.mem_singleton.mp hc
    exact TelemetryRun.liesUnder_blobPath (hplace id hid)

/-- The blobs of two requests. -/
def stockWrites : List (String × TelemetryWrite Unit Nat Unit) :=
  ["b", "a"].flatMap fun id => (stockRun id).telemetryWrites.map (Prod.mk id)

theorem stockWrites_perm :
    stockWrites.Perm
      (["a", "b"].flatMap fun id => (stockRun id).telemetryWrites.map (Prod.mk id)) :=
  (List.Perm.swap "a" "b" []).flatMap_right _

theorem runs_keep_telemetry_stockRuns :
    (∀ path x, (RunTelemetry.containerOf stockRun stockWrites).get? path = some x ↔
      (x.1 ∈ ["a", "b"] ∧ x.2 ∈ (stockRun x.1).telemetryWrites) ∧
        RunTelemetry.pathIn stockRun x = path) ∧
    (∀ x ∈ stockWrites, LiesUnder "telemetry".toList (RunTelemetry.pathIn stockRun x).toList) ∧
    ∀ id ∈ ["a", "b"], (stockRun id).inputs.contains "self" = false →
      (stockRun id).inputs.contains "run_id" = false → ∀ w, (stockRun id).Recorded w ↔
        (RunTelemetry.containerOf stockRun stockWrites).get?
          ((stockRun id).inputPath w.entityName) = some (id, .input w) :=
  RunTelemetry.runs_keep_telemetry namesFiles_stockRun sharing_stockRuns
    (stockWrites_perm)

example : stockWrites.map (RunTelemetry.pathIn stockRun) =
    ["telemetry/telemetry_group=inputs/entity_name=stock/b",
      "telemetry/telemetry_group=user/recorder_class=stockreport/b_0.parquet",
      "telemetry/telemetry_group=inputs/entity_name=stock/a",
      "telemetry/telemetry_group=user/recorder_class=stockreport/a_0.parquet"] := by
  decide +kernel

namespace RunTelemetry

variable {Cls V τ F : Type} [DecidableEq τ] {t : RunTelemetry Cls V τ F}

/-! ### Failed recordings -/

/-- `asyncio.wait` and `exception()` do not raise for a task with this outcome. -/
def Contained (x : Except PyExc Unit) : Prop :=
  ∀ e, x = .error e → leavesLoop e = false ∧ e.isCancelled = false

theorem contained_recordInput (hpath : ∀ path, Contained (t.parseDataPath path))
    (hsave : ∀ name format, Contained (t.save name format)) (entityName : String)
    (entityToRecord : V) : Contained (t.recordInput entityName entityToRecord).outcome := by
  intro e he
  unfold recordInput Serializer.getSerializationFormat at he
  cases hformat : t.serializer.serializationFormats.get? (t.typeOf entityToRecord) with
  | none =>
    have hkey : (PyExc.raised keyError (t.repr (t.typeOf entityToRecord))).isInstance keyError :=
      PyClass.isSubclass_self keyError
    simp [hformat, hkey] at he
  | some format =>
    rw [hformat] at he
    simp only [Traced.outcome_bind, Traced.outcome_of] at he
    cases hparse : t.parseDataPath (t.inputPath entityName) with
    | error e' =>
      rw [hparse] at he
      obtain rfl : e' = e := Except.error.inj he
      exact hpath _ e' hparse
    | ok _ =>
      rw [hparse] at he
      exact hsave _ _ e he

theorem record_of_contained {tasks : List (Except PyExc Unit)} (h : ∀ x ∈ tasks, Contained x) :
    record tasks = .of (.ok ()) := by
  have hall (f : Except PyExc Unit → Except Exit Unit) (hf : ∀ x ∈ tasks, f x = .ok ()) :
      firstError (tasks.map f) = .ok () := by
    clear h
    induction tasks with
    | nil => rfl
    | cons x rest ih =>
      rw [List.map_cons, hf x List.mem_cons_self]
      exact ih fun y hy => hf y (List.mem_cons_of_mem x hy)
  have hwait : firstError (tasks.map tearsDown) = .ok () := by
    refine hall _ fun x hx => ?_
    cases x with
    | ok _ => rfl
    | error e => simp [tearsDown, (h _ hx e rfl).1]
  have hexception : firstError (tasks.map takeException) = .ok () := by
    refine hall _ fun x hx => ?_
    cases x with
    | ok _ => rfl
    | error e => simp [takeException, (h _ hx e rfl).2]
  rw [record, awaitTasks, hwait, Traced.of_ok_bind, hexception]

/-- Whatever the tasks of the inputs do and in whichever order they end, the run goes on and ends as
one without input telemetry, unless an alias is a parameter of `record`. -/
theorem failed_inputs_contained (t : RunTelemetry Cls V τ F) (env : Stages)
    (hself : t.inputs.contains "self" = false) (hrun : t.inputs.contains "run_id" = false)
    (hpath : ∀ path, Contained (t.parseDataPath path))
    (hsave : ∀ name format, Contained (t.save name format)) :
    ∃ tasks, t.recordInputs = .ok tasks ∧ tasks.length = t.inputs.items.length ∧
      ∀ outcomes, outcomes.Perm (tasks.map Traced.outcome) →
        activate { env with inputTelemetry := true, recordInputs := .ok outcomes } =
          activate { env with inputTelemetry := false } := by
  refine ⟨t.inputs.items.map fun item => t.recordInput item.1 item.2, ?_, by simp, ?_⟩
  · simp [recordInputs, hself, hrun]
  · intro outcomes horder
    have hcontained : ∀ x ∈ outcomes, Contained x := by
      intro x hx
      obtain ⟨task, htask, rfl⟩ := List.mem_map.mp (horder.mem_iff.mp hx)
      obtain ⟨item, -, rfl⟩ := List.mem_map.mp htask
      exact contained_recordInput hpath hsave item.1 item.2
    have htelemetry : recordTelemetry
        { env with inputTelemetry := true, recordInputs := .ok outcomes } =
          recordTelemetry { env with inputTelemetry := false } := by
      funext ex
      have hinputs : stage (.ok outcomes) >>= record = .of (.ok ()) :=
        record_of_contained hcontained
      rw [recordTelemetry, recordTelemetry]
      simp only [hinputs]
      rfl
    unfold activate runEntered runAlgorithm
    rw [htelemetry]
    rfl

/-- The run of which no file can be saved. -/
def unsavedRun : RunTelemetry Unit Nat Unit Unit :=
  { stockRun "a" with save := fun _ _ => .error (.raised valueError "Unsupported data type") }

theorem failed_inputs_contained_unsavedRun :
    ∃ tasks, unsavedRun.recordInputs = .ok tasks ∧
      tasks.map Traced.outcome = [.error (.raised valueError "Unsupported data type")] ∧
      ∀ outcomes, outcomes.Perm (tasks.map Traced.outcome) →
        activate { smoothRun with inputTelemetry := true, recordInputs := .ok outcomes } =
          activate { smoothRun with inputTelemetry := false } := by
  have hsave (name : String) (format : Unit) : Contained (unsavedRun.save name format) := by
    intro e he
    obtain rfl := Except.error.inj he
    decide
  obtain ⟨tasks, hrecord, -, hall⟩ := failed_inputs_contained unsavedRun smoothRun
    (by decide +kernel) (by decide +kernel) (fun _ _ h => by cases h) hsave
  have houtcomes : (unsavedRun.recordInputs.map fun tasks => tasks.map Traced.outcome) =
      .ok [.error (.raised valueError "Unsupported data type")] := rfl
  rw [hrecord] at houtcomes
  exact ⟨tasks, hrecord, Except.ok.inj houtcomes, hall⟩

end RunTelemetry

end NexusSdk.Core
