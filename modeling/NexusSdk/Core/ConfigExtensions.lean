import NexusSdk.Core.AppBootstrap
import NexusSdk.Lib.Glob
import NexusSdk.Lib.Overlay

/-! `load_config_extension` over a directory of extension files.  The pattern of an alias ends in a
wildcard, and the files are merged in the order in which `glob` enumerates them. -/

namespace NexusSdk.Core

open Lib

/-! ### Aliases -/

/-- No dot, no path separator and no wildcard of `glob`. -/
def Plain (s : List Char) : Prop := ∀ c ∈ s, c ∉ ['.', '/', '*', '?', '[']

/-- An alias, as the name of an algorithm class has it. -/
structure AlgorithmAlias where
  text : String
  plain : Plain text.toList

/-! ### Extension files -/

/-- A file or directory below the extension directory, by the directories on its path and a name
`settings.<alias>.toml` or `settings.<alias>.<suffix>.toml`; `owner` is the alias. -/
structure ExtensionFile (F : Type) where
  directories : List String
  owner : String
  suffixText : Option String
  owner_undotted : '.' ∉ owner.toList
  isFile : Bool
  content : F

namespace ExtensionFile

variable {F : Type} (f : ExtensionFile F)

def dottedSuffix : String :=
  match f.suffixText with
  | none => ""
  | some text => "." ++ text

def name : String := "settings." ++ f.owner ++ f.dottedSuffix ++ ".toml"

/-- `**` goes into no hidden directory. -/
def visible : Bool := f.directories.all fun d => !d.startsWith "."

/-- `glob` enumerates the path for the pattern of the extension, and it is a file. -/
def loadedFor (extensionName : String) : Bool :=
  f.visible && fnmatch f.name ("settings." ++ extensionName ++ "*.toml") && f.isFile

/-- A file whose alias begins with `a`. -/
def HasPrefix (a : AlgorithmAlias) : Prop :=
  f.visible = true ∧ f.isFile = true ∧ a.text.toList <+: f.owner.toList

instance (a : AlgorithmAlias) : Decidable (f.HasPrefix a) :=
  inferInstanceAs (Decidable (_ ∧ _ ∧ _))

end ExtensionFile

variable {F O X κ ν : Type}

/-- The files for an extension, in the order in which `glob` enumerates the directory. -/
def globbed (listing : List (ExtensionFile F)) (extensionName : String) : List F :=
  (listing.filter (·.loadedFor extensionName)).map ExtensionFile.content

/-- The settings after `load_config_extension`, from the settings `s`. -/
def settingsAfter (V : Overlay (Settings O X) F κ ν) (listing : List (ExtensionFile F))
    (s : Settings O X) (extensionName : String) : Settings O X :=
  ({ default := s
     matchingConfigurations := globbed listing
     settingsLoader := V.load : NexusRuntimeConfiguration O X F }.loadConfigExtension
    extensionName).default

/-- The files that are merged for an alias: those whose alias begins with it. -/
def merged (listing : List (ExtensionFile F)) (a : AlgorithmAlias) : List (ExtensionFile F) :=
  if a.text = "" then [] else listing.filter fun f => f.HasPrefix a

/-- The settings depend only on the files of the alias itself, and not on their order. -/
def Isolated (V : Overlay (Settings O X) F κ ν) (s : Settings O X) (a : AlgorithmAlias) : Prop :=
  ∀ listing listing' : List (ExtensionFile F),
    (listing.filter fun f => f.owner = a.text).Perm (listing'.filter fun f => f.owner = a.text) →
    ∀ k, V.read (settingsAfter V listing s a.text) k =
      V.read (settingsAfter V listing' s a.text) k

/-! ### The pattern of an alias -/

theorem literal_of_plain {s : List Char} (h : Plain s) : Literal s := fun c hc => by
  have hplain := h c hc
  simp only [List.mem_cons, not_or] at hplain
  exact ⟨hplain.2.2.1, hplain.2.2.2.1⟩

theorem tokens_pattern (a : AlgorithmAlias) :
    ("settings." ++ a.text ++ "*.toml").toList.map GlobToken.ofChar =
      ("settings.".toList ++ a.text.toList).map .lit ++ .star :: ".toml".toList.map .lit := by
  have hstart : Literal "settings.".toList := by simp [Literal]
  have hend : Literal ".toml".toList := by simp [Literal]
  have hstar : "*.toml".toList = '*' :: ".toml".toList := by simp
  rw [String.toList_append, String.toList_append, List.map_append,
    map_ofChar (hstart.append (literal_of_plain a.plain)), hstar, List.map_cons, map_ofChar hend]
  rfl

/-- A text without dots that begins a text with a dotted end begins what is before the dot. -/
theorem prefix_of_prefix_append {w s t : List Char} (hw : '.' ∉ w) (ht : ∀ c ∈ t.head?, c = '.')
    (h : w <+: s ++ t) : w <+: s := by
  rcases List.prefix_or_prefix_of_prefix h (List.prefix_append s t) with h' | ⟨r, rfl⟩
  · exact h'
  · cases r with
    | nil => rw [List.append_nil]
    | cons c r =>
      cases t with
      | nil => simpa using h
      | cons d t =>
        obtain rfl := ht d rfl
        obtain ⟨rfl, -⟩ := List.cons_prefix_cons.mp ((List.prefix_append_right_inj s).mp h)
        exact absurd (by simp) hw

namespace ExtensionFile

variable (f : ExtensionFile F)

theorem head_dottedSuffix : ∀ c ∈ f.dottedSuffix.toList.head?, c = '.' := by
  intro c hc
  unfold dottedSuffix at hc
  split at hc
  · cases hc
  · rw [String.toList_append] at hc
    exact (Option.some.inj hc).symm

theorem toList_name : f.name.toList =
    "settings.".toList ++ (f.owner.toList ++ f.dottedSuffix.toList ++ ".toml".toList) := by
  simp only [name, String.toList_append, List.append_assoc]

/-- The pattern of an alias matches the files whose alias begins with it. -/
theorem fnmatch_name (a : AlgorithmAlias) :
    fnmatch f.name ("settings." ++ a.text ++ "*.toml") = true ↔
      a.text.toList <+: f.owner.toList := by
  rw [fnmatch, tokens_pattern, globMatch_lit_star_lit, toList_name]
  constructor
  · rintro ⟨mid, h⟩
    rw [List.append_assoc "settings.".toList, ← List.append_assoc a.text.toList] at h
    have hprefix : a.text.toList ++ mid = f.owner.toList ++ f.dottedSuffix.toList :=
      (List.append_cancel_right (List.append_cancel_left h)).symm
    refine prefix_of_prefix_append (fun hdot => ?_) f.head_dottedSuffix ⟨mid, hprefix⟩
    exact a.plain '.' hdot List.mem_cons_self
  · rintro ⟨rest, h⟩
    exact ⟨rest ++ f.dottedSuffix.toList, by simp only [← h, List.append_assoc]⟩

theorem loadedFor_iff (a : AlgorithmAlias) : f.loadedFor a.text = true ↔ f.HasPrefix a := by
  rw [loadedFor, Bool.and_eq_true, Bool.and_eq_true, fnmatch_name, and_assoc,
    and_comm (b := _ = true)]
  rfl

end ExtensionFile

theorem globbed_eq (listing : List (ExtensionFile F)) {a : AlgorithmAlias} (ha : a.text ≠ "") :
    globbed listing a.text = (merged listing a).map ExtensionFile.content := by
  rw [globbed, merged, if_neg ha]
  refine congrArg (List.map _) (List.filter_congr fun f _ => ?_)
  rw [Bool.eq_iff_iff, f.loadedFor_iff a, decide_eq_true_eq]

/-! ### What a file does -/

variable (V : Overlay (Settings O X) F κ ν) (s : Settings O X) (a : AlgorithmAlias)

theorem settingsAfter_eq (listing : List (ExtensionFile F)) :
    settingsAfter V listing s a.text =
      (V.comap ExtensionFile.content).loadAll s (merged listing a) := by
  unfold settingsAfter NexusRuntimeConfiguration.loadConfigExtension
  by_cases ha : a.text = ""
  · rw [if_pos ha, merged, if_pos ha]
    rfl
  · rw [if_neg ha]
    show (globbed listing a.text).foldl V.load s = _
    rw [globbed_eq listing ha]
    exact V.loadAll_map s ExtensionFile.content (merged listing a)

variable {a}

theorem merged_perm {listing listing' : List (ExtensionFile F)} (h : listing'.Perm listing) :
    (merged listing' a).Perm (merged listing a) := by
  unfold merged
  split
  · exact .nil
  · exact h.filter _

/-- Every order of the merged files is that of an enumeration of the directory. -/
theorem exists_listing {listing l : List (ExtensionFile F)} (h : l.Perm (merged listing a)) :
    ∃ listing' : List (ExtensionFile F), listing'.Perm listing ∧ merged listing' a = l := by
  unfold merged at h ⊢
  by_cases ha : a.text = ""
  · rw [if_pos ha] at h
    exact ⟨listing, .refl _, by rw [if_pos ha, h.eq_nil]⟩
  · rw [if_neg ha] at h
    let others := listing.filter fun f => !decide (f.HasPrefix a)
    refine ⟨l ++ others, (h.append_right others).trans (List.filter_append_perm _ listing), ?_⟩
    rw [if_neg ha, List.filter_append, List.filter_eq_self.mpr fun f hf =>
      (List.mem_filter.mp (h.mem_iff.mp hf)).2]
    have hothers : others.filter (fun f => decide (f.HasPrefix a)) = [] := by
      rw [List.filter_eq_nil_iff]
      intro f hf
      simpa using (List.mem_filter.mp hf).2
    rw [hothers, List.append_nil]

variable (a)

/-- The settings after an extension was loaded have each key from the last of the files whose alias
begins with the extension's alias, in the order of the enumeration, that has the key.  They depend
on no other file, and they are the same for every order exactly if no two of these files give a key
different values. -/
theorem config_extension_by_prefix :
    (∀ listing k, V.read (settingsAfter V listing s a.text) k =
      ((merged listing a).reverse.findSome? fun f => V.keys f.content k).or (V.read s k)) ∧
    (∀ listing listing', merged listing a = merged listing' a →
      settingsAfter V listing s a.text = settingsAfter V listing' s a.text) ∧
    ∀ listing, (∀ listing', listing'.Perm listing → ∀ k,
        V.read (settingsAfter V listing' s a.text) k =
          V.read (settingsAfter V listing s a.text) k) ↔
      (V.comap ExtensionFile.content).Compatible (merged listing a) := by
  refine ⟨fun listing k => ?_, fun listing listing' h => ?_, fun listing => ?_⟩
  · rw [settingsAfter_eq]
    exact (V.comap ExtensionFile.content).read_loadAll s (merged listing a) k
  · rw [settingsAfter_eq, settingsAfter_eq, h]
  · simp only [settingsAfter_eq]
    constructor
    · intro h
      refine (Overlay.read_perm_iff (V := V.comap ExtensionFile.content) s).mp fun l hl k => ?_
      obtain ⟨listing', hperm, rfl⟩ := exists_listing hl
      exact h listing' hperm k
    · intro h listing' hperm k
      exact h.read_perm s (merged_perm hperm) k

/-! ### A file of another algorithm -/

/-- Settings of numbers by name, over which a file lays its own. -/
def flatOverlay :
    Overlay (Settings Nat (String → Option Nat)) (List (String × Nat)) String Nat where
  load s f := { s with custom := fun k => (f.lookup k).or (s.custom k) }
  read s k := s.custom k
  keys f k := f.lookup k
  read_load _ _ _ := rfl

def baseSettings : Settings Nat (String → Option Nat) :=
  { sampleSettings "" ⟨"", "", ""⟩ with custom := fun _ => none }

def forecast : AlgorithmAlias := ⟨"forecast", by simp [Plain]⟩

/-- A file of the weekly forecast, and two files of the forecast itself. -/
def weeklyFile : ExtensionFile (List (String × Nat)) :=
  ⟨[], "forecastweekly", none, by simp, true, [("horizon", 7)]⟩

def forecastFile (suffix : String) (horizon : Nat) : ExtensionFile (List (String × Nat)) :=
  ⟨[], "forecast", some suffix, by simp, true, [("horizon", horizon)]⟩

theorem config_extension_by_prefix_forecast :
    let listing := [weeklyFile, forecastFile "a" 7]
    settingsAfter flatOverlay listing baseSettings forecast.text =
        settingsAfter flatOverlay ({ weeklyFile with isFile := false } :: listing) baseSettings
          forecast.text ∧
      ∀ listing', listing'.Perm listing → ∀ k,
        flatOverlay.read (settingsAfter flatOverlay listing' baseSettings forecast.text) k =
          flatOverlay.read (settingsAfter flatOverlay listing baseSettings forecast.text) k := by
  intro listing
  obtain ⟨-, honly, horder⟩ := config_extension_by_prefix flatOverlay baseSettings forecast
  refine ⟨honly _ _ rfl, (horder _).mpr fun f hf g hg k v w hv hw => ?_⟩
  have hcontent : ∀ f ∈ listing, f.content = [("horizon", 7)] := by
    simp [listing, weeklyFile, forecastFile]
  have hmem : ∀ f ∈ merged listing forecast, f ∈ listing := fun f hf =>
    (List.mem_filter.mp hf).1
  have heq : flatOverlay.keys f.content k = flatOverlay.keys g.content k := by
    rw [hcontent f (hmem f hf), hcontent g (hmem g hg)]
  exact Option.some.inj (hv.symm.trans (heq.trans hw))

/-- The file of the weekly forecast is merged for the forecast, and of two files of the forecast the
last one wins. -/
theorem weekly_file_merged :
    let after := fun listing => settingsAfter flatOverlay listing baseSettings forecast.text
    flatOverlay.read (after [weeklyFile]) "horizon" = some 7 ∧
      flatOverlay.read (after []) "horizon" = none ∧
      flatOverlay.read (after [forecastFile "a" 1, forecastFile "b" 2]) "horizon" = some 2 ∧
      flatOverlay.read (after [forecastFile "b" 2, forecastFile "a" 1]) "horizon" = some 1 ∧
      ¬ Isolated flatOverlay baseSettings forecast := by
  intro after
  have hweekly : flatOverlay.read (after [weeklyFile]) "horizon" = some 7 := by decide +kernel
  have hnone : flatOverlay.read (after []) "horizon" = none := by decide +kernel
  refine ⟨hweekly, hnone, by decide +kernel, by decide +kernel, fun hisolated => ?_⟩
  -- Neither directory has a file of the forecast itself.
  have heq := hisolated [weeklyFile] [] (.of_eq rfl) "horizon"
  exact nomatch hweekly.symm.trans (heq.trans hnone)

end NexusSdk.Core
