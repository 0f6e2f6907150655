import NexusSdk.Lib.Dict
import NexusSdk.Lib.KeyTree
import NexusSdk.Lib.Text
import NexusSdk.Python

/-! The keys of a runtime configuration, which its model takes in lower case.  They are lowered in
the dictionary that is being walked, and so are those of the dictionaries in it; a list is kept as
it is, with the keys of the dictionaries that it holds. -/

namespace NexusSdk.Core

open Lib KeyTree

/-- `str.lower`, which leaves what it returned as it is. -/
structure KeyCase where
  lower : String → String
  lower_lower : ∀ s, lower (lower s) = lower s

variable {α M : Type}

/-- The items of a dictionary of settings. -/
abbrev ConfigItems (α : Type) := List (String × KeyTree String α)

/-- `source.pop(key)`: what is left of `source`. -/
def popKey (key : String) : ConfigItems α → Except PyExc (ConfigItems α)
  | [] => .error (.raised keyError key)
  | item :: rest => if item.1 = key then .ok rest else (popKey key rest).map (item :: ·)

namespace KeyCase

variable (c : KeyCase)

mutual

/-- The value that is set under the lowered key. -/
def normalizeValue : KeyTree String α → Except PyExc (KeyTree String α)
  | dict nested => dict <$> normalizeItems nested nested
  | list elements => .ok (list elements)
  | leaf value => .ok (leaf value)

/-- The loop over the `items` that `source` had. -/
def normalizeItems : ConfigItems α → ConfigItems α → Except PyExc (ConfigItems α)
  | [], source => .ok source
  | (key, value) :: rest, source => do
    let source ← popKey key source
    let value ← normalizeValue value
    normalizeItems rest (Dict.setItems (c.lower key) value source)

end

/-- `_normalize_property_keys`. -/
def normalizePropertyKeys (source : ConfigItems α) : Except PyExc (ConfigItems α) :=
  c.normalizeItems source source

/-- `init` is the constructor of the model. -/
def fromRuntimeConfiguration (init : ConfigItems α → Except PyExc M) (source : ConfigItems α) :
    Except PyExc M := do
  init (← c.normalizePropertyKeys source)

/-- `result` is `source` with every key in lower case: each position is there under its lowered
path, a leaf with its value. -/
structure Normalized (source result : ConfigItems α) : Prop where
  keys : result = mapItems c.lower source
  positions : (dict result).positions =
    (dict source).positions.map fun p => (p.1.map (.map c.lower), p.2)

/-- The case of the keys of `source`, which may differ in `other`, does not matter. -/
structure Caseless (init : ConfigItems α → Except PyExc M) (source other : ConfigItems α) :
    Prop where
  normalized : ∃ result, c.normalizePropertyKeys source = .ok result ∧ c.Normalized source result
  otherNormalized :
    ∃ result, c.normalizePropertyKeys other = .ok result ∧ c.Normalized other result
  sameModel : c.fromRuntimeConfiguration init source = c.fromRuntimeConfiguration init other

/-! ### The walk -/

variable {c}

theorem popKey_head (key : String) (value : KeyTree String α) (rest : ConfigItems α) :
    popKey key ((key, value) :: rest) = .ok rest :=
  if_pos rfl

/-- The lowered key of the item in hand is new among the items that are left to walk and those that
are done. -/
theorem lower_not_mem {key : String} {value : KeyTree String α} {rest done : ConfigItems α}
    (h : ((((key, value) :: rest).map fun item => c.lower item.1) ++ done.map Prod.fst).Nodup) :
    c.lower key ∉ (rest ++ done).map Prod.fst := by
  rw [List.map_cons, List.cons_append, List.nodup_cons, List.mem_append, not_or] at h
  intro hmem
  rw [List.map_append, List.mem_append] at hmem
  rcases hmem with hrest | hdone
  · obtain ⟨item, hitem, heq⟩ := List.mem_map.mp hrest
    -- an original key that is in lower case already is its own lowered key
    have hlower : c.lower item.1 = c.lower key := by rw [heq, c.lower_lower]
    exact h.1.1 (hlower ▸ List.mem_map_of_mem hitem)
  · exact h.1.2 hdone

mutual

theorem normalizeValue_eq (t : KeyTree String α) (h : (t.mapKeys c.lower).DistinctKeys) :
    c.normalizeValue t = .ok (t.mapOuterKeys c.lower) := by
  cases t with
  | leaf value => rw [normalizeValue, mapOuterKeys]
  | list elements => rw [normalizeValue, mapOuterKeys]
  | dict nested =>
    rw [mapKeys, DistinctKeys, keys_mapItems] at h
    have hitems := normalizeItems_eq nested [] (by simpa using h.1) h.2
    rw [List.append_nil, List.nil_append] at hitems
    rw [normalizeValue, hitems, mapOuterKeys]
    rfl

/-- At each round `source` holds the items that are left, as they were, and after them those that
are done. -/
theorem normalizeItems_eq (items done : ConfigItems α)
    (hkeys : ((items.map fun item => c.lower item.1) ++ done.map Prod.fst).Nodup)
    (hnested : DistinctItemKeys (mapItems c.lower items)) :
    c.normalizeItems items (items ++ done) = .ok (done ++ mapOuterItems c.lower items) := by
  cases items with
  | nil => rw [normalizeItems, mapOuterItems, List.nil_append, List.append_nil]
  | cons item rest =>
    obtain ⟨key, value⟩ := item
    rw [mapItems, DistinctItemKeys] at hnested
    have hvalue := normalizeValue_eq value hnested.1
    have hset := Dict.setItems_of_not_mem (value.mapOuterKeys c.lower) (lower_not_mem hkeys)
    rw [List.append_assoc] at hset
    have hround : ((rest.map fun item => c.lower item.1) ++
        (done ++ [(c.lower key, value.mapOuterKeys c.lower)]).map Prod.fst).Nodup := by
      rw [List.map_append, ← List.append_assoc]
      exact List.nodup_append_comm.mp hkeys
    have hrest := normalizeItems_eq rest _ hround hnested.2
    rw [List.append_assoc] at hrest
    rw [List.cons_append, normalizeItems, popKey_head, mapOuterItems]
    show (do
      let value ← c.normalizeValue value
      c.normalizeItems rest (Dict.setItems (c.lower key) value (rest ++ done))) = _
    rw [hvalue]
    show c.normalizeItems rest (Dict.setItems (c.lower key) _ (rest ++ done)) = _
    rw [hset, hrest]
    rfl

end

/-- The walk finds every key it pops, and lowers those outside lists. -/
theorem normalizePropertyKeys_eq {source : ConfigItems α}
    (h : (dict (mapItems c.lower source)).DistinctKeys) :
    c.normalizePropertyKeys source = .ok (mapOuterItems c.lower source) := by
  rw [DistinctKeys, keys_mapItems] at h
  have hitems := normalizeItems_eq source [] (by simpa using h.1) h.2
  rwa [List.append_nil, List.nil_append] at hitems

/-! ### Keys in any case -/

theorem normalized_iff {source : ConfigItems α}
    (h : (dict (mapItems c.lower source)).DistinctKeys) :
    (∃ result, c.normalizePropertyKeys source = .ok result ∧ c.Normalized source result) ↔
      (dict source).ListedKeys fun k => c.lower k = k := by
  rw [ListedKeys, ← mapOuterItems_eq_mapItems_iff, normalizePropertyKeys_eq h]
  constructor
  · rintro ⟨result, hresult, hnormalized⟩
    exact (Except.ok.inj hresult).trans hnormalized.keys
  · intro hkeys
    refine ⟨_, rfl, hkeys, ?_⟩
    rw [hkeys]
    exact positions_mapKeys c.lower (dict source)

end KeyCase

open KeyCase in
/-- The case of keys does not matter exactly if those of the dictionaries in lists are in lower
case. -/
theorem config_keys_caseless_iff (c : KeyCase) (init : ConfigItems α → Except PyExc M)
    {source other : ConfigItems α}
    (hdistinct : (dict (mapItems c.lower source)).DistinctKeys)
    (hsame : mapItems c.lower source = mapItems c.lower other) :
    c.Caseless init source other ↔
      (dict source).ListedKeys (fun k => c.lower k = k) ∧
        (dict other).ListedKeys fun k => c.lower k = k := by
  have hother : (dict (mapItems c.lower other)).DistinctKeys := hsame ▸ hdistinct
  constructor
  · intro h
    exact ⟨(normalized_iff hdistinct).mp h.normalized, (normalized_iff hother).mp h.otherNormalized⟩
  · rintro ⟨hlisted, hlistedOther⟩
    obtain ⟨result, hresult, hnormalized⟩ := (normalized_iff hdistinct).mpr hlisted
    obtain ⟨result', hresult', hnormalized'⟩ := (normalized_iff hother).mpr hlistedOther
    have heq : result = result' := by rw [hnormalized.keys, hnormalized'.keys, hsame]
    refine ⟨⟨result, hresult, hnormalized⟩, ⟨result', hresult', hnormalized'⟩, ?_⟩
    rw [fromRuntimeConfiguration, fromRuntimeConfiguration, hresult, hresult', heq]

/-- The letters of ASCII. -/
def asciiCase : KeyCase where
  lower s := .ofList (s.toList.map Char.toLower)
  lower_lower s := by
    rw [String.toList_ofList, List.map_map]
    exact congrArg String.ofList (List.map_congr_left fun ch _ => toLower_toLower ch)

/-- A configuration with a socket in a list, and a name for each of its keys. -/
def oneSocket (inputs sockets aliasKey : String) : ConfigItems String :=
  [(inputs, dict [(sockets, list [dict [(aliasKey, leaf "localfile1")]])])]

theorem mapItems_oneSocket (f : String → String) (inputs sockets aliasKey : String) :
    mapItems f (oneSocket inputs sockets aliasKey) =
      oneSocket (f inputs) (f sockets) (f aliasKey) :=
  rfl

theorem distinctKeys_oneSocket (f : String → String) (inputs sockets aliasKey : String) :
    (dict (mapItems f (oneSocket inputs sockets aliasKey))).DistinctKeys := by
  rw [mapItems_oneSocket]
  simp [oneSocket, DistinctKeys, DistinctItemKeys, DistinctElementKeys]

theorem listedKeys_oneSocket_iff {P : String → Prop} {inputs sockets aliasKey : String} :
    (dict (oneSocket inputs sockets aliasKey)).ListedKeys P ↔ P aliasKey := by
  simp [oneSocket, ListedKeys, ListedItemKeys, AllElementKeys, AllKeys, AllItemKeys]

/-- A configuration and the same in other cases, with `init` that takes any items. -/
theorem config_keys_caseless_sockets :
    asciiCase.Caseless Except.ok (oneSocket "INPUTS" "Sockets" "alias")
      (oneSocket "Inputs" "SOCKETS" "alias") := by
  have hinputs : asciiCase.lower "INPUTS" = asciiCase.lower "Inputs" := by decide +kernel
  have hsockets : asciiCase.lower "Sockets" = asciiCase.lower "SOCKETS" := by decide +kernel
  have halias : asciiCase.lower "alias" = "alias" := by decide +kernel
  refine (config_keys_caseless_iff asciiCase Except.ok (distinctKeys_oneSocket _ _ _ _) ?_).mpr
    ⟨listedKeys_oneSocket_iff.mpr halias, listedKeys_oneSocket_iff.mpr halias⟩
  rw [mapItems_oneSocket, mapItems_oneSocket, hinputs, hsockets]

/-- A key of a dictionary in a list stays in upper case. -/
theorem socket_alias_kept :
    (dict (mapItems asciiCase.lower (oneSocket "inputs" "sockets" "ALIAS"))).DistinctKeys ∧
      mapItems asciiCase.lower (oneSocket "inputs" "sockets" "ALIAS") =
        mapItems asciiCase.lower (oneSocket "inputs" "sockets" "alias") ∧
      asciiCase.normalizePropertyKeys (oneSocket "inputs" "sockets" "ALIAS") =
        .ok (oneSocket "inputs" "sockets" "ALIAS") ∧
      ¬ asciiCase.Caseless Except.ok (oneSocket "inputs" "sockets" "ALIAS")
        (oneSocket "inputs" "sockets" "alias") := by
  have hinputs : asciiCase.lower "inputs" = "inputs" := by decide +kernel
  have hsockets : asciiCase.lower "sockets" = "sockets" := by decide +kernel
  have halias : asciiCase.lower "ALIAS" = "alias" := by decide +kernel
  have halias' : asciiCase.lower "alias" = "alias" := by decide +kernel
  have hdistinct : (dict (mapItems asciiCase.lower
      (oneSocket "inputs" "sockets" "ALIAS"))).DistinctKeys := distinctKeys_oneSocket _ _ _ _
  refine ⟨hdistinct, ?_, ?_, fun h => ?_⟩
  · rw [mapItems_oneSocket, mapItems_oneSocket, halias, halias']
  · rw [KeyCase.normalizePropertyKeys_eq hdistinct]
    show Except.ok (oneSocket (asciiCase.lower "inputs") (asciiCase.lower "sockets") "ALIAS") = _
    rw [hinputs, hsockets]
  · have hlisted := (KeyCase.normalized_iff hdistinct).mp h.normalized
    rw [listedKeys_oneSocket_iff, halias] at hlisted
    exact absurd hlisted (by decide)

end NexusSdk.Core
