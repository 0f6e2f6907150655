import Mathlib.Data.List.Dedup

/-! Dictionaries that iterate in insertion order.  Setting a key that is present keeps its place and
replaces its value; a new key goes to the end.  `Dict` carries the fact that no key occurs twice. -/

namespace Lib

/-- A dictionary: its items in the order in which their keys were first set. -/
structure Dict (κ ν : Type) where
  items : List (κ × ν)
  nodup : (items.map Prod.fst).Nodup
  deriving DecidableEq

namespace Dict

variable {κ ν : Type} [DecidableEq κ]

def setItems (k : κ) (v : ν) : List (κ × ν) → List (κ × ν)
  | [] => [(k, v)]
  | item :: rest => if item.1 = k then (k, v) :: rest else item :: setItems k v rest

theorem keys_setItems (k : κ) (v : ν) (l : List (κ × ν)) :
    (setItems k v l).map Prod.fst =
      if k ∈ l.map Prod.fst then l.map Prod.fst else l.map Prod.fst ++ [k] := by
  induction l with
  | nil => simp [setItems]
  | cons item rest ih =>
    by_cases h : item.1 = k
    · simp [setItems, h]
    · simp only [setItems, h, if_false, List.map_cons, ih, List.mem_cons, Ne.symm h, false_or]
      split <;> simp

theorem setItems_of_not_mem {k : κ} (v : ν) {l : List (κ × ν)} (h : k ∉ l.map Prod.fst) :
    setItems k v l = l ++ [(k, v)] := by
  induction l with
  | nil => rfl
  | cons item rest ih =>
    rw [List.map_cons, List.mem_cons, not_or] at h
    rw [setItems, if_neg (Ne.symm h.1), ih h.2, List.cons_append]

theorem nodup_setItems {l : List (κ × ν)} (k : κ) (v : ν) (h : (l.map Prod.fst).Nodup) :
    ((setItems k v l).map Prod.fst).Nodup := by
  rw [keys_setItems]
  split
  · exact h
  · next hk => exact List.nodup_append.mpr ⟨h, by simp, by rintro a ha b hb rfl; simp_all⟩

def empty : Dict κ ν := ⟨[], List.nodup_nil⟩

/-- `d[k] = v`. -/
def set (d : Dict κ ν) (k : κ) (v : ν) : Dict κ ν :=
  ⟨setItems k v d.items, nodup_setItems k v d.nodup⟩

def get? (d : Dict κ ν) (k : κ) : Option ν := d.items.lookup k

/-- `k in d`. -/
def contains (d : Dict κ ν) (k : κ) : Bool := (d.get? k).isSome

/-- The entries of `l` set in order on top of `d`. -/
def update (d : Dict κ ν) (l : List (κ × ν)) : Dict κ ν :=
  l.foldl (fun acc item => acc.set item.1 item.2) d

/-- `{k: v for k, v in l}`. -/
def ofList (l : List (κ × ν)) : Dict κ ν := empty.update l

/-- `d | e`. -/
def merge (d e : Dict κ ν) : Dict κ ν := d.update e.items

theorem items_update (d : Dict κ ν) (l : List (κ × ν))
    (h : ((d.items ++ l).map Prod.fst).Nodup) : (d.update l).items = d.items ++ l := by
  induction l generalizing d with
  | nil => exact (List.append_nil _).symm
  | cons item rest ih =>
    have hnew : item.1 ∉ d.items.map Prod.fst := by
      rw [List.map_append, List.map_cons] at h
      exact fun hmem => (List.nodup_append.mp h).2.2 _ hmem _ List.mem_cons_self rfl
    have hset : (d.set item.1 item.2).items = d.items ++ [item] := setItems_of_not_mem item.2 hnew
    have hrest := ih (d.set item.1 item.2) (by rwa [hset, List.append_assoc])
    rw [hset, List.append_assoc] at hrest
    exact hrest

/-- The dictionary of entries with different keys has these entries. -/
theorem items_ofList {l : List (κ × ν)} (h : (l.map Prod.fst).Nodup) : (ofList l).items = l :=
  items_update empty l h

theorem mem_of_mem_setItems {k : κ} {v : ν} {item : κ × ν} {l : List (κ × ν)}
    (h : item ∈ setItems k v l) : item = (k, v) ∨ item ∈ l := by
  induction l with
  | nil => exact .inl (List.mem_singleton.mp h)
  | cons first rest ih =>
    unfold setItems at h
    split at h
    · exact (List.mem_cons.mp h).imp_right (List.mem_cons_of_mem first)
    · rcases List.mem_cons.mp h with rfl | h
      · exact .inr List.mem_cons_self
      · exact (ih h).imp_right (List.mem_cons_of_mem first)

theorem mem_of_mem_update {d : Dict κ ν} {l : List (κ × ν)} {item : κ × ν}
    (h : item ∈ (d.update l).items) : item ∈ d.items ∨ item ∈ l := by
  induction l generalizing d with
  | nil => exact .inl h
  | cons first rest ih =>
    rcases ih h with h | h
    · rcases mem_of_mem_setItems h with rfl | h
      · exact .inr List.mem_cons_self
      · exact .inl h
    · exact .inr (List.mem_cons_of_mem first h)

theorem mem_of_mem_ofList {l : List (κ × ν)} {item : κ × ν} (h : item ∈ (ofList l).items) :
    item ∈ l :=
  (mem_of_mem_update h).resolve_left List.not_mem_nil

@[simp] theorem get?_empty (k : κ) : (empty : Dict κ ν).get? k = none := rfl

@[simp] theorem contains_empty (k : κ) : (empty : Dict κ ν).contains k = false := rfl

theorem lookup_cons_eq (k : κ) (item : κ × ν) (rest : List (κ × ν)) :
    (item :: rest).lookup k = if k = item.1 then some item.2 else rest.lookup k := by
  obtain ⟨k', v⟩ := item
  by_cases h : k = k'
  · simp [h]
  · simp [List.lookup_cons, beq_eq_false_iff_ne.mpr h, h]

theorem lookup_setItems (k k' : κ) (v : ν) (l : List (κ × ν)) :
    (setItems k v l).lookup k' = if k' = k then some v else l.lookup k' := by
  induction l with
  | nil => simp [setItems, lookup_cons_eq]
  | cons item rest ih =>
    by_cases hi : item.1 = k
    · by_cases h : k' = k <;> simp [setItems, hi, h, lookup_cons_eq]
    · by_cases h : k' = item.1
      · subst h
        simp [setItems, hi, lookup_cons_eq]
      · simp only [setItems, hi, if_false, lookup_cons_eq, h, ih]

@[simp] theorem get?_set (d : Dict κ ν) (k k' : κ) (v : ν) :
    (d.set k v).get? k' = if k' = k then some v else d.get? k' :=
  lookup_setItems k k' v d.items

@[simp] theorem contains_set (d : Dict κ ν) (k k' : κ) (v : ν) :
    (d.set k v).contains k' = (decide (k' = k) || d.contains k') := by
  by_cases h : k' = k <;> simp [contains, h]

theorem contains_iff {d : Dict κ ν} {k : κ} : d.contains k = true ↔ ∃ v, d.get? k = some v := by
  simp [contains, Option.isSome_iff_exists]

theorem contains_of_get? {d : Dict κ ν} {k : κ} {v : ν} (h : d.get? k = some v) :
    d.contains k = true :=
  contains_iff.mpr ⟨v, h⟩

theorem mem_items_iff {d : Dict κ ν} {k : κ} {v : ν} : (k, v) ∈ d.items ↔ d.get? k = some v := by
  obtain ⟨items, hnodup⟩ := d
  simp only [get?]
  induction items with
  | nil => simp
  | cons item rest ih =>
    rw [List.map_cons, List.nodup_cons] at hnodup
    rw [List.mem_cons, ih hnodup.2, lookup_cons_eq]
    by_cases h : k = item.1
    · have hrest : rest.lookup k ≠ some v := fun hv =>
        hnodup.1 (h ▸ List.mem_map_of_mem ((ih hnodup.2).mpr hv))
      simp [h, h ▸ hrest, Prod.ext_iff, eq_comm]
    · simp [h, Prod.ext_iff]

/-! ### Keys and values after an update -/

theorem mem_keys_update {d : Dict κ ν} {l : List (κ × ν)} {k : κ} :
    k ∈ (d.update l).items.map Prod.fst ↔ k ∈ d.items.map Prod.fst ∨ k ∈ l.map Prod.fst := by
  induction l generalizing d with
  | nil => simp [update]
  | cons item rest ih =>
    have hset : k ∈ (d.set item.1 item.2).items.map Prod.fst ↔
        k ∈ d.items.map Prod.fst ∨ k = item.1 := by
      show k ∈ (setItems item.1 item.2 d.items).map Prod.fst ↔ _
      rw [keys_setItems]
      split
      · next hmem => exact ⟨.inl, fun h => h.elim id fun heq => heq ▸ hmem⟩
      · rw [List.mem_append, List.mem_singleton]
    refine (ih (d := d.set item.1 item.2)).trans ?_
    rw [hset, List.map_cons, List.mem_cons, or_assoc]

/-- No entry is overwritten exactly if the keys are different. -/
theorem length_ofList_iff {l : List (κ × ν)} :
    (ofList l).items.length = l.length ↔ (l.map Prod.fst).Nodup := by
  constructor
  · intro h
    have hperm : ((ofList l).items.map Prod.fst).Perm (l.map Prod.fst).dedup := by
      refine (List.perm_ext_iff_of_nodup (ofList l).nodup (List.nodup_dedup _)).mpr fun k => ?_
      rw [List.mem_dedup]
      exact mem_keys_update.trans (or_iff_right List.not_mem_nil)
    have hlength : (l.map Prod.fst).length = (l.map Prod.fst).dedup.length := by
      rw [← hperm.length_eq, List.length_map, List.length_map, h]
    rw [← (List.dedup_sublist _).eq_of_length hlength.symm]
    exact List.nodup_dedup _
  · intro h
    rw [items_ofList h]

theorem get?_update_of_not_mem {d : Dict κ ν} {l : List (κ × ν)} {k : κ}
    (h : k ∉ l.map Prod.fst) : (d.update l).get? k = d.get? k := by
  induction l generalizing d with
  | nil => rfl
  | cons item rest ih =>
    rw [List.map_cons, List.mem_cons, not_or] at h
    refine (ih (d := d.set item.1 item.2) h.2).trans ?_
    rw [get?_set, if_neg h.1]

theorem get?_update_of_mem {d : Dict κ ν} {l : List (κ × ν)} {k : κ} {v : ν}
    (hnodup : (l.map Prod.fst).Nodup) (h : (k, v) ∈ l) : (d.update l).get? k = some v := by
  induction l generalizing d with
  | nil => cases h
  | cons item rest ih =>
    rw [List.map_cons, List.nodup_cons] at hnodup
    rcases List.mem_cons.mp h with rfl | h
    · refine (get?_update_of_not_mem (d := d.set k v) hnodup.1).trans ?_
      rw [get?_set, if_pos rfl]
    · exact ih (d := d.set item.1 item.2) hnodup.2 h

/-- The entries of the right operand win. -/
theorem get?_merge_of_some {d e : Dict κ ν} {k : κ} {v : ν} (h : e.get? k = some v) :
    (d.merge e).get? k = some v :=
  get?_update_of_mem e.nodup (mem_items_iff.mpr h)

end Dict

end Lib
