import Mathlib.Data.List.Nodup

/-! Values that are nested in lists and in dictionaries: every position of such a tree, and what
becomes of the positions when the keys are renamed. -/

namespace Lib

/-- A dictionary has its items in their order. -/
inductive KeyTree (κ α : Type)
  | leaf (value : α)
  | list (elements : List (KeyTree κ α))
  | dict (items : List (κ × KeyTree κ α))

/-- A step down: to the entry of a key, or to the element of an index. -/
inductive KeyStep (κ : Type)
  | key (k : κ)
  | index (i : Nat)

def KeyStep.map {κ κ' : Type} (f : κ → κ') : KeyStep κ → KeyStep κ'
  | key k => key (f k)
  | index i => index i

namespace KeyTree

variable {κ κ' α : Type}

/-! ### Positions -/

mutual

/-- The positions below `path`, with the value of each leaf. -/
def positionsAt (path : List (KeyStep κ)) : KeyTree κ α → List (List (KeyStep κ) × Option α)
  | leaf value => [(path, some value)]
  | list elements => (path, none) :: elementPositions path 0 elements
  | dict items => (path, none) :: itemPositions path items

def elementPositions (path : List (KeyStep κ)) (i : Nat) :
    List (KeyTree κ α) → List (List (KeyStep κ) × Option α)
  | [] => []
  | t :: rest => t.positionsAt (path ++ [.index i]) ++ elementPositions path (i + 1) rest

def itemPositions (path : List (KeyStep κ)) :
    List (κ × KeyTree κ α) → List (List (KeyStep κ) × Option α)
  | [] => []
  | (k, t) :: rest => t.positionsAt (path ++ [.key k]) ++ itemPositions path rest

end

def positions (t : KeyTree κ α) : List (List (KeyStep κ) × Option α) := t.positionsAt []

/-! ### Keys -/

mutual

/-- The keys of every dictionary satisfy `P`. -/
def AllKeys (P : κ → Prop) : KeyTree κ α → Prop
  | leaf _ => True
  | list elements => AllElementKeys P elements
  | dict items => AllItemKeys P items

def AllElementKeys (P : κ → Prop) : List (KeyTree κ α) → Prop
  | [] => True
  | t :: rest => t.AllKeys P ∧ AllElementKeys P rest

def AllItemKeys (P : κ → Prop) : List (κ × KeyTree κ α) → Prop
  | [] => True
  | (k, t) :: rest => P k ∧ t.AllKeys P ∧ AllItemKeys P rest

end

mutual

/-- The keys of every dictionary that is in a list, at any depth, satisfy `P`. -/
def ListedKeys (P : κ → Prop) : KeyTree κ α → Prop
  | leaf _ => True
  | list elements => AllElementKeys P elements
  | dict items => ListedItemKeys P items

def ListedItemKeys (P : κ → Prop) : List (κ × KeyTree κ α) → Prop
  | [] => True
  | (_, t) :: rest => t.ListedKeys P ∧ ListedItemKeys P rest

end

mutual

/-- No dictionary has two entries of one key. -/
def DistinctKeys : KeyTree κ α → Prop
  | leaf _ => True
  | list elements => DistinctElementKeys elements
  | dict items => (items.map Prod.fst).Nodup ∧ DistinctItemKeys items

def DistinctElementKeys : List (KeyTree κ α) → Prop
  | [] => True
  | t :: rest => t.DistinctKeys ∧ DistinctElementKeys rest

def DistinctItemKeys : List (κ × KeyTree κ α) → Prop
  | [] => True
  | (_, t) :: rest => t.DistinctKeys ∧ DistinctItemKeys rest

end

/-! ### Renamed keys -/

mutual

/-- Every key, at every depth, is renamed. -/
def mapKeys (f : κ → κ') : KeyTree κ α → KeyTree κ' α
  | leaf value => leaf value
  | list elements => list (mapElements f elements)
  | dict items => dict (mapItems f items)

def mapElements (f : κ → κ') : List (KeyTree κ α) → List (KeyTree κ' α)
  | [] => []
  | t :: rest => t.mapKeys f :: mapElements f rest

def mapItems (f : κ → κ') : List (κ × KeyTree κ α) → List (κ' × KeyTree κ' α)
  | [] => []
  | (k, t) :: rest => (f k, t.mapKeys f) :: mapItems f rest

end

mutual

/-- The keys that are reached through dictionaries alone are renamed. -/
def mapOuterKeys (f : κ → κ) : KeyTree κ α → KeyTree κ α
  | leaf value => leaf value
  | list elements => list elements
  | dict items => dict (mapOuterItems f items)

def mapOuterItems (f : κ → κ) : List (κ × KeyTree κ α) → List (κ × KeyTree κ α)
  | [] => []
  | (k, t) :: rest => (f k, t.mapOuterKeys f) :: mapOuterItems f rest

end

theorem keys_mapItems (f : κ → κ') (items : List (κ × KeyTree κ α)) :
    (mapItems f items).map Prod.fst = items.map fun item => f item.1 := by
  induction items with
  | nil => rfl
  | cons item rest ih => rw [mapItems, List.map_cons, List.map_cons, ih]

mutual

theorem positionsAt_mapKeys (f : κ → κ') (path : List (KeyStep κ)) (t : KeyTree κ α) :
    (t.mapKeys f).positionsAt (path.map (.map f)) =
      (t.positionsAt path).map fun p => (p.1.map (.map f), p.2) := by
  cases t with
  | leaf value => rfl
  | list elements =>
    rw [mapKeys, positionsAt, positionsAt, List.map_cons, elementPositions_mapElements]
  | dict items => rw [mapKeys, positionsAt, positionsAt, List.map_cons, itemPositions_mapItems]

theorem elementPositions_mapElements (f : κ → κ') (path : List (KeyStep κ)) (i : Nat)
    (elements : List (KeyTree κ α)) :
    elementPositions (path.map (.map f)) i (mapElements f elements) =
      (elementPositions path i elements).map fun p => (p.1.map (.map f), p.2) := by
  cases elements with
  | nil => rfl
  | cons t rest =>
    have ht := positionsAt_mapKeys f (path ++ [.index i]) t
    rw [List.map_append] at ht
    rw [mapElements, elementPositions, elementPositions, List.map_append,
      ← elementPositions_mapElements f path (i + 1) rest, ← ht]
    rfl

theorem itemPositions_mapItems (f : κ → κ') (path : List (KeyStep κ))
    (items : List (κ × KeyTree κ α)) :
    itemPositions (path.map (.map f)) (mapItems f items) =
      (itemPositions path items).map fun p => (p.1.map (.map f), p.2) := by
  cases items with
  | nil => rfl
  | cons item rest =>
    have ht := positionsAt_mapKeys f (path ++ [.key item.1]) item.2
    rw [List.map_append] at ht
    rw [mapItems, itemPositions, itemPositions, List.map_append,
      ← itemPositions_mapItems f path rest, ← ht]
    rfl

end

/-- Each position stays, under its renamed path, with its value. -/
theorem positions_mapKeys (f : κ → κ') (t : KeyTree κ α) :
    (t.mapKeys f).positions = t.positions.map fun p => (p.1.map (.map f), p.2) :=
  positionsAt_mapKeys f [] t

mutual

theorem mapKeys_eq_self_iff {f : κ → κ} (t : KeyTree κ α) :
    t.mapKeys f = t ↔ t.AllKeys fun k => f k = k := by
  cases t with
  | leaf value => exact iff_of_true rfl trivial
  | list elements => rw [mapKeys, list.injEq, mapElements_eq_self_iff, AllKeys]
  | dict items => rw [mapKeys, dict.injEq, mapItems_eq_self_iff, AllKeys]

theorem mapElements_eq_self_iff {f : κ → κ} (elements : List (KeyTree κ α)) :
    mapElements f elements = elements ↔ AllElementKeys (fun k => f k = k) elements := by
  cases elements with
  | nil => exact iff_of_true rfl trivial
  | cons t rest =>
    rw [mapElements, List.cons.injEq, mapKeys_eq_self_iff, mapElements_eq_self_iff, AllElementKeys]

theorem mapItems_eq_self_iff {f : κ → κ} (items : List (κ × KeyTree κ α)) :
    mapItems f items = items ↔ AllItemKeys (fun k => f k = k) items := by
  cases items with
  | nil => exact iff_of_true rfl trivial
  | cons item rest =>
    rw [mapItems, List.cons.injEq, Prod.ext_iff, mapKeys_eq_self_iff, mapItems_eq_self_iff,
      AllItemKeys, and_assoc]

end

mutual

/-- The outer keys are all there are to rename exactly if those in lists stay. -/
theorem mapOuterKeys_eq_mapKeys_iff {f : κ → κ} (t : KeyTree κ α) :
    t.mapOuterKeys f = t.mapKeys f ↔ t.ListedKeys fun k => f k = k := by
  cases t with
  | leaf value => exact iff_of_true rfl trivial
  | list elements =>
    rw [mapOuterKeys, mapKeys, list.injEq, eq_comm, mapElements_eq_self_iff, ListedKeys]
  | dict items =>
    rw [mapOuterKeys, mapKeys, dict.injEq, mapOuterItems_eq_mapItems_iff, ListedKeys]

theorem mapOuterItems_eq_mapItems_iff {f : κ → κ} (items : List (κ × KeyTree κ α)) :
    mapOuterItems f items = mapItems f items ↔ ListedItemKeys (fun k => f k = k) items := by
  cases items with
  | nil => exact iff_of_true rfl trivial
  | cons item rest =>
    rw [mapOuterItems, mapItems, List.cons.injEq, Prod.ext_iff, and_iff_right rfl,
      mapOuterKeys_eq_mapKeys_iff, mapOuterItems_eq_mapItems_iff, ListedItemKeys]

end

end KeyTree

end Lib
