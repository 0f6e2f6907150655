import Mathlib.Data.List.Perm.Basic

/-! Layers that are laid over a state one after another: a layer hides the values that the state had
for its keys.  Their order does not matter exactly if no two give a key different values. -/

namespace Lib

/-- States that are read by key, over which layers are laid. -/
structure Overlay (S F κ ν : Type) where
  load : S → F → S
  read : S → κ → Option ν
  keys : F → κ → Option ν
  read_load : ∀ s f k, read (load s f) k = (keys f k).or (read s k)

namespace Overlay

variable {S F κ ν : Type} (V : Overlay S F κ ν) (s : S) {l l' : List F}

/-- The state after all layers. -/
def loadAll (l : List F) : S := l.foldl V.load s

/-- The layers that `g` names. -/
def comap {F' : Type} (g : F' → F) : Overlay S F' κ ν where
  load s f := V.load s (g f)
  read := V.read
  keys f := V.keys (g f)
  read_load s f := V.read_load s (g f)

theorem loadAll_map {F' : Type} (g : F' → F) (l : List F') :
    V.loadAll s (l.map g) = (V.comap g).loadAll s l :=
  List.foldl_map

/-- No two layers give a key different values. -/
def Compatible (l : List F) : Prop :=
  ∀ f ∈ l, ∀ g ∈ l, ∀ k v w, V.keys f k = some v → V.keys g k = some w → v = w

/-- The last layer with the key has the value. -/
theorem read_loadAll (l : List F) (k : κ) :
    V.read (V.loadAll s l) k = (l.reverse.findSome? fun f => V.keys f k).or (V.read s k) := by
  induction l generalizing s with
  | nil => rfl
  | cons f rest ih =>
    calc
      V.read (V.loadAll s (f :: rest)) k = V.read (V.loadAll (V.load s f) rest) k := rfl
      _ = (rest.reverse.findSome? fun f => V.keys f k).or ((V.keys f k).or (V.read s k)) := by
        rw [ih, V.read_load]
      _ = ((f :: rest).reverse.findSome? fun f => V.keys f k).or (V.read s k) := by
        rw [List.reverse_cons, List.findSome?_append, Option.or_assoc]
        simp

theorem read_loadAll_append_singleton {f : F} {k : κ} {v : ν} (h : V.keys f k = some v) :
    V.read (V.loadAll s (l ++ [f])) k = some v := by
  rw [read_loadAll, List.reverse_append]
  simp [h]

variable {V}

/-- With compatible layers, a key has the value that any of them gives it. -/
theorem Compatible.read_eq {f : F} {k : κ} {v : ν} (h : V.Compatible l) (hf : f ∈ l)
    (hv : V.keys f k = some v) : V.read (V.loadAll s l) k = some v := by
  rw [read_loadAll]
  cases hfound : l.reverse.findSome? fun f => V.keys f k with
  | none =>
    rw [List.findSome?_eq_none_iff] at hfound
    exact nomatch (hfound f (List.mem_reverse.mpr hf)).symm.trans hv
  | some w =>
    obtain ⟨g, hg, hw⟩ := List.exists_of_findSome?_eq_some hfound
    rw [h g (List.mem_reverse.mp hg) f hf k w v hw hv]
    rfl

theorem read_eq_of_unset {k : κ} (h : ∀ f ∈ l, V.keys f k = none) :
    V.read (V.loadAll s l) k = V.read s k := by
  have hfound : (l.reverse.findSome? fun f => V.keys f k) = none :=
    List.findSome?_eq_none_iff.mpr fun f hf => h f (List.mem_reverse.mp hf)
  rw [read_loadAll, hfound, Option.none_or]

theorem Compatible.of_perm (h : V.Compatible l) (hperm : l'.Perm l) : V.Compatible l' :=
  fun f hf g hg => h f (hperm.mem_iff.mp hf) g (hperm.mem_iff.mp hg)

theorem Compatible.read_perm (h : V.Compatible l) (hperm : l'.Perm l) (k : κ) :
    V.read (V.loadAll s l') k = V.read (V.loadAll s l) k := by
  by_cases hset : ∃ f ∈ l, ∃ v, V.keys f k = some v
  · obtain ⟨f, hf, v, hv⟩ := hset
    rw [h.read_eq s hf hv, (h.of_perm hperm).read_eq s (hperm.mem_iff.mpr hf) hv]
  · have hunset : ∀ f ∈ l, V.keys f k = none := fun f hf =>
      Option.eq_none_iff_forall_ne_some.mpr fun v hv => hset ⟨f, hf, v, hv⟩
    rw [read_eq_of_unset s hunset,
      read_eq_of_unset s fun f hf => hunset f (hperm.mem_iff.mp hf)]

/-- A layer can be the last one. -/
theorem exists_perm_last {f : F} (hf : f ∈ l) : ∃ init, (init ++ [f]).Perm l := by
  obtain ⟨before, after, rfl⟩ := List.append_of_mem hf
  refine ⟨before ++ after, ?_⟩
  rw [List.append_assoc]
  exact (List.perm_append_singleton f after).append_left before

/-- Every order of the layers leads to the same values exactly if they are compatible. -/
theorem read_perm_iff :
    (∀ l', l'.Perm l → ∀ k, V.read (V.loadAll s l') k = V.read (V.loadAll s l) k) ↔
      V.Compatible l := by
  refine ⟨fun h f hf g hg k v w hv hw => ?_, fun h l' hperm k => h.read_perm s hperm k⟩
  obtain ⟨init, hinit⟩ := exists_perm_last hf
  obtain ⟨init', hinit'⟩ := exists_perm_last hg
  have heq := (h _ hinit k).trans (h _ hinit' k).symm
  rw [V.read_loadAll_append_singleton s hv, V.read_loadAll_append_singleton s hw] at heq
  exact Option.some.inj heq

end Overlay

end Lib
