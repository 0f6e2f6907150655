import NexusSdk.Lib.Dependency
import NexusSdk.Lib.Dict
import NexusSdk.Lib.Text
import NexusSdk.Python

/-! `get_tree`: the execution tree of an algorithm class, from the annotations of constructors.  The
node cache holds one node for each class name, which the later parameters with that annotation find
and traverse again; a name stands for its node. -/

namespace NexusSdk.Execution

open Lib

/-! ### Classes and their constructors -/

/-- `str.upper`, which goes character by character, and `str.lower`. -/
structure CaseMapping where
  upperChar : Char → List Char
  lower : String → String
  upperChar_ne_nil : ∀ c, upperChar c ≠ []
  /-- a line feed and the characters of an arrow are no letters -/
  upperChar_mark : ∀ m ∈ ['\n', ' ', '-', '>'], ∀ c, m ∈ upperChar c → c = m ∧ upperChar c = [m]

def CaseMapping.upper (C : CaseMapping) (s : String) : String :=
  .ofList (s.toList.flatMap C.upperChar)

/-- A parameter, by its annotation; where there is none, that is the class `inspect._empty`. -/
inductive Parameter (Cls : Type)
  | cls (c : Cls)
  | text (s : String)

def Parameter.cls? {Cls : Type} : Parameter Cls → Option Cls
  | .cls c => some c
  | .text _ => none

/-- Classes, with the parameters of their constructors. -/
structure Classes (Cls : Type) where
  /-- `__name__` -/
  name : Cls → String
  parameters : Cls → List (Parameter Cls)

variable {Cls : Type}

namespace Classes

variable (G : Classes Cls) (C : CaseMapping)

/-- `_is_nexus_input_object_annotation`. -/
def isNexusInputObjectAnnotation : Parameter Cls → Bool
  | .text _ => false
  | .cls c =>
    occursIn "processor" (C.lower (G.name c)) || occursIn "reader" (C.lower (G.name c))

def dependents (c : Cls) : List Cls :=
  ((G.parameters c).filter ( G.isNexusInputObjectAnnotation C)).filterMap Parameter.cls?

end Classes

/-! ### Nodes -/

/-- A node, with the class names of its children under their keys. -/
structure ExecutionTreeNode where
  children : Dict String String
  className : String

/-- `node_cache`. -/
abbrev NodeCache := Dict String ExecutionTreeNode

def recursionError : PyExc :=
  .raised (.extend "RecursionError" [runtimeError]) "maximum recursion depth exceeded"

section Build

variable (C : CaseMapping) (G : Classes Cls)

def ExecutionTreeNode.addChild (node child : ExecutionTreeNode) : ExecutionTreeNode :=
  { node with children := node.children.set (C.lower child.className) child.className }

/-- The node of a class name. -/
def NodeCache.node (cache : NodeCache) (name : String) : ExecutionTreeNode :=
  (cache.get? name).getD ⟨.empty, name⟩

/-- The node that is found under the name, or a new one. -/
def NodeCache.enter (cache : NodeCache) (name : String) : NodeCache :=
  if cache.contains name then cache else cache.set name ⟨.empty, name⟩

/-- `current_node.add_child(...)`, for two nodes of the cache. -/
def NodeCache.addChild (cache : NodeCache) (current child : String) : NodeCache :=
  cache.set current ((cache.node current).addChild C (cache.node child))

/-- `_get_parameter_tree` for a parameter with the annotation `c`, whose node it returns.  No more
than `limit` calls are nested. -/
def getParameterTree : Nat → Cls → NodeCache → Except PyExc NodeCache
  | 0, _, _ => .error recursionError
  | limit + 1, c, cache =>
    (G.dependents C c).foldlM (fun cache dependent => do
      let cache ← getParameterTree limit dependent cache
      pure (cache.addChild C (G.name c) (G.name dependent))) (cache.enter (G.name c))

structure ExecutionTree where
  rootNode : ExecutionTreeNode
  nodes : NodeCache

/-- One step of the loop of `get_tree`, whose filter looks at one parameter after the other. -/
def addProcessor (limit : Nat) (tree : ExecutionTree) :
    Parameter Cls → Except PyExc ExecutionTree
  | .text _ => .error (.raised attributeError "'str' object has no attribute '__name__'")
  | .cls c =>
    if occursIn "Processor" (G.name c) then do
      let nodes ← getParameterTree C G limit c tree.nodes
      pure ⟨tree.rootNode.addChild C (nodes.node (G.name c)), nodes⟩
    else pure tree

def getTree (limit : Nat) (algorithmClass : Cls) : Except PyExc ExecutionTree :=
  (G.parameters algorithmClass).foldlM (addProcessor C G limit)
    ⟨⟨.empty, G.name algorithmClass⟩, .empty⟩

end Build

/-! ### Serialization -/

/-- The order in which a set of strings is iterated, by the insertions that made it. -/
structure SetOrder where
  enumerate : List String → List String
  nodup : ∀ l, (enumerate l).Nodup
  mem_enumerate : ∀ l s, s ∈ enumerate l ↔ s ∈ l

section Serialize

variable (C : CaseMapping) (order : SetOrder)

def asMermaidNode (className : String) : String :=
  C.upper className ++ "[\"" ++ className ++ "\"]"

def arrow : String := " --> "

def edgeLine (parent child : String) : String :=
  asMermaidNode C parent ++ arrow ++ asMermaidNode C child

/-- `ExecutionTreeNode.serialize`. -/
def serializeNode (nodes : NodeCache) : Nat → ExecutionTreeNode → Except PyExc String
  | 0, _ => .error recursionError
  | limit + 1, node => do
    let resultLines ← node.children.items.mapM fun (_, name) => do
      let child := nodes.node name
      pure [edgeLine C node.className child.className, ← serializeNode nodes limit child]
    if node.children.items.length = 0 then pure (asMermaidNode C node.className)
    else pure (joinLines (order.enumerate resultLines.flatten))

def ExecutionTree.serialize (tree : ExecutionTree) (limit : Nat) (sortNodes : Bool) :
    Except PyExc String := do
  let text ← serializeNode C order tree.nodes limit tree.rootNode
  let mermaidNodes := (order.enumerate (splitLines text)).filter (occursIn arrow)
  let mermaidNodes := if sortNodes then mermaidNodes.insertionSort (· ≤ ·) else mermaidNodes
  pure (joinLines ["graph TB", joinLines mermaidNodes])

end Serialize

/-! ### The nodes that `_get_parameter_tree` leaves -/

section Nodes

variable (C : CaseMapping) (G : Classes Cls)

/-- The classes of `S` have different names, ignoring case, and `S` has their dependents. -/
structure Distinct (S : Set Cls) : Prop where
  closed : ∀ x ∈ S, ∀ d ∈ G.dependents C x, d ∈ S
  names : ∀ x ∈ S, ∀ y ∈ S, C.lower (G.name x) = C.lower (G.name y) → x = y

/-- Every child of the node is one of `ds`. -/
def ChildrenIn (ds : List Cls) (node : ExecutionTreeNode) : Prop :=
  ∀ key name, node.children.get? key = some name →
    ∃ d ∈ ds, key = C.lower (G.name d) ∧ name = G.name d

/-- Each of `ds` is a child of the node. -/
def ChildrenAll (ds : List Cls) (node : ExecutionTreeNode) : Prop :=
  ∀ d ∈ ds, node.children.get? (C.lower (G.name d)) = some (G.name d)

/-- Every node of the cache is that of a class of `S`, with dependents of the class as children. -/
def Sound (S : Set Cls) (cache : NodeCache) : Prop :=
  ∀ key node, cache.get? key = some node →
    ∃ x ∈ S, key = G.name x ∧ node.className = key ∧ ChildrenIn C G (G.dependents C x) node

def Complete (cache : NodeCache) (x : Cls) : Prop :=
  ∃ node, cache.get? (G.name x) = some node ∧ ChildrenAll C G (G.dependents C x) node

/-- All nodes below that of `c`, and itself, are complete. -/
def Closed (cache : NodeCache) (c : Cls) : Prop :=
  ∀ x, Reaches (G.dependents C) c x → Complete C G cache x

end Nodes

/-- `node'` has the children of `node`. -/
def Extends (node node' : ExecutionTreeNode) : Prop :=
  ∀ key name, node.children.get? key = some name → node'.children.get? key = some name

/-- `cache'` has the nodes of `cache`, with their children. -/
def Grows (cache cache' : NodeCache) : Prop :=
  ∀ key node, cache.get? key = some node →
    ∃ node', cache'.get? key = some node' ∧ Extends node node'

theorem Grows.refl (cache : NodeCache) : Grows cache cache :=
  fun _ node h => ⟨node, h, fun _ _ => id⟩

theorem Grows.trans {cache cache' cache'' : NodeCache} (h : Grows cache cache')
    (h' : Grows cache' cache'') : Grows cache cache'' := by
  intro key node hnode
  obtain ⟨node', hnode', hext⟩ := h key node hnode
  obtain ⟨node'', hnode'', hext'⟩ := h' key node' hnode'
  exact ⟨node'', hnode'', fun k name hk => hext' k name (hext k name hk)⟩

section Spec

variable {C : CaseMapping} {G : Classes Cls} {S : Set Cls} {cache cache' : NodeCache} {c d : Cls}
  {ds : List Cls} {node node' child : ExecutionTreeNode}

theorem ChildrenAll.extends (h : ChildrenAll C G ds node) (hext : Extends node node') :
    ChildrenAll C G ds node' :=
  fun d hd => hext _ _ (h d hd)

theorem Closed.grows (h : Closed C G cache c) (hg : Grows cache cache') : Closed C G cache' c := by
  intro x hx
  obtain ⟨node, hnode, hall⟩ := h x hx
  obtain ⟨node', hnode', hext⟩ := hg _ node hnode
  exact ⟨node', hnode', hall.extends hext⟩

/-! One child more. -/

theorem childrenIn_addChild (h : ChildrenIn C G ds node) (hd : d ∈ ds)
    (hchild : child.className = G.name d) : ChildrenIn C G ds (node.addChild C child) := by
  intro key name hget
  rw [ExecutionTreeNode.addChild, Dict.get?_set, hchild] at hget
  split at hget
  · next hkey => exact ⟨d, hd, hkey, (Option.some.inj hget).symm⟩
  · exact h key name hget

/-- A child with the same key is the same child. -/
theorem extends_addChild (hS : Distinct C G S) (hds : ∀ d ∈ ds, d ∈ S) (h : ChildrenIn C G ds node)
    (hd : d ∈ ds) (hchild : child.className = G.name d) : Extends node (node.addChild C child) := by
  intro key name hget
  rw [ExecutionTreeNode.addChild, Dict.get?_set, hchild]
  split
  · next hkey =>
    obtain ⟨d', hd', hkey', rfl⟩ := h key name hget
    obtain rfl := hS.names d (hds d hd) d' (hds d' hd') (hkey.symm.trans hkey')
    rfl
  · exact hget

theorem get?_addChild (hchild : child.className = G.name d) :
    (node.addChild C child).children.get? (C.lower (G.name d)) = some (G.name d) := by
  rw [ExecutionTreeNode.addChild, Dict.get?_set, hchild, if_pos rfl]

/-! The operations on the cache. -/

theorem node_of_get? {name : String} (h : cache.get? name = some node) :
    cache.node name = node := by
  rw [NodeCache.node, h, Option.getD_some]

/-- The node of a class's name is that of the class. -/
theorem Sound.of_get? (h : Sound C G S cache) (hS : Distinct C G S) (hc : c ∈ S)
    (hget : cache.get? (G.name c) = some node) :
    node.className = G.name c ∧ ChildrenIn C G (G.dependents C c) node := by
  obtain ⟨x, hx, hname, hclass, hin⟩ := h _ node hget
  obtain rfl := hS.names c hc x hx (congrArg C.lower hname)
  exact ⟨hclass, hin⟩

theorem enter_spec (h : Sound C G S cache) (hc : c ∈ S) :
    Sound C G S (cache.enter (G.name c)) ∧ Grows cache (cache.enter (G.name c)) ∧
      ∃ node, (cache.enter (G.name c)).get? (G.name c) = some node := by
  rw [NodeCache.enter]
  split
  · next hcontains => exact ⟨h, .refl cache, Dict.contains_iff.mp hcontains⟩
  · next hcontains =>
    refine ⟨fun key node hget => ?_, fun key node hget => ?_, ⟨.empty, G.name c⟩, by simp⟩
    · rw [Dict.get?_set] at hget
      split at hget
      · next hkey =>
        obtain rfl := Option.some.inj hget
        exact ⟨c, hc, hkey, hkey.symm, fun _ _ h => by simp at h⟩
      · exact h key node hget
    · have hne : key ≠ G.name c := by
        rintro rfl
        exact hcontains (Dict.contains_of_get? hget)
      exact ⟨node, by rw [Dict.get?_set, if_neg hne, hget], fun _ _ => id⟩

theorem addChild_spec (hS : Distinct C G S) (h : Sound C G S cache) (hc : c ∈ S)
    (hd : d ∈ G.dependents C c) (hget : cache.get? (G.name c) = some node)
    (hchild : cache.get? (G.name d) = some child) :
    Sound C G S (cache.addChild C (G.name c) (G.name d)) ∧
      Grows cache (cache.addChild C (G.name c) (G.name d)) ∧
      ∃ node', (cache.addChild C (G.name c) (G.name d)).get? (G.name c) = some node' ∧
        ChildrenAll C G [d] node' := by
  obtain ⟨hclass, hin⟩ := h.of_get? hS hc hget
  have hname := (h.of_get? hS (hS.closed c hc d hd) hchild).1
  have hext := extends_addChild hS (hS.closed c hc) hin hd hname
  rw [NodeCache.addChild, node_of_get? hget, node_of_get? hchild]
  refine ⟨fun key n hn => ?_, fun key n hn => ?_, node.addChild C child, by simp, ?_⟩
  · rw [Dict.get?_set] at hn
    split at hn
    · next hkey =>
      obtain rfl := Option.some.inj hn
      exact ⟨c, hc, hkey, hclass.trans hkey.symm, childrenIn_addChild hin hd hname⟩
    · exact h key n hn
  · rw [Dict.get?_set]
    split
    · next hkey =>
      subst hkey
      obtain rfl := Option.some.inj (hget.symm.trans hn)
      exact ⟨_, rfl, hext⟩
    · exact ⟨n, hn, fun _ _ => id⟩
  · intro d' hd'
    rw [List.mem_singleton.mp hd']
    exact get?_addChild hname

/-! ### The traversal -/

variable (C G S) in
/-- `_get_parameter_tree` for `c`, with the recursion limit `m`, completes the nodes below. -/
def Built (m : ℕ) (c : Cls) : Prop :=
  c ∈ S → ∀ cache, Sound C G S cache → ∃ cache', getParameterTree C G m c cache = .ok cache' ∧
    Sound C G S cache' ∧ Grows cache cache' ∧ Closed C G cache' c

/-- The loop over the dependents. -/
theorem foldlM_dependents {m : ℕ} (hS : Distinct C G S) (hc : c ∈ S)
    (hds : ∀ d ∈ ds, d ∈ G.dependents C c ∧ Built C G S m d) (hsound : Sound C G S cache)
    (hnode : ∃ node, cache.get? (G.name c) = some node) :
    ∃ cache', ds.foldlM (fun cache d => do
        let cache ← getParameterTree C G m d cache
        pure (cache.addChild C (G.name c) (G.name d))) cache = .ok cache' ∧
      Sound C G S cache' ∧ Grows cache cache' ∧
      (∃ node, cache'.get? (G.name c) = some node ∧ ChildrenAll C G ds node) ∧
      ∀ d ∈ ds, Closed C G cache' d := by
  induction ds generalizing cache with
  | nil =>
    obtain ⟨node, hnode⟩ := hnode
    exact ⟨cache, rfl, hsound, .refl cache, ⟨node, hnode, by simp [ChildrenAll]⟩, by simp⟩
  | cons d ds ih =>
    obtain ⟨⟨hd, hbuilt⟩, hrest⟩ := List.forall_mem_cons.mp hds
    obtain ⟨cache₁, hrun, hsound₁, hgrows₁, hclosed⟩ := hbuilt (hS.closed c hc d hd) cache hsound
    obtain ⟨node, hnode⟩ := hnode
    obtain ⟨node₁, hnode₁, -⟩ := hgrows₁ _ node hnode
    obtain ⟨child, hchild, -⟩ := hclosed d .refl
    obtain ⟨hsound₂, hgrows₂, node₂, hnode₂, hall₂⟩ :=
      addChild_spec hS hsound₁ hc hd hnode₁ hchild
    obtain ⟨cache', hloop, hsound', hgrows', ⟨node', hnode', hall'⟩, hclosed'⟩ :=
      ih hrest hsound₂ ⟨node₂, hnode₂⟩
    refine ⟨cache', ?_, hsound', (hgrows₁.trans hgrows₂).trans hgrows', ⟨node', hnode', ?_⟩, ?_⟩
    · rw [List.foldlM_cons, hrun]
      exact hloop
    · obtain ⟨node'', hnode'', hext⟩ := hgrows' _ node₂ hnode₂
      obtain rfl := Option.some.inj (hnode'.symm.trans hnode'')
      refine List.forall_mem_cons.mpr ⟨?_, hall'⟩
      exact hext _ _ (hall₂ d (List.mem_singleton_self d))
    · exact List.forall_mem_cons.mpr ⟨(hclosed.grows hgrows₂).grows hgrows', hclosed'⟩

theorem built_succ (hS : Distinct C G S) (m : ℕ) (c : Cls)
    (ih : ∀ d ∈ G.dependents C c, Built C G S m d) : Built C G S (m + 1) c := by
  intro hc cache hsound
  obtain ⟨hsound₀, hgrows₀, hnode₀⟩ := enter_spec hsound hc
  obtain ⟨cache', hloop, hsound', hgrows', hcomplete, hclosed⟩ :=
    foldlM_dependents hS hc (fun d hd => ⟨hd, ih d hd⟩) hsound₀ hnode₀
  refine ⟨cache', hloop, hsound', hgrows₀.trans hgrows', fun x hx => ?_⟩
  rcases hx.cases_head with rfl | ⟨d, hd, hdx⟩
  · exact hcomplete
  · exact hclosed d hd x hdx

theorem built_eventually (hacyclic : Acyclic (G.dependents C)) (hS : Distinct C G S) (c : Cls) :
    ∃ n, ∀ m ≥ n, Built C G S m c :=
  hacyclic.eventually (built_succ hS) c

/-! ### The tree -/

/-- The classes of the parameters that the filter of `get_tree` keeps. -/
def Classes.processors (G : Classes Cls) (c : Cls) : List Cls :=
  ((G.parameters c).filterMap Parameter.cls?).filter fun d => occursIn "Processor" (G.name d)

theorem mem_processors : d ∈ G.processors c ↔
    .cls d ∈ G.parameters c ∧ occursIn "Processor" (G.name d) = true := by
  rw [Classes.processors, List.mem_filter, List.mem_filterMap]
  refine and_congr_left fun _ => ⟨fun h => ?_, fun h => ⟨.cls d, h, rfl⟩⟩
  obtain ⟨p, hp, hcls⟩ := h
  cases p with
  | cls c' => rwa [← Option.some.inj hcls]
  | text s => cases hcls

variable (C G S) in
/-- The root has exactly the classes `ds` as children, and the nodes below it are complete. -/
structure TreeOf (root : Cls) (ds : List Cls) (tree : ExecutionTree) : Prop where
  className : tree.rootNode.className = G.name root
  childrenIn : ChildrenIn C G (G.processors root) tree.rootNode
  childrenAll : ChildrenAll C G ds tree.rootNode
  sound : Sound C G S tree.nodes
  closed : ∀ d ∈ ds, Closed C G tree.nodes d

/-- The loop of `get_tree`. -/
theorem foldlM_addProcessor {m : ℕ} {root : Cls} {tree : ExecutionTree} (hS : Distinct C G S)
    (hprocessors : ∀ d ∈ G.processors root, d ∈ S ∧ Built C G S m d)
    (ps : List (Parameter Cls)) (hps : ∀ p ∈ ps, p ∈ G.parameters root ∧ ∃ d, p = .cls d)
    (h : TreeOf C G S root ds tree) :
    ∃ tree', ps.foldlM (addProcessor C G m) tree = .ok tree' ∧
      TreeOf C G S root
        (ds ++ (ps.filterMap Parameter.cls?).filter fun d => occursIn "Processor" (G.name d))
        tree' := by
  induction ps generalizing tree ds with
  | nil => exact ⟨tree, rfl, by simpa using h⟩
  | cons p ps ih =>
    obtain ⟨⟨hp, d, rfl⟩, hrest⟩ := List.forall_mem_cons.mp hps
    have hcls : Parameter.cls? (.cls d) = some d := rfl
    rw [List.foldlM_cons, List.filterMap_cons_some hcls]
    cases hname : occursIn "Processor" (G.name d) with
    | false =>
      rw [List.filter_cons_of_neg (by simp [hname]), addProcessor, hname]
      exact ih hrest h
    | true =>
      have hd := mem_processors.mpr ⟨hp, hname⟩
      obtain ⟨hdS, hbuilt⟩ := hprocessors d hd
      obtain ⟨nodes, hrun, hsound, hgrows, hclosed⟩ := hbuilt hdS tree.nodes h.sound
      obtain ⟨child, hchild, -⟩ := hclosed d .refl
      have hclass := (hsound.of_get? hS hdS hchild).1
      have hext := extends_addChild hS (fun e he => (hprocessors e he).1) h.childrenIn hd hclass
      have htree : TreeOf C G S root (ds ++ [d]) ⟨tree.rootNode.addChild C child, nodes⟩ :=
        { className := h.className
          childrenIn := childrenIn_addChild h.childrenIn hd hclass
          childrenAll := List.forall_mem_append.mpr
            ⟨h.childrenAll.extends hext, List.forall_mem_singleton.mpr (get?_addChild hclass)⟩
          sound := hsound
          closed := List.forall_mem_append.mpr
            ⟨fun e he => (h.closed e he).grows hgrows, List.forall_mem_singleton.mpr hclosed⟩ }
      have hstep : addProcessor C G m tree (.cls d) =
          .ok ⟨tree.rootNode.addChild C child, nodes⟩ := by
        rw [addProcessor, if_pos hname, hrun, ← node_of_get? hchild]
        rfl
      obtain ⟨tree', hloop, htree'⟩ := ih hrest htree
      rw [List.filter_cons_of_pos (by simp [hname]), hstep]
      exact ⟨tree', hloop, by rwa [List.append_assoc] at htree'⟩

/-- `get_tree` returns the tree of the algorithm class, with every recursion limit that is large
enough. -/
theorem getTree_eventually (hacyclic : Acyclic (G.dependents C)) (hS : Distinct C G S) {root : Cls}
    (hroot : ∀ p ∈ G.parameters root, ∃ d, p = .cls d)
    (hprocessors : ∀ d ∈ G.processors root, d ∈ S) :
    ∃ n, ∀ m ≥ n, ∃ tree, getTree C G m root = .ok tree ∧
      TreeOf C G S root (G.processors root) tree := by
  obtain ⟨n, hn⟩ := eventually_forall_mem (G.processors root) fun d _ =>
    built_eventually hacyclic hS d
  refine ⟨n, fun m hm => ?_⟩
  have hempty : TreeOf C G S root [] ⟨⟨.empty, G.name root⟩, .empty⟩ :=
    ⟨rfl, fun _ _ h => by simp at h, by simp [ChildrenAll], fun _ _ h => by simp at h, by simp⟩
  exact foldlM_addProcessor hS (fun d hd => ⟨hprocessors d hd, hn m hm d hd⟩) (G.parameters root)
    (fun p hp => ⟨hp, hroot p hp⟩) hempty

end Spec

end NexusSdk.Execution
