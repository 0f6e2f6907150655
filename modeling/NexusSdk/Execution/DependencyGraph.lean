import NexusSdk.Execution.Trees

/-! What a serialized execution tree shows: the edges of the dependency graph below the algorithm
class, each on one line, in the order of the lines and in no other. -/

namespace NexusSdk.Execution

open Lib

variable {Cls : Type} {C : CaseMapping}

/-! ### Lines -/

/-- The name has neither a line feed nor an arrow. -/
def Plain (name : String) : Prop := '\n' ∉ name.toList ∧ occursIn arrow name = false

theorem occursIn_eq_false {w s : String} : occursIn w s = false ↔ ¬ w.toList <:+: s.toList :=
  decide_eq_false_iff_not

theorem toList_asMermaidNode (name : String) : (asMermaidNode C name).toList =
    name.toList.flatMap C.upperChar ++ '[' :: '"' :: (name.toList ++ ['"', ']']) := by
  simp [asMermaidNode, CaseMapping.upper]

theorem mark_of_mem_upper {m : Char} {l : List Char} (hm : m ∈ ['\n', ' ', '-', '>'])
    (h : m ∈ l.flatMap C.upperChar) : m ∈ l := by
  obtain ⟨c, hc, hmc⟩ := List.mem_flatMap.mp h
  obtain ⟨rfl, -⟩ := C.upperChar_mark m hm c hmc
  exact hc

theorem plain_asMermaidNode {name : String} (h : Plain name) : Plain (asMermaidNode C name) := by
  obtain ⟨hfeed, harrow⟩ := h
  rw [occursIn_eq_false] at harrow
  rw [Plain, occursIn_eq_false, toList_asMermaidNode]
  constructor
  · intro hmem
    rcases List.mem_append.mp hmem with hupper | hrest
    · exact hfeed (mark_of_mem_upper (by simp) hupper)
    · simp [hfeed] at hrest
  · intro hocc
    have hmarks : ∀ m ∈ arrow.toList, m ∈ ['\n', ' ', '-', '>'] := by simp [arrow]
    rcases infix_append_cons (by decide) hocc with hupper | hquoted
    · exact harrow (infix_of_infix_flatMap C.upperChar_ne_nil
        (fun m hm => C.upperChar_mark m (hmarks m hm)) hupper)
    rcases infix_append_cons (a := []) (by decide) hquoted with hnil | hname
    · exact absurd hnil (by decide)
    rcases infix_append_cons (by decide) hname with hname | hbracket
    · exact harrow hname
    · exact absurd hbracket (by decide)

theorem nil_of_upper {b sep l : List Char}
    (h : b.flatMap C.upperChar ++ sep = (l ++ b).flatMap C.upperChar ++ sep ++ l) : l = [] := by
  have hlength := congrArg List.length h
  simp only [List.flatMap_append, List.length_append] at hlength
  exact List.eq_nil_of_length_eq_zero (by omega)

/-- The quoted name decides the node. -/
theorem asMermaidNode_injective {a b : String} (h : asMermaidNode C a = asMermaidNode C b) :
    a = b := by
  have hlist := congrArg String.toList h
  rw [toList_asMermaidNode, toList_asMermaidNode] at hlist
  have hquoted : (a.toList.flatMap C.upperChar ++ ['[', '"']) ++ a.toList ++ ['"', ']'] =
      (b.toList.flatMap C.upperChar ++ ['[', '"']) ++ b.toList ++ ['"', ']'] := by
    simpa using hlist
  have hcut := List.append_cancel_right hquoted
  rw [List.append_eq_append_iff] at hcut
  refine String.toList_inj.mp ?_
  rcases hcut with ⟨l, hfront, hback⟩ | ⟨l, hfront, hback⟩
  · rw [hback] at hfront ⊢
    rw [nil_of_upper hfront, List.nil_append]
  · rw [hback] at hfront ⊢
    rw [nil_of_upper hfront, List.nil_append]

theorem plain_edge {a b : String} (ha : Plain a) (hb : Plain b) :
    '\n' ∉ (edgeLine C a b).toList ∧ occursIn arrow (edgeLine C a b) = true := by
  have hlist : (edgeLine C a b).toList =
      (asMermaidNode C a).toList ++ (arrow.toList ++ (asMermaidNode C b).toList) := by
    simp [edgeLine]
  constructor
  · rw [hlist, List.mem_append, List.mem_append]
    rintro (h | h | h)
    · exact (plain_asMermaidNode ha).1 h
    · exact absurd h (by decide)
    · exact (plain_asMermaidNode hb).1 h
  · rw [occursIn, decide_eq_true_iff, hlist]
    exact ⟨(asMermaidNode C a).toList, (asMermaidNode C b).toList, List.append_assoc ..⟩

theorem edgeLine_injective {a b a' b' : String} (ha : Plain a) (ha' : Plain a')
    (h : edgeLine C a b = edgeLine C a' b') : a = a' ∧ b = b' := by
  have hlast (name : String) : ∀ e ∈ (asMermaidNode C name).toList.getLast?, e ∉ arrow.toList := by
    intro e he
    have hend : (asMermaidNode C name).toList =
        (name.toList.flatMap C.upperChar ++ '[' :: '"' :: (name.toList ++ ['"'])) ++ [']'] := by
      simp [toList_asMermaidNode]
    rw [hend, List.getLast?_concat] at he
    obtain rfl := Option.some.inj he
    decide
  have hlist := congrArg String.toList h
  simp only [edgeLine, String.toList_append, List.append_assoc] at hlist
  obtain ⟨hparent, hchild⟩ := eq_of_append_separator
    (occursIn_eq_false.mp (plain_asMermaidNode ha).2)
    (occursIn_eq_false.mp (plain_asMermaidNode ha').2) (hlast a) (hlast a') hlist
  exact ⟨asMermaidNode_injective (String.toList_inj.mp hparent),
    asMermaidNode_injective (String.toList_inj.mp hchild)⟩

/-! ### The text of a node -/

section Nodes

variable {G : Classes Cls} {S : Set Cls} {nodes : NodeCache} {order : SetOrder} {m : ℕ} {c : Cls}
  {ds : List Cls} {node : ExecutionTreeNode}

variable (C G) in
/-- The line of an edge from `c` or a class below it. -/
def LineBelow (c : Cls) (line : String) : Prop :=
  ∃ x y, Reaches (G.dependents C) c x ∧ y ∈ G.dependents C x ∧
    line = edgeLine C (G.name x) (G.name y)

variable (C G order nodes) in
/-- The lines with arrows, in the text of the node of `c`, are those of the edges below. -/
def Serialized (m : ℕ) (c : Cls) : Prop :=
  ∃ text, serializeNode C order nodes m (nodes.node (G.name c)) = .ok text ∧
    ∀ line, occursIn arrow line = true → (line ∈ splitLines text ↔ LineBelow C G c line)

theorem mapM_eq_ok_map {α β ε : Type} {f : α → Except ε β} {g : α → β} {l : List α}
    (h : ∀ a ∈ l, f a = .ok (g a)) : l.mapM f = .ok (l.map g) := by
  induction l with
  | nil => rfl
  | cons a l ih =>
    obtain ⟨ha, hrest⟩ := List.forall_mem_cons.mp h
    rw [List.mapM_cons, ha, ih hrest]
    rfl

/-- A leaf prints its node, which is no edge. -/
theorem serializeNode_leaf (hplain : Plain node.className) (h : node.children.items = []) :
    serializeNode C order nodes (m + 1) node = .ok (asMermaidNode C node.className) ∧
      ∀ line ∈ splitLines (asMermaidNode C node.className), occursIn arrow line = false := by
  constructor
  · rw [serializeNode, h]
    rfl
  · intro line hline
    rw [splitLines_eq_singleton (plain_asMermaidNode hplain).1, List.mem_singleton] at hline
    rw [hline]
    exact (plain_asMermaidNode hplain).2

/-- Another node prints its edges and its children. -/
theorem serializeNode_branch {text : String → String} (h : node.children.items ≠ [])
    (htext : ∀ item ∈ node.children.items, (nodes.node item.2).className = item.2 ∧
      serializeNode C order nodes m (nodes.node item.2) = .ok (text item.2)) :
    ∃ printed, serializeNode C order nodes (m + 1) node = .ok printed ∧
      ∀ line, line ∈ splitLines printed ↔ ∃ item ∈ node.children.items,
        line ∈ splitLines (edgeLine C node.className item.2) ∨ line ∈ splitLines (text item.2) := by
  have hmap : (node.children.items.mapM fun (item : String × String) => do
        let child := nodes.node item.2
        pure [edgeLine C node.className child.className, ← serializeNode C order nodes m child]) =
      (.ok (node.children.items.map fun item =>
        [edgeLine C node.className item.2, text item.2]) : Except PyExc _) := by
    refine mapM_eq_ok_map fun item hitem => ?_
    obtain ⟨hclass, hrun⟩ := htext item hitem
    simp only [hclass, hrun]
    rfl
  have hlength : node.children.items.length ≠ 0 := fun h0 => h (List.eq_nil_of_length_eq_zero h0)
  have hpiece (piece : String) : piece ∈ order.enumerate (node.children.items.map fun item =>
      [edgeLine C node.className item.2, text item.2]).flatten ↔
        ∃ item ∈ node.children.items,
          piece = edgeLine C node.className item.2 ∨ piece = text item.2 := by
    rw [order.mem_enumerate, ← List.flatMap_def, List.mem_flatMap]
    simp
  have hne : order.enumerate (node.children.items.map fun item =>
      [edgeLine C node.className item.2, text item.2]).flatten ≠ [] := by
    obtain ⟨item, hitem⟩ := List.exists_mem_of_ne_nil _ h
    exact List.ne_nil_of_mem ((hpiece _).mpr ⟨item, hitem, .inl rfl⟩)
  refine ⟨_, by
    rw [serializeNode, hmap]
    exact if_neg hlength, fun line => ?_⟩
  rw [splitLines_joinLines hne, List.mem_flatMap]
  constructor
  · rintro ⟨piece, hmem, hline⟩
    obtain ⟨item, hitem, rfl | rfl⟩ := (hpiece piece).mp hmem
    · exact ⟨item, hitem, .inl hline⟩
    · exact ⟨item, hitem, .inr hline⟩
  · rintro ⟨item, hitem, hline | hline⟩
    · exact ⟨_, (hpiece _).mpr ⟨item, hitem, .inl rfl⟩, hline⟩
    · exact ⟨_, (hpiece _).mpr ⟨item, hitem, .inr rfl⟩, hline⟩

/-- A node whose children are the classes `ds` prints the edges to them, and what they print. -/
theorem serializeNode_spec (hplain : Plain node.className) (hin : ChildrenIn C G ds node)
    (hall : ChildrenAll C G ds node)
    (hds : ∀ d ∈ ds, Plain (G.name d) ∧ (nodes.node (G.name d)).className = G.name d ∧
      Serialized C G nodes order m d) :
    ∃ text, serializeNode C order nodes (m + 1) node = .ok text ∧
      ∀ line, occursIn arrow line = true → (line ∈ splitLines text ↔
        ∃ d ∈ ds, line = edgeLine C node.className (G.name d) ∨ LineBelow C G d line) := by
  have hitems (d : Cls) (hd : d ∈ ds) : (C.lower (G.name d), G.name d) ∈ node.children.items :=
    Dict.mem_items_iff.mpr (hall d hd)
  by_cases hempty : node.children.items = []
  · obtain ⟨hrun, hlines⟩ := serializeNode_leaf hplain hempty
    refine ⟨_, hrun, fun line harrow => ⟨fun hline => ?_, fun ⟨d, hd, _⟩ => ?_⟩⟩
    · rw [hlines line hline] at harrow
      cases harrow
    · exact absurd (hempty ▸ hitems d hd) List.not_mem_nil
  · have hof (item : String × String) (hitem : item ∈ node.children.items) :
        ∃ d ∈ ds, item.2 = G.name d := by
      obtain ⟨d, hd, -, hname⟩ := hin item.1 item.2 (Dict.mem_items_iff.mp hitem)
      exact ⟨d, hd, hname⟩
    let text (name : String) := (serializeNode C order nodes m (nodes.node name)).toOption.getD ""
    have htext (d : Cls) (hd : d ∈ ds) :
        serializeNode C order nodes m (nodes.node (G.name d)) = .ok (text (G.name d)) ∧
          ∀ line, occursIn arrow line = true →
            (line ∈ splitLines (text (G.name d)) ↔ LineBelow C G d line) := by
      obtain ⟨printed, hrun, hlines⟩ := (hds d hd).2.2
      have heq : text (G.name d) = printed := by simp only [text, hrun]; rfl
      rw [heq]
      exact ⟨hrun, hlines⟩
    have hchildren : ∀ item ∈ node.children.items, (nodes.node item.2).className = item.2 ∧
        serializeNode C order nodes m (nodes.node item.2) = .ok (text item.2) := by
      intro item hitem
      obtain ⟨d, hd, hname⟩ := hof item hitem
      rw [hname]
      exact ⟨(hds d hd).2.1, (htext d hd).1⟩
    obtain ⟨printed, hrun, hlines⟩ := serializeNode_branch hempty hchildren
    have hedge (d : Cls) (hd : d ∈ ds) (line : String) :
        line ∈ splitLines (edgeLine C node.className (G.name d)) ↔
          line = edgeLine C node.className (G.name d) := by
      rw [splitLines_eq_singleton (plain_edge hplain (hds d hd).1).1, List.mem_singleton]
    refine ⟨printed, hrun, fun line harrow => (hlines line).trans ?_⟩
    constructor
    · rintro ⟨item, hitem, hline⟩
      obtain ⟨d, hd, hname⟩ := hof item hitem
      rw [hname, hedge d hd, (htext d hd).2 line harrow] at hline
      exact ⟨d, hd, hline⟩
    · rintro ⟨d, hd, hline⟩
      refine ⟨_, hitems d hd, ?_⟩
      rwa [hedge d hd, (htext d hd).2 line harrow]

/-- A class and its dependents. -/
theorem serialized_succ (hS : Distinct C G S) (hplain : ∀ x ∈ S, Plain (G.name x))
    (hsound : Sound C G S nodes) (m : ℕ) (c : Cls)
    (ih : ∀ d ∈ G.dependents C c,
      d ∈ S → Closed C G nodes d → Serialized C G nodes order m d) (hc : c ∈ S)
    (hclosed : Closed C G nodes c) : Serialized C G nodes order (m + 1) c := by
  obtain ⟨node, hnode, hall⟩ := hclosed c .refl
  obtain ⟨hclass, hin⟩ := hsound.of_get? hS hc hnode
  have hbelow (d : Cls) (hd : d ∈ G.dependents C c) : Closed C G nodes d :=
    fun x hx => hclosed x (.head hd hx)
  obtain ⟨text, hrun, hlines⟩ := serializeNode_spec (hclass ▸ hplain c hc) hin hall
    fun d hd => by
      have hdS := hS.closed c hc d hd
      obtain ⟨child, hchild, -⟩ := hbelow d hd d .refl
      rw [node_of_get? hchild]
      exact ⟨hplain d hdS, (hsound.of_get? hS hdS hchild).1, ih d hd hdS (hbelow d hd)⟩
  rw [Serialized, node_of_get? hnode]
  refine ⟨text, hrun, fun line harrow => (hlines line harrow).trans ?_⟩
  rw [hclass]
  constructor
  · rintro ⟨d, hd, rfl | ⟨x, y, hx, hy, hline⟩⟩
    · exact ⟨c, d, .refl, hd, rfl⟩
    · exact ⟨x, y, .head hd hx, hy, hline⟩
  · rintro ⟨x, y, hx, hy, hline⟩
    rcases hx.cases_head with rfl | ⟨d, hd, hdx⟩
    · exact ⟨y, hy, .inl hline⟩
    · exact ⟨d, hd, .inr ⟨x, y, hdx, hy, hline⟩⟩

theorem serialized_eventually (hacyclic : Acyclic (G.dependents C)) (hS : Distinct C G S)
    (hplain : ∀ x ∈ S, Plain (G.name x)) (c : Cls) :
    ∃ n, ∀ m ≥ n, ∀ nodes order, Sound C G S nodes → c ∈ S → Closed C G nodes c →
      Serialized C G nodes order m c :=
  hacyclic.eventually (P := fun m c => ∀ nodes order, Sound C G S nodes → c ∈ S →
    Closed C G nodes c → Serialized C G nodes order m c)
    (fun m c ih nodes order hsound => serialized_succ hS hplain hsound m c
      fun d hd => ih d hd nodes order hsound) c

end Nodes

/-! ### The dependency graph -/

section Graph

variable (C : CaseMapping) (G : Classes Cls) (root : Cls)

/-- The edges that are reachable from the algorithm class: to the processors among its parameters,
and from each of these on to the processors and readers among the parameters. -/
inductive Edge : Cls → Cls → Prop
  | processor {d : Cls} (hd : d ∈ G.processors root) : Edge root d
  | dependent {x y z : Cls} (h : Edge x y) (hz : z ∈ G.dependents C y) : Edge y z

/-- The algorithm class, or one that an edge leads to. -/
def Node (x : Cls) : Prop := x = root ∨ ∃ w, Edge C G root w x

/-- What is asked of the classes. -/
structure Admissible : Prop where
  acyclic : Acyclic (G.dependents C)
  names : ∀ x y, Node C G root x → Node C G root y →
    C.lower (G.name x) = C.lower (G.name y) → x = y
  plain : ∀ x, Node C G root x → Plain (G.name x)
  /-- no string annotations at the constructor of the algorithm class -/
  annotations : ∀ p ∈ G.parameters root, ∃ d, p = .cls d

def lineOf (e : Cls × Cls) : String := edgeLine C (G.name e.1) (G.name e.2)

/-- All the edges, each once, in the order of their lines. -/
structure EdgeList (edges : List (Cls × Cls)) : Prop where
  mem_iff : ∀ x y, (x, y) ∈ edges ↔ Edge C G root x y
  nodup : edges.Nodup
  sorted : (edges.map (lineOf C G)).SortedLT

end Graph

variable {G : Classes Cls} {root : Cls}

theorem edge_iff {x y : Cls} : Edge C G root x y ↔ (x = root ∧ y ∈ G.processors root) ∨
    ∃ d ∈ G.processors root, Reaches (G.dependents C) d x ∧ y ∈ G.dependents C x := by
  constructor
  · intro h
    induction h with
    | processor hd => exact .inl ⟨rfl, hd⟩
    | dependent _ hz ih =>
      rcases ih with ⟨-, hy⟩ | ⟨d, hd, hx, hy⟩
      · exact .inr ⟨_, hy, .refl, hz⟩
      · exact .inr ⟨d, hd, hx.tail hy, hz⟩
  · rintro (⟨rfl, hy⟩ | ⟨d, hd, hx, hy⟩)
    · exact .processor hy
    · have hsource : ∃ w, Edge C G root w x := by
        clear hy
        induction hx with
        | refl => exact ⟨root, .processor hd⟩
        | tail _ hy ih =>
          obtain ⟨w, hw⟩ := ih
          exact ⟨_, .dependent hw hy⟩
      obtain ⟨w, hw⟩ := hsource
      exact .dependent hw hy

theorem Admissible.distinct (h : Admissible C G root) :
    Distinct C G { x | ∃ w, Edge C G root w x } where
  closed x hx d hd := by
    obtain ⟨w, hw⟩ := hx
    exact ⟨x, .dependent hw hd⟩
  names x hx y hy := h.names x y (.inr hx) (.inr hy)

theorem Edge.source {x y : Cls} (h : Edge C G root x y) : Node C G root x := by
  cases h with
  | processor _ => exact .inl rfl
  | dependent h _ => exact .inr ⟨_, h⟩

/-- The lines with arrows are those of the edges. -/
theorem lines_iff {line : String} :
    (∃ d ∈ G.processors root, line = edgeLine C (G.name root) (G.name d) ∨ LineBelow C G d line) ↔
      ∃ e : Cls × Cls, Edge C G root e.1 e.2 ∧ line = lineOf C G e := by
  constructor
  · rintro ⟨d, hd, hline | ⟨x, y, hx, hy, hline⟩⟩
    · exact ⟨(root, d), .processor hd, hline⟩
    · exact ⟨(x, y), edge_iff.mpr (.inr ⟨d, hd, hx, hy⟩), hline⟩
  · rintro ⟨⟨x, y⟩, hedge, hline⟩
    rcases edge_iff.mp hedge with ⟨rfl, hy⟩ | ⟨d, hd, hx, hy⟩
    · exact ⟨y, hy, .inl hline⟩
    · exact ⟨d, hd, .inr ⟨x, y, hx, hy, hline⟩⟩

theorem joinLines_header (body : String) :
    joinLines ["graph TB", body] = "graph TB\n" ++ body := by
  rw [joinLines, String.intercalate_cons_cons, String.intercalate_singleton]
  rfl

/-- The sorted serialization: a header, and a sorted list of exactly the lines of the edges. -/
theorem serialize_eventually (h : Admissible C G root) :
    ∃ n, ∀ limit ≥ n, ∃ tree, getTree C G limit root = .ok tree ∧ ∀ order, ∃ lines,
      tree.serialize C order limit true = .ok ("graph TB\n" ++ joinLines lines) ∧
        lines.SortedLT ∧ ∀ line, line ∈ lines ↔
          ∃ e : Cls × Cls, Edge C G root e.1 e.2 ∧ line = lineOf C G e := by
  have hprocessors : ∀ d ∈ G.processors root, d ∈ { x | ∃ w, Edge C G root w x } :=
    fun d hd => ⟨root, .processor hd⟩
  obtain ⟨n₁, hn₁⟩ := getTree_eventually h.acyclic h.distinct h.annotations hprocessors
  obtain ⟨n₂, hn₂⟩ := eventually_forall_mem (G.processors root) fun d _ =>
    serialized_eventually h.acyclic h.distinct (fun x hx => h.plain x (.inr hx)) d
  refine ⟨max n₁ (n₂ + 1), fun limit hlimit => ?_⟩
  obtain ⟨m, rfl⟩ : ∃ m, limit = m + 1 := ⟨limit - 1, by omega⟩
  obtain ⟨tree, htree, hspec⟩ := hn₁ (m + 1) (by omega)
  refine ⟨tree, htree, fun order => ?_⟩
  obtain ⟨text, hrun, hlines⟩ : ∃ text,
      serializeNode C order tree.nodes (m + 1) tree.rootNode = .ok text ∧ _ :=
    serializeNode_spec (hspec.className ▸ h.plain root (.inl rfl)) hspec.childrenIn
      hspec.childrenAll fun d hd => by
        have hdS := hprocessors d hd
        obtain ⟨child, hchild, -⟩ := hspec.closed d hd d .refl
        refine ⟨h.plain d (.inr hdS), ?_,
          hn₂ m (by omega) d hd tree.nodes order hspec.sound hdS (hspec.closed d hd)⟩
        rw [node_of_get? hchild]
        exact (hspec.sound.of_get? h.distinct hdS hchild).1
  refine ⟨((order.enumerate (splitLines text)).filter (occursIn arrow)).insertionSort (· ≤ ·),
    ?_, ?_, fun line => ?_⟩
  · rw [ExecutionTree.serialize, hrun]
    exact congrArg Except.ok (joinLines_header _)
  · exact List.sortedLE_insertionSort.sortedLT_of_nodup
      ((List.perm_insertionSort _ _).nodup_iff.mpr ((order.nodup _).filter _))
  · rw [List.mem_insertionSort, List.mem_filter, order.mem_enumerate, ← lines_iff,
      ← hspec.className]
    constructor
    · rintro ⟨hline, harrow⟩
      exact (hlines line harrow).mp hline
    · intro hline
      have harrow : occursIn arrow line = true := by
        rw [hspec.className] at hline
        obtain ⟨⟨x, y⟩, hedge, rfl⟩ := lines_iff.mp hline
        exact (plain_edge (h.plain x hedge.source) (h.plain y (.inr ⟨x, hedge⟩))).2
      exact ⟨(hlines line harrow).mpr hline, harrow⟩

/-- The lines determine the edges. -/
theorem exists_edgeList (h : Admissible C G root) {lines : List String} (hsorted : lines.SortedLT)
    (hlines : ∀ line, line ∈ lines ↔
      ∃ e : Cls × Cls, Edge C G root e.1 e.2 ∧ line = lineOf C G e) :
    ∃ edges, EdgeList C G root edges ∧ edges.map (lineOf C G) = lines := by
  have hne : Nonempty (Cls × Cls) := ⟨(root, root)⟩
  have hchoice : ∀ line ∈ lines,
      ∃ e : Cls × Cls, Edge C G root e.1 e.2 ∧ line = lineOf C G e :=
    fun line hline => (hlines line).mp hline
  choose! edge hedge hline using hchoice
  have hmap : (lines.map edge).map (lineOf C G) = lines := by
    rw [List.map_map]
    exact (List.map_congr_left fun line hmem => (hline line hmem).symm).trans (List.map_id lines)
  refine ⟨lines.map edge, ⟨fun x y => ?_, ?_, hmap.symm ▸ hsorted⟩, hmap⟩
  · constructor
    · intro hmem
      obtain ⟨line, hmem', heq⟩ := List.mem_map.mp hmem
      have h' := hedge line hmem'
      rwa [heq] at h'
    · intro hxy
      have hmem := (hlines _).mpr ⟨(x, y), hxy, rfl⟩
      have h' := hedge _ hmem
      obtain ⟨hparent, hchild⟩ := edgeLine_injective (h.plain x hxy.source)
        (h.plain _ h'.source) (hline _ hmem)
      refine List.mem_map.mpr ⟨_, hmem, Prod.ext ?_ ?_⟩
      · exact (h.names _ _ hxy.source h'.source (congrArg C.lower hparent)).symm
      · exact (h.names _ _ (.inr ⟨x, hxy⟩) (.inr ⟨_, h'⟩) (congrArg C.lower hchild)).symm
  · exact (hmap.symm ▸ hsorted.nodup : ((lines.map edge).map (lineOf C G)).Nodup).of_map

/-! ### The order of the parameters -/

/-- The same classes, with the parameters of their constructors in another order. -/
structure Reordered (G G' : Classes Cls) : Prop where
  name : G'.name = G.name
  parameters : ∀ c, (G'.parameters c).Perm (G.parameters c)

section Reordered

variable {G' : Classes Cls} {x y : Cls}

theorem Reordered.isNexusInputObjectAnnotation (h : Reordered G G') (p : Parameter Cls) :
    G'.isNexusInputObjectAnnotation C p = G.isNexusInputObjectAnnotation C p := by
  cases p with
  | cls c => simp only [Classes.isNexusInputObjectAnnotation, h.name]
  | text s => rfl

theorem Reordered.mem_dependents (h : Reordered G G') :
    y ∈ G'.dependents C x ↔ y ∈ G.dependents C x := by
  simp only [Classes.dependents, List.mem_filterMap, List.mem_filter, (h.parameters x).mem_iff,
    h.isNexusInputObjectAnnotation]

theorem Reordered.mem_processors (h : Reordered G G') :
    y ∈ G'.processors root ↔ y ∈ G.processors root := by
  rw [Execution.mem_processors, Execution.mem_processors, (h.parameters root).mem_iff, h.name]

theorem Reordered.edge (h : Reordered G G') (hxy : Edge C G' root x y) : Edge C G root x y := by
  induction hxy with
  | processor hd => exact .processor (h.mem_processors.mp hd)
  | dependent _ hz ih => exact .dependent ih (h.mem_dependents.mp hz)

theorem Reordered.symm (h : Reordered G G') : Reordered G' G :=
  ⟨h.name.symm, fun c => (h.parameters c).symm⟩

theorem Reordered.edge_iff (h : Reordered G G') : Edge C G' root x y ↔ Edge C G root x y :=
  ⟨h.edge, h.symm.edge⟩

theorem Admissible.reordered (h : Admissible C G root) (hr : Reordered G G') :
    Admissible C G' root := by
  have hnode (x : Cls) (hx : Node C G' root x) : Node C G root x :=
    hx.imp_right fun ⟨w, hw⟩ => ⟨w, hr.edge hw⟩
  refine ⟨?_, fun x y hx hy heq => ?_, fun x hx => ?_, fun p hp => ?_⟩
  · exact Subrelation.wf (fun hyx => hr.mem_dependents.mp hyx) h.acyclic
  · rw [hr.name] at heq
    exact h.names x y (hnode x hx) (hnode y hy) heq
  · rw [hr.name]
    exact h.plain x (hnode x hx)
  · exact h.annotations p ((hr.parameters root).mem_iff.mp hp)

end Reordered

/-- The order in which a set of strings is iterated may be that of the last insertions. -/
def SetOrder.byInsertion : SetOrder where
  enumerate := List.dedup
  nodup := List.nodup_dedup
  mem_enumerate _ _ := List.mem_dedup

/-- `get_tree` and the sorted serialization return, and the text is the header with the list of the
edges, whatever the order of parameters and of sets. -/
theorem execution_tree_is_dependency_graph (C : CaseMapping) (G : Classes Cls) (root : Cls)
    (h : Admissible C G root) :
    ∃ edges, EdgeList C G root edges ∧ ∀ G', Reordered G G' →
      ∃ n, ∀ limit ≥ n, ∃ tree, getTree C G' limit root = .ok tree ∧ ∀ order,
        tree.serialize C order limit true =
          .ok ("graph TB\n" ++ joinLines (edges.map (lineOf C G))) := by
  obtain ⟨n₀, hn₀⟩ := serialize_eventually h
  obtain ⟨tree₀, -, htree₀⟩ := hn₀ n₀ le_rfl
  obtain ⟨lines, -, hsorted, hlines⟩ := htree₀ .byInsertion
  obtain ⟨edges, hedges, rfl⟩ := exists_edgeList h hsorted hlines
  refine ⟨edges, hedges, fun G' hr => ?_⟩
  obtain ⟨n, hn⟩ := serialize_eventually (h.reordered hr)
  refine ⟨n, fun limit hlimit => ?_⟩
  obtain ⟨tree, htree, hserialize⟩ := hn limit hlimit
  refine ⟨tree, htree, fun order => ?_⟩
  obtain ⟨lines', hrun, hsorted', hlines'⟩ := hserialize order
  have heq : lines' = edges.map (lineOf C G) := by
    refine hsorted'.eq_of_mem_iff hsorted fun line => ?_
    rw [hlines', hlines]
    simp only [hr.edge_iff, lineOf, hr.name]
  rw [hrun, heq]

/-! ### An algorithm with a shared processor -/

/-- The upper-case form of a letter is a letter. -/
theorem eq_of_toUpper_eq_mark {c m : Char} (hm : m ∈ ['\n', ' ', '-', '>'])
    (h : c.toUpper = m) : c = m := by
  rw [← h]
  unfold Char.toUpper at h ⊢
  split at h
  · next hletter =>
    have hval := congrArg (fun d : Char => d.val.toNat) h
    have hmark : ∀ m ∈ ['\n', ' ', '-', '>'], m.val.toNat < 65 := by simp
    have hlow : 97 ≤ c.val.toNat := hletter.1
    have hhigh : c.val.toNat ≤ 122 := hletter.2
    have hshift : ('A'.val - 'a'.val).toNat = 2 ^ 32 - 32 := by decide
    have hm65 := hmark m hm
    simp only [UInt32.toNat_add] at hval
    omega
  · next hletter => rw [dif_neg hletter]

/-- The case mapping of ASCII letters. -/
def asciiCase : CaseMapping where
  upperChar c := [c.toUpper]
  lower s := .ofList (s.toList.map Char.toLower)
  upperChar_ne_nil c := List.cons_ne_nil _ _
  upperChar_mark m hm c hc := by
    have hupper := (List.mem_singleton.mp hc).symm
    exact ⟨eq_of_toUpper_eq_mark hm hupper, by rw [hupper]⟩

inductive SampleClass
  | algorithm | metricsProvider | zProcessor | zzProcessor | zSampleReader
  deriving DecidableEq

/-- The algorithm takes both processors, of which one takes the other; a reader takes an unresolved
list of readers. -/
def sampleClasses : Classes SampleClass where
  name
    | .algorithm => "TestMinimalisticAlgorithm"
    | .metricsProvider => "MetricsProvider"
    | .zProcessor => "ZProcessor"
    | .zzProcessor => "ZZProcessor"
    | .zSampleReader => "ZSampleReader"
  parameters
    | .algorithm => [.cls .metricsProvider, .cls .zProcessor, .cls .zzProcessor]
    | .metricsProvider => []
    | .zProcessor => [.cls .zSampleReader, .cls .metricsProvider]
    | .zzProcessor => [.cls .zProcessor, .cls .metricsProvider]
    | .zSampleReader => [.cls .metricsProvider, .text "InputReader"]

theorem sampleClasses_admissible : Admissible asciiCase sampleClasses .algorithm where
  acyclic := by
    let rank : SampleClass → Nat
      | .zSampleReader | .metricsProvider => 0
      | .zProcessor => 1
      | .zzProcessor => 2
      | .algorithm => 3
    refine .of_rank rank fun x => ?_
    cases x <;> decide +kernel
  names x y _ _ := by
    cases x <;> cases y <;> decide +kernel
  plain x _ := by cases x <;> exact ⟨by decide +kernel, by decide +kernel⟩
  annotations := by
    refine List.forall_mem_cons.mpr ⟨⟨_, rfl⟩, List.forall_mem_cons.mpr ⟨⟨_, rfl⟩, ?_⟩⟩
    exact List.forall_mem_singleton.mpr ⟨_, rfl⟩

theorem execution_tree_is_dependency_graph_sampleClasses :
    ∃ edges, EdgeList asciiCase sampleClasses .algorithm edges ∧
      ∀ G', Reordered sampleClasses G' →
        ∃ n, ∀ limit ≥ n, ∃ tree, getTree asciiCase G' limit .algorithm = .ok tree ∧ ∀ order,
          tree.serialize asciiCase order limit true =
            .ok ("graph TB\n" ++ joinLines (edges.map (lineOf asciiCase sampleClasses))) :=
  execution_tree_is_dependency_graph asciiCase sampleClasses .algorithm sampleClasses_admissible

end NexusSdk.Execution
