/-
# The tree of a pipeline

All nodes of a pipeline, at every depth, with the paths that a run reports for them,
and all expressions in it. A pipeline is unambiguous if a name tells which node is
meant: distinct nodes, in the tree or referenced, have distinct names, and no argument
has the name of a node.
-/

import Dataflow.Pipeline
import Mathlib.Data.List.Nodup

namespace Dataflow

namespace Node

mutual

/-- The nodes inside a node, in the order of declaration, each before what is inside
it. -/
def inner : Node → List Node
  | .component _ => []
  | .pipeline ⟨_, _, children, _, _, _⟩ => listed children

/-- Nodes with everything inside them. -/
def listed : List Node → List Node
  | [] => []
  | child :: rest => child :: (inner child ++ listed rest)

end

mutual

/-- The nodes inside a node at a path, each with its own path. -/
def placedInner (path : String) : Node → List (String × Node)
  | .component _ => []
  | .pipeline ⟨_, _, children, _, _, _⟩ => placed path children

/-- Nodes inside a pipeline at a path, and everything inside them, each with its own
path. -/
def placed (path : String) : List Node → List (String × Node)
  | [] => []
  | child :: rest =>
    (path ++ "/" ++ child.name, child) ::
      (placedInner (path ++ "/" ++ child.name) child ++ placed path rest)

end

/-- A node as expressions see it. -/
def ref : Node → NodeRef
  | .component c => c.ref
  | .pipeline p => p.ref

/-- The guard of a node, if it has one. -/
def guard : Node → Option Condition
  | .component _ => none
  | .pipeline p => p.condition

/-- The expressions that the guard of a node compares. -/
def operands (node : Node) : List Expr :=
  match node.guard with
  | none => []
  | some condition => [condition.left, condition.right]

/-- The return value of a node that is a pipeline and has one. -/
def result : Node → List Expr
  | .component _ => []
  | .pipeline p => p.returnValue.toList

/-- The expressions of a node itself: its inputs, its guard and its return value. -/
def exprs (node : Node) : List Expr :=
  node.inputs.values ++ node.operands ++ node.result

/-- The pipeline that a node is, if it is one. -/
def pipeline? : Node → Option Pipeline
  | .component _ => none
  | .pipeline p => some p

@[simp]
theorem ref_name (node : Node) : node.ref.name = node.name := by
  cases node <;> rfl

theorem operands_of_guard_eq_none {node : Node} (hguard : node.guard = none) :
    node.operands = [] := by
  rw [operands, hguard]

theorem operands_of_guard_eq_some {node : Node} {condition : Condition}
    (hguard : node.guard = some condition) :
    node.operands = [condition.left, condition.right] := by
  rw [operands, hguard]

@[simp]
theorem inner_pipeline (p : Pipeline) : (Node.pipeline p).inner = listed p.children := by
  cases p
  rfl

@[simp]
theorem placedInner_pipeline (path : String) (p : Pipeline) :
    placedInner path (.pipeline p) = placed path p.children := by
  cases p
  rfl

mutual

theorem map_snd_placedInner (path : String) :
    ∀ node : Node, (placedInner path node).map Prod.snd = inner node
  | .component _ => rfl
  | .pipeline ⟨_, _, children, _, _, _⟩ => map_snd_placed path children

theorem map_snd_placed (path : String) :
    ∀ nodes : List Node, (placed path nodes).map Prod.snd = listed nodes
  | [] => rfl
  | child :: rest => by
    simp [placed, listed, map_snd_placedInner _ child, map_snd_placed path rest]

end

/-- What is listed are the nodes themselves and what is inside each of them. -/
theorem perm_listed : ∀ nodes : List Node, (listed nodes).Perm (nodes ++ nodes.flatMap inner)
  | [] => .refl _
  | child :: rest => by
    have hrest : (inner child ++ listed rest).Perm (rest ++ (inner child ++ rest.flatMap inner)) :=
      ((perm_listed rest).append_left _).trans (List.perm_append_comm_assoc _ _ _)
    rw [listed, List.flatMap_cons, List.cons_append]
    exact hrest.cons _

theorem subset_listed (nodes : List Node) : nodes ⊆ listed nodes := fun _ hmem =>
  (perm_listed nodes).mem_iff.mpr (List.mem_append_left _ hmem)

theorem inner_subset_listed {node : Node} {nodes : List Node} (hnode : node ∈ nodes) :
    node.inner ⊆ listed nodes := fun _ hmem =>
  (perm_listed nodes).mem_iff.mpr
    (List.mem_append_right _ (List.mem_flatMap.mpr ⟨node, hnode, hmem⟩))

/-- If everything that is listed has distinct names, so have the nodes themselves. -/
theorem nodup_names_of_listed {nodes : List Node}
    (hdistinct : ((listed nodes).map name).Nodup) : (nodes.map name).Nodup := by
  rw [((perm_listed nodes).map name).nodup_iff, List.map_append, List.nodup_append] at hdistinct
  exact hdistinct.1

/-- If everything that is listed has distinct names, so has everything inside one of the
nodes, and these are not the names of the nodes themselves. -/
theorem nodup_names_inner_of_listed {nodes : List Node}
    (hdistinct : ((listed nodes).map name).Nodup) {node : Node} (hnode : node ∈ nodes) :
    (node.inner.map name).Nodup ∧ ∀ sought ∈ node.inner.map name, sought ∉ nodes.map name := by
  rw [((perm_listed nodes).map name).nodup_iff, List.map_append, List.nodup_append,
    List.map_flatMap, List.nodup_flatMap] at hdistinct
  obtain ⟨-, ⟨hinner, -⟩, hapart⟩ := hdistinct
  refine ⟨hinner node hnode, ?_⟩
  intro sought hsought hmem
  exact hapart sought hmem sought (List.mem_flatMap.mpr ⟨node, hnode, hsought⟩) rfl

mutual

/-- What every pipeline hands on to its nodes, a node hands on to everything inside it. -/
theorem forall_mem_inner {holds : Node → Prop}
    (hchildren : ∀ q, holds (.pipeline q) → ∀ child ∈ q.children, holds child) :
    ∀ node : Node, holds node → ∀ other ∈ inner node, holds other
  | .component _, _ => by simp [inner]
  | .pipeline ⟨_, _, children, _, _, _⟩, hnode =>
    forall_mem_listed hchildren children (hchildren _ hnode)

theorem forall_mem_listed {holds : Node → Prop}
    (hchildren : ∀ q, holds (.pipeline q) → ∀ child ∈ q.children, holds child) :
    ∀ nodes : List Node, (∀ node ∈ nodes, holds node) → ∀ other ∈ listed nodes, holds other
  | [], _ => by simp [listed]
  | first :: rest, hnodes => by
    intro other hother
    rw [listed, List.mem_cons, List.mem_append] at hother
    rcases hother with rfl | hinner | hrest
    · exact hnodes _ List.mem_cons_self
    · exact forall_mem_inner hchildren first (hnodes first List.mem_cons_self) other hinner
    · exact forall_mem_listed hchildren rest
        (fun node hnode => hnodes node (List.mem_cons_of_mem _ hnode)) other hrest

end

theorem mem_placed_of_mem (path : String) {child : Node} {nodes : List Node}
    (hmem : child ∈ nodes) : (path ++ "/" ++ child.name, child) ∈ placed path nodes := by
  induction nodes with
  | nil => simp at hmem
  | cons first rest ih =>
    rw [placed]
    rcases List.mem_cons.mp hmem with rfl | hrest
    · exact List.mem_cons_self
    · exact List.mem_cons_of_mem _ (List.mem_append_right _ (ih hrest))

mutual

/-- The children of a pipeline inside a node are inside the node, one name further
down. -/
theorem mem_placedInner_child : ∀ (node : Node) {path place : String} {q : Pipeline}
    {child : Node}, (place, .pipeline q) ∈ placedInner path node → child ∈ q.children →
      (place ++ "/" ++ child.name, child) ∈ placedInner path node
  | .component _, _, _, _, _, hmem, _ => by simp [placedInner] at hmem
  | .pipeline ⟨_, _, children, _, _, _⟩, _, _, _, _, hmem, hchild =>
    mem_placed_child children hmem hchild

/-- The children of a placed pipeline are placed one name further down. -/
theorem mem_placed_child : ∀ (nodes : List Node) {path place : String} {q : Pipeline}
    {child : Node}, (place, .pipeline q) ∈ placed path nodes → child ∈ q.children →
      (place ++ "/" ++ child.name, child) ∈ placed path nodes
  | [], _, _, _, _, hmem, _ => by simp [placed] at hmem
  | first :: rest, path, place, q, child, hmem, hchild => by
    rw [placed, List.mem_cons, List.mem_append] at hmem ⊢
    rcases hmem with hfirst | hinner | hrest
    · obtain ⟨rfl, rfl⟩ := Prod.mk.inj hfirst
      exact .inr (.inl (by simpa using mem_placed_of_mem _ hchild))
    · exact .inr (.inl (mem_placedInner_child first hinner hchild))
    · exact .inr (.inr (mem_placed_child rest hrest hchild))

end

end Node

namespace Pipeline

/-- All nodes inside a pipeline, each before what is inside it. -/
def nodes (p : Pipeline) : List Node := Node.listed p.children

/-- All nodes inside a pipeline with their paths. -/
def placed (p : Pipeline) : List (String × Node) := Node.placed p.name p.children

/-- A pipeline and all pipelines inside it. -/
def pipelines (p : Pipeline) : List Pipeline := p :: p.nodes.filterMap Node.pipeline?

/-- All expressions in a pipeline: its own inputs and return value, and the
expressions of the nodes inside it. -/
def exprs (p : Pipeline) : List Expr :=
  p.inputs.values ++ p.returnValue.toList ++ p.nodes.flatMap Node.exprs

/-- The nodes that expressions in a pipeline refer to. -/
def references (p : Pipeline) : List NodeRef := p.exprs.flatMap Expr.references

/-- Distinct nodes of the pipeline, in the tree or referenced, have distinct names. -/
structure NamesApart (p : Pipeline) : Prop where
  /-- The nodes in the tree have distinct names. -/
  distinct : (p.nodes.map Node.name).Nodup
  /-- A reference with the name of a node in the tree refers to that node. -/
  faithful : ∀ ref ∈ p.references, ∀ node ∈ p.nodes, node.name = ref.name → node.ref = ref

instance (p : Pipeline) : Decidable p.NamesApart :=
  decidable_of_iff
    ((p.nodes.map Node.name).Nodup ∧
      ∀ ref ∈ p.references, ∀ node ∈ p.nodes, node.name = ref.name → node.ref = ref)
    ⟨fun h => ⟨h.1, h.2⟩, fun h => ⟨h.distinct, h.faithful⟩⟩

/-- A name tells which node of the pipeline is meant. -/
structure Unambiguous (p : Pipeline) : Prop where
  /-- The nodes in the tree have distinct names. -/
  distinct : (p.nodes.map Node.name).Nodup
  /-- A reference with the name of a node in the tree refers to that node. -/
  faithful : ∀ ref ∈ p.references, ∀ node ∈ p.nodes, node.name = ref.name → node.ref = ref
  /-- No argument has the name of a node in the tree or of one that is referenced. -/
  apart : ∀ q ∈ p.pipelines, ∀ name ∈ q.inputs.names,
    name ∉ p.nodes.map Node.name ∧ name ∉ p.references.map NodeRef.name

instance (p : Pipeline) : Decidable p.Unambiguous :=
  decidable_of_iff
    ((p.nodes.map Node.name).Nodup ∧
      (∀ ref ∈ p.references, ∀ node ∈ p.nodes, node.name = ref.name → node.ref = ref) ∧
      ∀ q ∈ p.pipelines, ∀ name ∈ q.inputs.names,
        name ∉ p.nodes.map Node.name ∧ name ∉ p.references.map NodeRef.name)
    ⟨fun h => ⟨h.1, h.2.1, h.2.2⟩, fun h => ⟨h.distinct, h.faithful, h.apart⟩⟩

@[simp]
theorem map_snd_placed (p : Pipeline) : p.placed.map Prod.snd = p.nodes :=
  Node.map_snd_placed p.name p.children

theorem mem_nodes_of_mem_placed {p : Pipeline} {path : String} {node : Node}
    (hmem : (path, node) ∈ p.placed) : node ∈ p.nodes := by
  rw [← map_snd_placed]
  exact List.mem_map_of_mem hmem

theorem mem_pipelines_of_mem_nodes {p q : Pipeline} (hmem : .pipeline q ∈ p.nodes) :
    q ∈ p.pipelines :=
  List.mem_cons_of_mem _ (List.mem_filterMap.mpr ⟨_, hmem, rfl⟩)

theorem mem_exprs_of_mem_nodes {p : Pipeline} {node : Node} {e : Expr} (hnode : node ∈ p.nodes)
    (he : e ∈ node.exprs) : e ∈ p.exprs :=
  List.mem_append_right _ (List.mem_flatMap.mpr ⟨node, hnode, he⟩)

/-- Nodes of one name are one node. -/
theorem Unambiguous.eq_of_name_eq {p : Pipeline} (h : p.Unambiguous) {node other : Node}
    (hnode : node ∈ p.nodes) (hother : other ∈ p.nodes) (hname : node.name = other.name) :
    node = other :=
  List.inj_on_of_nodup_map h.distinct hnode hother hname

end Pipeline

end Dataflow
