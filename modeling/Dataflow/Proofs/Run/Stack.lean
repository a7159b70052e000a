/-
# The open pipelines of a run

At every moment of a run the open pipelines are a chain of nested pipelines of the
root: each is the next node of the one around it, stands at its own path, and splits
its children into those behind and those ahead. A node that was skipped had a guard,
and its step says so. In an unambiguous pipeline the table therefore holds, under the
name of a node, what that node gave.
-/

import Dataflow.Proofs.Pipeline.Tree
import Dataflow.Proofs.Run.Machine

namespace Dataflow

/-- The pipeline walks over its children in order, with arguments for its inputs
only. -/
structure Activation.Walks (a : Activation) : Prop where
  /-- Every argument is one of the inputs. -/
  arguments : ∀ name ∈ a.arguments.names, name ∈ a.pipeline.inputs.names
  /-- The nodes behind and those ahead are the children. -/
  nodes : a.past.map Prod.fst ++ a.future = a.pipeline.children

namespace Activation.Walks

variable {a : Activation}

theorem opened {path : String} {q : Pipeline} {table : ValueTable} {arguments : Inputs}
    (harguments : Expr.resolveAll table q.inputs = .ok arguments) :
    (Activation.opened path q arguments).Walks := by
  obtain ⟨values, hvalues, rfl⟩ := Expr.resolveAll_eq_ok.mp harguments
  constructor
  · intro name hname
    have hgiven := Named.mem_names_ofList.mp hname
    rwa [Expr.map_fst_of_resolveFields hvalues] at hgiven
  · rfl

/-- A node that is passed moves from those ahead to those behind. -/
theorem pass {node : Node} {rest : List Node} (h : a.Walks) (hnext : a.future = node :: rest)
    (value : Option Value) : (a.pass node value rest).Walks := by
  constructor
  · exact h.arguments
  · have hnodes := h.nodes
    rw [hnext] at hnodes
    simpa using hnodes

/-- With nothing ahead, the nodes behind are the children. -/
theorem map_past_of_done (h : a.Walks) (hdone : a.future = []) :
    a.past.map Prod.fst = a.pipeline.children := by
  rw [← h.nodes, hdone, List.append_nil]

theorem mem_of_past {node : Node} {value : Option Value} (h : a.Walks)
    (hmem : (node, value) ∈ a.past) : node ∈ a.pipeline.children := by
  rw [← h.nodes]
  exact List.mem_append_left _ (List.mem_map_of_mem hmem)

theorem mem_of_future {node : Node} (h : a.Walks) (hmem : node ∈ a.future) :
    node ∈ a.pipeline.children := by
  rw [← h.nodes]
  exact List.mem_append_right _ hmem

end Activation.Walks

namespace Stack

/-- The open pipelines are a chain of nested pipelines of the root, each the next node
of the one around it. -/
inductive OpenIn (p : Pipeline) : Stack → Prop where
  | root {a : Activation} (hwalks : a.Walks) (hpipeline : a.pipeline = p)
      (hpath : a.path = p.name) : OpenIn p [a]
  | nested {inside a : Activation} {outer : Stack} {rest : List Node}
      (houter : OpenIn p (a :: outer)) (hnext : a.future = .pipeline inside.pipeline :: rest)
      (hpath : inside.path = a.pathOf (.pipeline inside.pipeline)) (hwalks : inside.Walks) :
      OpenIn p (inside :: a :: outer)

variable {p : Pipeline} {stack : Stack}

/-- The innermost pipeline may pass its next node. -/
theorem OpenIn.pass {a : Activation} {outer : Stack} {node : Node} {rest : List Node}
    (h : OpenIn p (a :: outer)) (hnext : a.future = node :: rest) (value : Option Value) :
    OpenIn p (a.pass node value rest :: outer) := by
  cases h with
  | root hwalks hpipeline hpath => exact .root (hwalks.pass hnext value) hpipeline hpath
  | nested houter hinside hpath hwalks =>
    exact .nested houter hinside hpath (hwalks.pass hnext value)

/-- Every open pipeline walks over its children. -/
theorem OpenIn.walks (h : OpenIn p stack) : ∀ a ∈ stack, a.Walks := by
  induction h with
  | root hwalks _ _ =>
    intro a hmem
    rw [List.mem_singleton.mp hmem]
    exact hwalks
  | nested _ _ _ hwalks ih =>
    intro a hmem
    rcases List.mem_cons.mp hmem with rfl | houter
    · exact hwalks
    · exact ih a houter

/-- Every child of an open pipeline is a node of the root, placed at its path. -/
theorem OpenIn.mem_placed (h : OpenIn p stack) :
    ∀ a ∈ stack, ∀ node ∈ a.pipeline.children, (a.pathOf node, node) ∈ p.placed := by
  induction h with
  | root hwalks hpipeline hpath =>
    intro a hmem node hnode
    obtain rfl := List.mem_singleton.mp hmem
    rw [hpipeline] at hnode
    rw [Activation.pathOf, hpath]
    exact Node.mem_placed_of_mem _ hnode
  | @nested inside around outer rest houter hnext hpath hwalks ih =>
    intro a hmem node hnode
    rcases List.mem_cons.mp hmem with rfl | hother
    · have hahead : Node.pipeline a.pipeline ∈ around.future := by simp [hnext]
      have hwalks' := houter.walks around List.mem_cons_self
      have hplaced := ih around List.mem_cons_self _ (hwalks'.mem_of_future hahead)
      rw [← hpath] at hplaced
      exact Node.mem_placed_child _ hplaced hnode
    · exact ih a hother node hnode

theorem OpenIn.mem_nodes (h : OpenIn p stack) {a : Activation} (ha : a ∈ stack) {node : Node}
    (hnode : node ∈ a.pipeline.children) : node ∈ p.nodes :=
  Pipeline.mem_nodes_of_mem_placed (h.mem_placed a ha node hnode)

/-- A pipeline that is open inside another is a node. -/
theorem OpenIn.mem_nodes_of_nested {inside around : Activation} {outer : Stack}
    (h : OpenIn p (inside :: around :: outer)) : .pipeline inside.pipeline ∈ p.nodes := by
  cases h with
  | nested houter hnext _ _ =>
    have hahead : Node.pipeline inside.pipeline ∈ around.future := by simp [hnext]
    have hwalks := houter.walks around List.mem_cons_self
    exact houter.mem_nodes List.mem_cons_self (hwalks.mem_of_future hahead)

/-- Every open pipeline is the root or a node of it. -/
theorem OpenIn.eq_or_mem_nodes (h : OpenIn p stack) :
    ∀ a ∈ stack, a.pipeline = p ∨ .pipeline a.pipeline ∈ p.nodes := by
  induction h with
  | root _ hpipeline _ =>
    intro a hmem
    rw [List.mem_singleton.mp hmem]
    exact .inl hpipeline
  | @nested inside around outer rest houter hnext hpath hwalks ih =>
    intro a hmem
    rcases List.mem_cons.mp hmem with rfl | hother
    · exact .inr (OpenIn.nested houter hnext hpath hwalks).mem_nodes_of_nested
    · exact ih a hother

theorem OpenIn.mem_pipelines (h : OpenIn p stack) {a : Activation} (ha : a ∈ stack) :
    a.pipeline ∈ p.pipelines := by
  rcases h.eq_or_mem_nodes a ha with hroot | hnode
  · rw [hroot]
    exact List.mem_cons_self
  · exact Pipeline.mem_pipelines_of_mem_nodes hnode

/-- What is bound to a name is a binding of an open pipeline. -/
theorem exists_mem_of_get?_table {name : String} {v : Value}
    (hget : (table stack).get? name = some v) : ∃ a ∈ stack, (name, v) ∈ a.bindings := by
  rw [get?_table] at hget
  obtain ⟨a, ha, hfind⟩ := List.exists_of_findSome?_eq_some hget
  exact ⟨a, ha, List.mem_reverse.mp (Named.mem_of_find_eq_some hfind)⟩

/-- What an open pipeline binds to a name is no longer missing. -/
theorem isSome_get?_table {a : Activation} {name : String} {v : Value} (ha : a ∈ stack)
    (hmem : (name, v) ∈ a.bindings) : ((table stack).get? name).isSome := by
  rw [get?_table, binding?, List.findSome?_isSome_iff]
  refine ⟨a, ha, ?_⟩
  rw [Option.isSome_iff_ne_none, ne_eq, Named.find_eq_none_iff, not_not]
  exact List.mem_map.mpr ⟨_, List.mem_reverse.mpr hmem, rfl⟩

/-- A node that completed in an open pipeline has something under its name. -/
theorem isSome_get?_of_mem_past {a : Activation} {node : Node} {v : Value} (ha : a ∈ stack)
    (hmem : (node, some v) ∈ a.past) : ((table stack).get? node.name).isSome :=
  isSome_get?_table ha (List.mem_append_right _ (Activation.mem_completed.mpr ⟨node, hmem, rfl⟩))

/-- In an unambiguous pipeline, what stands under the name of a node or of a reference
was given by a completed node of that name. -/
theorem OpenIn.exists_completed (h : OpenIn p stack) (hp : p.Unambiguous) {name : String}
    {v : Value} (hname : name ∈ p.nodes.map Node.name ∨ name ∈ p.references.map NodeRef.name)
    (hget : (table stack).get? name = some v) :
    ∃ a ∈ stack, ∃ node, (node, some v) ∈ a.past ∧ node.name = name := by
  obtain ⟨a, ha, hmem⟩ := exists_mem_of_get?_table hget
  rcases List.mem_append.mp hmem with hargument | hcompleted
  · have hgiven : name ∈ a.arguments.names := List.mem_map.mpr ⟨_, hargument, rfl⟩
    have hinput := (h.walks a ha).arguments name hgiven
    have hapart := hp.apart a.pipeline (h.mem_pipelines ha) name hinput
    rcases hname with hnode | href
    · exact absurd hnode hapart.1
    · exact absurd href hapart.2
  · exact ⟨a, ha, Activation.mem_completed.mp hcompleted⟩

/-- In an unambiguous pipeline, what stands under the name of a reference was given by
the node that is referred to. -/
theorem OpenIn.exists_referent (h : OpenIn p stack) (hp : p.Unambiguous) {ref : NodeRef}
    {v : Value} (href : ref ∈ p.references) (hget : (table stack).get? ref.name = some v) :
    ∃ a ∈ stack, ∃ node, (node, some v) ∈ a.past ∧ node.ref = ref := by
  obtain ⟨a, ha, node, hmem, hname⟩ :=
    h.exists_completed hp (.inr (List.mem_map_of_mem href)) hget
  have hnode := h.mem_nodes ha ((h.walks a ha).mem_of_past hmem)
  exact ⟨a, ha, node, hmem, hp.faithful ref href node hnode hname⟩

end Stack

namespace Backend

variable {σ : Type} {backend : Backend σ} {p : Pipeline} {s : σ} {m : Moment σ}

/-- The open pipelines of a run are a chain of nested pipelines of the root. -/
theorem Reaches.openIn (h : backend.Reaches p s m) : Stack.OpenIn p m.stack := by
  induction h with
  | start hinputs => exact .root (.opened hinputs) rfl rfl
  | move _ hmove ih =>
    cases hmove with
    | run hnext _ _ => exact ih.pass hnext _
    | skip hnext _ _ => exact ih.pass hnext _
    | enter hnext hinputs _ => exact .nested ih hnext rfl (.opened hinputs)
    | leave _ hnext _ _ =>
      cases ih with
      | nested houter _ _ _ => exact houter.pass hnext _

/-- Every node behind an open pipeline was passed with what it gave at a moment of the run,
and its step was noted. -/
theorem Reaches.exists_yields (h : backend.Reaches p s m) : ∀ a ∈ m.stack, ∀ node value,
    (node, value) ∈ a.past → (∃ passed, backend.Reaches p s passed ∧
      backend.Yields passed node value) ∧ ⟨a.pathOf node, .ofValue value⟩ ∈ m.state.steps := by
  induction h with
  | start hinputs =>
    intro a ha node value hmem
    obtain rfl := List.mem_singleton.mp ha
    simp [Activation.opened] at hmem
  | move hreach hmove ih =>
    intro a ha node value hmem
    rcases hmove.past ha hmem with ⟨before, hbefore, hpath, hpast⟩ | ⟨hyields, hnoted⟩
    · obtain ⟨hpassed, hstep⟩ := ih before hbefore node value hpast
      rw [Activation.pathOf, hpath] at hstep
      exact ⟨hpassed, hmove.steps.mem hstep⟩
    · exact ⟨⟨_, hreach, hyields⟩, hnoted⟩

/-- A node that was skipped had a guard. -/
theorem Reaches.guarded (h : backend.Reaches p s m) {a : Activation} (ha : a ∈ m.stack)
    {node : Node} (hmem : (node, none) ∈ a.past) :
    ∃ q, node = .pipeline q ∧ q.isConditional = true := by
  obtain ⟨⟨passed, -, hyields⟩, -⟩ := h.exists_yields a ha node none hmem
  cases hyields with
  | @skipped _ _ q _ _ _ _ _ hguard =>
    refine ⟨q, rfl, ?_⟩
    unfold Pipeline.isConditional
    cases hcondition : q.condition with
    | none => simp [hcondition, Condition.holds] at hguard
    | some condition => rfl

end Backend

end Dataflow
