/-
# Inputs of traced nodes

The inputs of a node are put under their names one after another: a component from a definition
has one for each parameter, an operator one for each operand, and a pipeline one for each
argument. So no name occurs twice among the inputs of a node of a traced pipeline, at whatever
depth.
-/

import Dataflow.Proofs.Tracer.Frames
import Dataflow.Proofs.Tracer.Recorded

namespace Dataflow

/-- A node whose inputs have distinct names, as those of all nodes inside it have. -/
inductive Node.Labelled : Node → Prop where
  | component {c : Component} (hinputs : c.inputs.Distinct) : Labelled (.component c)
  | pipeline {q : Pipeline} (hinputs : q.inputs.Distinct)
      (hchildren : ∀ child ∈ q.children, Labelled child) : Labelled (.pipeline q)

theorem Node.Labelled.distinct {node : Node} (h : node.Labelled) : node.inputs.Distinct := by
  cases h with
  | component hinputs => exact hinputs
  | pipeline hinputs _ => exact hinputs

theorem Node.Labelled.children {q : Pipeline} (h : (Node.pipeline q).Labelled) :
    ∀ child ∈ q.children, child.Labelled := by
  cases h with
  | pipeline _ hchildren => exact hchildren

theorem ComponentDef.distinct_of_bindAll {d : ComponentDef} {given bound inputs : Named Expr}
    {parameters : List Parameter} (hbound : bound.Distinct)
    (hbind : d.bindAll given bound parameters = .ok inputs) : inputs.Distinct := by
  induction parameters generalizing given bound with
  | nil =>
    rw [bindAll] at hbind
    rwa [← Except.ok.inj hbind]
  | cons parameter rest ih =>
    rw [bindAll] at hbind
    split at hbind
    · cases hbind
    · split at hbind
      · cases hbind
      · split at hbind
        · exact ih (hbound.insert _ _) hbind
        · cases hbind

/-- What a component is given has distinct names, even where its parameters have not. -/
theorem ComponentDef.distinct_of_bind {d : ComponentDef} {arguments : List (String × Expr)}
    {inputs : Named Expr} (hbind : d.bind arguments = .ok inputs) : inputs.Distinct := by
  unfold bind at hbind
  split at hbind
  · cases hbind
  · exact distinct_of_bindAll Named.distinct_empty hbind

theorem PipelineDef.distinct_of_bindAll {d : PipelineDef} {bound inputs : Named Expr}
    {arguments : List (String × Expr)} (hbound : bound.Distinct)
    (hbind : d.bindAll bound arguments = .ok inputs) : inputs.Distinct := by
  induction arguments generalizing bound with
  | nil =>
    rw [bindAll] at hbind
    rwa [← Except.ok.inj hbind]
  | cons argument rest ih =>
    rw [bindAll] at hbind
    split at hbind
    · cases hbind
    · split at hbind
      · cases hbind
      · split at hbind
        · cases hbind
        · exact ih (hbound.insert _ _) hbind

/-- A recorded component has inputs of distinct names. -/
theorem Component.Recorded.distinct {c : Component} (h : c.Recorded) : c.inputs.Distinct := by
  cases h with
  | call hcall => exact ComponentDef.distinct_of_bind (Tracer.bind_of_call hcall)
  | @apply t t' operator operands happly =>
    obtain ⟨overload, -, hinputs⟩ := Tracer.exists_of_apply happly
    rw [hinputs, Named.Distinct, Named.names, List.map_fst_zip (by simp [Operator.operandNames])]
    exact Operator.nodup_operandNames operands.length

/-- A frame is prepared with inputs of distinct names. -/
theorem Tracer.distinct_of_prepare {t : Tracer} {opening : Opening} {frame : Frame}
    {declared : Option ValueType} (hprepare : (t.prepare opening).1 = .ok (frame, declared)) :
    frame.inputs.Distinct := by
  cases opening with
  | invoke d arguments =>
    rw [prepare] at hprepare
    split at hprepare
    · cases hprepare
    · rename_i inputs hbind
      cases hprepare
      exact PipelineDef.distinct_of_bindAll Named.distinct_empty hbind
  | scope base | guarded condition =>
    cases hprepare
    exact Named.distinct_empty
  | dependsOn dependencies =>
    rw [prepare] at hprepare
    split at hprepare
    · cases hprepare
    · cases hprepare
      exact Named.distinct_empty

/-- The inputs of a traced pipeline and of all nodes in it have distinct names. -/
theorem Pipeline.Traced.labelled {p : Pipeline} (h : p.Traced) : (Node.pipeline p).Labelled := by
  refine h.holds (fun c hrecorded => .component hrecorded.distinct) fun q hfilled => ?_
  cases hfilled with
  | intro hprepare hadded hclose =>
    obtain ⟨returns, rfl, -⟩ := Frame.exists_of_close hclose
    have hinputs := Tracer.distinct_of_prepare hprepare
    exact .pipeline hinputs hadded

end Dataflow
