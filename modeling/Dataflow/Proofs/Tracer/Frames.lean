/-
# What scripts do to open pipelines

Every operation of a tracer leaves the open pipelines as they are, but for nodes that
it appends to the innermost one: a recorded component, or a pipeline whose frame was
opened, filled by a script and closed. So every node in a traced pipeline was recorded
from a definition or an operator, or is a closed frame of such nodes.
-/

import Dataflow.Proofs.Expr.Soundness
import Dataflow.Proofs.Pipeline.Tree
import Dataflow.Tracer.Script

namespace Dataflow

/-- Open pipelines with further nodes in the innermost one. With none open there is
nothing to put them in. -/
def Frame.extend : List Frame → List Node → List Frame
  | [], _ => []
  | frame :: outer, added => { frame with children := frame.children ++ added } :: outer

/-- The return value of a pipeline was checked: there is one exactly if there is a type,
and the type accepts the one inferred for it. -/
def Pipeline.Checked (q : Pipeline) : Prop :=
  match q.returns with
  | none => q.returnValue = none
  | some type => ∃ e found, q.returnValue = some e ∧ e.infer = .ok found ∧ type.accepts found

namespace Frame

@[simp]
theorem extend_nil (frames : List Frame) : extend frames [] = frames := by
  cases frames with
  | nil => rfl
  | cons frame outer => simp [extend]

@[simp]
theorem extend_extend (frames : List Frame) (first second : List Node) :
    extend (extend frames first) second = extend frames (first ++ second) := by
  cases frames with
  | nil => rfl
  | cons frame outer => simp [extend]

/-- A closed frame becomes a pipeline of its own name, inputs, children and guard, whose
return value was checked. -/
theorem exists_of_close {frame : Frame} {declared : Option ValueType}
    {returnValue : Option Expr} {q : Pipeline} (hclose : frame.close declared returnValue = .ok q) :
    ∃ returns, q = ⟨frame.name, frame.inputs, frame.children, returnValue, returns,
      frame.condition⟩ ∧ q.Checked := by
  unfold close at hclose
  split at hclose
  · rw [← Except.ok.inj hclose]
    exact ⟨none, rfl, rfl⟩
  · rename_i e
    cases htype : e.typeOf with
    | error fault => simp [htype, Except.map] at hclose
    | ok found =>
      simp only [htype, Except.map, Except.ok.injEq] at hclose
      rw [← hclose]
      exact ⟨some found, rfl, e, found, rfl, Expr.typeOf_eq_ok.mp htype,
        ValueType.accepts_self found⟩
  · simp at hclose
  · rename_i type e
    cases htype : e.typeOf with
    | error fault => simp [htype] at hclose
    | ok found =>
      simp only [htype] at hclose
      split at hclose
      · rename_i haccepts
        rw [← Except.ok.inj hclose]
        exact ⟨some type, rfl, e, found, rfl, Expr.typeOf_eq_ok.mp htype, haccepts⟩
      · simp at hclose

theorem children_of_close {frame : Frame} {declared : Option ValueType}
    {returnValue : Option Expr} {q : Pipeline} (hclose : frame.close declared returnValue = .ok q) :
    q.children = frame.children := by
  obtain ⟨returns, rfl, -⟩ := exists_of_close hclose
  rfl

end Frame

/-- A component that a tracer has recorded, from a definition or for an operator. -/
inductive Component.Recorded (c : Component) : Prop where
  | call {t t' : Tracer} {d : ComponentDef} {arguments : List (String × Expr)}
      (hcall : t.call d arguments = (.ok c, t'))
  | apply {t t' : Tracer} {operator : Operator} {operands : List Expr}
      (happly : t.apply operator operands = (.ok c, t'))

/-- A node that tracing can build: a recorded component, or a closed frame of nodes that
tracing can build. -/
inductive Node.Built : Node → Prop where
  | component {c : Component} (hrecorded : c.Recorded) : Built (.component c)
  | pipeline {frame : Frame} {declared : Option ValueType} {returnValue : Option Expr}
      {q : Pipeline} (hclose : frame.close declared returnValue = .ok q)
      (hchildren : ∀ child ∈ frame.children, Built child) : Built (.pipeline q)

/-- A pipeline that tracing returns, whatever is open around it and whatever the script
of its body does. -/
def Pipeline.Traced (p : Pipeline) : Prop :=
  ∃ (σ : Type) (opening : Opening) (body : Args → Script σ (Option Expr)) (t : Tracer) (s : σ),
    ((Script.nest opening body).run t s).1 = .ok p

/-- A pipeline that was made of a frame, as a tracer prepared it, with nodes in it of which
something holds. -/
inductive Pipeline.Filled (holds : Node → Prop) (q : Pipeline) : Prop where
  | intro {t : Tracer} {opening : Opening} {frame : Frame} {declared : Option ValueType}
      {added : List Node} {returnValue : Option Expr}
      (hprepare : (t.prepare opening).1 = .ok (frame, declared))
      (hadded : ∀ node ∈ added, holds node)
      (hclose : Frame.close { frame with children := added } declared returnValue = .ok q) :
      Filled holds q

theorem Pipeline.Filled.built {q : Pipeline} (h : q.Filled Node.Built) :
    (Node.pipeline q).Built := by
  cases h with
  | intro hprepare hadded hclose => exact .pipeline hclose hadded

namespace Tracer

/-- Naming a node draws random digits at most. -/
theorem exists_nodeName_eq (t : Tracer) (explicit : Option String) (base : String) :
    ∃ entropy, (t.nodeName explicit base).2 = { t with entropy } := by
  cases explicit with
  | none => exact ⟨_, rfl⟩
  | some name => exact ⟨t.entropy, rfl⟩

@[simp]
theorem nodeName_frames (t : Tracer) (explicit : Option String) (base : String) :
    (t.nodeName explicit base).2.frames = t.frames := by
  obtain ⟨entropy, hnamed⟩ := t.exists_nodeName_eq explicit base
  rw [hnamed]

/-- A recorded node is appended to the innermost open pipeline. -/
theorem frames_of_record {t t' : Tracer} {node : Node} (hrecord : t.record node = .ok t') :
    t'.frames = Frame.extend t.frames [node] := by
  unfold record at hrecord
  split at hrecord
  · rename_i hframes
    rw [← Except.ok.inj hrecord, hframes]
    rfl
  · rename_i frame outer hframes
    split at hrecord
    · simp at hrecord
    · rw [← Except.ok.inj hrecord, hframes]
      rfl

/-- What an operation does to the open pipelines that makes a node: it appends the node
if it succeeds, and nothing if it fails. -/
def Appends (t : Tracer) {α : Type} (node : α → Node) (made : Except GraphError α × Tracer) :
    Prop :=
  match made with
  | (.ok a, t') => t'.frames = Frame.extend t.frames [node a]
  | (.error _, t') => t'.frames = t.frames

/-- Recording a node where the same pipelines are open appends it. -/
theorem appends_recordAs {t named : Tracer} (hframes : named.frames = t.frames) {α : Type}
    (node : α → Node) (made : α) : t.Appends node (named.recordAs node made) := by
  unfold recordAs
  cases hrecord : named.record (node made) with
  | error fault => exact hframes
  | ok recorded =>
    have hrecorded := frames_of_record hrecord
    rwa [hframes] at hrecorded

/-- A call appends the component that it makes. -/
theorem appends_call (t : Tracer) (d : ComponentDef) (arguments : List (String × Expr)) :
    t.Appends .component (t.call d arguments) := by
  unfold call
  split
  · rfl
  · split
    · rfl
    · exact appends_recordAs (nodeName_frames t _ _) _ _

/-- A call with arguments in order fails before it does anything, or is a call with named
arguments. -/
theorem callPositional_cases (t : Tracer) (d : ComponentDef) (arguments : List Expr) :
    (∃ fault, t.callPositional d arguments = (.error fault, t)) ∨
      ∃ named, t.callPositional d arguments = t.call d named := by
  unfold callPositional
  cases d.nameArguments arguments with
  | error fault => exact .inl ⟨fault, rfl⟩
  | ok named => exact .inr ⟨named, rfl⟩

theorem appends_callPositional (t : Tracer) (d : ComponentDef) (arguments : List Expr) :
    t.Appends .component (t.callPositional d arguments) := by
  rcases t.callPositional_cases d arguments with ⟨fault, hcall⟩ | ⟨named, hcall⟩ <;> rw [hcall]
  · rfl
  · exact appends_call t d named

theorem appends_apply (t : Tracer) (operator : Operator) (operands : List Expr) :
    t.Appends .component (t.apply operator operands) := by
  unfold apply
  split
  · rfl
  · have hnamed := nodeName_frames t none operator.name
    split
    rename_i name named hname
    rw [hname] at hnamed
    exact appends_recordAs hnamed _ _

/-- Making the guard of a dependency scope draws random digits at most. -/
theorem exists_dependencyGuard_eq (t : Tracer) (dependencies : List Expr) :
    ∃ entropy, (t.dependencyGuard dependencies).2 = { t with entropy } := by
  unfold dependencyGuard
  split
  · exact ⟨t.entropy, rfl⟩
  · exact ⟨_, rfl⟩

/-- Preparing to open a pipeline draws random digits at most. -/
theorem exists_prepare_eq (t : Tracer) (opening : Opening) :
    ∃ entropy, (t.prepare opening).2 = { t with entropy } := by
  cases opening with
  | invoke d arguments =>
    rw [prepare]
    cases d.bind arguments with
    | error fault => exact ⟨t.entropy, rfl⟩
    | ok inputs => exact t.exists_nodeName_eq d.explicitName d.function
  | scope base => exact t.exists_nodeName_eq none base
  | guarded condition => exact t.exists_nodeName_eq none "condition"
  | dependsOn dependencies =>
    obtain ⟨entropy, hdrawn⟩ := t.exists_dependencyGuard_eq dependencies
    rw [prepare]
    split
    · rename_i hguard
      rw [hguard] at hdrawn
      exact ⟨entropy, hdrawn⟩
    · rename_i drawn hguard
      rw [hguard] at hdrawn
      obtain rfl : drawn = { t with entropy } := hdrawn
      exact Tracer.exists_nodeName_eq { t with entropy } none "depends-on"

theorem prepare_frames (t : Tracer) (opening : Opening) :
    (t.prepare opening).2.frames = t.frames := by
  obtain ⟨entropy, hprepared⟩ := t.exists_prepare_eq opening
  rw [hprepared]

theorem children_of_prepare {t : Tracer} {opening : Opening} {frame : Frame}
    {declared : Option ValueType} (hprepare : (t.prepare opening).1 = .ok (frame, declared)) :
    frame.children = [] := by
  cases opening with
  | invoke d arguments =>
    rw [prepare] at hprepare
    split at hprepare
    · simp at hprepare
    · cases hprepare
      rfl
  | scope base | guarded condition =>
    cases hprepare
    rfl
  | dependsOn dependencies =>
    rw [prepare] at hprepare
    split at hprepare
    · simp at hprepare
    · cases hprepare
      rfl

/-- Closing the innermost pipeline appends it to the one around it. -/
theorem appends_pop {t around : Tracer} {frame : Frame}
    (hframes : t.frames = frame :: around.frames) (declared : Option ValueType)
    (ended : Except GraphError (Option Expr)) :
    around.Appends .pipeline (t.pop declared ended) := by
  unfold pop
  rw [hframes]
  cases ended with
  | error fault => rfl
  | ok returnValue =>
    simp only
    cases frame.close declared returnValue with
    | error fault => rfl
    | ok q => exact appends_recordAs rfl _ q

/-- A pipeline that was closed comes from its frame. -/
theorem close_of_pop {t : Tracer} {frame : Frame} {outer : List Frame}
    {declared : Option ValueType} {ended : Except GraphError (Option Expr)} {q : Pipeline}
    (hframes : t.frames = frame :: outer) (hpop : (t.pop declared ended).1 = .ok q) :
    ∃ returnValue, frame.close declared returnValue = .ok q := by
  unfold pop at hpop
  rw [hframes] at hpop
  cases ended with
  | error fault => simp at hpop
  | ok returnValue =>
    refine ⟨returnValue, ?_⟩
    cases hclose : frame.close declared returnValue with
    | error fault => simp [hclose] at hpop
    | ok closed =>
      simp only [hclose, recordAs] at hpop
      split at hpop
      · exact hpop
      · simp at hpop

end Tracer

namespace Script

variable {σ α : Type}

/-- What holds between a tracer and what a script makes of it: it holds where the same
pipelines are open under the same settings, from part to part, for every node that is made,
and for a nested pipeline if it holds for the scripts of its body. -/
theorem relates_run {relates : Tracer → Tracer → Prop}
    (hsame : ∀ t t' : Tracer, t'.frames = t.frames → t'.settings = t.settings → relates t t')
    (htrans : ∀ t t' t'', relates t t' → relates t' t'' → relates t t'')
    (hcall : ∀ t d arguments, relates t (t.call d arguments).2)
    (happly : ∀ t operator operands, relates t (t.apply operator operands).2)
    (hnest : ∀ (opening : Opening) (body : Args → Script σ (Option Expr)),
      (∀ arguments t s, relates t ((body arguments).run t s).2.1) →
        ∀ t s, relates t ((nest opening body).run t s).2.1)
    (script : Script σ α) (t : Tracer) (s : σ) : relates t (script.run t s).2.1 := by
  induction script generalizing t s with
  | result a | fail fault => exact hsame t t rfl rfl
  | andThen first next hfirst hnext =>
    have hbetween := hfirst t s
    rw [run]
    split
    · rename_i hrun
      rwa [hrun] at hbetween
    · rename_i a t' s' hrun
      rw [hrun] at hbetween
      exact htrans t t' _ hbetween (hnext a t' s')
  | attempt script ih => exact ih t s
  | withState use | inspect look => exact hsame t t rfl rfl
  | register operator overload => exact hsame t _ rfl rfl
  | call d arguments => exact hcall t d arguments
  | callPositional d arguments =>
    have hpositional : relates t (t.callPositional d arguments).2 := by
      rcases t.callPositional_cases d arguments with ⟨fault, hfails⟩ | ⟨named, hnamed⟩
      · rw [hfails]
        exact hsame t t rfl rfl
      · rw [hnamed]
        exact hcall t d named
    exact hpositional
  | apply operator operands => exact happly t operator operands
  | nest opening body hbody => exact hnest opening body hbody t s

/-- What a part of a script does to the open pipelines: it appends nodes of which something
holds, and nothing else. -/
def Adds (holds : Node → Prop) (t t' : Tracer) : Prop :=
  ∃ added, t'.frames = Frame.extend t.frames added ∧ ∀ node ∈ added, holds node

variable {holds : Node → Prop}

theorem Adds.of_frames_eq {t t' : Tracer} (hframes : t'.frames = t.frames) : Adds holds t t' :=
  ⟨[], by simp [hframes], by simp⟩

theorem Adds.trans {t t' t'' : Tracer} (hfirst : Adds holds t t') (hsecond : Adds holds t' t'') :
    Adds holds t t'' := by
  obtain ⟨added, hframes, hadded⟩ := hfirst
  obtain ⟨further, hframes', hfurther⟩ := hsecond
  refine ⟨added ++ further, ?_, ?_⟩
  · rw [hframes', hframes, Frame.extend_extend]
  · intro node hnode
    rcases List.mem_append.mp hnode with hfirst | hsecond
    · exact hadded node hfirst
    · exact hfurther node hsecond

/-- An operation that makes a node of which this holds adds it. -/
theorem Adds.of_appends {t : Tracer} {node : α → Node} {made : Except GraphError α × Tracer}
    (happends : t.Appends node made) (hholds : ∀ a, made.1 = .ok a → holds (node a)) :
    Adds holds t made.2 := by
  obtain ⟨result, t'⟩ := made
  cases result with
  | error fault => exact .of_frames_eq happends
  | ok a =>
    refine ⟨[node a], happends, ?_⟩
    intro other hother
    rw [List.mem_singleton.mp hother]
    exact hholds a rfl

/-- A nested pipeline is appended, and it was filled with what the script of its body adds. -/
theorem appends_nest {opening : Opening} {body : Args → Script σ (Option Expr)}
    (hbody : ∀ arguments t s, Adds holds t ((body arguments).run t s).2.1) (t : Tracer) (s : σ) :
    t.Appends .pipeline
        (((nest opening body).run t s).1, ((nest opening body).run t s).2.1) ∧
      ∀ q, ((nest opening body).run t s).1 = .ok q → q.Filled holds := by
  have hprepared := t.prepare_frames opening
  rw [run]
  rcases hprepare : t.prepare opening with ⟨prepared, t'⟩
  rw [hprepare] at hprepared
  cases prepared with
  | error fault => exact ⟨hprepared, by simp⟩
  | ok opened =>
    obtain ⟨frame, declared⟩ := opened
    have hempty : frame.children = [] :=
      Tracer.children_of_prepare (congrArg Prod.fst hprepare)
    obtain ⟨added, hframes, hadded⟩ := hbody ⟨frame.name, frame.inputs⟩ (t'.push frame) s
    rcases hrun : (body ⟨frame.name, frame.inputs⟩).run (t'.push frame) s with ⟨ended, t'', s'⟩
    rw [hrun] at hframes
    simp only [Tracer.push, Frame.extend, hempty, List.nil_append] at hframes hprepared
    rw [hprepared] at hframes
    simp only [hrun]
    refine ⟨Tracer.appends_pop hframes declared _, ?_⟩
    intro q hpop
    obtain ⟨returnValue, hclose⟩ := Tracer.close_of_pop hframes hpop
    exact .intro (congrArg Prod.fst hprepare) hadded hclose

/-- A nested pipeline is the frame that was prepared for it, closed with the nodes that the
script of its body appended. -/
theorem close_of_nest {opening : Opening} {body : Args → Script σ (Option Expr)}
    {t named : Tracer} {s : σ} {frame : Frame} {declared : Option ValueType} {added : List Node}
    {q : Pipeline} (hprepare : t.prepare opening = (.ok (frame, declared), named))
    (hframes : ((body ⟨frame.name, frame.inputs⟩).run (named.push frame) s).2.1.frames =
      Frame.extend (named.push frame).frames added)
    (hnest : ((nest opening body).run t s).1 = .ok q) :
    ∃ returnValue, Frame.close { frame with children := added } declared returnValue = .ok q := by
  have hempty : frame.children = [] := Tracer.children_of_prepare (congrArg Prod.fst hprepare)
  rw [run, hprepare] at hnest
  rcases hrun : (body ⟨frame.name, frame.inputs⟩).run (named.push frame) s with ⟨ended, t', s'⟩
  simp only [hrun] at hframes hnest
  simp only [Tracer.push, Frame.extend, hempty, List.nil_append] at hframes
  exact Tracer.close_of_pop hframes hnest

/-- What holds of every recorded component, and of every pipeline that was filled with nodes of
which it holds, holds of whatever a script adds. -/
theorem adds_run (hcomponent : ∀ c : Component, c.Recorded → holds (.component c))
    (hpipeline : ∀ q : Pipeline, q.Filled holds → holds (.pipeline q)) (script : Script σ α)
    (t : Tracer) (s : σ) : Adds holds t (script.run t s).2.1 := by
  refine relates_run (fun _ _ hframes _ => .of_frames_eq hframes) (fun _ _ _ => .trans)
    ?call ?apply ?nest script t s
  case call =>
    intro t d arguments
    exact .of_appends (t.appends_call d arguments) fun c hcall =>
      hcomponent c (.call (Prod.ext hcall rfl))
  case apply =>
    intro t operator operands
    exact .of_appends (t.appends_apply operator operands) fun c happly =>
      hcomponent c (.apply (Prod.ext happly rfl))
  case nest =>
    intro opening body hbody t s
    obtain ⟨happends, hfilled⟩ := appends_nest hbody t s
    exact .of_appends happends fun q hnest => hpipeline q (hfilled q hnest)

/-- What a part of a script does to the open pipelines: it appends nodes that tracing
can build, and nothing else. -/
def Builds (t : Tracer) (t' : Tracer) : Prop :=
  ∃ added, t'.frames = Frame.extend t.frames added ∧ ∀ node ∈ added, node.Built

/-- A script appends nodes that tracing can build to the innermost open pipeline, and
does nothing else to the open pipelines. -/
theorem builds_run (script : Script σ α) (t : Tracer) (s : σ) :
    Builds t (script.run t s).2.1 :=
  adds_run (fun _ => .component) (fun _ => Pipeline.Filled.built) script t s

end Script

/-- Tracing can build the nodes of a pipeline that it can build. -/
theorem Node.Built.children {q : Pipeline} (h : (Node.pipeline q).Built) :
    ∀ child ∈ q.children, child.Built := by
  cases h with
  | pipeline hclose hchildren => rwa [Frame.children_of_close hclose]

namespace Pipeline

variable {p : Pipeline}

/-- What holds of every recorded component, and of every pipeline that was filled with nodes of
which it holds, holds of a traced pipeline. -/
theorem Traced.holds (h : p.Traced) {holds : Node → Prop}
    (hcomponent : ∀ c : Component, c.Recorded → holds (.component c))
    (hpipeline : ∀ q : Pipeline, q.Filled holds → holds (.pipeline q)) : holds (.pipeline p) := by
  obtain ⟨σ, opening, body, t, s, hrun⟩ := h
  have hbody : ∀ arguments t s, Script.Adds holds t ((body arguments).run t s).2.1 :=
    fun arguments => (body arguments).adds_run hcomponent hpipeline
  exact hpipeline p ((Script.appends_nest hbody t s).2 p hrun)

/-- Tracing can build a traced pipeline. -/
theorem Traced.built (h : p.Traced) : (Node.pipeline p).Built :=
  h.holds (fun _ => .component) fun _ => Filled.built

theorem Traced.built_of_mem_nodes (h : p.Traced) {node : Node} (hnode : node ∈ p.nodes) :
    node.Built := by
  apply Node.forall_mem_inner (fun _ => Node.Built.children) (.pipeline p) h.built
  rwa [Node.inner_pipeline]

/-- The return values of a traced pipeline and of all pipelines in it were checked. -/
theorem Traced.checked (h : p.Traced) {q : Pipeline} (hq : q = p ∨ .pipeline q ∈ p.nodes) :
    q.Checked := by
  have hbuilt : (Node.pipeline q).Built := by
    rcases hq with rfl | hnode
    · exact h.built
    · exact h.built_of_mem_nodes hnode
  cases hbuilt with
  | pipeline hclose hchildren =>
    obtain ⟨returns, -, hchecked⟩ := Frame.exists_of_close hclose
    exact hchecked

/-- The components of a traced pipeline were recorded from a definition or for an
operator. -/
theorem Traced.recorded (h : p.Traced) {c : Component} (hc : .component c ∈ p.nodes) :
    c.Recorded := by
  cases h.built_of_mem_nodes hc with
  | component hrecorded => exact hrecorded

end Pipeline

end Dataflow
