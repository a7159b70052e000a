/-
# Images of components

Tracing never changes the settings of a tracer, so every component that is recorded by an
operation, at whatever depth, was deployed under the settings that the operation began with.
Whatever definition it was recorded from, it has the hardware of this definition and the image
that the definition names, or else the one that the settings have for components of its
hardware. A component that applies an operator has the hardware of operators, but the default
image even where this hardware wants an accelerator. Compiling hands image and hardware on.
-/

import Dataflow.Proofs.Tracer.Operations
import Dataflow.Proofs.Tracer.Recorded
import Dataflow.Proofs.Workflow.Nesting

namespace Dataflow

namespace Settings

/-- The image for a component, given the one that it names and the hardware that it wants. -/
def imageFor (settings : Settings) (named : Option String) (hardware : Hardware) : String :=
  named.getD
    (if hardware.wantsAccelerator then settings.acceleratorImage else settings.defaultImage)

variable {settings : Settings}

theorem image_resolveDeployment (declared : Deployment) :
    (settings.resolveDeployment declared).image =
      some (settings.imageFor declared.image declared.hardware) := by
  unfold resolveDeployment imageFor
  cases himage : declared.image with
  | some image => exact himage
  | none =>
    simp only [Option.getD_none]
    split <;> rfl

theorem hardware_resolveDeployment (declared : Deployment) :
    (settings.resolveDeployment declared).hardware = declared.hardware := by
  unfold resolveDeployment
  split
  · rfl
  · split <;> rfl

end Settings

/-- A component that some tracer with these settings records, from a definition, with arguments
under names or in order, or for an operator, which is no definition. -/
inductive Component.RecordedUnder (settings : Settings) (c : Component) :
    Option ComponentDef → Prop where
  | call {t t' : Tracer} {d : ComponentDef} {arguments : List (String × Expr)}
      (hsettings : t.settings = settings) (hcall : t.call d arguments = (.ok c, t')) :
      RecordedUnder settings c (some d)
  | callPositional {t t' : Tracer} {d : ComponentDef} {arguments : List Expr}
      (hsettings : t.settings = settings) (hcall : t.callPositional d arguments = (.ok c, t')) :
      RecordedUnder settings c (some d)
  | apply {t t' : Tracer} {operator : Operator} {operands : List Expr}
      (hsettings : t.settings = settings) (happly : t.apply operator operands = (.ok c, t')) :
      RecordedUnder settings c none

/-- A node all of whose components were recorded under these settings. -/
inductive Node.RecordedUnder (settings : Settings) : Node → Prop where
  | component {c : Component} {origin : Option ComponentDef}
      (hrecorded : c.RecordedUnder settings origin) : RecordedUnder settings (.component c)
  | pipeline {q : Pipeline} (hchildren : ∀ child ∈ q.children, RecordedUnder settings child) :
      RecordedUnder settings (.pipeline q)

namespace Tracer

variable {t t' : Tracer}

/-- A component from a definition has the deployment of the definition, with its image. -/
theorem deployment_of_call {d : ComponentDef} {arguments : List (String × Expr)} {c : Component}
    (hcall : t.call d arguments = (.ok c, t')) :
    c.deployment = t.settings.resolveDeployment d.deployment := by
  unfold call at hcall
  split at hcall
  · cases hcall
  · split at hcall
    · cases hcall
    · rw [← eq_of_recordAs hcall]

theorem deployment_of_callPositional {d : ComponentDef} {arguments : List Expr} {c : Component}
    (hcall : t.callPositional d arguments = (.ok c, t')) :
    c.deployment = t.settings.resolveDeployment d.deployment := by
  rcases t.callPositional_cases d arguments with ⟨fault, hfails⟩ | ⟨named, hnamed⟩
  · cases hfails.symm.trans hcall
  · exact deployment_of_call (hnamed.symm.trans hcall)

theorem deployment_of_apply {operator : Operator} {operands : List Expr} {c : Component}
    (happly : t.apply operator operands = (.ok c, t')) :
    c.deployment = t.settings.operatorDeployment := by
  unfold apply at happly
  split at happly
  · cases happly
  · rw [← eq_of_recordAs happly]

@[simp]
theorem nodeName_settings (t : Tracer) (explicit : Option String) (base : String) :
    (t.nodeName explicit base).2.settings = t.settings := by
  obtain ⟨entropy, hnamed⟩ := t.exists_nodeName_eq explicit base
  rw [hnamed]

theorem settings_of_record {node : Node} (hrecord : t.record node = .ok t') :
    t'.settings = t.settings := by
  unfold record at hrecord
  split at hrecord
  · rw [← Except.ok.inj hrecord]
  · split at hrecord
    · cases hrecord
    · rw [← Except.ok.inj hrecord]

@[simp]
theorem settings_recordAs (t : Tracer) {α : Type} (node : α → Node) (made : α) :
    (t.recordAs node made).2.settings = t.settings := by
  unfold recordAs
  split
  · exact settings_of_record ‹_›
  · rfl

theorem settings_call (t : Tracer) (d : ComponentDef) (arguments : List (String × Expr)) :
    (t.call d arguments).2.settings = t.settings := by
  unfold call
  split
  · rfl
  · split
    · rfl
    · exact (settings_recordAs _ _ _).trans (nodeName_settings _ _ _)

theorem settings_apply (t : Tracer) (operator : Operator) (operands : List Expr) :
    (t.apply operator operands).2.settings = t.settings := by
  unfold apply
  split
  · rfl
  · have hnamed := nodeName_settings t none operator.name
    split
    rename_i name named hname
    rw [hname] at hnamed
    exact (settings_recordAs _ _ _).trans hnamed

theorem settings_prepare (t : Tracer) (opening : Opening) :
    (t.prepare opening).2.settings = t.settings := by
  obtain ⟨entropy, hprepared⟩ := t.exists_prepare_eq opening
  rw [hprepared]

theorem settings_pop (t : Tracer) (declared : Option ValueType)
    (ended : Except GraphError (Option Expr)) : (t.pop declared ended).2.settings = t.settings := by
  unfold pop
  split
  · rfl
  · split
    · rfl
    · split
      · rfl
      · exact settings_recordAs _ _ _

end Tracer

namespace Script

variable {σ α : Type}

/-- What a part of a script does to a tracer: it leaves the settings as they are, and it
appends nodes to the innermost open pipeline whose components were recorded under them. -/
def Records (t t' : Tracer) : Prop :=
  t'.settings = t.settings ∧
    ∃ added, t'.frames = Frame.extend t.frames added ∧ ∀ node ∈ added, node.RecordedUnder t.settings

theorem Records.of_frames_eq {t t' : Tracer} (hframes : t'.frames = t.frames)
    (hsettings : t'.settings = t.settings) : Records t t' :=
  ⟨hsettings, [], by simp [hframes], by simp⟩

theorem Records.trans {t t' t'' : Tracer} (hfirst : Records t t') (hsecond : Records t' t'') :
    Records t t'' := by
  obtain ⟨hsettings, added, hframes, hadded⟩ := hfirst
  obtain ⟨hsettings', further, hframes', hfurther⟩ := hsecond
  rw [hsettings] at hfurther
  refine ⟨hsettings'.trans hsettings, added ++ further, ?_, ?_⟩
  · rw [hframes', hframes, Frame.extend_extend]
  · exact fun node hnode => (List.mem_append.mp hnode).elim (hadded node) (hfurther node)

/-- An operation that makes such a node and keeps the settings records it. -/
theorem Records.of_appends {t : Tracer} {node : α → Node} {made : Except GraphError α × Tracer}
    (happends : t.Appends node made) (hsettings : made.2.settings = t.settings)
    (hrecorded : ∀ a, made.1 = .ok a → (node a).RecordedUnder t.settings) :
    Records t made.2 := by
  obtain ⟨result, t'⟩ := made
  cases result with
  | error fault => exact .of_frames_eq happends hsettings
  | ok a =>
    exact ⟨hsettings, [node a], happends,
      fun other hother => List.mem_singleton.mp hother ▸ hrecorded a rfl⟩

/-- A nested pipeline keeps the settings if the script of its body does, and has the nodes that
this script records. -/
theorem recordedUnder_nest {opening : Opening} {body : Args → Script σ (Option Expr)}
    (hbody : ∀ arguments t s, Records t ((body arguments).run t s).2.1) (t : Tracer) (s : σ) :
    ((nest opening body).run t s).2.1.settings = t.settings ∧
      ∀ q, ((nest opening body).run t s).1 = .ok q →
        (Node.pipeline q).RecordedUnder t.settings := by
  have hprepared := t.settings_prepare opening
  rcases hprepare : t.prepare opening with ⟨prepared, named⟩
  rw [hprepare] at hprepared
  cases prepared with
  | error fault =>
    rw [run, hprepare]
    exact ⟨hprepared, fun q hmade => by cases hmade⟩
  | ok opened =>
    obtain ⟨frame, declared⟩ := opened
    obtain ⟨hinside, added, hframes, hadded⟩ :=
      hbody ⟨frame.name, frame.inputs⟩ (named.push frame) s
    have hkept : (named.push frame).settings = t.settings := hprepared
    constructor
    · rw [run, hprepare]
      exact ((Tracer.settings_pop _ _ _).trans hinside).trans hkept
    · intro q hnest
      obtain ⟨returnValue, hclose⟩ := close_of_nest hprepare hframes hnest
      have hchildren : q.children = added := Frame.children_of_close hclose
      refine .pipeline ?_
      rwa [hchildren, ← hkept]

/-- A script leaves the settings as they are, and whatever it appends to the innermost open
pipeline was recorded under them. -/
theorem records_run (script : Script σ α) (t : Tracer) (s : σ) :
    Records t (script.run t s).2.1 := by
  refine relates_run (fun _ _ => .of_frames_eq) (fun _ _ _ => .trans) ?call ?apply ?nest script t s
  case call =>
    intro t d arguments
    exact .of_appends (t.appends_call d arguments) (t.settings_call d arguments) fun c hcall =>
      .component (.call rfl (Prod.ext hcall rfl))
  case apply =>
    intro t operator operands
    exact .of_appends (t.appends_apply operator operands) (t.settings_apply operator operands)
      fun c happly => .component (.apply rfl (Prod.ext happly rfl))
  case nest =>
    intro opening body hbody t s
    obtain ⟨happends, -⟩ := appends_nest (fun arguments => (body arguments).builds_run) t s
    obtain ⟨hsettings, hrecorded⟩ := recordedUnder_nest hbody t s
    exact .of_appends happends hsettings hrecorded

end Script

theorem Node.RecordedUnder.children {settings : Settings} {q : Pipeline}
    (h : (Node.pipeline q).RecordedUnder settings) :
    ∀ child ∈ q.children, child.RecordedUnder settings := by
  cases h with
  | pipeline hchildren => exact hchildren

/-- A component at any depth in a node that was recorded under settings was itself recorded
under them. -/
theorem Node.RecordedUnder.exists_origin {settings : Settings} {node : Node}
    (h : node.RecordedUnder settings) {c : Component} (hc : .component c ∈ listed [node]) :
    ∃ origin, c.RecordedUnder settings origin := by
  have hnode : ∀ other ∈ [node], other.RecordedUnder settings :=
    fun other hother => List.mem_singleton.mp hother ▸ h
  cases forall_mem_listed (fun _ => Node.RecordedUnder.children) [node] hnode _ hc with
  | component hrecorded => exact ⟨_, hrecorded⟩

namespace Component

variable {settings : Settings} {c : Component} {origin : Option ComponentDef}

/-- The image of a component is the one that its definition names, or else the one that the
settings have for components of its hardware. -/
def HasImageFor (settings : Settings) (origin : Option ComponentDef) (c : Component) : Prop :=
  c.deployment.image = some (settings.imageFor
    (origin.bind fun d => d.deployment.image) c.deployment.hardware)

/-- How a component is deployed under settings, from a definition or for an operator. -/
structure Deployed (settings : Settings) (origin : Option ComponentDef) (c : Component) : Prop where
  /-- It has the hardware of its definition, or that of operators. -/
  hardware : c.deployment.hardware =
    (origin.map fun d => d.deployment.hardware).getD settings.operatorHardware
  image : c.deployment.image.isSome
  /-- An operator is given the default image. -/
  operator : origin = none → c.deployment.image = some settings.defaultImage
  /-- Only an operator may be given another image than the one for its hardware, and it is
  exactly if the hardware of operators wants an accelerator that has an image of its own. -/
  exception : c.HasImageFor settings origin ↔
    ¬ (origin = none ∧ settings.operatorHardware.wantsAccelerator = true ∧
      settings.acceleratorImage ≠ settings.defaultImage)

/-- A component was recorded under settings, and from whatever origin it was, it is deployed
from this one. -/
structure DeployedUnder (settings : Settings) (c : Component) : Prop where
  recorded : ∃ origin, c.RecordedUnder settings origin
  deployed : ∀ origin, c.RecordedUnder settings origin → c.Deployed settings origin

/-- A component with the deployment that a definition resolves to has the image of this
definition, or else the one for its hardware. -/
theorem deployed_of_definition {d : ComponentDef}
    (hdeployment : c.deployment = settings.resolveDeployment d.deployment) :
    c.Deployed settings (some d) := by
  have hhardware : c.deployment.hardware = d.deployment.hardware := by
    rw [hdeployment, Settings.hardware_resolveDeployment]
  have himage : c.HasImageFor settings (some d) := by
    rw [HasImageFor, hhardware, hdeployment, Settings.image_resolveDeployment]
    rfl
  constructor
  case hardware => exact hhardware
  case image =>
    rw [himage]
    rfl
  case operator => exact nofun
  case exception => exact iff_of_true himage fun hoperator => nomatch hoperator.1

/-- A component with the deployment of operators has the default image. -/
theorem deployed_of_operator (hdeployment : c.deployment = settings.operatorDeployment) :
    c.Deployed settings none := by
  have hhardware : c.deployment.hardware = settings.operatorHardware := by
    rw [hdeployment]
    rfl
  have himage : c.deployment.image = some settings.defaultImage := by
    rw [hdeployment]
    rfl
  constructor
  case hardware => exact hhardware
  case image =>
    rw [himage]
    rfl
  case operator => exact fun _ => himage
  case exception =>
    rw [HasImageFor, himage, hhardware, Settings.imageFor]
    cases settings.operatorHardware.wantsAccelerator <;> simp [eq_comm]

theorem RecordedUnder.deployed (h : c.RecordedUnder settings origin) :
    c.Deployed settings origin := by
  cases h with
  | call hsettings hcall =>
    exact deployed_of_definition (hsettings ▸ Tracer.deployment_of_call hcall)
  | callPositional hsettings hcall =>
    exact deployed_of_definition (hsettings ▸ Tracer.deployment_of_callPositional hcall)
  | apply hsettings happly =>
    exact deployed_of_operator (hsettings ▸ Tracer.deployment_of_apply happly)

theorem RecordedUnder.deployedUnder (h : c.RecordedUnder settings origin) :
    c.DeployedUnder settings where
  recorded := ⟨origin, h⟩
  deployed _ := RecordedUnder.deployed

end Component

/-- What an operation that records a component has it from: a definition, or an operator, which is
none. -/
inductive Operation.RecordsFrom {σ : Type} :
    {α : Type} → Operation σ α → Option ComponentDef → Prop where
  | call (d : ComponentDef) (arguments : List (String × Expr)) :
      RecordsFrom (.call d arguments) (some d)
  | callPositional (d : ComponentDef) (arguments : List Expr) :
      RecordsFrom (.callPositional d arguments) (some d)
  | apply (operator : Operator) (operands : List Expr) :
      RecordsFrom (.apply operator operands) none

/-- The component that an operation records is recorded from the origin that it has. -/
theorem Operation.RecordsFrom.exists_component {σ α : Type} {operation : Operation σ α}
    {origin : Option ComponentDef} (h : operation.RecordsFrom origin) {t t' : Tracer} {s s' : σ}
    {made : α} (hrun : operation.script.run t s = (.ok made, t', s')) :
    ∃ c, operation.node made = .component c ∧ c.RecordedUnder t.settings origin := by
  have hmade : (operation.script.run t s).1 = .ok made := by rw [hrun]
  cases h with
  | call d arguments => exact ⟨made, rfl, .call rfl (Prod.ext hmade rfl)⟩
  | callPositional d arguments => exact ⟨made, rfl, .callPositional rfl (Prod.ext hmade rfl)⟩
  | apply operator operands => exact ⟨made, rfl, .apply rfl (Prod.ext hmade rfl)⟩

/-- The node that an operation makes was recorded under the settings of the tracer. -/
theorem Operation.recordedUnder_run {σ α : Type} (operation : Operation σ α) {t t' : Tracer}
    {s s' : σ} {made : α} (hrun : operation.script.run t s = (.ok made, t', s')) :
    (operation.node made).RecordedUnder t.settings := by
  have hmade : (operation.script.run t s).1 = .ok made := by rw [hrun]
  cases operation with
  | call d arguments => exact .component (.call rfl (Prod.ext hmade rfl))
  | callPositional d arguments => exact .component (.callPositional rfl (Prod.ext hmade rfl))
  | apply operator operands => exact .component (.apply rfl (Prod.ext hmade rfl))
  | nest opening body =>
    exact (Script.recordedUnder_nest (fun arguments => (body arguments).records_run) t s).2 _ hmade
  | guardedBy left right comparator body =>
    rw [run_guardedBy] at hmade
    split at hmade
    · cases hmade
    · exact (Script.recordedUnder_nest (fun _ => Script.records_run _) t s).2 _ hmade

/-- An operation leaves the settings as they are. A call, with arguments under names or in order,
records a component that is deployed from its definition: with the image that this names, or else
the one for its hardware. An operator is recorded with the default image. Every component in what an
operation makes, at whatever depth, is deployed in this way from every origin that it was recorded
from under the settings, and every container of a compiled workflow has the image and the hardware
of such a component. -/
theorem Operation.images_of_run {σ α : Type} (operation : Operation σ α) {t t' : Tracer}
    {s s' : σ} {made : α} (hrun : operation.script.run t s = (.ok made, t', s')) :
    t'.settings = t.settings ∧
    (∀ origin, operation.RecordsFrom origin →
      ∃ c, operation.node made = .component c ∧ c.Deployed t.settings origin) ∧
    (∀ c, .component c ∈ Node.listed [operation.node made] → c.DeployedUnder t.settings) ∧
    ∀ p w, operation.node made = .pipeline p → p.compile = .ok w →
      ∀ (address : List Nat) (tasks : List Task) (position : Nat) (task : Task) (box : Container),
        w.listAt? address = some tasks → tasks[position]? = some task →
        task.kind = .container box →
        ∃ (nodes : List Node) (c : Component),
          p.listAt? address = some nodes ∧ nodes[position]? = some (.component c) ∧
          c.DeployedUnder t.settings ∧
          box.image = c.deployment.image ∧ box.resources = c.deployment.hardware := by
  have hrecorded := operation.recordedUnder_run hrun
  have hdeployed : ∀ c, .component c ∈ Node.listed [operation.node made] →
      c.DeployedUnder t.settings := by
    intro c hc
    obtain ⟨origin, hc⟩ := hrecorded.exists_origin hc
    exact hc.deployedUnder
  refine ⟨?settings, ?origins, hdeployed, ?containers⟩
  case settings =>
    have hkept := (operation.script.records_run t s).1
    rwa [hrun] at hkept
  case origins =>
    intro origin hfrom
    obtain ⟨c, hnode, hc⟩ := hfrom.exists_component hrun
    exact ⟨c, hnode, hc.deployed⟩
  case containers =>
    intro p w hmade hcompile address tasks position task box htasks htask hkind
    obtain ⟨nodes, c, hnodes, hc, rfl⟩ :=
      p.exists_component_of_container hcompile htasks htask hkind
    have hmem : .component c ∈ Node.listed [operation.node made] := by
      rw [hmade]
      apply Node.inner_subset_listed List.mem_cons_self
      rw [Node.inner_pipeline]
      exact p.subset_nodes_of_listAt? hnodes (List.mem_of_getElem? hc)
    exact ⟨nodes, c, hnodes, hc, hdeployed c hmem, rfl, rfl⟩

namespace Accelerated

/-- Settings under which operators want an accelerator. -/
def settings : Settings :=
  { Settings.default with
    operatorHardware := Hardware.none.withAccelerator 1 .t4
    suffixLength := 0 }

/-- A tracer with these settings. -/
def tracer : Tracer := .start settings ⟨fun _ => 0, 0⟩

/-- A definition that wants the same accelerator and names no image. -/
def training : ComponentDef where
  function := "train"
  explicitName := none
  parameters := []
  returns := some .integer
  deployment := { Deployment.none with hardware := Hardware.none.withAccelerator 1 .t4 }
  body := none

/-- A definition that wants it too and names an image. -/
def serving : ComponentDef :=
  { training with
    function := "serve"
    deployment := { training.deployment with image := some "lab/serve:3" } }

/-- The operands of a sum. -/
def operands : List Expr := [.literal (.integer 1), .literal (.integer 2)]

/-- A pipeline of components from the definitions, one with arguments in order, and of the sum. -/
def operation : Operation Unit Pipeline :=
  .nest (.scope "main") fun _ => do
    let _ ← .call training []
    let _ ← .callPositional serving []
    let sum ← .apply .add operands
    return some sum.expr

end Accelerated

/-- The components from the definitions are compiled to containers, one with the accelerator image
and one with the image that its definition names. So is a component that is recorded alone. -/
theorem images_of_run_accelerated :
    (∃ p t' w tasks trained served,
      Accelerated.operation.script.run Accelerated.tracer () = (.ok p, t', ()) ∧
      p.compile = .ok w ∧ w.listAt? [] = some tasks ∧
      tasks[0]?.map Task.kind = some (.container trained) ∧
      trained.image = some "tracegraph/runtime:latest-cuda" ∧
      tasks[1]?.map Task.kind = some (.container served) ∧ served.image = some "lab/serve:3" ∧
      t'.settings = Accelerated.settings ∧
      ∃ nodes c, p.listAt? [] = some nodes ∧ nodes[1]? = some (.component c) ∧
        c.DeployedUnder Accelerated.settings ∧ served.image = c.deployment.image ∧
        served.resources = c.deployment.hardware) ∧
    ∃ c : Component, c.Deployed Accelerated.settings (some Accelerated.serving) ∧
      c.deployment.image = some "lab/serve:3" := by
  constructor
  · obtain ⟨p, t', w, tasks, trained, task, served, hrun, hcompile, htasks, htrained, himage, htask,
        hkind, hnamed⟩ :
        ∃ p t' w tasks trained task served,
          Accelerated.operation.script.run Accelerated.tracer () = (.ok p, t', ()) ∧
          p.compile = .ok w ∧ w.listAt? [] = some tasks ∧
          tasks[0]?.map Task.kind = some (.container trained) ∧
          trained.image = some "tracegraph/runtime:latest-cuda" ∧ tasks[1]? = some task ∧
          task.kind = .container served ∧ served.image = some "lab/serve:3" :=
      ⟨_, _, _, _, _, _, _, rfl, rfl, rfl, rfl, rfl, rfl, rfl, rfl⟩
    obtain ⟨hsettings, -, -, hcontainers⟩ := Accelerated.operation.images_of_run hrun
    have hserved : tasks[1]?.map Task.kind = some (.container served) := by
      rw [htask, Option.map_some, hkind]
    exact ⟨p, t', w, tasks, trained, served, hrun, hcompile, htasks, htrained, himage, hserved,
      hnamed, hsettings, hcontainers p w rfl hcompile [] tasks 1 task served htasks htask hkind⟩
  · obtain ⟨c, t', hrun, himage⟩ : ∃ c t',
        (Operation.callPositional Accelerated.serving []).script.run Accelerated.tracer () =
          (.ok c, t', ()) ∧ c.deployment.image = some "lab/serve:3" := ⟨_, _, rfl, rfl⟩
    obtain ⟨-, horigins, -, -⟩ :=
      (Operation.callPositional Accelerated.serving []).images_of_run hrun
    obtain ⟨made, hnode, hdeployed⟩ := horigins _ (.callPositional Accelerated.serving [])
    cases hnode
    exact ⟨c, hdeployed, himage⟩

/-- Not every component has the image for its hardware: the sum is given the default image. -/
theorem not_hasImageFor_of_operator :
    ¬ ∀ (t : Tracer) (c : Component) (origin : Option ComponentDef),
      c.RecordedUnder t.settings origin → c.HasImageFor t.settings origin := by
  intro huniform
  obtain ⟨c, t', happly, himage, hhardware⟩ :
      ∃ c t', Accelerated.tracer.apply .add Accelerated.operands = (.ok c, t') ∧
        c.deployment.image = some "tracegraph/runtime:latest" ∧
        c.deployment.hardware = Hardware.none.withAccelerator 1 .t4 :=
    ⟨_, _, rfl, rfl, rfl⟩
  have hfor := huniform Accelerated.tracer c none (.apply rfl happly)
  rw [Component.HasImageFor, himage, hhardware] at hfor
  revert hfor
  decide

end Dataflow
