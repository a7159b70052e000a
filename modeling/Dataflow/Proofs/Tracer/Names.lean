/-
# Names in traced pipelines

Every name that a tracer gives to a node is valid, and a node is recorded only if its name
is free among its siblings to be. So in a traced pipeline, at every depth, the names of the
nodes of a pipeline are valid and distinct, whatever the script of its body does and
whatever random bytes it draws.
-/

import Dataflow.Proofs.Naming
import Dataflow.Proofs.Tracer.Frames

namespace Dataflow

/-- A node whose name is valid, and in which the nodes of every pipeline have valid and
distinct names. -/
inductive Node.Tidy : Node → Prop where
  | component {c : Component} (hname : ValidName c.name) : Tidy (.component c)
  | pipeline {q : Pipeline} (hname : ValidName q.name) (hdistinct : (q.children.map name).Nodup)
      (hchildren : ∀ child ∈ q.children, Tidy child) : Tidy (.pipeline q)

theorem Node.Tidy.validName {node : Node} (h : node.Tidy) : ValidName node.name := by
  cases h with
  | component hname => exact hname
  | pipeline hname _ _ => exact hname

namespace Tracer

theorem validName_drawName (taken : String → Bool) (base : String) (length limit : Nat)
    (entropy : Entropy) : ValidName (drawName taken base length limit entropy).1 := by
  induction limit generalizing entropy with
  | zero => exact entropy.validName_generateName base length
  | succ limit ih =>
    have hvalid := entropy.validName_generateName base length
    rw [drawName]
    split
    rename_i name rest hname
    rw [hname] at hvalid
    split
    · exact hvalid
    · exact ih rest

/-- Whatever name a tracer makes for a node is valid. -/
theorem validName_nodeName (t : Tracer) (explicit : Option String) (base : String) :
    ValidName (t.nodeName explicit base).1 := by
  cases explicit with
  | some name => exact validName_normalize name
  | none => exact validName_drawName t.hasSibling base t.settings.suffixLength redrawLimit t.entropy

theorem hasSibling_congr {t t' : Tracer} (hframes : t'.frames = t.frames) (name : String) :
    t'.hasSibling name = t.hasSibling name := by
  unfold hasSibling
  rw [hframes]

theorem hasSibling_of_record {t t' : Tracer} {node : Node} (hrecord : t.record node = .ok t') :
    t.hasSibling node.name = false := by
  unfold record at hrecord
  unfold hasSibling
  split at hrecord
  · rfl
  · split at hrecord
    · cases hrecord
    · rename_i hfree
      simpa using hfree

theorem hasSibling_of_recordAs {t t' : Tracer} {α : Type} {node : α → Node} {made a : α}
    (hrecord : t.recordAs node made = (.ok a, t')) :
    made = a ∧ t.hasSibling (node a).name = false := by
  unfold recordAs at hrecord
  split at hrecord
  · rename_i recorded hfree
    obtain rfl : made = a := Except.ok.inj (congrArg Prod.fst hrecord)
    exact ⟨rfl, hasSibling_of_record hfree⟩
  · cases hrecord

/-- A node whose name is free is recorded. -/
theorem record_of_free {t : Tracer} {node : Node} (hfree : t.hasSibling node.name = false) :
    t.record node = .ok { t with frames := Frame.extend t.frames [node] } := by
  obtain ⟨frames, registry, settings, entropy⟩ := t
  cases frames with
  | nil => rfl
  | cons frame outer =>
    have hchild : ¬ frame.hasChild node.name = true := Bool.eq_false_iff.mp hfree
    exact if_neg hchild

/-- A node whose name is taken is refused by the innermost open pipeline. -/
theorem record_of_taken {t : Tracer} {node : Node} (htaken : t.hasSibling node.name = true) :
    ∃ frame outer, t.frames = frame :: outer ∧
      t.record node = .error (.contract (.nameTaken frame.name node.name)) := by
  obtain ⟨frames, registry, settings, entropy⟩ := t
  cases frames with
  | nil => cases htaken
  | cons frame outer => exact ⟨frame, outer, rfl, if_pos htaken⟩

theorem recordAs_of_free {t : Tracer} {α : Type} {node : α → Node} {made : α}
    (hfree : t.hasSibling (node made).name = false) :
    t.recordAs node made =
      (.ok made, { t with frames := Frame.extend t.frames [node made] }) := by
  rw [recordAs, record_of_free hfree]

theorem recordAs_of_taken {t : Tracer} {α : Type} {node : α → Node} {made : α}
    (htaken : t.hasSibling (node made).name = true) :
    ∃ frame outer, t.frames = frame :: outer ∧
      t.recordAs node made = (.error (.contract (.nameTaken frame.name (node made).name)), t) := by
  obtain ⟨frame, outer, hframes, hrecord⟩ := record_of_taken htaken
  refine ⟨frame, outer, hframes, ?_⟩
  rw [recordAs, hrecord]

/-- An operation that makes a node gives it a valid name, which is free where the node is
recorded, and only tidy nodes. -/
def Names (t : Tracer) {α : Type} (node : α → Node) (made : Except GraphError α) : Prop :=
  ∀ a, made = .ok a → (node a).Tidy ∧ t.hasSibling (node a).name = false

theorem names_error {t : Tracer} {α : Type} {node : α → Node} {fault : GraphError} :
    t.Names node (.error fault) := nofun

theorem names_recordAs_component {t named : Tracer} (hframes : named.frames = t.frames)
    {c : Component} (hname : ValidName c.name) :
    t.Names .component (named.recordAs .component c).1 := by
  intro made hmade
  obtain ⟨rfl, hfree⟩ := hasSibling_of_recordAs (Prod.ext hmade rfl)
  rw [hasSibling_congr hframes] at hfree
  exact ⟨.component hname, hfree⟩

theorem names_call (t : Tracer) (d : ComponentDef) (arguments : List (String × Expr)) :
    t.Names .component (t.call d arguments).1 := by
  unfold call
  split
  · exact names_error
  · split
    · exact names_error
    · exact names_recordAs_component (nodeName_frames t _ _) (validName_nodeName t _ _)

theorem names_callPositional (t : Tracer) (d : ComponentDef) (arguments : List Expr) :
    t.Names .component (t.callPositional d arguments).1 := by
  rcases t.callPositional_cases d arguments with ⟨fault, hcall⟩ | ⟨named, hcall⟩ <;> rw [hcall]
  · exact names_error
  · exact names_call t d named

theorem names_apply (t : Tracer) (operator : Operator) (operands : List Expr) :
    t.Names .component (t.apply operator operands).1 := by
  unfold apply
  split
  · exact names_error
  · have hframes := nodeName_frames t none operator.name
    have hvalid := validName_nodeName t none operator.name
    split
    rename_i name named hname
    rw [hname] at hframes hvalid
    exact names_recordAs_component hframes hvalid

theorem validName_of_prepare {t : Tracer} {opening : Opening} {frame : Frame}
    {declared : Option ValueType} (hprepare : (t.prepare opening).1 = .ok (frame, declared)) :
    ValidName frame.name := by
  cases opening with
  | invoke d arguments =>
    rw [prepare] at hprepare
    split at hprepare
    · cases hprepare
    · cases hprepare
      exact validName_nodeName t _ _
  | scope base =>
    simp only [prepare, Except.ok.injEq, Prod.mk.injEq] at hprepare
    obtain ⟨rfl, -⟩ := hprepare
    exact validName_nodeName t none base
  | guarded condition =>
    simp only [prepare, Except.ok.injEq, Prod.mk.injEq] at hprepare
    obtain ⟨rfl, -⟩ := hprepare
    exact validName_nodeName t none "condition"
  | dependsOn dependencies =>
    rw [prepare] at hprepare
    split at hprepare
    · cases hprepare
    · rename_i drawn hdrawn
      simp only [Except.ok.injEq, Prod.mk.injEq] at hprepare
      obtain ⟨rfl, -⟩ := hprepare
      exact validName_nodeName drawn none "depends-on"

/-- Closing the innermost pipeline, whose name is valid and whose nodes are tidy and of
distinct names, makes a tidy node. -/
theorem names_pop {t around : Tracer} {frame : Frame}
    (hframes : t.frames = frame :: around.frames) (hname : ValidName frame.name)
    (hdistinct : (frame.children.map Node.name).Nodup)
    (hchildren : ∀ child ∈ frame.children, child.Tidy) (declared : Option ValueType)
    (ended : Except GraphError (Option Expr)) :
    around.Names .pipeline (t.pop declared ended).1 := by
  intro q hpop
  obtain ⟨returnValue, hclose⟩ := close_of_pop hframes hpop
  unfold pop at hpop
  rw [hframes] at hpop
  cases ended with
  | error fault => simp at hpop
  | ok ended =>
    cases hended : frame.close declared ended with
    | error fault => simp [hended] at hpop
    | ok closed =>
      simp only [hended] at hpop
      obtain ⟨rfl, hfree⟩ := hasSibling_of_recordAs (Prod.ext hpop rfl)
      obtain ⟨returns, rfl, -⟩ := Frame.exists_of_close hclose
      have hsame : around.hasSibling frame.name = false := hfree
      exact ⟨.pipeline hname hdistinct hchildren, hsame⟩

end Tracer

namespace Script

variable {σ α : Type}

/-- What a part of a script does to the names in the open pipelines: the nodes that it
appends are tidy, and their names are distinct and free. -/
def Tidies (t t' : Tracer) : Prop :=
  ∃ added, t'.frames = Frame.extend t.frames added ∧ (∀ node ∈ added, node.Tidy) ∧
    (added.map Node.name).Nodup ∧ ∀ node ∈ added, t.hasSibling node.name = false

theorem Tidies.of_frames_eq {t t' : Tracer} (hframes : t'.frames = t.frames) : Tidies t t' :=
  ⟨[], by simp [hframes], by simp, List.nodup_nil, by simp⟩

/-- A node that was appended is a sibling of what comes after it. -/
theorem hasSibling_of_extend {t t' : Tracer} {frame : Frame} {outer : List Frame}
    {added : List Node} (hopen : t.frames = frame :: outer)
    (hframes : t'.frames = Frame.extend t.frames added) (name : String) :
    t'.hasSibling name = (t.hasSibling name || added.any fun node => node.name == name) := by
  unfold Tracer.hasSibling
  rw [hframes, hopen]
  simp [Frame.extend, Frame.hasChild]

theorem Tidies.trans {t t' t'' : Tracer} (hfirst : Tidies t t') (hsecond : Tidies t' t'') :
    Tidies t t'' := by
  obtain ⟨added, hframes, htidy, hdistinct, hfree⟩ := hfirst
  obtain ⟨further, hframes', htidy', hdistinct', hfree'⟩ := hsecond
  cases hopen : t.frames with
  | nil =>
    -- With no pipeline open nothing is appended.
    apply Tidies.of_frames_eq
    rw [hframes', hframes, hopen]
    rfl
  | cons frame outer =>
    have hlater : ∀ node ∈ further, t.hasSibling node.name = false ∧
        ∀ other ∈ added, other.name ≠ node.name := by
      intro node hnode
      have hsibling := hfree' node hnode
      rw [hasSibling_of_extend hopen hframes] at hsibling
      simpa using hsibling
    refine ⟨added ++ further, ?_, ?_, ?_, ?_⟩
    · rw [hframes', hframes, Frame.extend_extend]
    · exact fun node hnode => (List.mem_append.mp hnode).elim (htidy node) (htidy' node)
    · rw [List.map_append, List.nodup_append]
      refine ⟨hdistinct, hdistinct', ?_⟩
      intro name hname other hother
      obtain ⟨node, hnode, rfl⟩ := List.mem_map.mp hname
      obtain ⟨later, hmem, rfl⟩ := List.mem_map.mp hother
      exact (hlater later hmem).2 node hnode
    · intro node hnode
      rcases List.mem_append.mp hnode with hadded | hfurther
      · exact hfree node hadded
      · exact (hlater node hfurther).1

/-- An operation that makes a tidy node under a free name appends it. -/
theorem Tidies.of_names {t : Tracer} {node : α → Node} {made : Except GraphError α × Tracer}
    (happends : t.Appends node made) (hnames : t.Names node made.1) : Tidies t made.2 := by
  obtain ⟨result, t'⟩ := made
  cases result with
  | error fault => exact .of_frames_eq happends
  | ok a =>
    obtain ⟨htidy, hfree⟩ := hnames a rfl
    refine ⟨[node a], happends, ?_, List.nodup_singleton _, ?_⟩
    · exact fun other hother => List.mem_singleton.mp hother ▸ htidy
    · exact fun other hother => List.mem_singleton.mp hother ▸ hfree

/-- A nested pipeline is made of what the script of its body appends to its frame. -/
theorem names_nest {opening : Opening} {body : Args → Script σ (Option Expr)}
    (hbody : ∀ arguments t s, Tidies t ((body arguments).run t s).2.1) (t : Tracer) (s : σ) :
    t.Names .pipeline ((nest opening body).run t s).1 := by
  have hprepared := t.prepare_frames opening
  rw [run]
  rcases hprepare : t.prepare opening with ⟨prepared, t'⟩
  rw [hprepare] at hprepared
  cases prepared with
  | error fault => exact Tracer.names_error
  | ok opened =>
    obtain ⟨frame, declared⟩ := opened
    have hempty : frame.children = [] := Tracer.children_of_prepare (congrArg Prod.fst hprepare)
    have hname : ValidName frame.name := Tracer.validName_of_prepare (congrArg Prod.fst hprepare)
    obtain ⟨added, hframes, htidy, hdistinct, -⟩ :=
      hbody ⟨frame.name, frame.inputs⟩ (t'.push frame) s
    rcases hrun : (body ⟨frame.name, frame.inputs⟩).run (t'.push frame) s with ⟨ended, t'', s'⟩
    rw [hrun] at hframes
    simp only [Tracer.push, Frame.extend, hempty, List.nil_append] at hframes hprepared
    rw [hprepared] at hframes
    simp only [hrun]
    exact Tracer.names_pop hframes hname hdistinct htidy declared ended

/-- Whatever a script appends to the innermost open pipeline is tidy, and the names are
distinct and free. -/
theorem tidies_run (script : Script σ α) (t : Tracer) (s : σ) :
    Tidies t (script.run t s).2.1 := by
  refine relates_run (fun _ _ hframes _ => .of_frames_eq hframes) (fun _ _ _ => .trans)
    ?call ?apply ?nest script t s
  case call =>
    intro t d arguments
    exact .of_names (t.appends_call d arguments) (t.names_call d arguments)
  case apply =>
    intro t operator operands
    exact .of_names (t.appends_apply operator operands) (t.names_apply operator operands)
  case nest =>
    intro opening body hbody t s
    obtain ⟨happends, -⟩ := appends_nest (fun arguments => (body arguments).builds_run) t s
    exact .of_names happends (names_nest hbody t s)

end Script

theorem Pipeline.Traced.tidy {p : Pipeline} (h : p.Traced) : (Node.pipeline p).Tidy := by
  obtain ⟨σ, opening, body, t, s, hrun⟩ := h
  have hbody : ∀ arguments t s, Script.Tidies t ((body arguments).run t s).2.1 :=
    fun arguments => (body arguments).tidies_run
  exact (Script.names_nest hbody t s p hrun).1

end Dataflow
