/-
# Names while pipelines are traced

A run of a script comes to one part of it after the other, some of them in the bodies of
pipelines that are still open. At each of these moments the open pipelines are tidy: their
names are valid, and so are the names of the nodes recorded in them so far, which are also
distinct. A body that fails, and a failure that is caught, leave them tidy too, and every
node that an operation returns is tidy at every depth.
-/

import Dataflow.Proofs.Tracer.Names
import Dataflow.Proofs.Tracer.Operations

namespace Dataflow

/-- An open pipeline whose name is valid, and whose nodes so far are tidy and of distinct
names. -/
structure Frame.Tidy (frame : Frame) : Prop where
  name : ValidName frame.name
  distinct : (frame.children.map Node.name).Nodup
  children : ∀ child ∈ frame.children, child.Tidy

/-- An open pipeline stays tidy with further tidy nodes, whose names are distinct and differ
from those of its nodes. -/
theorem Frame.Tidy.append {frame : Frame} (h : frame.Tidy) {added : List Node}
    (htidy : ∀ node ∈ added, node.Tidy) (hdistinct : (added.map Node.name).Nodup)
    (hfree : ∀ node ∈ added, frame.hasChild node.name = false) :
    Frame.Tidy { frame with children := frame.children ++ added } := by
  refine ⟨h.name, ?_, ?_⟩
  · rw [List.map_append, List.nodup_append]
    refine ⟨h.distinct, hdistinct, ?_⟩
    intro name hname other hother
    obtain ⟨child, hchild, rfl⟩ := List.mem_map.mp hname
    obtain ⟨node, hnode, rfl⟩ := List.mem_map.mp hother
    have hapart : ∀ child ∈ frame.children, child.name ≠ node.name := by
      simpa [Frame.hasChild] using hfree node hnode
    exact hapart child hchild
  · exact fun child hchild => (List.mem_append.mp hchild).elim (h.children child) (htidy child)

/-- A tracer whose open pipelines are all tidy. -/
def Tracer.Tidy (t : Tracer) : Prop := ∀ frame ∈ t.frames, frame.Tidy

namespace Script

variable {σ α β : Type}

/-- The parts of a script that a run comes to, each with the tracer and the state that it
finds: what a sequence begins with, what comes after it if it does not fail, what runs
under a recovery, and the body of a pipeline once this is open. -/
inductive Reaches : {α : Type} → Script σ α → Tracer → σ → Script σ β → Tracer → σ → Prop where
  | self {part : Script σ β} {t : Tracer} {s : σ} : Reaches part t s part t s
  | first {α γ : Type} {first : Script σ α} {next : α → Script σ γ} {t t' : Tracer} {s s' : σ}
      {part : Script σ β} (h : Reaches first t s part t' s') :
      Reaches (.andThen first next) t s part t' s'
  | next {α γ : Type} {first : Script σ α} {next : α → Script σ γ} {t between t' : Tracer}
      {s kept s' : σ} {a : α} {part : Script σ β} (hfirst : first.run t s = (.ok a, between, kept))
      (h : Reaches (next a) between kept part t' s') : Reaches (.andThen first next) t s part t' s'
  | attempt {α : Type} {script : Script σ α} {t t' : Tracer} {s s' : σ} {part : Script σ β}
      (h : Reaches script t s part t' s') : Reaches (.attempt script) t s part t' s'
  | body {opening : Opening} {body : Args → Script σ (Option Expr)} {t named t' : Tracer}
      {s s' : σ} {frame : Frame} {declared : Option ValueType} {part : Script σ β}
      (hprepare : t.prepare opening = (.ok (frame, declared), named))
      (h : Reaches (body ⟨frame.name, frame.inputs⟩) (named.push frame) s part t' s') :
      Reaches (.nest opening body) t s part t' s'

/-- Tidy nodes under free names leave the open pipelines tidy. -/
theorem Tidies.tidy {t t' : Tracer} (h : Tidies t t') (ht : t.Tidy) : t'.Tidy := by
  obtain ⟨added, hframes, htidy, hdistinct, hfree⟩ := h
  unfold Tracer.Tidy
  rw [hframes]
  cases hopen : t.frames with
  | nil => nofun
  | cons frame outer =>
    have hframe : frame.Tidy := ht frame (hopen ▸ List.mem_cons_self)
    have houter : ∀ other ∈ outer, other.Tidy := fun other hother =>
      ht other (hopen ▸ List.mem_cons_of_mem _ hother)
    have hhere : ∀ node ∈ added, frame.hasChild node.name = false := by
      intro node hnode
      have hsibling := hfree node hnode
      rwa [Tracer.hasSibling, hopen] at hsibling
    exact List.forall_mem_cons.mpr ⟨hframe.append htidy hdistinct hhere, houter⟩

/-- A pipeline is tidy when it is opened. -/
theorem tidy_push {t named : Tracer} {opening : Opening} {frame : Frame}
    {declared : Option ValueType} (hprepare : t.prepare opening = (.ok (frame, declared), named))
    (ht : t.Tidy) : (named.push frame).Tidy := by
  have hframes : named.frames = t.frames := by
    have hkept := t.prepare_frames opening
    rwa [hprepare] at hkept
  have hmade := congrArg Prod.fst hprepare
  have hempty : frame.children = [] := Tracer.children_of_prepare hmade
  have hframe : frame.Tidy :=
    ⟨Tracer.validName_of_prepare hmade, by simp [hempty], by simp [hempty]⟩
  refine List.forall_mem_cons.mpr ⟨hframe, ?_⟩
  rw [hframes]
  exact ht

/-- The open pipelines stay tidy up to every part that a run comes to. -/
theorem Reaches.keeps_tidy {α : Type} {script : Script σ α} {t t' : Tracer} {s s' : σ}
    {part : Script σ β} (h : Reaches script t s part t' s') (ht : t.Tidy) : t'.Tidy := by
  induction h with
  | self => exact ht
  | first _ ih => exact ih ht
  | @next _ _ first _ t _ _ s _ _ _ _ hfirst _ ih =>
    have hbetween := first.tidies_run t s
    rw [hfirst] at hbetween
    exact ih (hbetween.tidy ht)
  | attempt _ ih => exact ih ht
  | body hprepare _ ih => exact ih (tidy_push hprepare ht)

end Script

/-- Every operation that makes a node makes a tidy one. -/
theorem Operation.names_run {σ α : Type} (operation : Operation σ α) (t : Tracer) (s : σ) :
    t.Names operation.node (operation.script.run t s).1 := by
  cases operation with
  | call d arguments => exact t.names_call d arguments
  | callPositional d arguments => exact t.names_callPositional d arguments
  | apply operator operands => exact t.names_apply operator operands
  | nest opening body =>
    exact Script.names_nest (fun arguments => (body arguments).tidies_run) t s
  | guardedBy left right comparator body =>
    rw [run_guardedBy]
    cases Condition.make left right comparator with
    | error fault => exact Tracer.names_error
    | ok condition => exact Script.names_nest (fun _ => Script.tidies_run _) t s

namespace Script

variable {σ α β : Type}

/-- A script is run on a tracer with nothing open, whatever its settings, its overloads and
its random bytes. Wherever the run comes, the open pipelines are tidy before and after the
part that is run there, and if this part is an operation that makes a node, then it makes a
tidy one. -/
theorem Reaches.tidy_throughout {script : Script σ α} {registry : Registry} {settings : Settings}
    {entropy : Entropy} {s : σ} {part : Script σ β} {t : Tracer} {s' : σ}
    (h : Reaches script ⟨[], registry, settings, entropy⟩ s part t s') :
    t.Tidy ∧ (part.run t s').2.1.Tidy ∧
      ∀ operation : Operation σ β, part = operation.script →
        ∀ made, (part.run t s').1 = .ok made → (operation.node made).Tidy := by
  have ht : t.Tidy := h.keeps_tidy nofun
  refine ⟨ht, (part.tidies_run t s').tidy ht, ?_⟩
  rintro operation rfl made hmade
  exact (operation.names_run t s' made hmade).1

/-- Nested pipelines one after the other: the first is recorded under a name of its own, the
second fails and is recovered from, and the third is the part that the run comes to. The
texts of their names have accents, capitals and dashes. -/
theorem tidy_after_recovery :
    ∃ (t : Tracer) (made : Pipeline),
      (t.frames.map fun frame => (frame.name, frame.children.map Node.name)) =
        [("rger-1", ["tude"])] ∧
      t.Tidy ∧ made.name = "node" ∧ (Node.pipeline made).Tidy := by
  let part : Script Unit Pipeline := (Operation.nest (.scope "--É") fun _ => .result none).script
  let recovered : Script Unit Pipeline :=
    .andThen (.attempt (.scope "ẞ" (.fail (.contract .noDependency)))) fun _ => part
  let body : Script Unit Pipeline := .andThen (.scope "Étude " (.result none)) fun _ => recovered
  let script : Script Unit Pipeline := .scope "Ärger 1" (.andThen body fun _ => .result none)
  have hreaches : script.Reaches
      ⟨[], Builtin.registry, { Settings.default with suffixLength := 0 }, fun _ => 0, 0⟩ ()
      part _ () :=
    .body rfl (.first (.next rfl (.next rfl .self)))
  obtain ⟨hopen, -, hmade⟩ := hreaches.tidy_throughout
  exact ⟨_, _, rfl, hopen, rfl, hmade _ rfl _ rfl⟩

end Script

end Dataflow
