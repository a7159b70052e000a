/-
# Paths in traced pipelines

A path is made of names with slashes between them, and no valid name holds a slash, so the
names along a path can be read off it. In a traced pipeline siblings have distinct valid
names. Hence no two of its nodes are placed at one path.
-/

import Dataflow.Proofs.Pipeline.Tree
import Dataflow.Proofs.Tracer.Names
import Mathlib.Data.List.TakeWhile

namespace Dataflow

/-- A path leads on from another one, with a slash. -/
def LeadsOn (path place : String) : Prop := path.toList ++ ['/'] <+: place.toList

/-- What a path has between the slash after another path and the next slash. -/
def nameAfter (path place : String) : List Char :=
  (place.toList.drop (path.toList.length + 1)).takeWhile (· != '/')

section

variable {path place name : String}

theorem LeadsOn.ne (h : LeadsOn path place) : place ≠ path := by
  rintro rfl
  have hlength := h.length_le
  rw [List.length_append, List.length_singleton] at hlength
  omega

theorem leadsOn_child (path name : String) : LeadsOn path (path ++ "/" ++ name) := by
  refine ⟨name.toList, ?_⟩
  simp

theorem LeadsOn.of_child (h : LeadsOn (path ++ "/" ++ name) place) : LeadsOn path place := by
  obtain ⟨tail, htail⟩ := h
  refine ⟨name.toList ++ '/' :: tail, ?_⟩
  rw [← htail]
  simp

theorem nameAfter_append {rest : List Char} (hplace : place.toList = path.toList ++ '/' :: rest) :
    nameAfter path place = rest.takeWhile (· != '/') := by
  have hdrop : place.toList.drop (path.toList.length + 1) = rest := by
    rw [hplace, ← List.drop_drop, List.drop_left]
    rfl
  rw [nameAfter, hdrop]

theorem nameAfter_child (hslash : '/' ∉ name.toList) :
    nameAfter path (path ++ "/" ++ name) = name.toList := by
  have hplace : (path ++ "/" ++ name).toList = path.toList ++ '/' :: name.toList := by simp
  rw [nameAfter_append hplace, List.takeWhile_eq_self_iff]
  intro c hc
  simpa using ne_of_mem_of_not_mem hc hslash

theorem LeadsOn.nameAfter_eq (h : LeadsOn (path ++ "/" ++ name) place)
    (hslash : '/' ∉ name.toList) : nameAfter path place = name.toList := by
  obtain ⟨tail, htail⟩ := h
  have hplace : place.toList = path.toList ++ '/' :: (name.toList ++ '/' :: tail) := by
    rw [← htail]
    simp
  have hname : ∀ c ∈ name.toList, (c != '/') = true := by
    intro c hc
    simpa using ne_of_mem_of_not_mem hc hslash
  rw [nameAfter_append hplace, List.takeWhile_append_of_pos hname]
  simp

end

namespace Node

mutual

theorem leadsOn_of_mem_placedInner : ∀ (node : Node) {path place : String} {inside : Node},
    (place, inside) ∈ placedInner path node → LeadsOn path place
  | .component _, _, _, _, hmem => by simp [placedInner] at hmem
  | .pipeline ⟨_, _, children, _, _, _⟩, _, _, _, hmem => leadsOn_of_mem_placed children hmem

/-- The paths of the nodes in a pipeline lead on from its own path. -/
theorem leadsOn_of_mem_placed : ∀ (nodes : List Node) {path place : String} {inside : Node},
    (place, inside) ∈ placed path nodes → LeadsOn path place
  | [], _, _, _, hmem => by simp [placed] at hmem
  | child :: rest, path, place, inside, hmem => by
    rw [placed, List.mem_cons, List.mem_append] at hmem
    rcases hmem with hchild | hinner | hrest
    · obtain rfl : place = path ++ "/" ++ child.name := congrArg Prod.fst hchild
      exact leadsOn_child path child.name
    · exact (leadsOn_of_mem_placedInner child hinner).of_child
    · exact leadsOn_of_mem_placed rest hrest

end

/-- What the path of a node has after that of a pipeline is the name of the child that it
is or is in. -/
theorem exists_nameAfter_of_mem_placed {nodes : List Node}
    (hslash : ∀ child ∈ nodes, '/' ∉ child.name.toList) {path place : String} {inside : Node}
    (hmem : (place, inside) ∈ placed path nodes) :
    ∃ child ∈ nodes, nameAfter path place = child.name.toList := by
  induction nodes with
  | nil => simp [placed] at hmem
  | cons child rest ih =>
    have hchild := hslash child List.mem_cons_self
    rw [placed, List.mem_cons, List.mem_append] at hmem
    rcases hmem with hself | hinner | hrest
    · obtain rfl : place = path ++ "/" ++ child.name := congrArg Prod.fst hself
      exact ⟨child, List.mem_cons_self, nameAfter_child hchild⟩
    · exact ⟨child, List.mem_cons_self,
        (leadsOn_of_mem_placedInner child hinner).nameAfter_eq hchild⟩
    · obtain ⟨later, hlater, hname⟩ :=
        ih (fun other hother => hslash other (List.mem_cons_of_mem _ hother)) hrest
      exact ⟨later, List.mem_cons_of_mem _ hlater, hname⟩

theorem Tidy.not_mem_slash {node : Node} (h : node.Tidy) : '/' ∉ node.name.toList :=
  h.validName.not_mem_slash

mutual

theorem nodup_placedInner : ∀ (node : Node) (path : String), node.Tidy →
    ((placedInner path node).map Prod.fst).Nodup
  | .component _, _, _ => List.nodup_nil
  | .pipeline ⟨_, _, children, _, _, _⟩, path, htidy => by
    cases htidy with
    | pipeline _ hdistinct hchildren => exact nodup_placed children path hdistinct hchildren

/-- Tidy nodes of distinct names, and all nodes inside them, are placed at distinct
paths. -/
theorem nodup_placed : ∀ (nodes : List Node) (path : String), (nodes.map name).Nodup →
    (∀ child ∈ nodes, child.Tidy) → ((placed path nodes).map Prod.fst).Nodup
  | [], _, _, _ => List.nodup_nil
  | child :: rest, path, hdistinct, htidy => by
    have hchild := (htidy child List.mem_cons_self)
    have hslash := hchild.not_mem_slash
    have hrest : ∀ later ∈ rest, later.Tidy := fun later hlater =>
      htidy later (List.mem_cons_of_mem _ hlater)
    rw [List.map_cons, List.nodup_cons] at hdistinct
    obtain ⟨hnew, hdistinct⟩ := hdistinct
    -- A path that starts with the name of the child is not among those of the rest.
    have hapart : ∀ place ∈ (placed path rest).map Prod.fst,
        nameAfter path place ≠ child.name.toList := by
      intro place hplace hsame
      obtain ⟨⟨_, inside⟩, hmem, rfl⟩ := List.mem_map.mp hplace
      obtain ⟨later, hlater, hname⟩ :=
        exists_nameAfter_of_mem_placed (fun other hother => (hrest other hother).not_mem_slash) hmem
      have hnames : later.name = child.name := String.toList_inj.mp (hname.symm.trans hsame)
      exact hnew (hnames ▸ List.mem_map_of_mem hlater)
    rw [placed, List.map_cons, List.map_append, List.nodup_cons, List.mem_append, not_or,
      List.nodup_append]
    refine ⟨⟨?_, ?_⟩, nodup_placedInner child _ hchild, nodup_placed rest path hdistinct hrest, ?_⟩
    · intro hmem
      obtain ⟨⟨_, inside⟩, hinner, hplace⟩ := List.mem_map.mp hmem
      exact (leadsOn_of_mem_placedInner child hinner).ne hplace
    · intro hmem
      exact hapart _ hmem (nameAfter_child hslash)
    · intro place hinner other hother
      obtain ⟨⟨_, inside⟩, hmem, rfl⟩ := List.mem_map.mp hinner
      rintro rfl
      exact hapart _ hother ((leadsOn_of_mem_placedInner child hmem).nameAfter_eq hslash)

end

end Node

/-- No two nodes of a traced pipeline are at one path. -/
theorem Pipeline.Traced.nodup_placed {p : Pipeline} (h : p.Traced) :
    (p.placed.map Prod.fst).Nodup := by
  have hpaths := Node.nodup_placedInner (.pipeline p) p.name h.tidy
  rwa [Node.placedInner_pipeline] at hpaths

end Dataflow
