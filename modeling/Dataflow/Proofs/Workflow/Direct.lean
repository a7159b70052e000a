/-
# Expressions that the compiler can follow

A selection is compiled in one of two ways: from a node it takes an output of the task, and
from anything that is compiled to a record or to a literal it takes the part. What is
compiled to an output of a task is neither. An expression is direct if every selection in
it is made from a node, a literal or a composite record, or from a part of one of the
latter; it is not if a selection is made from what another selection or a composite record
holds of a node. Whatever compiles is direct, and where a direct expression has a value, it
compiles.
-/

import Dataflow.Proofs.Workflow.Tasks

namespace Dataflow

open Compile (Selector)

/-- What is known of an expression or an argument once the selections from literals and
composite records in it are carried out. -/
inductive Form where
  | literal (v : Value)
  | output
  | record (fields : Named Form)

namespace Form

/-- The form of a selected part. -/
def select (selector : Selector) : Form → Form
  | .record fields => (selector.pick fields).getD .output
  | .literal (.record fields) => ((selector.pick fields).map Form.literal).getD .output
  | _ => .output

/-- Whether a form is that of something that a task gives. -/
def isOutput : Form → Bool
  | .output => true
  | _ => false

mutual

/-- A value that something of a form may have. -/
inductive Admits : Value → Form → Prop where
  | literal (v : Value) : Admits v (.literal v)
  | output (v : Value) : Admits v .output
  | record {entries : List (String × Value)} {forms : List (String × Form)}
      (hentries : AdmitsAll entries forms) : Admits (.record ⟨entries⟩) (.record ⟨forms⟩)

/-- Values that things of these forms may have, under the same names. -/
inductive AdmitsAll : List (String × Value) → List (String × Form) → Prop where
  | nil : AdmitsAll [] []
  | cons {name : String} {v : Value} {form : Form} {entries : List (String × Value)}
      {forms : List (String × Form)} (hfirst : Admits v form) (hrest : AdmitsAll entries forms) :
      AdmitsAll ((name, v) :: entries) ((name, form) :: forms)

end

theorem admitsAll_iff_alike {entries : List (String × Value)} {forms : List (String × Form)} :
    AdmitsAll entries forms ↔ Named.Alike Admits entries forms := by
  constructor
  · intro hall
    induction entries generalizing forms with
    | nil =>
      cases hall
      exact .nil
    | cons entry rest ih =>
      cases hall with
      | cons hfirst hrest => exact .cons ⟨rfl, hfirst⟩ (ih hrest)
  · intro halike
    induction halike with
    | nil => exact .nil
    | @cons entry form entries forms hfirst _ ih =>
      obtain ⟨name, v⟩ := entry
      obtain ⟨other, form⟩ := form
      obtain ⟨rfl, hadmits⟩ := hfirst
      exact .cons hadmits ih

end Form

namespace Expr

mutual

/-- The form of an expression. -/
def form : Expr → Form
  | .literal v => .literal v
  | .node _ => .output
  | .field parent name => (form parent).select (.field name)
  | .index parent position => (form parent).select (.element position)
  | .record ⟨fields⟩ => .record (.ofList (forms fields))

/-- The forms of expressions under names. -/
def forms : List (String × Expr) → List (String × Form)
  | [] => []
  | (name, e) :: rest => (name, form e) :: forms rest

end

/-- Whether an expression is the result of a node. -/
def isNode : Expr → Bool
  | .node _ => true
  | _ => false

mutual

/-- Whether every selection in an expression is made from a node itself, or from something
that is a literal or a composite record once the selections in it are carried out. -/
def isDirect : Expr → Bool
  | .literal _ => true
  | .node _ => true
  | .field parent _ => isNode parent || (isDirect parent && !(form parent).isOutput)
  | .index parent _ => isNode parent || (isDirect parent && !(form parent).isOutput)
  | .record ⟨fields⟩ => areDirect fields

/-- Whether every selection in expressions under names is. -/
def areDirect : List (String × Expr) → Bool
  | [] => true
  | (_, e) :: rest => isDirect e && areDirect rest

end

end Expr

namespace Argument

mutual

/-- The form of an argument. -/
def form : Argument → Form
  | .literal v => .literal v
  | .output _ _ => .output
  | .record ⟨fields⟩ => .record ⟨forms fields⟩

/-- The forms of arguments under names. -/
def forms : List (String × Argument) → List (String × Form)
  | [] => []
  | (name, part) :: rest => (name, form part) :: forms rest

end

theorem forms_eq_map (fields : List (String × Argument)) :
    forms fields = fields.map fun field => (field.1, form field.2) := by
  induction fields with
  | nil => rfl
  | cons field rest ih => rw [forms, ih, List.map_cons]

@[simp]
theorem form_record (fields : Named Argument) :
    (Argument.record fields).form = .record (fields.map form) := by
  obtain ⟨entries⟩ := fields
  rw [form, forms_eq_map]
  rfl

end Argument

namespace Compile

variable {scopes : Scopes} {table : ValueTable}

theorem Selector.pick_map {α β : Type} (selector : Selector) (f : α → β) (fields : Named α) :
    selector.pick (fields.map f) = (selector.pick fields).map f := by
  cases selector with
  | field name => exact Named.find_map f name fields.entries
  | element position =>
    rw [pick, pick, Named.entryAt?, Named.entryAt?, Named.map, List.getElem?_map, Option.map_map,
      Option.map_map]
    rfl

theorem form_of_pickArgument {parent : Expr} {selector : Selector} {whole part : Argument}
    (hpart : pickArgument parent selector whole = .ok part) :
    part.form = whole.form.select selector ∧ whole.form.isOutput = false := by
  unfold pickArgument at hpart
  split at hpart
  · rename_i fields
    cases hpick : selector.pick fields with
    | none => simp [hpick] at hpart
    | some found =>
      simp only [hpick, Except.ok.injEq] at hpart
      rw [Argument.form_record, Form.select, Selector.pick_map, hpick, hpart]
      exact ⟨rfl, rfl⟩
  · rename_i fields
    cases hpick : selector.pick fields with
    | none => simp [hpick] at hpart
    | some v =>
      simp only [hpick, Except.ok.injEq] at hpart
      rw [← hpart, Argument.form, Argument.form, Form.select, hpick]
      exact ⟨rfl, rfl⟩
  · cases hpart

/-- A compiled selection has the form of the expression, and it is made from a node or from
something that is no output. -/
theorem form_of_selected {parent : Expr} {selector : Selector} {compiled : Argument}
    {reads : List Reference} (hselected : selected scopes parent selector = .ok (compiled, reads))
    (hparent : ∀ whole reads, argument scopes parent = .ok (whole, reads) →
      whole.form = parent.form ∧ parent.isDirect = true) :
    compiled.form = parent.form.select selector ∧
      (parent.isNode || (parent.isDirect && !parent.form.isOutput)) = true := by
  rcases cases_of_selected hselected with ⟨ref, rfl, hnode⟩ | ⟨whole, hwhole, hpart⟩
  · obtain ⟨schema, field, type, level, -, -, -, rfl, -⟩ := exists_schema_of_nodeOutput hnode
    exact ⟨rfl, rfl⟩
  · obtain ⟨hform, hdirect⟩ := hparent whole reads hwhole
    obtain ⟨hselect, hwhole⟩ := form_of_pickArgument hpart
    rw [hform] at hselect hwhole
    exact ⟨hselect, by simp [hdirect, hwhole]⟩

mutual

/-- What compiles is direct, and it is compiled to something of its own form. -/
theorem form_of_argument : ∀ (e : Expr) {compiled : Argument} {reads : List Reference},
    argument scopes e = .ok (compiled, reads) → compiled.form = e.form ∧ e.isDirect = true
  | .literal v, compiled, reads, hcompiled => by
    obtain ⟨rfl, -⟩ := argument_literal_eq_ok.mp hcompiled
    exact ⟨rfl, rfl⟩
  | .node ref, compiled, reads, hcompiled => by
    rw [argument] at hcompiled
    obtain ⟨level, -, rfl, -⟩ := exists_level_of_taskOutput hcompiled
    exact ⟨rfl, rfl⟩
  | .field parent name, compiled, reads, hcompiled => by
    rw [argument_field] at hcompiled
    exact form_of_selected hcompiled fun whole reads hwhole => form_of_argument parent hwhole
  | .index parent position, compiled, reads, hcompiled => by
    rw [argument_index] at hcompiled
    exact form_of_selected hcompiled fun whole reads hwhole => form_of_argument parent hwhole
  | .record ⟨fields⟩, compiled, reads, hcompiled => by
    obtain ⟨parts, hparts, rfl⟩ := argument_record_eq_ok.mp hcompiled
    obtain ⟨hforms, hdirect⟩ := forms_of_arguments fields hparts
    rw [Argument.form_record, Named.map_ofList, ← Argument.forms_eq_map, hforms]
    exact ⟨rfl, hdirect⟩

theorem forms_of_arguments : ∀ (fields : List (String × Expr))
    {parts : List (String × Argument)} {reads : List Reference},
    arguments scopes fields = .ok (parts, reads) →
      Argument.forms parts = Expr.forms fields ∧ Expr.areDirect fields = true
  | [], parts, reads, hcompiled => by
    obtain ⟨rfl, -⟩ := arguments_nil_eq_ok.mp hcompiled
    exact ⟨rfl, rfl⟩
  | (name, e) :: rest, parts, reads, hcompiled => by
    obtain ⟨part, first, others, further, hpart, hothers, rfl, -⟩ :=
      arguments_cons_eq_ok.mp hcompiled
    obtain ⟨hform, hdirect⟩ := form_of_argument e hpart
    obtain ⟨hforms, hrest⟩ := forms_of_arguments rest hothers
    rw [Argument.forms, Expr.forms, Expr.areDirect, hform, hforms, hdirect, hrest]
    exact ⟨rfl, rfl⟩

end

theorem Visible.isDirect {e : Expr} (h : Visible scopes e) : e.isDirect = true := by
  obtain ⟨compiled, reads, hcompiled⟩ := h
  exact (form_of_argument e hcompiled).2

end Compile

namespace Form

open Compile (Selector)

/-- A part of a value has the selected form, and a composite record has the part. -/
theorem Admits.select {selector : Selector} {fields : Named Value} {w : Value} {form : Form}
    (h : Admits (.record fields) form) (hpick : selector.pick fields = some w) :
    Admits w (form.select selector) := by
  cases h with
  | literal =>
    rw [Form.select, hpick]
    exact .literal w
  | output => exact .output w
  | @record entries forms hentries =>
    have halike : Named.Alike Admits (⟨entries⟩ : Named Value).entries (⟨forms⟩ : Named Form).entries :=
      admitsAll_iff_alike.mp hentries
    obtain ⟨part, hpart, hadmits⟩ := Selector.exists_pick halike hpick
    rw [Form.select, hpart]
    exact hadmits

end Form

namespace Expr

variable {table : ValueTable}

mutual

theorem admits_of_resolve : ∀ (e : Expr) {v : Value}, e.resolve table = .ok v →
    Form.Admits v e.form
  | .literal w, v, hresolve => by
    obtain rfl : w = v := Except.ok.inj hresolve
    exact .literal w
  | .node ref, v, _ => .output v
  | .field parent name, v, hresolve => by
    obtain ⟨fields, hparent, hget⟩ := resolve_field_eq_ok.mp hresolve
    have hpick : (Selector.field name).pick fields = some v := hget
    exact (admits_of_resolve parent hparent).select hpick
  | .index parent position, v, hresolve => by
    obtain ⟨fields, name, hparent, hentry⟩ := resolve_index_eq_ok.mp hresolve
    have hpick : (Selector.element position).pick fields = some v := by
      rw [Selector.pick, hentry]
      rfl
    exact (admits_of_resolve parent hparent).select hpick
  | .record ⟨fields⟩, v, hresolve => by
    obtain ⟨values, hvalues, rfl⟩ := resolve_record_eq_ok.mp hresolve
    exact .record (Form.admitsAll_iff_alike.mpr (admits_of_resolveFields fields hvalues).ofList)

theorem admits_of_resolveFields : ∀ (fields : List (String × Expr))
    {values : List (String × Value)}, resolveFields table fields = .ok values →
      Named.Alike Form.Admits values (forms fields)
  | [], values, hresolve => by
    obtain rfl : [] = values := Except.ok.inj hresolve
    exact .nil
  | (name, e) :: rest, values, hresolve => by
    obtain ⟨v, others, hv, hothers, rfl⟩ := resolveFields_cons_eq_ok.mp hresolve
    exact .cons ⟨rfl, admits_of_resolve e hv⟩ (admits_of_resolveFields rest hothers)

end

end Expr

/-- Whatever can be selected of the value of a node in the table, the type of the node
has. -/
def NodeRef.CoveredIn (ref : NodeRef) (table : ValueTable) : Prop :=
  ∀ fields, table.get? ref.name = some (.record fields) → ∀ selector : Selector, ∀ w,
    selector.pick fields = some w →
      ∃ schema field type, ref.type = some (.record schema) ∧ selector.Finds schema field type

namespace Compile

variable {scopes : Scopes} {table : ValueTable}

/-- What a table holds of a node that is read is covered by the type of the node, and some
scope declares the node. -/
def Readable (scopes : Scopes) (table : ValueTable) (ref : NodeRef) : Prop :=
  ref.CoveredIn table ∧ ref.name ∈ scopes.flatten

theorem exists_levelOf?_of_mem {name : String} (hmem : name ∈ scopes.flatten) :
    ∃ level, levelOf? name scopes = some level := by
  induction scopes with
  | nil => cases hmem
  | cons scope outer ih =>
    rw [levelOf?]
    split
    · exact ⟨_, rfl⟩
    · rename_i habsent
      rw [List.flatten_cons, List.mem_append] at hmem
      rcases hmem with hscope | houter
      · exact absurd (List.contains_iff_mem.mpr hscope) habsent
      · exact ih houter

theorem exists_taskOutput {task : String} (field : Option String)
    (hmem : task ∈ scopes.flatten) :
    ∃ reads, taskOutput scopes task field = .ok (.output task field, reads) := by
  obtain ⟨level, hlevel⟩ := exists_levelOf?_of_mem hmem
  exact ⟨_, by rw [taskOutput, hlevel]⟩

/-- What a selector finds in the type of a declared node is an output of its task. -/
theorem exists_nodeOutput {ref : NodeRef} {selector : Selector} {schema : RecordSchema}
    {field : String} {type : ValueType} (htype : ref.type = some (.record schema))
    (hfinds : selector.Finds schema field type) (hmem : ref.name ∈ scopes.flatten) :
    ∃ compiled reads, nodeOutput scopes ref selector = .ok (compiled, reads) := by
  have hinfer : (Expr.node ref).typeOf = .ok (.record schema) := by
    rw [Expr.typeOf_eq_ok, Expr.infer, htype]
  have hfield : outputField (.node ref) (.record schema) selector = .ok field := by
    cases selector with
    | field name =>
      obtain ⟨rfl, hsought⟩ := hfinds
      simp [outputField, hsought]
    | element position =>
      have hsought : schema.fieldAt? position = some (field, type) := hfinds
      simp [outputField, hsought]
  obtain ⟨reads, houtput⟩ := exists_taskOutput (some field) hmem
  refine ⟨.output ref.name (some field), reads, ?_⟩
  rw [nodeOutput, hinfer]
  simp only
  rw [hfield]
  exact houtput

/-- An argument that is no output has every part that a value of its form has. -/
theorem exists_pickArgument (parent : Expr) {selector : Selector} {whole : Argument}
    {fields : Named Value} {w : Value} (hadmits : Form.Admits (.record fields) whole.form)
    (houtput : whole.form.isOutput = false) (hpick : selector.pick fields = some w) :
    ∃ part, pickArgument parent selector whole = .ok part := by
  cases whole with
  | output task field => cases houtput
  | literal v =>
    have hliteral : Form.Admits (.record fields) (.literal v) := hadmits
    cases hliteral with
    | literal => exact ⟨.literal w, by simp [pickArgument, hpick]⟩
  | record parts =>
    rw [Argument.form_record] at hadmits
    generalize hforms : parts.map Argument.form = forms at hadmits
    cases hadmits with
    | @record entries forms hentries =>
      have halike : Named.Alike Form.Admits (⟨entries⟩ : Named Value).entries
          (⟨forms⟩ : Named Form).entries := Form.admitsAll_iff_alike.mp hentries
      obtain ⟨form, hform, -⟩ := Selector.exists_pick halike hpick
      rw [← hforms, Selector.pick_map, Option.map_eq_some_iff] at hform
      obtain ⟨part, hpart, -⟩ := hform
      exact ⟨part, by simp [pickArgument, hpart]⟩

theorem selected_of_isNode_eq_false {parent : Expr} {selector : Selector}
    (hnode : parent.isNode = false) :
    selected scopes parent selector = pickFrom parent selector (argument scopes parent) := by
  cases parent with
  | node ref => cases hnode
  | literal | field | index | record => rfl

/-- A selection that has a value compiles, if it is made from a node that may be read or
from something that compiles and is no output. -/
theorem exists_selected {parent : Expr} {selector : Selector} {fields : Named Value} {w : Value}
    (hdirect : (parent.isNode || (parent.isDirect && !parent.form.isOutput)) = true)
    (hresolve : parent.resolve table = .ok (.record fields))
    (hpick : selector.pick fields = some w)
    (hreadable : ∀ ref ∈ parent.references, Readable scopes table ref)
    (hparent : parent.isDirect = true → Visible scopes parent) :
    ∃ compiled reads, selected scopes parent selector = .ok (compiled, reads) := by
  cases hnode : parent.isNode with
  | true =>
    cases parent with
    | node ref =>
      obtain ⟨hcovered, hmem⟩ := hreadable ref List.mem_cons_self
      have hget : table.get? ref.name = some (.record fields) := by
        rw [Expr.resolve, ValueTable.lookup] at hresolve
        split at hresolve
        · rename_i v hget
          rw [hget, Except.ok.inj hresolve]
        · cases hresolve
      obtain ⟨schema, field, type, htype, hfinds⟩ := hcovered fields hget selector w hpick
      exact exists_nodeOutput htype hfinds hmem
    | literal v | field parent name | index parent position | record fields => cases hnode
  | false =>
    rw [hnode, Bool.false_or, Bool.and_eq_true, Bool.not_eq_true'] at hdirect
    obtain ⟨whole, reads, hwhole⟩ := hparent hdirect.1
    obtain ⟨hform, -⟩ := form_of_argument parent hwhole
    have hadmits := Expr.admits_of_resolve parent hresolve
    rw [← hform] at hadmits hdirect
    obtain ⟨part, hpart⟩ := exists_pickArgument parent hadmits hdirect.2 hpick
    refine ⟨part, reads, ?_⟩
    rw [selected_of_isNode_eq_false hnode, hwhole]
    simp only [pickFrom, hpart]

mutual

/-- A direct expression compiles where it has a value and the nodes that it refers to may be
read. -/
theorem visible_of_resolve : ∀ (e : Expr) {v : Value}, e.isDirect = true →
    e.resolve table = .ok v → (∀ ref ∈ e.references, Readable scopes table ref) →
      Visible scopes e
  | .literal w, v, _, _, _ => ⟨_, _, rfl⟩
  | .node ref, v, _, _, hreadable => by
    obtain ⟨-, hmem⟩ := hreadable ref List.mem_cons_self
    obtain ⟨reads, houtput⟩ := exists_taskOutput none hmem
    exact ⟨_, reads, houtput⟩
  | .field parent name, v, hdirect, hresolve, hreadable => by
    obtain ⟨fields, hparent, hget⟩ := Expr.resolve_field_eq_ok.mp hresolve
    have hpick : (Selector.field name).pick fields = some v := hget
    rw [Visible, argument_field]
    exact exists_selected hdirect hparent hpick hreadable fun hdirect =>
      visible_of_resolve parent hdirect hparent hreadable
  | .index parent position, v, hdirect, hresolve, hreadable => by
    obtain ⟨fields, name, hparent, hentry⟩ := Expr.resolve_index_eq_ok.mp hresolve
    have hpick : (Selector.element position).pick fields = some v := by
      rw [Selector.pick, hentry]
      rfl
    rw [Visible, argument_index]
    exact exists_selected hdirect hparent hpick hreadable fun hdirect =>
      visible_of_resolve parent hdirect hparent hreadable
  | .record ⟨fields⟩, v, hdirect, hresolve, hreadable => by
    obtain ⟨values, hvalues, -⟩ := Expr.resolve_record_eq_ok.mp hresolve
    obtain ⟨parts, reads, hparts⟩ :=
      exists_arguments_of_resolveFields fields hdirect hvalues hreadable
    exact ⟨_, reads, argument_record_eq_ok.mpr ⟨parts, hparts, rfl⟩⟩

theorem exists_arguments_of_resolveFields : ∀ (fields : List (String × Expr))
    {values : List (String × Value)}, Expr.areDirect fields = true →
    Expr.resolveFields table fields = .ok values →
    (∀ ref ∈ Expr.fieldReferences fields, Readable scopes table ref) →
      ∃ parts reads, arguments scopes fields = .ok (parts, reads)
  | [], values, _, _, _ => ⟨[], [], rfl⟩
  | (name, e) :: rest, values, hdirect, hresolve, hreadable => by
    obtain ⟨v, others, hv, hothers, -⟩ := Expr.resolveFields_cons_eq_ok.mp hresolve
    rw [Expr.areDirect, Bool.and_eq_true] at hdirect
    simp only [Expr.fieldReferences, List.mem_append] at hreadable
    obtain ⟨part, first, hpart⟩ := visible_of_resolve e hdirect.1 hv
      fun ref href => hreadable ref (.inl href)
    obtain ⟨parts, further, hparts⟩ := exists_arguments_of_resolveFields rest hdirect.2 hothers
      fun ref href => hreadable ref (.inr href)
    exact ⟨_, _, arguments_cons_eq_ok.mpr
      ⟨part, first, parts, further, hpart, hparts, rfl, rfl⟩⟩

end

end Compile

end Dataflow
