/-
# Calls and signatures

A definition takes a call if its arguments have distinct and declared names, every parameter
without a default is among them, and what each parameter is given has a type that the parameter
accepts. Then each parameter is given one input, in the order of the parameters: the argument of
its name or else its default. What is asked of the arguments does not depend on their order, so
neither do the inputs.
-/

import Dataflow.Proofs.Tracer.Names
import Dataflow.Proofs.Tracer.Recorded

namespace Dataflow

/-- What arguments give to a parameter: the one of its name, or its default if none has the
name. -/
inductive Parameter.Given (arguments : List (String × Expr)) (parameter : Parameter) :
    Expr → Prop where
  | supplied {e : Expr} (hargument : (parameter.name, e) ∈ arguments) :
      Given arguments parameter e
  | fallback {v : Value} (habsent : parameter.name ∉ arguments.map Prod.fst)
      (hfallback : parameter.fallback = some v) : Given arguments parameter (.literal v)

/-- Arguments that a definition takes. -/
structure ComponentDef.Takes (d : ComponentDef) (arguments : List (String × Expr)) : Prop where
  /-- No two arguments have one name. -/
  distinct : (arguments.map Prod.fst).Nodup
  /-- Each argument names a parameter. -/
  declared : ∀ argument ∈ arguments, argument.1 ∈ d.parameters.map Parameter.name
  /-- Each parameter without a default is named. -/
  complete : ∀ parameter ∈ d.parameters, parameter.fallback = none →
    parameter.name ∈ arguments.map Prod.fst
  /-- What a parameter is given has a type that the parameter accepts. -/
  accepted : ∀ parameter ∈ d.parameters, ∀ e, parameter.Given arguments e →
    parameter.Takes (parameter.name, e)

namespace Parameter

variable {parameter : Parameter} {arguments other : List (String × Expr)} {e : Expr}

/-- Arguments of distinct names give a parameter what is found under its name, or else its
default. -/
theorem given_iff (hdistinct : (arguments.map Prod.fst).Nodup) :
    parameter.Given arguments e ↔
      (Named.find parameter.name arguments).or (parameter.fallback.map .literal) = some e := by
  constructor
  · rintro (hargument | ⟨habsent, hfallback⟩)
    · rw [Named.find_eq_some_of_mem hdistinct hargument]
      rfl
    · rw [Named.find_eq_none_iff.mpr habsent, hfallback]
      rfl
  · intro hfound
    cases hfind : Named.find parameter.name arguments with
    | some held =>
      rw [hfind] at hfound
      obtain rfl : held = e := Option.some.inj hfound
      exact .supplied (Named.mem_of_find_eq_some hfind)
    | none =>
      rw [hfind, Option.none_or, Option.map_eq_some_iff] at hfound
      obtain ⟨v, hfallback, rfl⟩ := hfound
      exact .fallback (Named.find_eq_none_iff.mp hfind) hfallback

/-- Arguments of distinct names give a parameter one expression at most. -/
theorem Given.unique {first second : Expr} (hfirst : parameter.Given arguments first)
    (hdistinct : (arguments.map Prod.fst).Nodup) (hsecond : parameter.Given arguments second) :
    first = second :=
  Option.some.inj (((given_iff hdistinct).mp hfirst).symm.trans ((given_iff hdistinct).mp hsecond))

/-- The order of the arguments does not matter. -/
theorem Given.perm (hperm : arguments.Perm other) (h : parameter.Given arguments e) :
    parameter.Given other e := by
  cases h with
  | supplied hargument => exact .supplied (hperm.subset hargument)
  | fallback habsent hfallback =>
    exact .fallback (fun hname => habsent ((hperm.map Prod.fst).mem_iff.mpr hname)) hfallback

end Parameter

/-- Every member of a list is related to something if some list is related to it member by
member. -/
theorem exists_forall₂_iff {α β : Type} {related : α → β → Prop} {list : List α} :
    (∃ others, List.Forall₂ related list others) ↔ ∀ a ∈ list, ∃ b, related a b := by
  induction list with
  | nil => simp
  | cons a rest ih =>
    rw [List.forall_mem_cons, ← ih]
    constructor
    · rintro ⟨_, hcons⟩
      cases hcons with
      | cons hrelated hrest => exact ⟨⟨_, hrelated⟩, ⟨_, hrest⟩⟩
    · rintro ⟨⟨b, hrelated⟩, ⟨others, hrest⟩⟩
      exact ⟨b :: others, .cons hrelated hrest⟩

namespace ComponentDef

variable {d : ComponentDef} {given bound inputs : Named Expr}
  {arguments other : List (String × Expr)}

/-- What a definition takes gives something to each parameter. -/
theorem Takes.exists_given (h : d.Takes arguments) {parameter : Parameter}
    (hparameter : parameter ∈ d.parameters) : ∃ e, parameter.Given arguments e := by
  by_cases hname : parameter.name ∈ arguments.map Prod.fst
  · obtain ⟨⟨name, e⟩, hargument, rfl⟩ := List.mem_map.mp hname
    exact ⟨e, .supplied hargument⟩
  · cases hfallback : parameter.fallback with
    | none => exact absurd (h.complete parameter hparameter hfallback) hname
    | some v => exact ⟨.literal v, .fallback hname hfallback⟩

/-- Arguments are collected if their names are declared and new, and then as they are. -/
theorem collect_eq_ok_iff {collected : Named Expr} (hgiven : given.Distinct) :
    d.collect given arguments = .ok collected ↔
      (∀ argument ∈ arguments, argument.1 ∈ d.parameters.map Parameter.name) ∧
        (given.names ++ arguments.map Prod.fst).Nodup ∧
          collected = ⟨given.entries ++ arguments⟩ := by
  induction arguments generalizing given with
  | nil =>
    have hnames : given.names.Nodup := hgiven
    simp [collect, hnames, eq_comm]
  | cons argument rest ih =>
    obtain ⟨name, e⟩ := argument
    have hany : (d.parameters.any fun parameter => parameter.name == name) = true ↔
        name ∈ d.parameters.map Parameter.name := by simp
    rw [collect, List.forall_mem_cons, List.map_cons]
    by_cases hdeclared : name ∈ d.parameters.map Parameter.name
    · rw [if_neg (by simpa using hany.mpr hdeclared)]
      by_cases hknown : name ∈ given.names
      · -- A name that was given before is refused, and then the names are not distinct.
        rw [if_pos (Named.contains_eq_true_iff.mpr hknown)]
        have hrepeated : ¬ (given.names ++ name :: rest.map Prod.fst).Nodup := fun hnodup =>
          (List.nodup_append.mp hnodup).2.2 name hknown name List.mem_cons_self rfl
        simp [hrepeated]
      · rw [if_neg fun h => hknown (Named.contains_eq_true_iff.mp h), ih (hgiven.insert name e),
          Named.insert_eq_append e hknown]
        simp [Named.names, hdeclared]
    · have hrefused : (!d.parameters.any fun parameter => parameter.name == name) = true := by
        rw [Bool.not_eq_true', Bool.eq_false_iff]
        exact fun h => hdeclared (hany.mp h)
      rw [if_pos hrefused]
      simp [hdeclared]

/-- What binding gives to each of some parameters, from what the arguments hold that are not used
up: the one under its name, or else its default, of a type that it accepts. -/
theorem bindAll_eq_ok_iff {parameters : List Parameter}
    (hleft : ∀ parameter ∈ parameters,
      given.get? parameter.name = Named.find parameter.name arguments)
    (hdistinct : (bound.names ++ parameters.map Parameter.name).Nodup) :
    d.bindAll given bound parameters = .ok inputs ↔
      ∃ added, inputs = ⟨bound.entries ++ added⟩ ∧
        List.Forall₂ (fun parameter input =>
          (Named.find parameter.name arguments).or (parameter.fallback.map .literal) =
              some input.2 ∧ parameter.Takes input) parameters added := by
  induction parameters generalizing given bound with
  | nil => simp [bindAll, eq_comm]
  | cons parameter rest ih =>
    rw [List.forall_mem_cons] at hleft
    have hnew : parameter.name ∉ bound.names := fun hknown =>
      (List.nodup_append.mp hdistinct).2.2 _ hknown _ List.mem_cons_self rfl
    have hnames := (List.nodup_append.mp hdistinct).2.1
    have hleft' : ∀ later ∈ rest,
        (given.erase parameter.name).get? later.name = Named.find later.name arguments := by
      intro later hlater
      have hne : later.name ≠ parameter.name := fun hsame =>
        (List.nodup_cons.mp hnames).1 (hsame ▸ List.mem_map_of_mem hlater)
      rw [Named.get?_erase_of_ne hne, hleft.2 later hlater]
    rw [bindAll_cons_eq_ok, hleft.1]
    constructor
    · rintro ⟨e, hgiven, htakes, hrest⟩
      rw [Named.insert_eq_append e hnew] at hrest
      obtain ⟨added, rfl, hadded⟩ := (ih hleft' (by simpa [Named.names] using hdistinct)).mp hrest
      exact ⟨(parameter.name, e) :: added, by simp, .cons ⟨hgiven, htakes⟩ hadded⟩
    · rintro ⟨_, rfl, hadded⟩
      cases hadded with
      | @cons _ input _ added hinput hadded =>
        obtain ⟨name, e⟩ := input
        obtain ⟨hgiven, htakes⟩ := hinput
        obtain rfl : name = parameter.name := htakes.1
        refine ⟨e, hgiven, htakes, ?_⟩
        rw [Named.insert_eq_append e hnew]
        exact (ih hleft' (by simpa [Named.names] using hdistinct)).mpr ⟨added, by simp, hadded⟩

/-- Into an empty collection, arguments are collected if their names are declared and distinct. -/
theorem collect_empty_eq_ok_iff {collected : Named Expr} :
    d.collect .empty arguments = .ok collected ↔
      (∀ argument ∈ arguments, argument.1 ∈ d.parameters.map Parameter.name) ∧
        (arguments.map Prod.fst).Nodup ∧ collected = ⟨arguments⟩ :=
  collect_eq_ok_iff Named.distinct_empty

/-- With distinct parameter names, a call is bound if its arguments have distinct and declared
names and there is one fitting input for each parameter, in order, with what the arguments give
to it. -/
theorem bind_eq_ok_iff (hparameters : (d.parameters.map Parameter.name).Nodup) :
    d.bind arguments = .ok inputs ↔
      (arguments.map Prod.fst).Nodup ∧
        (∀ argument ∈ arguments, argument.1 ∈ d.parameters.map Parameter.name) ∧
          List.Forall₂ (fun parameter input =>
            parameter.Given arguments input.2 ∧ parameter.Takes input) d.parameters
              inputs.entries := by
  rw [bind]
  cases hcollect : d.collect .empty arguments with
  | error fault =>
    simp only [reduceCtorEq, false_iff]
    rintro ⟨hdistinct, hdeclared, -⟩
    cases hcollect.symm.trans (collect_empty_eq_ok_iff.mpr ⟨hdeclared, hdistinct, rfl⟩)
  | ok given =>
    obtain ⟨hdeclared, hdistinct, rfl⟩ := collect_empty_eq_ok_iff.mp hcollect
    have hbind : d.bindAll ⟨arguments⟩ .empty d.parameters = .ok inputs ↔ _ :=
      bindAll_eq_ok_iff (fun _ _ => rfl) hparameters
    simp only [hbind, Parameter.given_iff hdistinct]
    constructor
    · rintro ⟨added, rfl, hadded⟩
      exact ⟨hdistinct, hdeclared, hadded⟩
    · rintro ⟨-, -, hadded⟩
      exact ⟨inputs.entries, rfl, hadded⟩

/-- A call is bound exactly if the definition takes its arguments. -/
theorem exists_bind_eq_ok_iff (hparameters : (d.parameters.map Parameter.name).Nodup) :
    (∃ inputs, d.bind arguments = .ok inputs) ↔ d.Takes arguments := by
  simp only [bind_eq_ok_iff hparameters, exists_and_left]
  constructor
  · rintro ⟨hdistinct, hdeclared, ⟨entries⟩, hentries⟩
    have hbound : ∀ parameter ∈ d.parameters, ∃ input : String × Expr,
        parameter.Given arguments input.2 ∧ parameter.Takes input :=
      exists_forall₂_iff.mp ⟨entries, hentries⟩
    refine ⟨hdistinct, hdeclared, ?_, ?_⟩
    · intro parameter hparameter hnone
      obtain ⟨⟨name, e⟩, hgiven, -⟩ := hbound parameter hparameter
      obtain hargument | ⟨-, hfallback⟩ : parameter.Given arguments e := hgiven
      · exact List.mem_map_of_mem hargument
      · cases hnone.symm.trans hfallback
    · intro parameter hparameter e hgiven
      obtain ⟨⟨name, held⟩, hheld, htakes⟩ := hbound parameter hparameter
      obtain rfl : name = parameter.name := htakes.1
      obtain rfl : held = e := hheld.unique hdistinct hgiven
      exact htakes
  · intro htakes
    have hbound : ∀ parameter ∈ d.parameters, ∃ input : String × Expr,
        parameter.Given arguments input.2 ∧ parameter.Takes input := by
      intro parameter hparameter
      obtain ⟨e, hgiven⟩ := htakes.exists_given hparameter
      exact ⟨(parameter.name, e), hgiven, htakes.accepted parameter hparameter e hgiven⟩
    obtain ⟨entries, hentries⟩ := exists_forall₂_iff.mpr hbound
    exact ⟨htakes.distinct, htakes.declared, ⟨entries⟩, hentries⟩

/-- The order of the arguments matters neither for whether a call is bound nor for its inputs. -/
theorem bind_eq_ok_perm (hparameters : (d.parameters.map Parameter.name).Nodup)
    (hperm : arguments.Perm other) : d.bind arguments = .ok inputs ↔ d.bind other = .ok inputs := by
  have hgiven (parameter : Parameter) (e : Expr) :
      parameter.Given arguments e ↔ parameter.Given other e :=
    ⟨fun h => h.perm hperm, fun h => h.perm hperm.symm⟩
  simp only [bind_eq_ok_iff hparameters, hgiven, (hperm.map Prod.fst).nodup_iff, hperm.mem_iff]

end ComponentDef

namespace Tracer

variable {t : Tracer} {d : ComponentDef} {arguments other : List (String × Expr)}

/-- A node is recorded exactly if its name is free. -/
theorem exists_recordAs_eq_ok_iff {named : Tracer} {α : Type} {node : α → Node} {made : α} :
    (∃ a, (named.recordAs node made).1 = .ok a) ↔ named.hasSibling (node made).name = false := by
  constructor
  · rintro ⟨a, hrecord⟩
    obtain ⟨rfl, hfree⟩ := hasSibling_of_recordAs (Prod.ext hrecord rfl)
    exact hfree
  · intro hfree
    exact ⟨made, by rw [recordAs_of_free hfree]⟩

/-- A call succeeds exactly if a type is declared, the call is bound and the name is free. -/
theorem exists_call_eq_ok_iff :
    (∃ c, (t.call d arguments).1 = .ok c) ↔
      d.returns.isSome = true ∧ (∃ inputs, d.bind arguments = .ok inputs) ∧
        t.hasSibling (t.nodeName d.explicitName d.function).1 = false := by
  rw [call]
  cases d.returns with
  | none => simp
  | some returns =>
    cases d.bind arguments with
    | error fault => simp
    | ok inputs =>
      have hnamed := hasSibling_congr (t.nodeName_frames d.explicitName d.function)
      simp [exists_recordAs_eq_ok_iff, Node.name, hnamed]

/-- What a call does is settled by what is bound. -/
theorem call_congr (hbind : ∀ inputs, d.bind arguments = .ok inputs ↔ d.bind other = .ok inputs) :
    (t.call d arguments).1.toOption = (t.call d other).1.toOption ∧
      (t.call d arguments).2 = (t.call d other).2 := by
  rw [call, call]
  cases d.returns with
  | none => exact ⟨rfl, rfl⟩
  | some returns =>
    cases hfirst : d.bind arguments with
    | ok inputs =>
      rw [(hbind inputs).mp hfirst]
      exact ⟨rfl, rfl⟩
    | error fault =>
      cases hsecond : d.bind other with
      | ok inputs => cases hfirst.symm.trans ((hbind inputs).mpr hsecond)
      | error _ => exact ⟨rfl, rfl⟩

/-- A call with arguments in order is one with the names of the first parameters. -/
theorem callPositional_eq_call {operands : List Expr}
    (hlength : operands.length ≤ d.parameters.length) :
    t.callPositional d operands =
      t.call d (((d.parameters.take operands.length).map Parameter.name).zip operands) := by
  have hnames : (d.parameters.map Parameter.name).zip operands =
      ((d.parameters.take operands.length).map Parameter.name).zip operands := by
    rw [List.zip_eq_zip_take_min, List.length_map, Nat.min_eq_right hlength, List.take_length,
      List.map_take]
  rw [callPositional, ComponentDef.nameArguments, if_neg (Nat.not_lt.mpr hlength), ← hnames]

/-- A call of a definition with distinct parameter names succeeds exactly if a type is declared,
the definition takes the arguments, and the name chosen for the node is free. The component then
has one input for each parameter, in the order of the parameters: the argument of its name, or
else its default. So the order of the arguments does not matter: another one gives the same
component and the same tracer, or fails as well. Arguments in order are those of the first
parameters; there may not be more of them than parameters. -/
theorem call_binds (t : Tracer) (d : ComponentDef)
    (hparameters : (d.parameters.map Parameter.name).Nodup) :
    (∀ arguments,
      ((∃ c, (t.call d arguments).1 = .ok c) ↔
        d.returns.isSome = true ∧ d.Takes arguments ∧
          t.hasSibling (t.nodeName d.explicitName d.function).1 = false) ∧
      (∀ c, (t.call d arguments).1 = .ok c →
        List.Forall₂ (fun parameter input =>
          input.1 = parameter.name ∧ parameter.Given arguments input.2)
            d.parameters c.inputs.entries) ∧
      ∀ other, arguments.Perm other →
        (t.call d arguments).1.toOption = (t.call d other).1.toOption ∧
          (t.call d arguments).2 = (t.call d other).2) ∧
    ∀ operands,
      (operands.length ≤ d.parameters.length → t.callPositional d operands =
        t.call d (((d.parameters.take operands.length).map Parameter.name).zip operands)) ∧
      (d.parameters.length < operands.length → t.callPositional d operands =
        (.error (.contract (.tooManyArguments d.function d.parameters.length operands.length)),
          t)) := by
  refine ⟨fun arguments => ⟨?_, ?_, ?_⟩, fun operands => ⟨callPositional_eq_call, ?_⟩⟩
  · rw [exists_call_eq_ok_iff, ComponentDef.exists_bind_eq_ok_iff hparameters]
  · intro c hcall
    have hbind := bind_of_call (Prod.ext hcall rfl)
    obtain ⟨-, -, hinputs⟩ := (ComponentDef.bind_eq_ok_iff hparameters).mp hbind
    exact hinputs.imp fun parameter input h => ⟨h.2.1, h.1⟩
  · intro other hperm
    exact call_congr fun inputs => ComponentDef.bind_eq_ok_perm hparameters hperm
  · intro hmore
    rw [callPositional, ComponentDef.nameArguments, if_pos hmore]

end Tracer

namespace Greeting

/-- A definition with a parameter that has to be given between two that have defaults, of which
one is of a narrower kind than its parameter. -/
def definition : ComponentDef where
  function := "greet"
  explicitName := some "greet"
  parameters :=
    [⟨"times", .integer, some (.boolean true)⟩, ⟨"name", .string, none⟩,
      ⟨"mark", .string, some (.string "!")⟩]
  returns := some .string
  deployment := .none
  body := none

/-- A tracer with an open pipeline. -/
def opened : Tracer :=
  (Tracer.start Settings.default ⟨fun _ => 0, 0⟩).push ⟨"main", .empty, [], none⟩

/-- Arguments that are not in the order of the parameters. -/
def arguments : List (String × Expr) :=
  [("mark", .literal (.string "?")), ("name", .literal (.string "Ada"))]

end Greeting

/-- A call with two of three arguments, out of order, is bound to the parameters in their order, as
the same call in another order is; without the one that has no default it fails. -/
theorem call_binds_greeting :
    (Greeting.definition.parameters.map Parameter.name).Nodup ∧
      Greeting.definition.Takes Greeting.arguments ∧
      ((Greeting.opened.call Greeting.definition Greeting.arguments).1.toOption.map
        fun c => c.inputs.entries) =
          some (("times", .literal (.boolean true)) :: Greeting.arguments.reverse) ∧
      (Greeting.opened.call Greeting.definition Greeting.arguments).2 =
        (Greeting.opened.call Greeting.definition Greeting.arguments.reverse).2 ∧
      ¬ Greeting.definition.Takes [("mark", .literal (.string "?"))] := by
  have hparameters : (Greeting.definition.parameters.map Parameter.name).Nodup := by decide
  obtain ⟨hcalls, -⟩ := Tracer.call_binds Greeting.opened Greeting.definition hparameters
  obtain ⟨hsucceeds, -, hperm⟩ := hcalls Greeting.arguments
  refine ⟨hparameters, (hsucceeds.mp ⟨_, rfl⟩).2.1, rfl, ?_, ?_⟩
  · exact (hperm _ Greeting.arguments.reverse_perm.symm).2
  · intro htakes
    obtain ⟨c, hcall⟩ := (hcalls _).1.mpr ⟨rfl, htakes, rfl⟩
    cases hcall

end Dataflow
