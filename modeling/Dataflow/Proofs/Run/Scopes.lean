/-
# What scopes leave behind

A pipeline that is entered extends a table of its own, and only its value comes back. So
the table of the root pipeline ends with its arguments and the values of those of its
children that completed, each the reconstruction of what the child itself gave, and a nested
pipeline changes the table around it under its own name alone.

That a node gives one value in a run needs that no moment comes twice: every move counts
down what is ahead and what is open.
-/

import Dataflow.Proofs.Run.Nested
import Dataflow.Proofs.Run.Order

namespace Dataflow

/-- At this moment the node at the path is the last one that was passed, with this value. -/
def Moment.Passed {σ : Type} (m : Moment σ) (path : String) (node : Node)
    (value : Option Value) : Prop :=
  ∃ a outer before, m.stack = a :: outer ∧ a.past = before ++ [(node, value)] ∧
    path = a.pathOf node

/-- What a moment has to do: what is ahead counts twice, to be met and to be left, and what
is open counts once, to be left. -/
def Moment.weight {σ : Type} (m : Moment σ) : Nat :=
  2 * (Stack.ahead m.stack).length + m.stack.length

/-- Passing a node puts its value into the table, if it has one. -/
theorem Stack.table_pass (a : Activation) (node : Node) (value : Option Value)
    (rest : List Node) (outer : Stack) :
    table (a.pass node value rest :: outer) = (table (a :: outer)).settle node.name value := by
  cases value with
  | none => exact table_pass_none a node rest outer
  | some v => exact table_pass_some a node v rest outer

theorem Activation.sublist_completed (a : Activation) :
    (a.completed.map Prod.fst).Sublist ((a.past.map Prod.fst).map Node.name) := by
  have hvalues : ∀ past : List (Node × Option Value),
      ((past.filterMap fun entry => entry.2.map fun v => (entry.1.name, v)).map Prod.fst).Sublist
        ((past.map Prod.fst).map Node.name) := by
    intro past
    induction past with
    | nil => exact List.Sublist.refl _
    | cons entry rest ih =>
      obtain ⟨node, value⟩ := entry
      cases value with
      | none => exact ih.cons _
      | some v => exact ih.cons_cons _
  exact hvalues a.past

namespace Stack

variable {p : Pipeline} {a : Activation} {outer : Stack}

/-- A pipeline that is open at the path of the root is open alone, since whatever is open in
another one is at the path of a node inside the root. -/
theorem OpenIn.outer_eq_nil (h : OpenIn p (a :: outer)) (hpath : a.path = p.name) :
    outer = [] := by
  cases h with
  | root _ _ _ => rfl
  | nested houter hnext hinside _ =>
    have hahead := (houter.walks _ List.mem_cons_self).mem_of_future
      (hnext ▸ List.mem_cons_self)
    have hplaced := houter.mem_placed _ List.mem_cons_self _ hahead
    have hleads := Node.leadsOn_of_mem_placed p.children hplaced
    exact absurd (hinside.symm.trans hpath) hleads.ne

/-- A pipeline at another path than the root is the next node of the one around it. -/
theorem OpenIn.exists_around (h : OpenIn p (a :: outer)) (hpath : a.path ≠ p.name) :
    ∃ around further rest, outer = around :: further ∧
      around.future = .pipeline a.pipeline :: rest ∧
      a.path = around.pathOf (.pipeline a.pipeline) := by
  cases h with
  | root _ _ hroot => exact absurd hroot hpath
  | nested _ hnext hinside _ => exact ⟨_, _, _, rfl, hnext, hinside⟩

/-- If the nodes behind have distinct names, each that completed is found in the table. -/
theorem get?_table_of_mem_past (hdistinct : ((a.past.map Prod.fst).map Node.name).Nodup)
    {node : Node} {v : Value} (hmem : (node, some v) ∈ a.past) :
    (table (a :: outer)).get? node.name = some v := by
  have hcompleted : (node.name, v) ∈ a.completed.reverse :=
    List.mem_reverse.mpr (Activation.mem_completed.mpr ⟨node, hmem, rfl⟩)
  have hnames : (a.completed.reverse.map Prod.fst).Nodup := by
    rw [List.map_reverse, List.nodup_reverse]
    exact a.sublist_completed.nodup hdistinct
  rw [table, Activation.bindings, Named.insertAll_append, Named.get?_insertAll,
    Named.find_eq_some_of_mem hnames hcompleted, Option.some_or]

end Stack

namespace Backend

variable {σ : Type} {backend : Backend σ} {p : Pipeline} {s : σ} {m m' : Moment σ}

/-- Every move counts down. -/
theorem Moves.weight_lt (h : backend.Moves m m') : m'.weight < m.weight := by
  unfold Moment.weight
  cases h with
  | @run a outer state after c rest inputs v hnext _ _ =>
    simp only [Stack.ahead, Activation.pass_path, Activation.pass_future, hnext, Node.placed,
      Node.placedInner, List.nil_append, List.cons_append, List.length_cons]
    omega
  | @skip a outer state q rest inputs hnext _ _ =>
    simp only [Stack.ahead, Activation.pass_path, Activation.pass_future, hnext, Node.placed,
      List.cons_append, List.length_append, List.length_cons]
    omega
  | @enter a outer state q rest inputs hnext _ _ =>
    simp only [Stack.ahead, Stack.aheadAround, Activation.opened, Activation.pathOf, hnext,
      Node.placed, Node.placedInner_pipeline, List.tail_cons, List.cons_append,
      List.length_append, List.length_cons]
    omega
  | @leave inside a outer state rest value v hdone hnext _ _ =>
    simp only [Stack.ahead, Stack.aheadAround, Activation.pass_path, Activation.pass_future,
      hdone, hnext, Node.placed, List.tail_cons, List.nil_append, List.length_append,
      List.length_cons]
    omega

theorem Follows.eq_or_weight_lt (h : backend.Follows m m') : m = m' ∨ m'.weight < m.weight := by
  induction h with
  | refl => exact .inl rfl
  | tail _ hmove ih =>
    rcases ih with rfl | hlt
    · exact .inr hmove.weight_lt
    · exact .inr (hmove.weight_lt.trans hlt)

/-- Moments of a run with as much to do are one. -/
theorem Reaches.eq_of_weight_eq (h : backend.Reaches p s m) (h' : backend.Reaches p s m')
    (hsame : m.weight = m'.weight) : m = m' := by
  rcases h.follows_or_follows h' with hfollows | hfollows
  · rcases hfollows.eq_or_weight_lt with heq | hlt
    · exact heq
    · omega
  · rcases hfollows.eq_or_weight_lt with heq | hlt
    · exact heq.symm
    · omega

theorem Reaches.follows (h : backend.Reaches p s m) (hfollows : backend.Follows m m') :
    backend.Reaches p s m' := by
  induction hfollows with
  | refl => exact h
  | tail _ hmove ih => exact ih.move hmove

/-- A move changes the innermost pipeline, enters another one in it or leaves it. -/
theorem Moves.tail_suffix (h : backend.Moves m m') : m'.stack.tail <:+ m.stack := by
  cases h with
  | run _ _ _ | skip _ _ _ => exact List.suffix_cons _ _
  | enter _ _ _ => exact List.suffix_rfl
  | leave _ _ _ _ => exact (List.suffix_cons _ _).trans (List.suffix_cons _ _)

/-- What is open around a pipeline was open by itself before. -/
theorem Reaches.exists_of_suffix (h : backend.Reaches p s m) :
    ∀ stack, stack <:+ m.stack → stack ≠ [] → ∃ state, backend.Reaches p s ⟨stack, state⟩ := by
  have hsplit : ∀ {stack whole : Stack}, stack <:+ whole →
      stack = whole ∨ stack <:+ whole.tail := by
    intro stack whole hsuffix
    cases whole with
    | nil => exact .inl (List.suffix_nil.mp hsuffix)
    | cons a outer => exact List.suffix_cons_iff.mp hsuffix
  induction h with
  | start hinputs =>
    intro stack hsuffix hne
    rcases hsplit hsuffix with rfl | hnil
    · exact ⟨_, .start hinputs⟩
    · exact absurd (List.suffix_nil.mp hnil) hne
  | move hreach hmove ih =>
    intro stack hsuffix hne
    rcases hsplit hsuffix with rfl | houter
    · exact ⟨_, hreach.move hmove⟩
    · exact ih stack (houter.trans hmove.tail_suffix) hne

/-- A node that was passed was the next one before, under the same open pipelines. -/
theorem Reaches.exists_next_of_passed (h : backend.Reaches p s m) {a : Activation}
    {outer : Stack} {node : Node} {value : Option Value} {before : List (Node × Option Value)}
    (hstack : m.stack = a :: outer) (hpast : a.past = before ++ [(node, value)]) :
    ∃ earlier rest state, a = Activation.pass earlier node value rest ∧
      earlier.future = node :: rest ∧ backend.Reaches p s ⟨earlier :: outer, state⟩ := by
  -- The node that a move passes is the last one behind.
  have hlast : ∀ {earlier : Activation} {passed : Node} {given : Option Value} {rest : List Node}
      {around : Stack}, earlier.pass passed given rest :: around = a :: outer →
        passed = node ∧ given = value ∧ a = earlier.pass node value rest ∧ around = outer := by
    intro earlier passed given rest around hsame
    obtain ⟨rfl, rfl⟩ := List.cons.inj hsame
    obtain ⟨rfl, rfl⟩ := Prod.mk.inj (List.singleton_inj.mp (List.append_inj_right' hpast rfl))
    exact ⟨rfl, rfl, rfl, rfl⟩
  cases h with
  | start _ =>
    obtain ⟨rfl, -⟩ := List.cons.inj hstack
    simp [Activation.opened] at hpast
  | move hreach hmove =>
    cases hmove with
    | run hnext _ _ =>
      obtain ⟨rfl, rfl, rfl, rfl⟩ := hlast hstack
      exact ⟨_, _, _, rfl, hnext, hreach⟩
    | skip hnext _ _ =>
      obtain ⟨rfl, rfl, rfl, rfl⟩ := hlast hstack
      exact ⟨_, _, _, rfl, hnext, hreach⟩
    | enter _ _ _ =>
      obtain ⟨rfl, -⟩ := List.cons.inj hstack
      simp [Activation.opened] at hpast
    | leave _ hnext _ _ =>
      obtain ⟨rfl, rfl, rfl, rfl⟩ := hlast hstack
      obtain ⟨state, hearlier⟩ :=
        hreach.exists_of_suffix _ (List.suffix_cons _ _) (List.cons_ne_nil _ _)
      exact ⟨_, _, _, rfl, hnext, hearlier⟩

/-- Passing a node leaves what is open around it and changes the table under the name of the
node alone. -/
theorem Reaches.table_of_passed (h : backend.Reaches p s m) (h' : backend.Reaches p s m')
    (ht : p.Traced) {path : String} {node : Node} {value : Option Value}
    (hmeets : m.Meets path node) (hpassed : m'.Passed path node value) :
    m'.stack.tail = m.stack.tail ∧
      Stack.table m'.stack = (Stack.table m.stack).settle node.name value := by
  obtain ⟨a, outer, before, hstack, hpast, rfl⟩ := hpassed
  obtain ⟨earlier, rest, state, rfl, hnext, hearlier⟩ := h'.exists_next_of_passed hstack hpast
  obtain rfl := h.eq_of_meets hearlier ht hmeets (Moment.meets_of_next hnext)
  rw [hstack]
  exact ⟨rfl, Stack.table_pass earlier node value rest outer⟩

/-- A node that is the next one stays so, under what is open around it, or is passed. -/
theorem Follows.exists_passed (h : backend.Follows m m') {a : Activation} {outer : Stack}
    {node : Node} {rest : List Node} (hstack : m.stack = a :: outer)
    (hnext : a.future = node :: rest) : a :: outer <:+ m'.stack ∨
      ∃ value passed, backend.Follows m passed ∧
        passed.stack = a.pass node value rest :: outer := by
  induction h with
  | refl =>
    rw [hstack]
    exact .inl List.suffix_rfl
  | @tail between after hfollows hmove ih =>
    rcases ih with hsuffix | hpassed
    · -- The pipeline with the node is the innermost one, or it is open around the move.
      have hfurther := hfollows.tail hmove
      cases hmove with
      | run hnext' _ _ | skip hnext' _ _ =>
        rcases List.suffix_cons_iff.mp hsuffix with hsame | houter
        · obtain ⟨rfl, rfl⟩ := List.cons.inj hsame
          obtain ⟨rfl, rfl⟩ := List.cons.inj (hnext.symm.trans hnext')
          exact .inr ⟨_, _, hfurther, rfl⟩
        · exact .inl (houter.trans (List.suffix_cons _ _))
      | enter _ _ _ => exact .inl (hsuffix.trans (List.suffix_cons _ _))
      | leave hdone hnext' _ _ =>
        rcases List.suffix_cons_iff.mp hsuffix with hinside | haround
        · obtain ⟨rfl, -⟩ := List.cons.inj hinside
          simp [hdone] at hnext
        · rcases List.suffix_cons_iff.mp haround with hsame | houter
          · obtain ⟨rfl, rfl⟩ := List.cons.inj hsame
            obtain ⟨rfl, rfl⟩ := List.cons.inj (hnext.symm.trans hnext')
            exact .inr ⟨_, _, hfurther, rfl⟩
          · exact .inl (houter.trans (List.suffix_cons _ _))
    · exact .inr hpassed

/-- In a run, the backend gives this raw result to the component at the path. -/
inductive Answered (backend : Backend σ) (p : Pipeline) (s : σ) (path : String) (c : Component)
    (raw : Value) : Prop where
  | intro {m : Moment σ} {inputs : Inputs} {after : σ}
      (hreach : backend.Reaches p s m) (hmeets : m.Meets path (.component c))
      (hinputs : Expr.resolveAll (Stack.table m.stack) c.inputs = .ok inputs)
      (hraw : backend.runComponent c inputs m.state.backend = (.ok raw, after))

/-- In a run, the pipeline at the path comes to its end, and its return value, if it has one,
has this value there. -/
inductive Returned (backend : Backend σ) (p : Pipeline) (s : σ) (path : String) (q : Pipeline)
    (value : Option Value) : Prop where
  | intro {m : Moment σ} {a : Activation} {outer : Stack}
      (hreach : backend.Reaches p s m) (hstack : m.stack = a :: outer) (hpath : a.path = path)
      (hpipeline : a.pipeline = q) (hdone : a.future = [])
      (hvalue : Expr.resolveOption (Stack.table m.stack) q.returnValue = .ok value)

/-- In a run, the node at the path gives this value: the reconstruction of its raw result, or
the empty record if it is a pipeline without a return value. -/
inductive Gives (backend : Backend σ) (p : Pipeline) (s : σ) (path : String) :
    Node → Value → Prop where
  | component {c : Component} {raw v : Value} (hanswered : backend.Answered p s path c raw)
      (hvalue : reconstruct c.name c.returns raw = .ok v) :
      Gives backend p s path (.component c) v
  | returning {q : Pipeline} {declared : ValueType} {raw v : Value}
      (hreturned : backend.Returned p s path q (some raw)) (hdeclared : q.returns = some declared)
      (hvalue : reconstruct q.name declared raw = .ok v) :
      Gives backend p s path (.pipeline q) v
  | silent {q : Pipeline} (hreturned : backend.Returned p s path q none)
      (hsilent : q.returnValue = none) :
      Gives backend p s path (.pipeline q) Value.emptyRecord

theorem Answered.unique {path : String} {c : Component} {raw raw' : Value} (ht : p.Traced)
    (h : backend.Answered p s path c raw) (h' : backend.Answered p s path c raw') :
    raw = raw' := by
  obtain ⟨hreach, hmeets, hinputs, hraw⟩ := h
  obtain ⟨hreach', hmeets', hinputs', hraw'⟩ := h'
  obtain rfl := hreach.eq_of_meets hreach' ht hmeets hmeets'
  obtain rfl := Except.ok.inj (hinputs.symm.trans hinputs')
  exact Except.ok.inj (Prod.mk.inj (hraw.symm.trans hraw')).1

/-- What is open around a pipeline at a path is the same whenever it is the innermost one. -/
theorem Reaches.eq_outer (h : backend.Reaches p s m) (h' : backend.Reaches p s m')
    (ht : p.Traced) {a a' : Activation} {outer outer' : Stack} (hstack : m.stack = a :: outer)
    (hstack' : m'.stack = a' :: outer') (hpath : a.path = a'.path) : outer = outer' := by
  have hopen := h.openIn
  have hopen' := h'.openIn
  rw [hstack] at hopen
  rw [hstack'] at hopen'
  by_cases hroot : a.path = p.name
  · rw [hopen.outer_eq_nil hroot, hopen'.outer_eq_nil (hpath ▸ hroot)]
  · obtain ⟨around, further, rest, rfl, hnext, hinside⟩ := hopen.exists_around hroot
    obtain ⟨around', further', rest', rfl, hnext', hinside'⟩ :=
      hopen'.exists_around (hpath ▸ hroot)
    obtain ⟨state, hreach⟩ := h.exists_of_suffix _ (hstack ▸ List.suffix_cons _ _)
      (List.cons_ne_nil around further)
    obtain ⟨state', hreach'⟩ := h'.exists_of_suffix _ (hstack' ▸ List.suffix_cons _ _)
      (List.cons_ne_nil around' further')
    have hmeets : Moment.Meets ⟨around :: further, state⟩ a.path (.pipeline a.pipeline) :=
      ⟨around, further, rest, rfl, hnext, hinside⟩
    have hmeets' : Moment.Meets ⟨around' :: further', state'⟩ a.path (.pipeline a'.pipeline) :=
      ⟨around', further', rest', rfl, hnext', hpath.trans hinside'⟩
    exact (Moment.mk.inj (hreach.eq_of_meets hreach' ht hmeets hmeets')).1

theorem Returned.unique {path : String} {q : Pipeline} {value value' : Option Value}
    (ht : p.Traced) (h : backend.Returned p s path q value)
    (h' : backend.Returned p s path q value') : value = value' := by
  obtain @⟨m, a, outer, hreach, hstack, hpath, -, hdone, hvalue⟩ := h
  obtain @⟨m', a', outer', hreach', hstack', hpath', -, hdone', hvalue'⟩ := h'
  have houter := hreach.eq_outer hreach' ht hstack hstack' (hpath.trans hpath'.symm)
  have hweight : m.weight = m'.weight := by
    simp [Moment.weight, hstack, hstack', Stack.ahead, hdone, hdone', houter, Node.placed]
  obtain rfl := hreach.eq_of_weight_eq hreach' hweight
  exact Except.ok.inj (hvalue.symm.trans hvalue')

/-- In a run of a traced pipeline, the node at a path gives one value. -/
theorem Gives.unique {path : String} {node : Node} {v v' : Value} (ht : p.Traced)
    (h : backend.Gives p s path node v) (h' : backend.Gives p s path node v') : v = v' := by
  cases h with
  | component hanswered hvalue =>
    cases h' with
    | component hanswered' hvalue' =>
      obtain rfl := hanswered.unique ht hanswered'
      exact Except.ok.inj (hvalue.symm.trans hvalue')
  | returning hreturned hdeclared hvalue =>
    cases h' with
    | returning hreturned' hdeclared' hvalue' =>
      obtain rfl := Option.some.inj (hreturned.unique ht hreturned')
      obtain rfl := Option.some.inj (hdeclared.symm.trans hdeclared')
      exact Except.ok.inj (hvalue.symm.trans hvalue')
    | silent hreturned' _ => cases hreturned.unique ht hreturned'
  | silent hreturned _ =>
    cases h' with
    | returning hreturned' _ _ => cases hreturned.unique ht hreturned'
    | silent _ _ => rfl

/-- What a pipeline settles its return value to is the reconstruction of the value under the
type that it was traced with, or the empty record. -/
theorem Returned.gives {path : String} {q : Pipeline} {value : Option Value} {v : Value}
    (h : backend.Returned p s path q value) (hchecked : q.Checked)
    (hsettle : q.settle value = .ok v) : backend.Gives p s path (.pipeline q) v := by
  have hvalue := h
  obtain @⟨m, -, -, -, -, -, -, -, hvalue⟩ := hvalue
  cases hreturns : q.returns with
  | none =>
    rw [Pipeline.Checked, hreturns] at hchecked
    simp only at hchecked
    rw [hchecked, Expr.resolveOption, Except.ok.injEq] at hvalue
    subst hvalue
    obtain rfl := Except.ok.inj hsettle
    exact .silent h hchecked
  | some declared =>
    rw [Pipeline.Checked, hreturns] at hchecked
    obtain ⟨e, -, hreturn, -⟩ := hchecked
    rw [hreturn] at hvalue
    obtain ⟨raw, -, rfl⟩ := Expr.resolveOption_some_eq_ok.mp hvalue
    rw [Pipeline.settle, hreturns] at hsettle
    exact .returning h hreturns hsettle

/-- A component that is executed gives what the execution gives. -/
theorem Reaches.gives_of_execute {a : Activation} {outer : Stack} {state after : RunState σ}
    {c : Component} {rest : List Node} {inputs : Inputs} {v : Value}
    (h : backend.Reaches p s ⟨a :: outer, state⟩) (hnext : a.future = .component c :: rest)
    (hinputs : Expr.resolveAll (Stack.table (a :: outer)) c.inputs = .ok inputs)
    (hrun : backend.execute c inputs state = (.ok v, after)) :
    backend.Gives p s (a.pathOf (.component c)) (.component c) v := by
  unfold execute at hrun
  rcases hcomponent : backend.runComponent c inputs state.backend with ⟨result, final⟩
  rw [hcomponent] at hrun
  cases result with
  | error fault => cases (Prod.mk.inj hrun).1
  | ok raw =>
    exact .component ⟨h, Moment.meets_of_next hnext, hinputs, hcomponent⟩ (Prod.mk.inj hrun).1

/-- Every completed node behind an open pipeline is there with what it gives in the run. -/
theorem Reaches.gives (h : backend.Reaches p s m) (ht : p.Traced) : ∀ a ∈ m.stack,
    ∀ node v, (node, some v) ∈ a.past → backend.Gives p s (a.pathOf node) node v := by
  induction h with
  | start hinputs =>
    intro a ha node v hmem
    obtain rfl := List.mem_singleton.mp ha
    simp [Activation.opened] at hmem
  | move hreach hmove ih =>
    have hopen := hreach.openIn
    intro a ha node v hmem
    cases hmove with
    | @run top outer state after c rest inputs w hnext hinputs hrun =>
      rcases List.mem_cons.mp ha with rfl | houter
      · rcases List.mem_append.mp hmem with hbefore | hpassed
        · exact ih top List.mem_cons_self node v hbefore
        · cases List.mem_singleton.mp hpassed
          exact hreach.gives_of_execute hnext hinputs hrun
      · exact ih a (List.mem_cons_of_mem _ houter) node v hmem
    | @skip top outer state q rest inputs hnext hinputs hguard =>
      rcases List.mem_cons.mp ha with rfl | houter
      · rcases List.mem_append.mp hmem with hbefore | hpassed
        · exact ih top List.mem_cons_self node v hbefore
        · cases List.mem_singleton.mp hpassed
      · exact ih a (List.mem_cons_of_mem _ houter) node v hmem
    | enter hnext hinputs hguard =>
      rcases List.mem_cons.mp ha with rfl | houter
      · simp [Activation.opened] at hmem
      · exact ih a houter node v hmem
    | @leave inside top outer state rest value w hdone hnext hvalue hsettle =>
      rcases List.mem_cons.mp ha with rfl | houter
      · rcases List.mem_append.mp hmem with hbefore | hpassed
        · exact ih top (List.mem_cons_of_mem _ List.mem_cons_self) node v hbefore
        · cases List.mem_singleton.mp hpassed
          cases hopen with
          | nested haround hnext' hpath _ =>
            have hahead := (haround.walks top List.mem_cons_self).mem_of_future
              (hnext ▸ List.mem_cons_self)
            have hchecked := ht.checked (.inr (haround.mem_nodes List.mem_cons_self hahead))
            have hreturned : backend.Returned p s (top.pathOf (.pipeline inside.pipeline))
                inside.pipeline value := ⟨hreach, rfl, hpath, rfl, hdone, hvalue⟩
            exact hreturned.gives hchecked hsettle
      · exact ih a (List.mem_cons_of_mem _ (List.mem_cons_of_mem _ houter)) node v hmem

/-- Every input of an open pipeline has a value. -/
theorem Reaches.mem_arguments (h : backend.Reaches p s m) : ∀ a ∈ m.stack,
    ∀ name ∈ a.pipeline.inputs.names, name ∈ a.arguments.names := by
  have hopened : ∀ {q : Pipeline} {table : ValueTable} {arguments : Inputs},
      Expr.resolveAll table q.inputs = .ok arguments →
        ∀ name ∈ q.inputs.names, name ∈ arguments.names := by
    intro q table arguments hinputs name hname
    obtain ⟨values, hvalues, rfl⟩ := Expr.resolveAll_eq_ok.mp hinputs
    rw [Named.mem_names_ofList, Expr.map_fst_of_resolveFields hvalues]
    exact hname
  induction h with
  | start hinputs =>
    intro a ha
    obtain rfl := List.mem_singleton.mp ha
    exact hopened hinputs
  | move _ hmove ih =>
    intro a ha
    cases hmove with
    | @run top | @skip top =>
      rcases List.mem_cons.mp ha with rfl | houter
      · exact ih top List.mem_cons_self
      · exact ih a (List.mem_cons_of_mem _ houter)
    | enter _ hinputs _ =>
      rcases List.mem_cons.mp ha with rfl | houter
      · exact hopened hinputs
      · exact ih a houter
    | @leave inside top =>
      rcases List.mem_cons.mp ha with rfl | houter
      · exact ih top (List.mem_cons_of_mem _ List.mem_cons_self)
      · exact ih a (List.mem_cons_of_mem _ (List.mem_cons_of_mem _ houter))

variable {outcome : RunOutcome} {after : RunState σ}

/-- The steps of a successful run are at distinct paths. -/
theorem eq_of_mem_steps (ht : p.Traced) (hrun : backend.run p s = (.ok outcome, after))
    {path : String} {status status' : StepStatus} (hstep : ⟨path, status⟩ ∈ outcome.steps)
    (hstep' : ⟨path, status'⟩ ∈ outcome.steps) : status = status' := by
  obtain ⟨verdicts, -, -, -, -, hall⟩ := backend.calls_steps_in_order ht s
  obtain ⟨-, -, hdistinct, -⟩ := hall outcome (by rw [hrun])
  exact (Step.mk.inj (List.inj_on_of_nodup_map hdistinct hstep hstep' rfl)).2

/-- The root pipeline at the end of a successful run: all its children are behind it, those
that completed with their values, and the outcome is read off it. -/
structure Ended (backend : Backend σ) (p : Pipeline) (s : σ) (outcome : RunOutcome)
    (a : Activation) : Prop where
  /-- The table of the outcome is that of the root. -/
  values : outcome.values = Stack.table [a]
  /-- The arguments are those of the root. -/
  arguments : ∀ name, name ∈ a.arguments.names ↔ name ∈ p.inputs.names
  /-- The children are behind the root. -/
  children : a.past.map Prod.fst = p.children
  /-- A child has a value exactly if its step says that it completed. -/
  completed : ∀ child value, (child, value) ∈ a.past →
    (value.isSome ↔ ⟨p.name ++ "/" ++ child.name, .completed⟩ ∈ outcome.steps)
  /-- The value of a child is what it gives. -/
  gives : ∀ child v, (child, some v) ∈ a.past →
    backend.Gives p s (p.name ++ "/" ++ child.name) child v
  /-- A child without a value has a guard. -/
  guarded : ∀ child, (child, none) ∈ a.past → ∃ q, child = .pipeline q

/-- A successful run ends with all children of the root behind it. -/
theorem exists_ended (ht : p.Traced) (hrun : backend.run p s = (.ok outcome, after)) :
    ∃ a, backend.Ended p s outcome a := by
  obtain ⟨a, hreach, hpipeline, hdone, hvalues, hsteps, -⟩ := reaches_of_run_eq_ok hrun
  have hwalks := hreach.openIn.walks a List.mem_cons_self
  have hpath : a.path = p.name := by
    cases hreach.openIn with
    | root _ _ hpath => exact hpath
  have hpathOf : ∀ child : Node, a.pathOf child = p.name ++ "/" ++ child.name := fun child => by
    rw [Activation.pathOf, hpath]
  refine ⟨a, hvalues, ?_, hpipeline ▸ hwalks.map_past_of_done hdone, ?_, ?_, ?_⟩
  · intro name
    rw [← hpipeline]
    exact ⟨hwalks.arguments name, hreach.mem_arguments a List.mem_cons_self name⟩
  · intro child value hmem
    have hnoted := (hreach.exists_yields a List.mem_cons_self child value hmem).2
    rw [hpathOf, ← hsteps] at hnoted
    cases value with
    | some v => exact iff_of_true rfl hnoted
    | none => exact iff_of_false nofun fun hstep => nomatch eq_of_mem_steps ht hrun hnoted hstep
  · intro child v hmem
    rw [← hpathOf]
    exact hreach.gives ht a List.mem_cons_self child v hmem
  · intro child hmem
    obtain ⟨q, rfl, -⟩ := hreach.guarded List.mem_cons_self hmem
    exact ⟨q, rfl⟩

theorem Ended.exists_mem_past {a : Activation} (h : backend.Ended p s outcome a) {child : Node}
    (hchild : child ∈ p.children)
    (hstep : ⟨p.name ++ "/" ++ child.name, .completed⟩ ∈ outcome.steps) :
    ∃ v, (child, some v) ∈ a.past := by
  rw [← h.children] at hchild
  obtain ⟨⟨_, value⟩, hmem, rfl⟩ := List.mem_map.mp hchild
  obtain ⟨v, rfl⟩ := Option.isSome_iff_exists.mp ((h.completed _ value hmem).mpr hstep)
  exact ⟨v, hmem⟩

/-- The names in the table of the outcome are those of the arguments and of the children that
completed. -/
theorem Ended.mem_names_values {a : Activation} (h : backend.Ended p s outcome a)
    (name : String) : name ∈ outcome.values.names ↔ name ∈ p.inputs.names ∨
      ∃ child ∈ p.children, child.name = name ∧
        ⟨p.name ++ "/" ++ child.name, .completed⟩ ∈ outcome.steps := by
  rw [h.values, Stack.table, Named.mem_names_insertAll, Activation.bindings, List.map_append,
    List.mem_append, ← h.arguments name]
  have hcompleted : name ∈ a.completed.map Prod.fst ↔ ∃ child ∈ p.children, child.name = name ∧
      ⟨p.name ++ "/" ++ child.name, .completed⟩ ∈ outcome.steps := by
    constructor
    · intro hmem
      obtain ⟨⟨_, v⟩, hfound, rfl⟩ := List.mem_map.mp hmem
      obtain ⟨child, hpast, hname⟩ := Activation.mem_completed.mp hfound
      refine ⟨child, h.children ▸ List.mem_map_of_mem hpast, hname, ?_⟩
      exact (h.completed child (some v) hpast).mp rfl
    · rintro ⟨child, hchild, rfl, hstep⟩
      obtain ⟨v, hpast⟩ := h.exists_mem_past hchild hstep
      exact List.mem_map.mpr ⟨_, Activation.mem_completed.mpr ⟨child, hpast, rfl⟩, rfl⟩
  rw [hcompleted]
  simp [Stack.table, Named.empty, Named.names]

/-- A child that completed stands in the table of the outcome with what it gives. -/
theorem Ended.get?_values {a : Activation} (h : backend.Ended p s outcome a) (ht : p.Traced)
    {child : Node} {v : Value} (hmem : (child, some v) ∈ a.past) :
    outcome.values.get? child.name = some v := by
  have hdistinct : ((a.past.map Prod.fst).map Node.name).Nodup := by
    rw [h.children]
    cases ht.tidy with
    | pipeline _ hdistinct _ => exact hdistinct
  rw [h.values]
  exact Stack.get?_table_of_mem_past hdistinct hmem

/-- A node that a successful run meets is passed later on. -/
theorem Reaches.exists_passed (h : backend.Reaches p s m)
    (hrun : backend.run p s = (.ok outcome, after)) {path : String} {node : Node}
    (hmeets : m.Meets path node) :
    ∃ m' value, backend.Reaches p s m' ∧ m'.Passed path node value := by
  obtain ⟨a, outer, rest, hstack, hnext, rfl⟩ := hmeets
  obtain ⟨last, hlast, -, hdone, -⟩ := reaches_of_run_eq_ok hrun
  have hfollows : backend.Follows m ⟨[last], after⟩ := by
    rcases h.follows_or_follows hlast with hfollows | hfollows
    · exact hfollows
    · rcases Relation.ReflTransGen.cases_head hfollows with rfl | ⟨next, hmove, -⟩
      · exact .refl
      · cases hmove with
        | run hnext _ _ | skip hnext _ _ | enter hnext _ _ => simp [hdone] at hnext
  rcases hfollows.exists_passed hstack hnext with hsuffix | ⟨value, passed, hpassed, hstack'⟩
  · rcases List.suffix_cons_iff.mp hsuffix with hsame | hnone
    · obtain ⟨rfl, -⟩ := List.cons.inj hsame
      simp [hdone] at hnext
    · exact absurd (List.suffix_nil.mp hnone) (List.cons_ne_nil _ _)
  · exact ⟨passed, value, h.follows hpassed, _, _, _, hstack', rfl, rfl⟩

/-- What a successful run leaves in its tables. The table of the root pipeline has the names
of its arguments and of those of its children that completed, and each of these children
stands there with what it gives, the reconstruction of its raw result or the empty record. A
nested pipeline, wherever it is met, is passed later on, and this leaves the table around it
as it was, up to its own name. The value of the run is that of the return value in the
table of the root. -/
theorem tables_of_run_eq_ok (ht : p.Traced) (hrun : backend.run p s = (.ok outcome, after)) :
    (∀ name, name ∈ outcome.values.names ↔ name ∈ p.inputs.names ∨
      ∃ child ∈ p.children, child.name = name ∧
        ⟨p.name ++ "/" ++ child.name, .completed⟩ ∈ outcome.steps) ∧
    (∀ child ∈ p.children, ⟨p.name ++ "/" ++ child.name, .completed⟩ ∈ outcome.steps →
      ∃ v, outcome.values.get? child.name = some v ∧
        ∀ w, backend.Gives p s (p.name ++ "/" ++ child.name) child w ↔ w = v) ∧
    (∀ m path q, backend.Reaches p s m → m.Meets path (.pipeline q) →
      (∃ m' value, backend.Reaches p s m' ∧ m'.Passed path (.pipeline q) value) ∧
      ∀ m' value, backend.Reaches p s m' → m'.Passed path (.pipeline q) value →
        m'.stack.tail = m.stack.tail ∧ ∀ name, name ≠ q.name →
          (Stack.table m'.stack).get? name = (Stack.table m.stack).get? name) ∧
    Expr.resolveOption outcome.values p.returnValue = .ok outcome.value := by
  obtain ⟨a, hended⟩ := exists_ended ht hrun
  refine ⟨hended.mem_names_values, ?_, ?_, ?_⟩
  · intro child hchild hstep
    obtain ⟨v, hmem⟩ := hended.exists_mem_past hchild hstep
    have hgives := hended.gives child v hmem
    refine ⟨v, hended.get?_values ht hmem, fun w => ⟨fun hother => hother.unique ht hgives, ?_⟩⟩
    rintro rfl
    exact hgives
  · intro m path q hreach hmeets
    refine ⟨hreach.exists_passed hrun hmeets, ?_⟩
    intro m' value hreach' hpassed
    obtain ⟨houter, htable⟩ := hreach.table_of_passed hreach' ht hmeets hpassed
    refine ⟨houter, fun name hname => ?_⟩
    rw [htable, ValueTable.get?_settle]
    exact if_neg hname
  · obtain ⟨_, -, -, -, hvalues, -, hvalue⟩ := reaches_of_run_eq_ok hrun
    rw [hvalues]
    exact hvalue

end Backend

/-- A guarded pipeline that is entered leaves the empty record under its name, and neither
what it holds nor what is skipped in it has a name in the table of the root. -/
theorem tables_of_run_eq_ok_branching :
    Branching.root.Traced ∧ ∃ outcome after,
      Backend.inProcess.run Branching.root () = (.ok outcome, after) ∧
      (∀ name, name ∈ outcome.values.names ↔ name = "text" ∨ name = "condition") ∧
      outcome.values.get? "condition" = some Value.emptyRecord ∧
      ∀ w, Backend.inProcess.Gives Branching.root () "main/condition"
        (.pipeline Branching.admitted) w ↔ w = Value.emptyRecord := by
  obtain ⟨outcome, after, hrun, hsteps, hvalue⟩ : ∃ outcome after,
      Backend.inProcess.run Branching.root () = (.ok outcome, after) ∧
      outcome.steps = [⟨"main/text", .completed⟩, ⟨"main/condition/first", .completed⟩,
        ⟨"main/condition/condition", .skipped⟩, ⟨"main/condition", .completed⟩] ∧
      outcome.values.get? "condition" = some Value.emptyRecord := ⟨_, _, rfl, rfl, rfl⟩
  obtain ⟨hnames, hchildren, -, -⟩ := Backend.tables_of_run_eq_ok Branching.root_traced hrun
  refine ⟨Branching.root_traced, outcome, after, hrun, fun name => ?_, hvalue, ?_⟩
  · rw [hnames, hsteps]
    simp [Branching.root, Named.empty, Named.names, Node.name, Branching.text, echoed,
      Branching.admitted, eq_comm]
  · obtain ⟨v, hget, hgives⟩ := hchildren (.pipeline Branching.admitted) (by simp [Branching.root])
      (by rw [hsteps]; decide)
    obtain rfl := Option.some.inj (hvalue.symm.trans hget)
    exact hgives

end Dataflow
