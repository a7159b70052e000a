/-
# Drawing names

A generated name is drawn anew while a sibling to be has it, but no more than 32 times, and the
last name drawn is not looked at before the node is recorded. So the name that a node is recorded
under is the first free one of those that can be drawn, and the node is refused only if the first
33 of them are taken. This holds of pipelines too, for whatever the script of a body does between
the choice of the name and the recording, it puts no node next to the pipeline.
-/

import Dataflow.Proofs.Tracer.Images
import Dataflow.Proofs.Tracer.Names

namespace Dataflow

namespace Entropy

variable {entropy : Entropy} {base : String} {length : Nat}

/-- The stream of random bytes after names with suffixes of a length have been drawn. -/
def afterDraws (entropy : Entropy) (length count : Nat) : Entropy :=
  { entropy with used := entropy.used + count * ((length + 1) / 2) }

/-- The names that can be drawn one after another, by their positions from zero. -/
def drawn (entropy : Entropy) (base : String) (length position : Nat) : String :=
  ((entropy.afterDraws length position).generateName base length).1

@[simp]
theorem afterDraws_zero : entropy.afterDraws length 0 = entropy := by
  simp [afterDraws]

@[simp]
theorem afterDraws_afterDraws (first second : Nat) :
    (entropy.afterDraws length first).afterDraws length second =
      entropy.afterDraws length (first + second) := by
  simp [afterDraws, Nat.add_mul, Nat.add_assoc]

@[simp]
theorem drawn_afterDraws (first second : Nat) :
    (entropy.afterDraws length first).drawn base length second =
      entropy.drawn base length (first + second) := by
  rw [drawn, afterDraws_afterDraws, drawn]

/-- Generating a name is one draw. A name without suffix takes no bytes. -/
theorem generateName_eq : entropy.generateName base length =
    (entropy.drawn base length 0, entropy.afterDraws length 1) := by
  rw [drawn, afterDraws_zero]
  by_cases hlength : length = 0
  · subst hlength
    rfl
  · refine Prod.ext rfl ?_
    rw [generateName, if_neg hlength, afterDraws, Nat.one_mul]
    rfl

theorem drawn_of_length_eq_zero (position : Nat) : entropy.drawn base 0 position = normalize base :=
  rfl

theorem mem_digits_of_mem_byteDigits {byte : UInt8} {c : Char} (hc : c ∈ byteDigits byte) :
    c ∈ "0123456789abcdef".toList := by
  have hdigit : ∀ digit < 16, Nat.digitChar digit ∈ "0123456789abcdef".toList := by decide
  have hbyte := byte.toNat_lt
  simp only [byteDigits, List.mem_cons, List.not_mem_nil, or_false] at hc
  rcases hc with rfl | rfl
  · exact hdigit _ (by omega)
  · exact hdigit _ (by omega)

/-- A drawn name is the base, a dash, and as many lower-case hexadecimal digits as the suffix is
long. -/
theorem exists_drawn_eq (hlength : 0 < length) (position : Nat) :
    ∃ digits, entropy.drawn base length position = normalize base ++ "-" ++ digits ∧
      digits.toList.length = length ∧
      ∀ c ∈ digits.toList, c ∈ "0123456789abcdef".toList := by
  refine ⟨((entropy.afterDraws length position).suffix length).1, ?_, length_suffix _ _, ?_⟩
  · rw [drawn, generateName, if_neg (Nat.ne_of_gt hlength)]
  · intro c hc
    unfold suffix at hc
    rw [String.toList_ofList] at hc
    obtain ⟨byte, -, hdigit⟩ := List.mem_flatMap.mp (List.mem_of_mem_take hc)
    exact mem_digits_of_mem_byteDigits hdigit

end Entropy

section Redrawing

variable {taken : String → Bool} {base : String} {length limit : Nat} {entropy : Entropy}

/-- A name without suffix is drawn once. -/
theorem drawName_of_length_eq_zero :
    drawName taken base 0 limit entropy = (normalize base, entropy) := by
  cases limit <;> rfl

/-- A name with a suffix is drawn anew if it is taken. -/
theorem drawName_succ (hlength : 0 < length) :
    drawName taken base length (limit + 1) entropy =
      if taken (entropy.drawn base length 0) = true then
        drawName taken base length limit (entropy.afterDraws length 1)
      else (entropy.drawn base length 0, entropy.afterDraws length 1) := by
  rw [drawName, Entropy.generateName_eq]
  cases htaken : taken (entropy.drawn base length 0) with
  | false => simp [htaken]
  | true => simp [htaken, Nat.ne_of_gt hlength]

/-- The first of the names that is free is drawn, or the one at the limit if all before it are
taken. -/
theorem exists_drawName_eq (hlength : 0 < length) :
    ∃ position ≤ limit,
      drawName taken base length limit entropy =
        (entropy.drawn base length position, entropy.afterDraws length (position + 1)) ∧
      (∀ earlier < position, taken (entropy.drawn base length earlier) = true) ∧
      (position < limit → taken (entropy.drawn base length position) = false) := by
  induction limit generalizing entropy with
  | zero => exact ⟨0, Nat.le_refl 0, Entropy.generateName_eq, nofun, nofun⟩
  | succ limit ih =>
    rw [drawName_succ hlength]
    by_cases htaken : taken (entropy.drawn base length 0) = true
    · -- The names that are left are those that can be drawn after this one.
      obtain ⟨position, hposition, hdrawn, hearlier, hfree⟩ := @ih (entropy.afterDraws length 1)
      refine ⟨position + 1, Nat.succ_le_succ hposition, ?_, ?_, ?_⟩
      · rw [if_pos htaken, hdrawn, Entropy.drawn_afterDraws, Entropy.afterDraws_afterDraws,
          Nat.add_comm 1, Nat.add_comm 1]
      · intro earlier hlt
        cases earlier with
        | zero => exact htaken
        | succ earlier =>
          have hrest := hearlier earlier (Nat.lt_of_succ_lt_succ hlt)
          rwa [Entropy.drawn_afterDraws, Nat.add_comm] at hrest
      · intro hlt
        have hrest := hfree (Nat.lt_of_succ_lt_succ hlt)
        rwa [Entropy.drawn_afterDraws, Nat.add_comm] at hrest
    · exact ⟨0, Nat.zero_le _, if_neg htaken, nofun, fun _ => Bool.eq_false_iff.mpr htaken⟩

end Redrawing

namespace Tracer

variable {t named : Tracer}

/-- How a name settles an operation that makes a node and is valid otherwise: if the name is taken,
the innermost open pipeline refuses the node for it, and if it is free, the node is recorded under
it. -/
structure Settles (t : Tracer) {α : Type} (node : α → Node) (name : String)
    (made : Except GraphError α × Tracer) : Prop where
  /-- A taken name is refused. -/
  refused : t.hasSibling name = true → ∃ frame outer, t.frames = frame :: outer ∧
    made.1 = .error (.contract (.nameTaken frame.name name))
  /-- A free name is that of the recorded node. -/
  recorded : t.hasSibling name = false → ∃ a, made.1 = .ok a ∧ (node a).name = name ∧
    made.2.frames = Frame.extend t.frames [node a]

namespace Settles

variable {α : Type} {node : α → Node} {name : String} {made : Except GraphError α × Tracer}

theorem exists_error_iff (h : t.Settles node name made) :
    (∃ fault, made.1 = .error fault) ↔ t.hasSibling name = true := by
  constructor
  · rintro ⟨fault, herror⟩
    by_contra hfree
    obtain ⟨a, hok, -⟩ := h.recorded (Bool.eq_false_iff.mpr hfree)
    cases herror.symm.trans hok
  · intro htaken
    obtain ⟨frame, outer, -, herror⟩ := h.refused htaken
    exact ⟨_, herror⟩

theorem of_error (h : t.Settles node name made) {fault : GraphError}
    (herror : made.1 = .error fault) : ∃ frame outer, t.frames = frame :: outer ∧
      fault = .contract (.nameTaken frame.name name) := by
  obtain ⟨frame, outer, hframes, hrefused⟩ := h.refused (h.exists_error_iff.mp ⟨fault, herror⟩)
  exact ⟨frame, outer, hframes, Except.error.inj (herror.symm.trans hrefused)⟩

theorem of_ok (h : t.Settles node name made) {a : α} (hok : made.1 = .ok a) :
    t.hasSibling name = false ∧ (node a).name = name ∧
      made.2.frames = Frame.extend t.frames [node a] := by
  cases htaken : t.hasSibling name with
  | true =>
    obtain ⟨frame, outer, -, hrefused⟩ := h.refused htaken
    cases hok.symm.trans hrefused
  | false =>
    obtain ⟨b, hrecorded, hnode⟩ := h.recorded htaken
    obtain rfl : a = b := Except.ok.inj (hok.symm.trans hrecorded)
    exact ⟨rfl, hnode⟩

end Settles

section

variable {α : Type} {node : α → Node} {made : α}

theorem settles_recordAs {name : String} (hframes : named.frames = t.frames)
    (hname : (node made).name = name) : t.Settles node name (named.recordAs node made) := by
  subst hname
  constructor
  · intro htaken
    rw [← hasSibling_congr hframes] at htaken
    obtain ⟨frame, outer, hopen, hrecord⟩ := recordAs_of_taken htaken
    exact ⟨frame, outer, hframes ▸ hopen, congrArg Prod.fst hrecord⟩
  · intro hfree
    rw [← hasSibling_congr hframes] at hfree
    rw [recordAs_of_free hfree, hframes]
    exact ⟨made, rfl, rfl, rfl⟩

/-- Recording draws nothing. -/
theorem entropy_recordAs : (named.recordAs node made).2.entropy = named.entropy := by
  cases hsibling : named.hasSibling (node made).name with
  | false => rw [recordAs_of_free hsibling]
  | true =>
    obtain ⟨frame, outer, -, hrecord⟩ := recordAs_of_taken hsibling
    rw [hrecord]

end

/-- A component that is valid is settled by the name that is drawn for it, and nothing else is
drawn. -/
theorem settles_call {d : ComponentDef} {arguments : List (String × Expr)} {returns : ValueType}
    {inputs : Named Expr} (hname : d.explicitName = none) (hreturns : d.returns = some returns)
    (hbind : d.bind arguments = .ok inputs) :
    t.Settles .component (t.nodeName none d.function).1 (t.call d arguments) ∧
      (t.call d arguments).2.entropy = (t.nodeName none d.function).2.entropy := by
  simp only [call, hname, hreturns, hbind]
  exact ⟨settles_recordAs (t.nodeName_frames none d.function) rfl, entropy_recordAs⟩

theorem settles_apply {operator : Operator} {operands : List Expr} {overload : Overload}
    (hselect : t.selectOverload operator operands = .ok overload) :
    t.Settles .component (t.nodeName none operator.name).1 (t.apply operator operands) ∧
      (t.apply operator operands).2.entropy = (t.nodeName none operator.name).2.entropy := by
  simp only [apply, hselect]
  exact ⟨settles_recordAs (t.nodeName_frames none operator.name) rfl, entropy_recordAs⟩

end Tracer

/-- An opening that generates the name of its pipeline from a base, with the tracer that draws
it. -/
inductive Opening.Generates (t : Tracer) : Opening → String → Tracer → Prop where
  | invoke {d : PipelineDef} {arguments : List (String × Expr)} {inputs : Named Expr}
      (hname : d.explicitName = none) (hbind : d.bind arguments = .ok inputs) :
      Generates t (.invoke d arguments) d.function t
  | scope (base : String) : Generates t (.scope base) base t
  | guarded (condition : Condition) : Generates t (.guarded condition) "condition" t
  /-- After other nodes, once the text that guards it has been drawn. -/
  | dependsOn {dependencies : List Expr} {condition : Condition} {drawing : Tracer}
      (hguard : t.dependencyGuard dependencies = (.ok condition, drawing)) :
      Generates t (.dependsOn dependencies) "depends-on" drawing

/-- An operation that makes a node and is valid but for its name, which is generated from a base:
with the random bytes from which the name is drawn, and those that are left when it is. -/
inductive Operation.Draws {σ : Type} (t : Tracer) (s : σ) :
    {α : Type} → Operation σ α → String → Entropy → Entropy → Prop where
  | call {d : ComponentDef} {arguments : List (String × Expr)} {returns : ValueType}
      {inputs : Named Expr} (hname : d.explicitName = none) (hreturns : d.returns = some returns)
      (hbind : d.bind arguments = .ok inputs) :
      Draws t s (.call d arguments) d.function t.entropy (t.call d arguments).2.entropy
  | callPositional {d : ComponentDef} {operands : List Expr} {arguments : List (String × Expr)}
      {returns : ValueType} {inputs : Named Expr} (hname : d.explicitName = none)
      (hreturns : d.returns = some returns) (hnamed : d.nameArguments operands = .ok arguments)
      (hbind : d.bind arguments = .ok inputs) :
      Draws t s (.callPositional d operands) d.function t.entropy
        (t.callPositional d operands).2.entropy
  | apply {operator : Operator} {operands : List Expr} {overload : Overload}
      (hselect : t.selectOverload operator operands = .ok overload) :
      Draws t s (.apply operator operands) operator.name t.entropy
        (t.apply operator operands).2.entropy
  /-- A pipeline whose body succeeds and returns what it may, whatever else it does. -/
  | nest {opening : Opening} {body : Args → Script σ (Option Expr)} {base : String}
      {drawing named ended : Tracer} {frame filled : Frame} {outer : List Frame}
      {declared : Option ValueType} {returnValue : Option Expr} {s' : σ} {q : Pipeline}
      (hopening : opening.Generates t base drawing)
      (hprepare : t.prepare opening = (.ok (frame, declared), named))
      (hbody : (body ⟨frame.name, frame.inputs⟩).run (named.push frame) s =
        (.ok returnValue, ended, s'))
      (hframes : ended.frames = filled :: outer)
      (hclose : filled.close declared returnValue = .ok q) :
      Draws t s (.nest opening body) base drawing.entropy named.entropy
  | guardedBy {left right : Expr} {comparator : Comparator} {body : Script σ Unit}
      {condition : Condition} {base : String} {before after : Entropy}
      (hcondition : Condition.make left right comparator = .ok condition)
      (hguarded : Draws t s
        (.nest (.guarded condition) fun _ => .andThen body fun _ => .result none)
          base before after) :
      Draws t s (.guardedBy left right comparator body) base before after

/-- The name is drawn where the same pipelines are open under the same settings, and the frame of
the pipeline is prepared under it. -/
theorem Opening.Generates.prepared {t drawing : Tracer} {opening : Opening} {base : String}
    (h : opening.Generates t base drawing) :
    drawing.frames = t.frames ∧ drawing.settings = t.settings ∧
      ∃ frame declared, frame.name = (drawing.nodeName none base).1 ∧
        t.prepare opening = (.ok (frame, declared), (drawing.nodeName none base).2) := by
  cases h with
  | invoke hname hbind =>
    refine ⟨rfl, rfl, _, _, ?_, by rw [Tracer.prepare, hbind, hname]⟩
    rfl
  | scope base => exact ⟨rfl, rfl, _, _, rfl, rfl⟩
  | guarded condition => exact ⟨rfl, rfl, _, _, rfl, rfl⟩
  | @dependsOn dependencies condition drawing hguard =>
    obtain ⟨entropy, hdrawing⟩ := t.exists_dependencyGuard_eq dependencies
    rw [hguard] at hdrawing
    obtain rfl : drawing = { t with entropy } := hdrawing
    refine ⟨rfl, rfl, _, _, ?_, by rw [Tracer.prepare, hguard]⟩
    rfl

namespace Operation

variable {σ α : Type} {t : Tracer} {s : σ} {operation : Operation σ α} {base : String}
  {before after : Entropy}

/-- A pipeline whose body succeeds is recorded, or refused, under the name of its frame. -/
theorem settles_nest {opening : Opening} {body : Args → Script σ (Option Expr)}
    {named ended : Tracer} {frame filled : Frame} {outer : List Frame}
    {declared : Option ValueType} {returnValue : Option Expr} {s' : σ} {q : Pipeline}
    (hprepare : t.prepare opening = (.ok (frame, declared), named))
    (hbody : (body ⟨frame.name, frame.inputs⟩).run (named.push frame) s =
      (.ok returnValue, ended, s'))
    (hframes : ended.frames = filled :: outer)
    (hclose : filled.close declared returnValue = .ok q) :
    t.Settles .pipeline frame.name
      (((nest opening body).script.run t s).1, ((nest opening body).script.run t s).2.1) := by
  have hnamed : named.frames = t.frames := by
    have hprepared := t.prepare_frames opening
    rwa [hprepare] at hprepared
  -- The body puts nodes into the frame of the pipeline alone.
  obtain ⟨added, hadded, -⟩ := (body ⟨frame.name, frame.inputs⟩).builds_run (named.push frame) s
  rw [hbody, hframes] at hadded
  obtain ⟨rfl, rfl⟩ := List.cons.inj hadded
  obtain ⟨returns, rfl, -⟩ := Frame.exists_of_close hclose
  have hrun : (nest opening body).script.run t s =
      let recorded := ({ ended with frames := named.frames } : Tracer).recordAs .pipeline
        ⟨frame.name, frame.inputs, frame.children ++ added, returnValue, returns,
          frame.condition⟩
      (recorded.1, recorded.2, s') := by
    simp only [script, Script.run, hprepare, hbody, Tracer.pop, hframes, hclose]
  have hclosed : ({ ended with frames := named.frames } : Tracer).frames = t.frames := hnamed
  rw [hrun]
  exact Tracer.settles_recordAs hclosed rfl

/-- An operation that draws its name is settled by the name that is drawn. -/
theorem Draws.settles (h : operation.Draws t s base before after) :
    t.Settles operation.node
        (drawName t.hasSibling base t.settings.suffixLength redrawLimit before).1
        ((operation.script.run t s).1, (operation.script.run t s).2.1) ∧
      after = (drawName t.hasSibling base t.settings.suffixLength redrawLimit before).2 := by
  induction h with
  | call hname hreturns hbind => exact Tracer.settles_call hname hreturns hbind
  | @callPositional d operands arguments returns inputs hname hreturns hnamed hbind =>
    have hcall : t.callPositional d operands = t.call d arguments := by
      rw [Tracer.callPositional, hnamed]
    have hsettles := Tracer.settles_call (t := t) hname hreturns hbind
    rw [← hcall] at hsettles
    exact hsettles
  | apply hselect => exact Tracer.settles_apply hselect
  | @nest opening body base drawing named ended frame filled outer declared returnValue s' q
      hopening hprepare hbody hframes hclose =>
    obtain ⟨hopen, hsettings, frame', declared', hname, hprepared⟩ := hopening.prepared
    obtain ⟨⟨rfl, rfl⟩, rfl⟩ : (frame = frame' ∧ declared = declared') ∧
        named = (drawing.nodeName none base).2 := by
      simpa using hprepare.symm.trans hprepared
    have hsettles := settles_nest hprepare hbody hframes hclose
    have hdraw : drawName drawing.hasSibling base drawing.settings.suffixLength redrawLimit
        drawing.entropy = drawName t.hasSibling base t.settings.suffixLength redrawLimit
          drawing.entropy := by
      rw [hsettings, funext fun name => Tracer.hasSibling_congr hopen name]
    rw [← hdraw]
    rw [hname] at hsettles
    exact ⟨hsettles, rfl⟩
  | guardedBy hcondition hguarded ih =>
    rw [run_guardedBy, hcondition]
    exact ih

/-- An operation that draws its name takes no more than 33 draws. If names have suffixes, it fails
exactly if the first 33 names that can be drawn are taken by siblings to be, and else its node is
recorded under the first of them that is free. If they have none, it fails exactly if the
normalized base is taken. It does not fail for another reason. -/
theorem Draws.takes_first_free (h : operation.Draws t s base before after) :
    let length := t.settings.suffixLength
    let drawn := before.drawn base length
    let outcome := (operation.script.run t s).1
    let ended := (operation.script.run t s).2.1
    (∃ count ≤ 33, after = before.afterDraws length count) ∧
      (0 < length →
        ((∃ fault, outcome = .error fault) ↔
          ∀ position < 33, t.hasSibling (drawn position) = true) ∧
        (∀ a, outcome = .ok a → ∃ position < 33,
          (∀ earlier < position, t.hasSibling (drawn earlier) = true) ∧
          t.hasSibling (drawn position) = false ∧ (operation.node a).name = drawn position ∧
          ended.frames = Frame.extend t.frames [operation.node a]) ∧
        ∀ position, ∃ digits, drawn position = normalize base ++ "-" ++ digits ∧
          digits.toList.length = length ∧
          ∀ c ∈ digits.toList, c ∈ "0123456789abcdef".toList) ∧
      (length = 0 →
        ((∃ fault, outcome = .error fault) ↔ t.hasSibling (normalize base) = true) ∧
        ∀ a, outcome = .ok a → (operation.node a).name = normalize base ∧
          ended.frames = Frame.extend t.frames [operation.node a]) ∧
      ∀ fault, outcome = .error fault → ∃ frame outer, t.frames = frame :: outer ∧
        fault = .contract (.nameTaken frame.name (drawn 32)) := by
  obtain ⟨hsettles, hafter⟩ := h.settles
  intro length drawn outcome ended
  rcases Nat.eq_zero_or_pos length with hzero | hpositive
  · have hlength : t.settings.suffixLength = 0 := hzero
    rw [hlength, drawName_of_length_eq_zero] at hsettles hafter
    have hdrawn : drawn 32 = normalize base := by
      simp only [drawn, length, hlength, Entropy.drawn_of_length_eq_zero]
    refine ⟨⟨0, Nat.zero_le _, hafter.trans Entropy.afterDraws_zero.symm⟩, ?_, ?_, ?_⟩
    · exact fun hpositive => absurd hzero (Nat.ne_of_gt hpositive)
    · exact fun _ => ⟨hsettles.exists_error_iff, fun a hok => (hsettles.of_ok hok).2⟩
    · intro fault herror
      rw [hdrawn]
      exact hsettles.of_error herror
  · have hdraws : ∃ position ≤ 32,
        drawName t.hasSibling base length redrawLimit before =
          (drawn position, before.afterDraws length (position + 1)) ∧
        (∀ earlier < position, t.hasSibling (drawn earlier) = true) ∧
        (position < 32 → t.hasSibling (drawn position) = false) := exists_drawName_eq hpositive
    obtain ⟨position, hposition, hdraw, hearlier, hfree⟩ := hdraws
    rw [hdraw] at hsettles hafter
    -- If the name is taken nevertheless, it is the one that was not looked at.
    have hlast (htaken : t.hasSibling (drawn position) = true) : position = 32 := by
      by_contra hne
      have hnot := hfree (by omega)
      rw [htaken] at hnot
      cases hnot
    refine ⟨⟨position + 1, by omega, hafter⟩, fun _ => ⟨?_, ?_, Entropy.exists_drawn_eq hpositive⟩,
      fun hzero => absurd hzero (Nat.ne_of_gt hpositive), ?_⟩
    · rw [hsettles.exists_error_iff]
      constructor
      · intro htaken earlier hlt
        obtain rfl := hlast htaken
        rcases Nat.lt_succ_iff_lt_or_eq.mp hlt with hbefore | rfl
        · exact hearlier earlier hbefore
        · exact htaken
      · exact fun hall => hall position (by omega)
    · intro a hok
      exact ⟨position, by omega, hearlier, hsettles.of_ok hok⟩
    · intro fault herror
      obtain rfl := hlast (hsettles.exists_error_iff.mp ⟨fault, herror⟩)
      exact hsettles.of_error herror

end Operation

namespace Crowd

/-- A node with a name. -/
def sibling (name : String) : Node := .pipeline ⟨name, .empty, [], none, none, none⟩

/-- A tracer with random bytes whose suffixes have one digit, in whose open pipeline two names are
taken. -/
def opened (byte : Nat → UInt8) : Tracer :=
  (Tracer.start { Settings.default with suffixLength := 1 } ⟨byte, 0⟩).push
    ⟨"main", .empty, [sibling "step-0", sibling "step-1"], none⟩

/-- Bytes whose first digits go up. -/
def rising (position : Nat) : UInt8 := .ofNat (16 * position)

/-- A nested pipeline with a node of the same base in it. -/
def step : Operation Unit Pipeline :=
  .nest (.scope "Step") fun _ => .andThen (.scope "Step" (.result none)) fun _ => .result none

end Crowd

/-- Between siblings with two taken names a pipeline is recorded under the name that is drawn
third, though its body draws a further one. If the bytes never change, it is refused. -/
theorem takes_first_free_crowd :
    (∃ made, (Crowd.step.script.run (Crowd.opened Crowd.rising) ()).1 = .ok made ∧
        made.name = "step-2" ∧ made.children.map Node.name = ["step-3"]) ∧
      ∃ fault, (Crowd.step.script.run (Crowd.opened fun _ => 0) ()).1 = .error fault := by
  constructor
  · have hdraws : Crowd.step.Draws (Crowd.opened Crowd.rising) () "Step" _ _ :=
      .nest (.scope "Step") rfl rfl rfl rfl
    obtain ⟨-, hsuffixed, -⟩ := hdraws.takes_first_free
    obtain ⟨-, hrecorded, -⟩ := hsuffixed (by decide)
    obtain ⟨position, -, hearlier, hfree, hname, -⟩ := hrecorded _ rfl
    refine ⟨_, rfl, ?_, rfl⟩
    rcases Nat.lt_trichotomy position 2 with hlt | rfl | hgt
    · have htaken : ∀ position < 2, (Crowd.opened Crowd.rising).hasSibling
          ((Crowd.opened Crowd.rising).entropy.drawn "Step" 1 position) = true := by decide
      cases hfree.symm.trans (htaken position hlt)
    · exact hname
    · cases hearlier 2 hgt
  · have hdraws : Crowd.step.Draws (Crowd.opened fun _ => 0) () "Step" _ _ :=
      .nest (.scope "Step") rfl rfl rfl rfl
    obtain ⟨-, hsuffixed, -⟩ := hdraws.takes_first_free
    exact (hsuffixed (by decide)).1.mpr (by decide)

end Dataflow
