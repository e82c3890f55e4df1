import ShaderNodes.Compiler.Engine
import ShaderNodes.Proofs.Compiler.Lifecycle
import ShaderNodes.Proofs.Kind.Perform

/-!
# The life of an engine

An engine keeps a status and a pass, which could contradict each other. In no engine that calls lead
to do they: it is the engine of a compiler (`Engine.ofCompiler`), whose stage has a pass just where
one is due, and each operation of the engine is that of the compiler.

* `Engine.step_ofCompiler`, `Engine.finish_ofCompiler`, …: the operations agree.
* `Engine.performAll_ofCompiler`: so do all calls one after another.
* `Engine.perform_completes`, `Engine.turns_of_start`: how a pass ends, and what happens before.
* `Engine.lifecycle_of_calls`: status and pass after any calls, and the turns of a pass.
-/

namespace ShaderNodes

namespace Stage

variable {stage : Stage}

theorem status_eq_idle_iff : stage.status = .idle ↔ stage = .idle := by
  cases stage <;> simp [status]

theorem status_eq_running_iff : stage.status = .running ↔ ∃ pass, stage = .running pass := by
  cases stage <;> simp [status]

theorem status_eq_completed_iff : stage.status = .completed ↔ ∃ pass, stage = .completed pass := by
  cases stage <;> simp [status]

theorem status_eq_aborted_iff : stage.status = .aborted ↔ stage = .aborted := by
  cases stage <;> simp [status]

theorem isSome_pass?_iff :
    stage.pass?.isSome = true ↔ stage.status = .running ∨ stage.status = .completed := by
  cases stage <;> simp [pass?, status]

end Stage

namespace Engine

open Compiler (Call)

/-- The engine of a compiler. -/
def ofCompiler (c : Compiler) : Engine where
  palette := c.palette
  config := c.config
  pass := c.stage.pass?
  status := c.stage.status
  passes := c.passes

/-- The reply that an answer of a compiler is for its engine. -/
def Reply.ofAnswer {α : Type} (a : Compiler.Answer α) : Reply α where
  engine := ofCompiler a.compiler
  result := a.result
  events := a.events

variable {c : Compiler}

/-! ## One operation -/

theorem values?_ofCompiler (c : Compiler) : (ofCompiler c).values? = c.values? := by
  rw [values?, Compiler.values?, ofCompiler]
  cases c.stage <;> rfl

theorem abort_ofCompiler (c : Compiler) : (ofCompiler c).abort = .ofAnswer c.abort := by
  unfold abort Compiler.abort ofCompiler
  cases hstage : c.stage <;> simp [Stage.status, Stage.pass?, Reply.ofAnswer, ofCompiler, hstage]

theorem start_ofCompiler (c : Compiler) (g : CheckedGraph) :
    (ofCompiler c).start g = .ofAnswer (c.start g) := by
  unfold start Compiler.start
  rw [abort_ofCompiler]
  obtain ⟨c', _, events⟩ := c.abort
  simp only [Reply.ofAnswer, ofCompiler]
  cases Compiler.objection? c'.palette g.toGraph <;> rfl

/-- The branch of a step for a running engine without a pass is never taken. -/
theorem step_ofCompiler (c : Compiler) : (ofCompiler c).step = .ofAnswer c.step := by
  unfold step Compiler.step
  simp only [ofCompiler]
  cases hstage : c.stage with
  | idle | aborted | completed pass => simp [Stage.status, Stage.pass?, Reply.ofAnswer, ofCompiler,
      hstage]
  | running pass =>
    simp only [Stage.status, Stage.pass?]
    cases pass.graph.order[pass.cursor]? with
    | none => rfl
    | some n =>
      simp only
      cases pass.graph.nodes.get? n with
      | none => rfl
      | some node =>
        simp only
        cases c.palette.get? node.kind with
        | none => rfl
        | some kind =>
          simp only [Pass.turn_eq]
          rfl

/-! ## Runs -/

theorem stepAll_eq (e : Engine) :
    e.stepAll =
      match e.step.result with
      | .error error => ⟨e.step.engine, .error error, e.step.events⟩
      | .ok false => ⟨e.step.engine, .ok (), e.step.events⟩
      | .ok true =>
        { e.step.engine.stepAll with events := e.step.events ++ e.step.engine.stepAll.events } := by
  rw [stepAll]
  split <;> simp only [*]

theorem stepAll_ofCompiler {k n : Nat} (h : c.Ends k) (hk : k < n) :
    (ofCompiler c).stepAll = .ofAnswer (Compiler.stepUpTo n c) := by
  induction n generalizing c k with
  | zero => omega
  | succ n ih =>
    rw [stepAll_eq, Compiler.stepUpTo, step_ofCompiler]
    simp only [Reply.ofAnswer]
    cases hresult : c.step.result with
    | error error => rfl
    | ok more =>
      cases more with
      | false => rfl
      | true =>
        cases k with
        | zero => exact absurd hresult h.last
        | succ k =>
          rw [ih (Compiler.ends_succ_iff.1 h).2 (by omega)]
          rfl

theorem finish_ofCompiler (c : Compiler) : (ofCompiler c).finish = .ofAnswer c.finish := by
  obtain ⟨k, hk, hends⟩ := c.exists_ends
  unfold finish Compiler.finish
  rw [stepAll_ofCompiler hends hk]
  simp only [Reply.ofAnswer, ofCompiler]
  cases (Compiler.stepUpTo c.stepsLeft c).result with
  | error error => rfl
  | ok _ => cases (Compiler.stepUpTo c.stepsLeft c).compiler.stage.pass? <;> rfl

theorem process_ofCompiler (c : Compiler) (g : CheckedGraph) :
    (ofCompiler c).process g = .ofAnswer (c.process g) := by
  unfold process Compiler.process
  rw [start_ofCompiler]
  simp only [Reply.ofAnswer]
  cases (c.start g).result with
  | error error => rfl
  | ok _ =>
    simp only [finish_ofCompiler]
    rfl

/-- Compiling a graph is processing it with a new compiler. -/
theorem result_compile (g : CheckedGraph) :
    g.compile.result = (Compiler.process { palette := .standard, config := {} } g).result :=
  congrArg Reply.result (process_ofCompiler { palette := .standard, config := {} } g)

/-! ## Calls -/

/-- The engine after some steps. -/
def after (e : Engine) : Nat → Engine
  | 0 => e
  | k + 1 => (e.after k).step.engine

theorem after_ofCompiler (c : Compiler) (k : Nat) :
    (ofCompiler c).after k = ofCompiler (c.after k) := by
  induction k with
  | zero => rfl
  | succ k ih =>
    rw [after, ih, step_ofCompiler]
    rfl

/-- The engine after a call, whether it succeeds or fails. -/
def perform (e : Engine) : Call → Engine
  | .start g => (e.start g).engine
  | .step => e.step.engine
  | .finish => e.finish.engine
  | .abort => e.abort.engine
  | .process g => (e.process g).engine

/-- The engine after calls one after another. -/
def performAll (e : Engine) (calls : List Call) : Engine := calls.foldl perform e

theorem perform_ofCompiler (c : Compiler) (call : Call) :
    (ofCompiler c).perform call = ofCompiler (c.perform call) := by
  cases call with
  | start g => rw [perform, start_ofCompiler]; rfl
  | step => rw [perform, step_ofCompiler]; rfl
  | finish => rw [perform, finish_ofCompiler]; rfl
  | abort => rw [perform, abort_ofCompiler]; rfl
  | process g => rw [perform, process_ofCompiler]; rfl

/-- Calls lead from the engine of a compiler to the engine of a compiler. -/
theorem performAll_ofCompiler (c : Compiler) (calls : List Call) :
    (ofCompiler c).performAll calls = ofCompiler (c.performAll calls) := by
  induction calls generalizing c with
  | nil => rfl
  | cons call calls ih =>
    rw [performAll, List.foldl_cons, perform_ofCompiler]
    exact ih (c.perform call)

/-- The engines that a call takes steps from. -/
def StepsFrom (e : Engine) : Call → Engine → Prop
  | .start _, _ | .abort, _ => False
  | .step, d => d = e
  | .finish, d => ∃ k, d = e.after k
  | .process g, d => ∃ k, d = (e.start g).engine.after k

theorem stepsFrom_ofCompiler {d : Compiler} {call : Call} (h : c.StepsFrom call d) :
    (ofCompiler c).StepsFrom call (ofCompiler d) := by
  cases call with
  | start g | abort => exact h
  | step => exact congrArg ofCompiler h
  | finish =>
    obtain ⟨k, rfl⟩ := h
    exact ⟨k, (after_ofCompiler c k).symm⟩
  | process g =>
    obtain ⟨k, rfl⟩ := h
    refine ⟨k, ?_⟩
    rw [start_ofCompiler]
    exact (after_ofCompiler ..).symm

/-- The next step gives node `n` its turn on the pass so far, and reports this node only. -/
structure Evaluates (e : Engine) (n : NodeId) : Prop where
  turn : ∃ pass node kind, e.status = .running ∧ e.pass = some pass ∧
    pass.graph.nodes.get? n = some node ∧ e.palette.get? node.kind = some kind ∧
    e.step.engine =
      { e with pass := some ({ pass with cursor := pass.cursor + 1 }.turn n node kind).1 }
  report : e.step.events.filterMap Event.visited? = [n]

theorem evaluates_ofCompiler {n : NodeId} (h : c.Evaluates n) : (ofCompiler c).Evaluates n := by
  obtain ⟨⟨pass, node, kind, hstage, hnode, hkind, hstep⟩, hreport⟩ := h
  refine ⟨⟨pass, node, kind, by simp only [ofCompiler, hstage, Stage.status],
    by simp only [ofCompiler, hstage, Stage.pass?], hnode, hkind, ?_⟩, ?_⟩
  · rw [step_ofCompiler, Reply.ofAnswer, hstep, Pass.turn_eq]
    simp only [ofCompiler, hstage, Stage.status, Stage.pass?]
  · rw [step_ofCompiler]
    exact hreport

/-- It is a step without a node that completes a pass. -/
theorem perform_completes {call : Call} (h : (ofCompiler c).status = .running)
    (h' : (ofCompiler (c.perform call)).status = .completed) :
    ∃ d pass, (ofCompiler c).StepsFrom call d ∧ d.status = .running ∧ d.pass = some pass ∧
      pass.graph.order[pass.cursor]? = none ∧ ofCompiler (c.perform call) = d.step.engine := by
  obtain ⟨pass, hstage⟩ := Stage.status_eq_running_iff.1 h
  obtain ⟨pass', hstage'⟩ := Stage.status_eq_completed_iff.1 h'
  obtain ⟨d, hfrom, hd, hend, hlast⟩ := Compiler.perform_completes hstage hstage'
  refine ⟨ofCompiler d, pass', stepsFrom_ofCompiler hfrom, ?_, ?_, hend, ?_⟩
  · simp only [ofCompiler, hd, Stage.status]
  · simp only [ofCompiler, hd, Stage.pass?]
  · rw [hlast, step_ofCompiler]
    rfl

/-- A pass over a graph as its check left it gives the nodes their turns in order, and a run ends
after the last one, however many of the steps are taken by hand. -/
theorem turns_of_start {cg : CheckedGraph} (hcg : cg.Unedited) (hs : (c.start cg).result = .ok ()) :
    let d := ofCompiler (c.start cg).compiler
    (∀ k (hk : k < cg.order.length), (d.after k).step.result = .ok true ∧
        (d.after k).Evaluates cg.order[k]) ∧
      (d.after cg.order.length).step.result = .ok false ∧
      ∀ k, (d.after k).finish.engine = d.after (cg.order.length + 1) ∧
        ∃ shader, (d.after k).finish.result = .ok shader := by
  intro d
  have haccepted := Compiler.start_result_eq_ok_iff.1 hs
  have hstart := Compiler.walked_start hs
  obtain ⟨pass, -, hfinish⟩ := hstart.finish_of_present haccepted fun n hn => hcg.contains hn
  simp only [d, after_ofCompiler, step_ofCompiler, finish_ofCompiler]
  refine ⟨fun k hk => ?_, ((hstart.after _).step_end le_rfl).1, fun k => ⟨?_, _, (hfinish k).2⟩⟩
  · obtain ⟨hresult, hevaluates⟩ :=
      (hstart.after k).step_present haccepted hk (hcg.contains (List.getElem_mem hk))
    exact ⟨hresult, evaluates_ofCompiler hevaluates⟩
  · exact congrArg ofCompiler (hfinish k).1

/-! ## Main result -/

/-- After any calls over graphs as their checks left them: a pass is stored while one runs and once
it is completed, and never beyond the end of its order. No call leads back to the first status, or
from a completed pass to an aborted one, and it is a step without a node that completes a pass. A
started pass gives each node one turn, in order, and a run of it ends. Only an engine that is idle
or aborted fails. -/
theorem lifecycle_of_calls (palette : Palette) (config : Config) {calls : List Call}
    (hcalls : ∀ call ∈ calls, call.Over CheckedGraph.Unedited) :
    let e := performAll { palette, config } calls
    (e.pass.isSome = true ↔ e.status = .running ∨ e.status = .completed) ∧
      (∀ pass, e.pass = some pass → pass.cursor ≤ pass.graph.order.length) ∧
      (∀ pass, e.pass = some pass → e.status = .completed →
        pass.cursor = pass.graph.order.length) ∧
      (∀ call, (e.perform call).status = .idle → e.status = .idle) ∧
      (∀ call, e.status = .completed → (e.perform call).status ≠ .aborted) ∧
      (∀ call, e.status = .running → (e.perform call).status = .completed →
        ∃ d pass, e.StepsFrom call d ∧ d.status = .running ∧ d.pass = some pass ∧
          pass.graph.order[pass.cursor]? = none ∧ e.perform call = d.step.engine) ∧
      (∀ cg, cg.Unedited → (e.start cg).result = .ok () →
        let d := (e.start cg).engine
        cg.order.length = cg.nodes.size ∧ cg.order.Nodup ∧
          (∀ k (hk : k < cg.order.length), (d.after k).step.result = .ok true ∧
            (d.after k).Evaluates cg.order[k]) ∧
          (d.after cg.order.length).step.result = .ok false ∧
          ∀ k ≤ cg.order.length, (d.after k).finish.engine = d.after (cg.order.length + 1) ∧
            ∃ shader, (d.after k).finish.result = .ok shader) ∧
      (∀ error, e.step.result = .error error ↔
        error = .noActivePass ∧ (e.status = .idle ∨ e.status = .aborted)) ∧
      ∀ error, e.finish.result = .error error ↔
        error = .noActivePass ∧ (e.status = .idle ∨ e.status = .aborted) := by
  intro e
  have he : e = ofCompiler (.performAll { palette, config } calls) :=
    performAll_ofCompiler { palette, config } calls
  have hsound := Compiler.sound_performAll palette config hcalls
  generalize Compiler.performAll { palette, config } calls = c at he hsound
  clear_value e
  subst he
  -- Without a pass the stage is one of the two that have none.
  have hnone : c.stage.pass? = none ↔
      (ofCompiler c).status = .idle ∨ (ofCompiler c).status = .aborted := by
    rw [Stage.pass?_eq_none_iff, ofCompiler, Stage.status_eq_idle_iff, Stage.status_eq_aborted_iff]
  simp only [perform_ofCompiler, start_ofCompiler, step_ofCompiler, finish_ofCompiler]
  refine ⟨Stage.isSome_pass?_iff, fun pass hpass => (Stage.Sound.of_pass? hsound hpass).cursor_le,
    fun pass hpass hstatus => ?_, fun call hidle => ?_, fun call hstatus haborted => ?_,
    fun call hrunning hcompleted => ?_, fun cg hcg hs => ?_, fun error => ?_, fun error => ?_⟩
  · obtain ⟨pass', hstage⟩ := Stage.status_eq_completed_iff.1 hstatus
    obtain rfl : pass' = pass := by simpa [ofCompiler, hstage, Stage.pass?] using hpass
    rw [hstage] at hsound
    exact hsound.2
  · refine Stage.status_eq_idle_iff.2 (by_contra fun hne => ?_)
    exact Compiler.stage_ne_idle_perform hne call (Stage.status_eq_idle_iff.1 hidle)
  · obtain ⟨pass, hstage⟩ := Stage.status_eq_completed_iff.1 hstatus
    have hpass := Compiler.isSome_pass?_perform_of_completed hstage call
    rw [Stage.status_eq_aborted_iff.1 haborted] at hpass
    cases hpass
  · exact perform_completes hrunning hcompleted
  · obtain ⟨hturns, hend, hfinish⟩ := turns_of_start hcg hs
    refine ⟨?_, hcg.perm.nodup_iff.2 cg.nodes.keys_nodup, hturns, hend, fun k _ => hfinish k⟩
    rw [hcg.perm.length_eq, SortedMap.keys, List.length_map]
    rfl
  · exact (Compiler.step_error_iff hsound).trans (and_congr_right fun _ => hnone)
  · exact (Compiler.finish_error_iff hsound).trans (and_congr_right fun _ => hnone)

/-- After a refused graph, a finished pass and one given up, there is no pass to step, and a new one
gives three nodes their turns. -/
theorem lifecycle_of_calls_adder :
    let calls : List Call := [.process Compiler.teapot, .start Graph.doubledChecked, .step, .finish,
      .start Graph.doubledChecked, .step, .abort]
    let e := performAll { palette := Compiler.adder.palette, config := {} } calls
    let d := (e.start Graph.doubledChecked).engine
    (∀ call ∈ calls, call.Over CheckedGraph.Unedited) ∧ e.status = .aborted ∧
      e.pass.isSome = false ∧ e.step.result = .error .noActivePass ∧
      e.finish.result = .error .noActivePass ∧ Graph.doubledChecked.Unedited ∧
      (e.start Graph.doubledChecked).result = .ok () ∧
      (d.after 1).Evaluates "a" ∧ (d.after 3).step.result = .ok false ∧
      ∃ shader, (d.after 2).finish.result = .ok shader := by
  intro calls e d
  have hdoubled : Graph.doubledChecked.Unedited := ⟨Graph.doubled, rfl⟩
  have hcalls : ∀ call ∈ calls, call.Over CheckedGraph.Unedited := by
    simp only [calls, List.forall_mem_cons, Call.Over, hdoubled, true_and]
    exact ⟨⟨Compiler.teapot.toGraph, rfl⟩, nofun⟩
  have he : e = ofCompiler (Compiler.adder.performAll calls) :=
    performAll_ofCompiler Compiler.adder calls
  have haborted : e.status = .aborted := by
    rw [he]
    with_unfolding_all rfl
  have hs : (e.start Graph.doubledChecked).result = .ok () := by
    rw [he, start_ofCompiler]
    with_unfolding_all rfl
  obtain ⟨hpass, -, -, -, -, -, hturns, hstep, hfinish⟩ :=
    lifecycle_of_calls Compiler.adder.palette {} hcalls
  obtain ⟨-, -, hevaluates, hend, hruns⟩ := hturns _ hdoubled hs
  refine ⟨hcalls, haborted, ?_, (hstep _).2 ⟨rfl, .inr haborted⟩,
    (hfinish _).2 ⟨rfl, .inr haborted⟩, hdoubled, hs, (hevaluates 1 (by decide)).2, hend,
    (hruns 2 (by decide)).2⟩
  rw [Bool.eq_false_iff, ne_eq, hpass]
  change ¬ (e.status = _ ∨ e.status = _)
  simp [haborted]

end Engine

end ShaderNodes
