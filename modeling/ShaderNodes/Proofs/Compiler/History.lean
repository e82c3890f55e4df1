import ShaderNodes.Proofs.Compiler.Turns

/-!
# Histories of a compiler

A compiler keeps its palette and its settings for life. A pass is begun from these and the graph
alone, so what happened before shows nowhere but in the number of the pass, and no result reads that
number.

* `Compiler.step_renumber`, `Compiler.finish_renumber`: steps and runs do not read the number of a
  pass.
* `Compiler.process_after_history`: after any calls a graph gives what it gives at first.
-/

namespace ShaderNodes

namespace Compiler

/-! ## What no operation changes -/

/-- The palette and the settings. -/
def settings (c : Compiler) : Palette × Config := (c.palette, c.config)

theorem settings_step (c : Compiler) : c.step.compiler.settings = c.settings := by
  have h := c.stepped
  generalize c.step.compiler = next, c.step.result = result at h
  cases h <;> rfl

theorem settings_stepUpTo (n : Nat) (c : Compiler) :
    (stepUpTo n c).compiler.settings = c.settings := by
  induction n generalizing c with
  | zero => rfl
  | succ n ih =>
    rw [stepUpTo]
    cases c.step.result with
    | error e => exact c.settings_step
    | ok more =>
      cases more with
      | false => exact c.settings_step
      | true => exact (ih c.step.compiler).trans c.settings_step

theorem settings_finish (c : Compiler) : c.finish.compiler.settings = c.settings :=
  settings_stepUpTo c.stepsLeft c

theorem abort_eq (c : Compiler) : ∃ stage, c.abort.compiler = { c with stage } := by
  rw [abort]
  cases c.stage with
  | running pass => exact ⟨.aborted, rfl⟩
  | _ => exact ⟨c.stage, rfl⟩

theorem start_of_objection {c : Compiler} {g : CheckedGraph} {e : Error}
    (h : objection? c.palette g.toGraph = some e) :
    (c.start g).compiler = c.abort.compiler ∧ (c.start g).result = .error e := by
  have habort := c.palette_abort
  unfold start
  generalize c.abort = aborted at habort ⊢
  obtain ⟨c', _, events⟩ := aborted
  simp only at habort
  simp only [habort, h, and_self]

theorem start_of_no_objection {c : Compiler} {g : CheckedGraph}
    (h : objection? c.palette g.toGraph = none) :
    (c.start g).compiler =
        { c with stage := .running (.start (c.passes + 1) g c.config), passes := c.passes + 1 } ∧
      (c.start g).result = .ok () := by
  obtain ⟨stage, habort⟩ := c.abort_eq
  unfold start
  generalize c.abort = aborted at habort ⊢
  obtain ⟨c', _, events⟩ := aborted
  simp only at habort
  subst habort
  simp only [h, and_self]

theorem settings_start (c : Compiler) (g : CheckedGraph) :
    (c.start g).compiler.settings = c.settings := by
  cases h : objection? c.palette g.toGraph with
  | some e =>
    obtain ⟨stage, habort⟩ := c.abort_eq
    rw [(start_of_objection h).1, habort]
    rfl
  | none =>
    rw [(start_of_no_objection h).1]
    rfl

theorem process_eq (c : Compiler) (g : CheckedGraph) :
    (∃ e, (c.start g).result = .error e ∧ (c.process g).compiler = (c.start g).compiler ∧
        (c.process g).result = .error e) ∨
      (c.start g).result = .ok () ∧
        (c.process g).compiler = (c.start g).compiler.finish.compiler ∧
        (c.process g).result = (c.start g).compiler.finish.result := by
  rw [process]
  cases (c.start g).result with
  | error e => exact .inl ⟨e, rfl, rfl, rfl⟩
  | ok _ => exact .inr ⟨rfl, rfl, rfl⟩

theorem process_of_objection {c : Compiler} {g : CheckedGraph} {e : Error}
    (h : objection? c.palette g.toGraph = some e) : (c.process g).result = .error e := by
  have hs := (start_of_objection h).2
  obtain ⟨e', herror, -, hresult⟩ | ⟨hok, -⟩ := c.process_eq g
  · obtain rfl := Except.error.inj (hs.symm.trans herror)
    exact hresult
  · rw [hs] at hok
    cases hok

theorem settings_process (c : Compiler) (g : CheckedGraph) :
    (c.process g).compiler.settings = c.settings := by
  obtain ⟨e, -, hcompiler, -⟩ | ⟨-, hcompiler, -⟩ := c.process_eq g
  · rw [hcompiler, settings_start]
  · rw [hcompiler, settings_finish, settings_start]

/-- A call of an operation. -/
inductive Call where
  | start (g : CheckedGraph)
  | step
  | finish
  | abort
  | process (g : CheckedGraph)

/-- The compiler after a call, whether it succeeds or fails. -/
def perform (c : Compiler) : Call → Compiler
  | .start g => (c.start g).compiler
  | .step => c.step.compiler
  | .finish => c.finish.compiler
  | .abort => c.abort.compiler
  | .process g => (c.process g).compiler

theorem settings_perform (c : Compiler) (call : Call) : (c.perform call).settings = c.settings := by
  cases call with
  | start g => exact c.settings_start g
  | step => exact c.settings_step
  | finish => exact c.settings_finish
  | abort =>
    obtain ⟨stage, habort⟩ := c.abort_eq
    rw [perform, habort]
    rfl
  | process g => exact c.settings_process g

/-- The compiler after calls one after another. -/
def performAll (c : Compiler) (calls : List Call) : Compiler := calls.foldl perform c

theorem settings_performAll (c : Compiler) (calls : List Call) :
    (c.performAll calls).settings = c.settings := by
  induction calls generalizing c with
  | nil => rfl
  | cons call calls ih => exact (ih (c.perform call)).trans (c.settings_perform call)

end Compiler

/-! ## The number of a pass -/

/-- The pass under another number. -/
def Pass.renumber (pass : Pass) (number : UInt64) : Pass := { pass with number }

theorem Pass.visit_renumber (pass : Pass) (number : UInt64) (n : NodeId) (node : Node)
    (kind : Kind) : (pass.renumber number).visit n node kind =
      (pass.visit n node kind).renumber number := by
  have heval : (pass.renumber number).evaluate n node kind = pass.evaluate n node kind := rfl
  rw [visit, visit, heval]
  cases pass.evaluate n node kind <;> rfl

/-- The stage with its pass under another number. -/
def Stage.renumber (stage : Stage) (number : UInt64) : Stage :=
  match stage with
  | .idle => .idle
  | .running pass => .running (pass.renumber number)
  | .completed pass => .completed (pass.renumber number)
  | .aborted => .aborted

theorem Stage.pass?_renumber (stage : Stage) (number : UInt64) :
    (stage.renumber number).pass? = stage.pass?.map (·.renumber number) := by
  cases stage <;> rfl

namespace Compiler

/-- The compiler with other numbers: that of the pass, and how many were started. -/
def renumber (c : Compiler) (number passes : UInt64) : Compiler :=
  { c with stage := c.stage.renumber number, passes }

variable {c d : Compiler} {number passes : UInt64}

/-- A step does not read the numbers. -/
theorem step_renumber (c : Compiler) (number passes : UInt64) :
    (c.renumber number passes).step.compiler = c.step.compiler.renumber number passes ∧
      (c.renumber number passes).step.result = c.step.result := by
  unfold step renumber
  cases hstage : c.stage with
  | idle => exact ⟨by simp [hstage, Stage.renumber], rfl⟩
  | aborted => exact ⟨by simp [hstage, Stage.renumber], rfl⟩
  | completed pass => exact ⟨by simp [hstage, Stage.renumber], rfl⟩
  | running pass =>
    simp only [Stage.renumber, Pass.renumber]
    cases pass.graph.order[pass.cursor]? with
    | none => exact ⟨rfl, rfl⟩
    | some n =>
      cases hnode : pass.graph.nodes.get? n with
      | none => simp only [hnode, and_self]
      | some node =>
        cases hkind : c.palette.get? node.kind with
        | none => simp only [hnode, hkind, and_self]
        | some kind =>
          have hvisit :=
            Pass.visit_renumber { pass with cursor := pass.cursor + 1 } number n node kind
          simp only [Pass.renumber] at hvisit
          simp only [hnode, hkind, hvisit, and_self]

theorem stepUpTo_renumber (n : Nat) (c : Compiler) (number passes : UInt64) :
    (stepUpTo n (c.renumber number passes)).compiler =
        (stepUpTo n c).compiler.renumber number passes ∧
      (stepUpTo n (c.renumber number passes)).result = (stepUpTo n c).result := by
  induction n generalizing c with
  | zero => exact ⟨rfl, rfl⟩
  | succ n ih =>
    obtain ⟨hcompiler, hresult⟩ := c.step_renumber number passes
    rw [stepUpTo, stepUpTo, hresult, hcompiler]
    cases c.step.result with
    | error e => exact ⟨rfl, rfl⟩
    | ok more =>
      cases more with
      | false => exact ⟨rfl, rfl⟩
      | true => exact ih c.step.compiler

/-- A run to the end does not read the numbers. -/
theorem finish_renumber (c : Compiler) (number passes : UInt64) :
    (c.renumber number passes).finish.result = c.finish.result := by
  have hleft : (c.renumber number passes).stepsLeft = c.stepsLeft := by
    unfold stepsLeft renumber
    cases c.stage <;> rfl
  obtain ⟨hcompiler, hresult⟩ := stepUpTo_renumber c.stepsLeft c number passes
  have hstage : (stepUpTo c.stepsLeft (c.renumber number passes)).compiler.stage =
      (stepUpTo c.stepsLeft c).compiler.stage.renumber number := by
    rw [hcompiler]
    rfl
  simp only [finish, hleft, hresult, hstage, Stage.pass?_renumber]
  cases (stepUpTo c.stepsLeft c).result with
  | error e => rfl
  | ok _ => cases (stepUpTo c.stepsLeft c).compiler.stage.pass? <;> rfl

/-- A pass begins from the palette, the settings and the graph alone. -/
theorem start_of_settings (h : c.settings = d.settings) (g : CheckedGraph) :
    (c.start g).result = (d.start g).result ∧
      ((d.start g).result = .ok () →
        (c.start g).compiler = (d.start g).compiler.renumber (c.passes + 1) (c.passes + 1)) := by
  obtain ⟨hpalette, hconfig⟩ := Prod.mk.inj h
  cases hobjection : objection? d.palette g.toGraph with
  | some e =>
    rw [(start_of_objection hobjection).2, (start_of_objection (hpalette ▸ hobjection)).2]
    exact ⟨rfl, nofun⟩
  | none =>
    obtain ⟨hd, hdresult⟩ := start_of_no_objection hobjection
    obtain ⟨hc, hcresult⟩ := start_of_no_objection (c := c) (hpalette ▸ hobjection)
    rw [hcresult, hdresult, hc, hd]
    refine ⟨rfl, fun _ => ?_⟩
    simp only [renumber, Stage.renumber, Pass.renumber, Pass.start, hpalette, hconfig]

theorem process_of_settings (h : c.settings = d.settings) (g : CheckedGraph) :
    (c.process g).result = (d.process g).result := by
  obtain ⟨hresult, hcompiler⟩ := start_of_settings h g
  obtain ⟨e, hstart, -, hprocess⟩ | ⟨hstart, -, hprocess⟩ := d.process_eq g
  · rw [process, hresult, hstart, hprocess]
  · rw [process, hresult, hstart, hprocess]
    simp only [hcompiler hstart, finish_renumber]

/-! ## Main result -/

/-- After any calls a graph gives what a new compiler gives on it, whether it is run at once or
after any number of steps by hand. A completed compiler hands its shader out again and stays as it
is. -/
theorem process_after_history (palette : Palette) (config : Config) (calls : List Call) {g : Graph}
    {cg : CheckedGraph} (hg : g.check = .ok cg) :
    let fresh : Compiler := { palette, config }
    let c := fresh.performAll calls
    (c.process cg).result = (fresh.process cg).result ∧
      ((c.start cg).result = .ok () → ∃ shader, (fresh.process cg).result = .ok shader ∧
        (∀ k, ((c.start cg).compiler.after k).finish.result = .ok shader ∧
          ((c.start cg).compiler.after k).finish.compiler = (c.process cg).compiler) ∧
        (∃ pass, (c.process cg).compiler.stage = .completed pass) ∧
        (c.process cg).compiler.finish.result = .ok shader ∧
        (c.process cg).compiler.finish.compiler = (c.process cg).compiler) ∧
      ∀ pass, c.stage = .completed pass →
        c.finish.result = .ok pass.draft.finish ∧ c.finish.compiler = c := by
  intro fresh c
  have hprocess := process_of_settings (fresh.settings_performAll calls) cg
  refine ⟨hprocess, fun hs => ?_, fun pass hstage => (finish_of_completed hstage).symm⟩
  have hrun : cg.Runnable c.palette :=
    runnable_of_check hg ((Graph.check_ok hg).1 ▸ (start_ok hs).1)
  obtain ⟨pass, hstage, hfinish⟩ :=
    (walked_start hs).finish_of_present (start_ok hs).1 fun _ => hrun.contains
  obtain ⟨e, herror, -⟩ | ⟨-, hcompiler, hresult⟩ := c.process_eq cg
  · rw [hs] at herror
    cases herror
  · rw [hcompiler.trans (hfinish 0).1]
    obtain ⟨hagain, hshader⟩ := finish_of_completed hstage
    refine ⟨pass.draft.finish, ?_, fun k => (hfinish k).symm, ⟨pass, hstage⟩, hshader, hagain⟩
    rw [← hprocess, hresult]
    exact (hfinish 0).2

/-- A graph that the compiler for sums does not take. -/
def teapot : CheckedGraph where
  nodes := .ofList [("t", ⟨"Teapot", .empty⟩)]
  links := .empty
  order := ["t"]
  producers := .empty

/-- A pass left half-run, one given up, a refused graph and a finished pass leave no trace. -/
theorem process_after_history_adder :
    let calls : List Call := [.start Graph.doubledChecked, .step, .start Graph.doubledChecked,
      .abort, .step, .process Graph.doubledChecked, .process teapot, .start Graph.doubledChecked,
      .step]
    let c := adder.performAll calls
    Graph.doubled.check = .ok Graph.doubledChecked ∧
      (c.start Graph.doubledChecked).result = .ok () ∧
      (c.process Graph.doubledChecked).result = (adder.process Graph.doubledChecked).result ∧
      ((c.start Graph.doubledChecked).compiler.after 2).finish.result =
        (adder.process Graph.doubledChecked).result := by
  intro calls c
  have hg : Graph.doubled.check = .ok Graph.doubledChecked := rfl
  have hpalette : c.palette = adder.palette := congrArg Prod.fst (adder.settings_performAll calls)
  have hobjection : objection? c.palette Graph.doubled = none := by
    rw [hpalette]
    rfl
  have hs : (c.start Graph.doubledChecked).result = .ok () := (start_of_no_objection hobjection).2
  obtain ⟨hprocess, hsplit, -⟩ := process_after_history adder.palette adder.config calls hg
  obtain ⟨shader, hfresh, hafter, -⟩ := hsplit hs
  exact ⟨hg, hs, hprocess, (hafter 2).1.trans hfresh.symm⟩

end Compiler

end ShaderNodes
