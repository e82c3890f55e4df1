import ShaderNodes.Proofs.Compiler.Start
import ShaderNodes.Proofs.Compiler.Turns

/-!
# The life of a compiler

What calls of any kind, one after another, can do to the stage of a compiler. A run is steps and a
process is a start with a run after it, so what starts, steps and aborts keep is kept by all calls
(`Compiler.perform_keeps`).

* `Stage.Sound`: a pass is over an accepted graph, not beyond the end of its order, and right there
  when it is completed.
* `Compiler.sound_performAll`: the stage of a compiler is sound after any calls.
* `Compiler.step_error_iff`, `Compiler.finish_error_iff`: over graphs as their checks left them,
  only a compiler without a pass fails.
* `Compiler.perform_completes`: it is a step without a node that completes a pass.
-/

namespace ShaderNodes

/-- The graph is as its check left it. -/
def CheckedGraph.Unedited (cg : CheckedGraph) : Prop := ∃ g : Graph, g.check = .ok cg

theorem CheckedGraph.Unedited.perm {cg : CheckedGraph} (h : cg.Unedited) :
    cg.order.Perm cg.nodes.keys := by
  obtain ⟨g, hg⟩ := h
  obtain ⟨rfl, -, -, -, hperm⟩ := Graph.check_ok hg
  exact hperm

/-- All nodes of the order are there. -/
theorem CheckedGraph.Unedited.contains {cg : CheckedGraph} (h : cg.Unedited) {n : NodeId}
    (hn : n ∈ cg.order) : cg.nodes.contains n = true :=
  SortedMap.contains_iff_mem_keys.2 (h.perm.mem_iff.1 hn)

/-! ## Sound stages -/

/-- The pass is over an accepted graph with the property `Q`, and not beyond the end of its
order. -/
structure Pass.Sound (Q : CheckedGraph → Prop) (palette : Palette) (pass : Pass) : Prop where
  graph : Q pass.graph
  accepted : Compiler.objection? palette pass.graph.toGraph = none
  cursor_le : pass.cursor ≤ pass.graph.order.length

namespace Stage

/-- The pass, if there is one, is sound, and at the end of its order when it is completed. -/
def Sound (Q : CheckedGraph → Prop) (palette : Palette) : Stage → Prop
  | .idle | .aborted => True
  | .running pass => pass.Sound Q palette
  | .completed pass => pass.Sound Q palette ∧ pass.cursor = pass.graph.order.length

variable {Q : CheckedGraph → Prop} {palette : Palette} {stage : Stage} {pass : Pass}

theorem Sound.of_pass? (h : stage.Sound Q palette) (hpass : stage.pass? = some pass) :
    pass.Sound Q palette := by
  cases stage with
  | idle | aborted => cases hpass
  | running pass' =>
    obtain rfl := Option.some.inj hpass
    exact h
  | completed pass' =>
    obtain rfl := Option.some.inj hpass
    exact h.1

theorem pass?_eq_none_iff : stage.pass? = none ↔ stage = .idle ∨ stage = .aborted := by
  cases stage <;> simp [pass?]

end Stage

namespace Compiler

variable {c : Compiler} {Q : CheckedGraph → Prop}

theorem sound_step (h : c.stage.Sound Q c.palette) :
    c.step.compiler.stage.Sound Q c.step.compiler.palette := by
  have hstepped := c.stepped
  generalize c.step.compiler = next, c.step.result = result at hstepped ⊢
  cases hstepped with
  | inactive _ => exact h
  | completed _ => exact h
  | exhausted hstage hend =>
    rw [hstage] at h
    exact ⟨h, h.cursor_le.antisymm (List.getElem?_eq_none_iff.1 hend)⟩
  | vanished hstage hn _ =>
    rw [hstage] at h
    exact ⟨h.graph, h.accepted, (List.getElem?_eq_some_iff.1 hn).1⟩
  | unknown hstage hn _ _ =>
    rw [hstage] at h
    exact ⟨h.graph, h.accepted, (List.getElem?_eq_some_iff.1 hn).1⟩
  | visited hstage hn _ _ =>
    rw [hstage] at h
    refine ⟨?_, ?_, ?_⟩
    · rw [Pass.graph_visit]
      exact h.graph
    · rw [Pass.graph_visit]
      exact h.accepted
    · rw [Pass.graph_visit, Pass.cursor_visit]
      exact (List.getElem?_eq_some_iff.1 hn).1

theorem sound_abort (h : c.stage.Sound Q c.palette) :
    c.abort.compiler.stage.Sound Q c.abort.compiler.palette := by
  rw [abort]
  cases hstage : c.stage with
  | running pass => trivial
  | idle | completed _ | aborted => exact h

theorem sound_start {g : CheckedGraph} (hg : Q g) (h : c.stage.Sound Q c.palette) :
    (c.start g).compiler.stage.Sound Q (c.start g).compiler.palette := by
  cases hobjection : objection? c.palette g.toGraph with
  | some e =>
    rw [(start_of_objection hobjection).1]
    exact sound_abort h
  | none =>
    rw [(start_of_no_objection hobjection).1]
    exact ⟨hg, hobjection, Nat.zero_le _⟩

/-! ## From starts, steps and aborts to all calls -/

/-- The graph of the call, if it has one, has the property `Q`. -/
def Call.Over (Q : CheckedGraph → Prop) : Call → Prop
  | .start g | .process g => Q g
  | .step | .finish | .abort => True

theorem after_keeps {P : Compiler → Prop} (hstep : ∀ c, P c → P c.step.compiler) (h : P c)
    (k : Nat) : P (c.after k) := by
  induction k with
  | zero => exact h
  | succ k ih => exact hstep _ ih

theorem finish_keeps {P : Compiler → Prop} (hstep : ∀ c, P c → P c.step.compiler) (h : P c) :
    P c.finish.compiler := by
  obtain ⟨k, -, hends⟩ := c.exists_ends
  rw [hends.finish_compiler]
  exact after_keeps hstep h (k + 1)

/-- What starts, steps and aborts keep, all calls keep. -/
theorem perform_keeps {P : Compiler → Prop} (hstart : ∀ c g, Q g → P c → P (c.start g).compiler)
    (hstep : ∀ c, P c → P c.step.compiler) (habort : ∀ c, P c → P c.abort.compiler) {call : Call}
    (hcall : call.Over Q) (h : P c) : P (c.perform call) := by
  cases call with
  | start g => exact hstart c g hcall h
  | step => exact hstep c h
  | finish => exact finish_keeps hstep h
  | abort => exact habort c h
  | process g =>
    obtain ⟨e, -, hcompiler, -⟩ | ⟨-, hcompiler, -⟩ := c.process_eq g
    · rw [perform, hcompiler]
      exact hstart c g hcall h
    · rw [perform, hcompiler]
      exact finish_keeps hstep (hstart c g hcall h)

theorem sound_perform {call : Call} (hcall : call.Over Q) (h : c.stage.Sound Q c.palette) :
    (c.perform call).stage.Sound Q (c.perform call).palette :=
  perform_keeps (P := fun c => c.stage.Sound Q c.palette) (fun _ _ => sound_start) (fun _ =>
    sound_step) (fun _ => sound_abort) hcall h

/-- The stage of a new compiler is sound, and stays so. -/
theorem sound_performAll (palette : Palette) (config : Config) {calls : List Call}
    (hcalls : ∀ call ∈ calls, call.Over Q) :
    (performAll { palette, config } calls).stage.Sound Q
      (performAll { palette, config } calls).palette := by
  induction calls using List.reverseRecOn with
  | nil => trivial
  | append_singleton calls call ih =>
    rw [performAll, List.foldl_append]
    exact sound_perform (hcalls call (by simp)) (ih fun call' h => hcalls call' (by simp [h]))

/-! ## Where calls fail -/

theorem step_of_inactive (h : c.stage.pass? = none) : c.step.result = .error .noActivePass := by
  obtain hstage | hstage := Stage.pass?_eq_none_iff.1 h <;> simp only [step, hstage]

theorem step_eq_or_isSome (c : Compiler) :
    c.step.compiler = c ∨ c.step.compiler.stage.pass?.isSome = true := by
  have hstepped := c.stepped
  generalize c.step.compiler = next, c.step.result = result at hstepped ⊢
  cases hstepped with
  | inactive _ | completed _ => exact .inl rfl
  | exhausted _ _ | vanished _ _ _ | unknown _ _ _ _ | visited _ _ _ _ => exact .inr rfl

/-- A step does not lose the pass. -/
theorem isSome_pass?_step (h : c.stage.pass?.isSome = true) :
    c.step.compiler.stage.pass?.isSome = true := by
  obtain hsame | hpass := c.step_eq_or_isSome
  · rwa [hsame]
  · exact hpass

/-- Over a graph as its check left it, a step fails only where there is no pass. -/
theorem step_error_iff (h : c.stage.Sound CheckedGraph.Unedited c.palette) {e : Error} :
    c.step.result = .error e ↔ e = .noActivePass ∧ c.stage.pass? = none := by
  constructor
  · intro he
    have hstepped := c.stepped
    rw [he] at hstepped
    generalize c.step.compiler = next at hstepped
    cases hstepped with
    | inactive hnone => exact ⟨rfl, hnone⟩
    | @vanished pass n hstage hn hnode =>
      rw [hstage] at h
      have hthere := h.graph.contains (List.mem_of_getElem? hn)
      simp [SortedMap.contains, hnode] at hthere
    | @unknown pass n node hstage hn hnode hkind =>
      rw [hstage] at h
      obtain ⟨kind, hget⟩ := exists_kind_of_objection? h.accepted hnode
      simp [hget] at hkind
  · rintro ⟨rfl, hnone⟩
    exact step_of_inactive hnone

/-- A run fails where its first step does. -/
theorem finish_error_iff (h : c.stage.Sound CheckedGraph.Unedited c.palette) {e : Error} :
    c.finish.result = .error e ↔ e = .noActivePass ∧ c.stage.pass? = none := by
  obtain ⟨k, -, hends⟩ := c.exists_ends
  have hsound : (c.after k).stage.Sound CheckedGraph.Unedited (c.after k).palette :=
    after_keeps (P := fun c => c.stage.Sound _ c.palette) (fun _ => sound_step) h k
  constructor
  · intro he
    cases hlast : (c.after k).step.result with
    | ok more =>
      cases more with
      | true => exact absurd hlast hends.last
      | false =>
        obtain ⟨pass, -, hresult⟩ := hends.finish_of_ok hlast
        simp [hresult] at he
    | error e' =>
      obtain rfl : e' = e := Except.error.inj ((hends.finish_of_error hlast).symm.trans he)
      obtain ⟨rfl, hnone⟩ := (step_error_iff hsound).1 hlast
      refine ⟨rfl, ?_⟩
      by_contra hpass
      have hsome : (c.after k).stage.pass?.isSome = true :=
        after_keeps (P := fun c => c.stage.pass?.isSome = true) (fun _ => isSome_pass?_step)
          (Option.isSome_iff_ne_none.2 hpass) k
      simp [hnone] at hsome
  · rintro ⟨rfl, hnone⟩
    have hfirst := step_of_inactive hnone
    exact (Ends.zero (by simp [hfirst])).finish_of_error hfirst

/-! ## From stage to stage -/

/-- A start begins a pass, or does no more than an abort. -/
theorem start_running_or_abort (c : Compiler) (g : CheckedGraph) :
    (∃ pass, (c.start g).compiler.stage = .running pass) ∨
    (c.start g).compiler = c.abort.compiler := by
  cases hobjection : objection? c.palette g.toGraph with
  | some e => exact .inr (start_of_objection hobjection).1
  | none =>
    rw [(start_of_no_objection hobjection).1]
    exact .inl ⟨_, rfl⟩

theorem stage_ne_idle_abort (h : c.stage ≠ .idle) : c.abort.compiler.stage ≠ .idle := by
  rw [abort]
  cases hstage : c.stage with
  | running pass => exact Stage.noConfusion
  | idle | completed _ | aborted => exact h

theorem stage_ne_idle_start (g : CheckedGraph) (h : c.stage ≠ .idle) :
    (c.start g).compiler.stage ≠ .idle := by
  obtain ⟨pass, hpass⟩ | habort := c.start_running_or_abort g
  · rw [hpass]
    nofun
  · rw [habort]
    exact stage_ne_idle_abort h

theorem stage_ne_idle_step (h : c.stage ≠ .idle) : c.step.compiler.stage ≠ .idle := by
  obtain hsame | hpass := c.step_eq_or_isSome
  · rwa [hsame]
  · intro hidle
    rw [hidle] at hpass
    cases hpass

theorem stage_ne_idle_perform (h : c.stage ≠ .idle) (call : Call) :
    (c.perform call).stage ≠ .idle :=
  perform_keeps (Q := fun _ => True) (P := fun c => c.stage ≠ .idle)
    (fun _ g _ => stage_ne_idle_start g) (fun _ => stage_ne_idle_step) (fun _ =>
      stage_ne_idle_abort)
    (by cases call <;> trivial) h

/-- A compiler with a completed pass has a pass after any call: this one, or a new one. -/
theorem isSome_pass?_perform_of_completed {pass : Pass} (h : c.stage = .completed pass)
    (call : Call) : (c.perform call).stage.pass?.isSome = true := by
  have hpass : c.stage.pass?.isSome = true := by rw [h]; rfl
  have habort : c.abort.compiler = c := abort_of_not_running (by simp [h])
  have hstart : ∀ g, (c.start g).compiler.stage.pass?.isSome = true := by
    intro g
    obtain ⟨pass', hpass'⟩ | hsame := c.start_running_or_abort g
    · rw [hpass']
      rfl
    · rwa [hsame, habort]
  have hfinish : ∀ {d : Compiler}, d.stage.pass?.isSome = true →
      d.finish.compiler.stage.pass?.isSome = true :=
    finish_keeps (P := fun c => c.stage.pass?.isSome = true) fun _ => isSome_pass?_step
  cases call with
  | start g => exact hstart g
  | step => exact isSome_pass?_step hpass
  | finish => exact hfinish hpass
  | abort => rwa [perform, habort]
  | process g =>
    obtain ⟨e, -, hcompiler, -⟩ | ⟨-, hcompiler, -⟩ := c.process_eq g
    · rw [perform, hcompiler]
      exact hstart g
    · rw [perform, hcompiler]
      exact hfinish (hstart g)

/-- The compilers that a call takes steps from. -/
def StepsFrom (c : Compiler) : Call → Compiler → Prop
  | .start _, _ | .abort, _ => False
  | .step, d => d = c
  | .finish, d => ∃ k, d = c.after k
  | .process g, d => ∃ k, d = (c.start g).compiler.after k

/-- A step completes a pass where it finds no node left. -/
theorem step_completes {pass pass' : Pass} (h : c.stage = .running pass)
    (h' : c.step.compiler.stage = .completed pass') :
    pass' = pass ∧ pass.graph.order[pass.cursor]? = none := by
  have hstepped := c.stepped
  generalize c.step.compiler = next, c.step.result = result at hstepped h'
  cases hstepped with
  | inactive hnone =>
    rw [h] at hnone
    cases hnone
  | completed hstage =>
    rw [h] at hstage
    cases hstage
  | exhausted hstage hend =>
    obtain rfl := Stage.running.inj (h.symm.trans hstage)
    exact ⟨(Stage.completed.inj h').symm, hend⟩
  | vanished _ _ _ | unknown _ _ _ _ | visited _ _ _ _ => cases h'

/-- A run completes a pass by its last step. -/
theorem finish_completes {pass pass' : Pass} (h : c.stage = .running pass)
    (h' : c.finish.compiler.stage = .completed pass') :
    ∃ k, (c.after k).stage = .running pass' ∧ pass'.graph.order[pass'.cursor]? = none ∧
      c.finish.compiler = (c.after k).step.compiler := by
  obtain ⟨k, -, hends⟩ := c.exists_ends
  have hrunning : ∃ pass, (c.after k).stage = .running pass := by
    cases k with
    | zero => exact ⟨pass, h⟩
    | succ k =>
      -- The step before found a node, so the pass went on.
      have hstepped := (c.after k).stepped
      rw [hends.more k (Nat.lt_succ_self k)] at hstepped
      change ∃ pass, (c.after k).step.compiler.stage = _
      generalize (c.after k).step.compiler = next at hstepped ⊢
      cases hstepped with
      | visited _ _ _ _ => exact ⟨_, rfl⟩
  obtain ⟨last, hlast⟩ := hrunning
  rw [hends.finish_compiler] at h'
  obtain ⟨rfl, hend⟩ := step_completes hlast h'
  exact ⟨k, hlast, hend, hends.finish_compiler⟩

/-- Whatever the call, it is a step that completes a pass. -/
theorem perform_completes {pass pass' : Pass} {call : Call} (h : c.stage = .running pass)
    (h' : (c.perform call).stage = .completed pass') :
    ∃ d, c.StepsFrom call d ∧ d.stage = .running pass' ∧
      pass'.graph.order[pass'.cursor]? = none ∧ c.perform call = d.step.compiler := by
  have hstart : ∀ g, (c.start g).compiler.stage ≠ .completed pass' := by
    intro g hcompleted
    obtain ⟨pass'', hstage⟩ | habort := c.start_running_or_abort g
    · rw [hstage] at hcompleted
      cases hcompleted
    · rw [habort, abort_of_running h] at hcompleted
      cases hcompleted
  cases call with
  | start g => exact absurd h' (hstart g)
  | abort =>
    rw [perform, abort_of_running h] at h'
    cases h'
  | step =>
    obtain ⟨rfl, hend⟩ := step_completes h h'
    exact ⟨c, rfl, h, hend, rfl⟩
  | finish =>
    obtain ⟨k, hstage, hend, hcompiler⟩ := finish_completes h h'
    exact ⟨c.after k, ⟨k, rfl⟩, hstage, hend, hcompiler⟩
  | process g =>
    obtain ⟨e, -, hcompiler, -⟩ | ⟨hresult, hcompiler, -⟩ := c.process_eq g
    · rw [perform, hcompiler] at h'
      exact absurd h' (hstart g)
    · obtain ⟨-, -, number, config, hstage⟩ := start_ok hresult
      rw [perform, hcompiler] at h'
      obtain ⟨k, hlast, hend, hfinish⟩ := finish_completes hstage h'
      exact ⟨_, ⟨k, rfl⟩, hlast, hend, hcompiler.trans hfinish⟩

end Compiler

end ShaderNodes
