import ShaderNodes.Proofs.Compiler.Run

/-!
# The turns of a pass

A step gives the next node of the order its turn. That holds over any graph whose kinds were known
at the start, also one that lost nodes after its check: the step whose turn is a lost node fails,
but it takes the turn like any other.

* `Compiler.Stepped`: all that a step can do.
* `Compiler.Walked.step_present`, `Compiler.Walked.step_vanished`, `Compiler.Walked.step_end`: what
  the next step answers, and which node it evaluates.
* `Compiler.Ends`: the step at which a run ends. There always is one (`Compiler.exists_ends`), and
  the run stops right there (`Compiler.Ends.finish_compiler`).
* `Compiler.Walked.finish_of_present`: a run over nodes that are all there gives a shader.
-/

namespace ShaderNodes

/-! ## Visited nodes -/

/-- The node of which an event reports that it had its turn. -/
def Event.visited? : Event → Option NodeId
  | .nodeEvaluated id _ _ | .nodeSkipped id _ _ => some id
  | _ => none

/-- The nodes that had their turns in an operation, in order. -/
def Compiler.Answer.visited {α : Type} (a : Compiler.Answer α) : List NodeId :=
  a.events.filterMap Event.visited?

theorem Draft.visited_runEvents (d : Draft) (edits : List Edit) :
    (d.runEvents edits).filterMap Event.visited? = [] := by
  induction edits generalizing d with
  | nil => rfl
  | cons e edits ih =>
    rw [runEvents, List.filterMap_append, ih, List.append_nil]
    cases e with
    | function name source =>
      rw [eventsOf]
      split <;> rfl
    | statement _ | uniform _ _ | enable _ => rfl

theorem Pass.visited_visitEvents (pass : Pass) (n : NodeId) (node : Node) (kind : Kind) :
    (pass.visitEvents n node kind).filterMap Event.visited? = [n] := by
  rw [visitEvents]
  cases pass.evaluate n node kind with
  | error skip => rfl
  | ok c =>
    rw [List.filterMap_append, Draft.visited_runEvents]
    rfl

namespace Compiler

variable {c : Compiler} {palette : Palette} {g : CheckedGraph} {k : Nat}

/-! ## One step -/

/-- What a step of `c` leaves behind and answers. -/
inductive Stepped (c : Compiler) : Compiler → Except Error Bool → Prop where
  | inactive : c.stage.pass? = none → Stepped c c (.error .noActivePass)
  | completed {pass : Pass} : c.stage = .completed pass → Stepped c c (.ok false)
  | exhausted {pass : Pass} : c.stage = .running pass → pass.graph.order[pass.cursor]? = none →
    Stepped c { c with stage := .completed pass } (.ok false)
  | vanished {pass : Pass} {n : NodeId} : c.stage = .running pass →
    pass.graph.order[pass.cursor]? = some n → pass.graph.nodes.get? n = none →
    Stepped c { c with stage := .running { pass with cursor := pass.cursor + 1 } }
      (.error (.nodeVanished n))
  | unknown {pass : Pass} {n : NodeId} {node : Node} : c.stage = .running pass →
    pass.graph.order[pass.cursor]? = some n → pass.graph.nodes.get? n = some node →
    c.palette.get? node.kind = none →
    Stepped c { c with stage := .running { pass with cursor := pass.cursor + 1 } }
      (.error (.unknownKind n node.kind))
  | visited {pass : Pass} {n : NodeId} {node : Node} {kind : Kind} : c.stage = .running pass →
    pass.graph.order[pass.cursor]? = some n → pass.graph.nodes.get? n = some node →
    c.palette.get? node.kind = some kind →
    Stepped c
      { c with stage := .running ({ pass with cursor := pass.cursor + 1 }.visit n node kind) }
      (.ok true)

theorem stepped (c : Compiler) : c.Stepped c.step.compiler c.step.result := by
  unfold step
  cases hstage : c.stage with
  | idle => exact .inactive (by rw [hstage]; rfl)
  | aborted => exact .inactive (by rw [hstage]; rfl)
  | completed pass => exact .completed hstage
  | running pass =>
    cases hnext : pass.graph.order[pass.cursor]? with
    | none =>
      simp only [hnext]
      exact .exhausted hstage hnext
    | some n =>
      simp only [hnext]
      cases hnode : pass.graph.nodes.get? n with
      | none => exact .vanished hstage hnext hnode
      | some node =>
        cases hkind : c.palette.get? node.kind with
        | none =>
          simp only [hkind]
          exact .unknown hstage hnext hnode hkind
        | some kind =>
          simp only [hkind]
          exact .visited hstage hnext hnode hkind

/-! ## What the next step answers -/

/-- The next step evaluates node `n` on the values so far, and reports this node only. -/
structure Evaluates (c : Compiler) (n : NodeId) : Prop where
  visit : ∃ pass node kind, c.stage = .running pass ∧ pass.graph.nodes.get? n = some node ∧
    c.palette.get? node.kind = some kind ∧
    c.step.compiler =
      { c with stage := .running ({ pass with cursor := pass.cursor + 1 }.visit n node kind) }
  report : c.step.visited = [n]

/-- Where a turn is left, it is that of the next node of the order. -/
theorem Walked.exists_running (h : c.Walked palette g k) (hk : k < g.order.length) :
    ∃ pass, c.stage = .running pass ∧ pass.graph = g ∧
      pass.graph.order[pass.cursor]? = some g.order[k] := by
  obtain ⟨pass, rfl, hcursor, -, hstage⟩ := h.exists_pass
  rw [if_pos hk.le] at hstage
  refine ⟨pass, hstage, rfl, ?_⟩
  rw [hcursor, Nat.min_eq_left hk.le, List.getElem?_eq_getElem hk]

/-- A node that is there is evaluated in its turn. -/
theorem Walked.step_present (haccepted : objection? palette g.toGraph = none)
    (h : c.Walked palette g k) (hk : k < g.order.length) (hn : g.nodes.contains g.order[k] = true) :
    c.step.result = .ok true ∧ c.Evaluates g.order[k] := by
  obtain ⟨pass, hstage, rfl, hnext⟩ := h.exists_running hk
  obtain ⟨node, hnode⟩ := SortedMap.exists_get? hn
  obtain ⟨kind, hkind⟩ := exists_kind_of_objection? haccepted hnode
  rw [← h.palette_eq] at hkind
  refine ⟨?_, ⟨pass, node, kind, hstage, hnode, hkind, ?_⟩, ?_⟩
  · simp only [Compiler.step, hstage, hnext, hnode, hkind]
  · simp only [Compiler.step, hstage, hnext, hnode, hkind]
  · simp only [Compiler.step, hstage, hnext, hnode, hkind, Answer.visited, Pass.visited_visitEvents]

/-- A node that is gone stops a run in its turn. -/
theorem Walked.step_vanished (h : c.Walked palette g k) (hk : k < g.order.length)
    (hn : g.nodes.contains g.order[k] = false) :
    c.step.result = .error (.nodeVanished g.order[k]) ∧ c.step.visited = [] := by
  obtain ⟨pass, hstage, rfl, hnext⟩ := h.exists_running hk
  have hnode : pass.graph.nodes.get? pass.graph.order[k] = none := by
    simpa [SortedMap.contains] using hn
  simp only [Compiler.step, hstage, hnext, hnode, Answer.visited, List.filterMap_nil, and_self]

/-- Where no turn is left, a step finds no node. -/
theorem Walked.step_end (h : c.Walked palette g k) (hk : g.order.length ≤ k) :
    c.step.result = .ok false ∧ c.step.visited = [] := by
  obtain ⟨pass, rfl, hcursor, -, hstage⟩ := h.exists_pass
  split at hstage
  · have hend : pass.graph.order[pass.cursor]? = none := by
      rw [List.getElem?_eq_none_iff]
      omega
    simp [Compiler.step, hstage, hend, Answer.visited, Event.visited?]
  · simp [Compiler.step, hstage, Answer.visited]

/-! ## Runs to the end -/

theorem after_add (c : Compiler) (k j : Nat) : c.after (k + j) = (c.after k).after j := by
  induction j with
  | zero => rfl
  | succ j ih => exact congrArg (fun d => d.step.compiler) ih

theorem after_succ (c : Compiler) (k : Nat) : c.after (k + 1) = c.step.compiler.after k := by
  rw [Nat.add_comm, after_add]
  rfl

theorem after_sub {j : Nat} (hj : j ≤ k) : (c.after j).after (k - j) = c.after k := by
  rw [← after_add, Nat.add_sub_cancel' hj]

/-- The first `k` steps find a node each, and the next one finds none or fails. -/
structure Ends (c : Compiler) (k : Nat) : Prop where
  more : ∀ j < k, (c.after j).step.result = .ok true
  last : (c.after k).step.result ≠ .ok true

theorem Ends.zero (h : c.step.result ≠ .ok true) : c.Ends 0 := ⟨nofun, h⟩

theorem ends_succ_iff : c.Ends (k + 1) ↔ c.step.result = .ok true ∧ c.step.compiler.Ends k := by
  constructor
  · intro h
    refine ⟨h.more 0 (Nat.succ_pos k), fun j hj => ?_, ?_⟩
    · rw [← after_succ]
      exact h.more (j + 1) (Nat.succ_lt_succ hj)
    · rw [← after_succ]
      exact h.last
  · rintro ⟨hfirst, h⟩
    refine ⟨fun j hj => ?_, ?_⟩
    · cases j with
      | zero => exact hfirst
      | succ j =>
        rw [after_succ]
        exact h.more j (Nat.lt_of_succ_lt_succ hj)
    · rw [after_succ]
      exact h.last

theorem Ends.unique {l : Nat} (h : c.Ends k) (h' : c.Ends l) : k = l := by
  rcases Nat.lt_trichotomy k l with hlt | heq | hlt
  · exact absurd (h'.more k hlt) h.last
  · exact heq
  · exact absurd (h.more l hlt) h'.last

/-- A step that finds a node leaves one step less. -/
theorem stepsLeft_step (h : c.step.result = .ok true) :
    c.stepsLeft = c.step.compiler.stepsLeft + 1 := by
  have hstepped := c.stepped
  rw [h] at hstepped
  generalize c.step.compiler = next at hstepped ⊢
  cases hstepped with
  | visited hstage hn _ _ =>
    have hlt := (List.getElem?_eq_some_iff.1 hn).1
    simp only [stepsLeft, hstage, Pass.graph_visit, Pass.cursor_visit]
    omega

/-- Every run ends, within the steps that are left. -/
theorem exists_ends (c : Compiler) : ∃ k < c.stepsLeft, c.Ends k := by
  induction hn : c.stepsLeft using Nat.strongRecOn generalizing c with
  | ind n ih =>
    by_cases h : c.step.result = .ok true
    · have hleft := stepsLeft_step h
      obtain ⟨k, hk, hends⟩ := ih c.step.compiler.stepsLeft (by omega) c.step.compiler rfl
      exact ⟨k + 1, by omega, ends_succ_iff.2 ⟨h, hends⟩⟩
    · refine ⟨0, ?_, .zero h⟩
      subst hn
      unfold stepsLeft
      split <;> omega

theorem stepUpTo_of_ends {n : Nat} (h : c.Ends k) (hk : k < n) :
    (stepUpTo n c).compiler = c.after (k + 1) ∧
      (stepUpTo n c).result = (c.after k).step.result.map fun _ => () := by
  induction n generalizing c k with
  | zero => omega
  | succ n ih =>
    rw [stepUpTo]
    cases k with
    | zero =>
      have hlast : c.step.result ≠ .ok true := h.last
      change _ = c.step.compiler ∧ _ = c.step.result.map _
      cases hresult : c.step.result with
      | error e => exact ⟨rfl, rfl⟩
      | ok more =>
        cases more with
        | false => exact ⟨rfl, rfl⟩
        | true => exact absurd hresult hlast
    | succ k =>
      obtain ⟨hfirst, hrest⟩ := ends_succ_iff.1 h
      rw [after_succ c (k + 1), after_succ c k, hfirst]
      exact ih hrest (by omega)

/-- The bound on the steps of a run is never what stops it. -/
theorem Ends.stepUpTo (h : c.Ends k) :
    (stepUpTo c.stepsLeft c).compiler = c.after (k + 1) ∧
      (stepUpTo c.stepsLeft c).result = (c.after k).step.result.map fun _ => () := by
  obtain ⟨l, hl, hends⟩ := c.exists_ends
  obtain rfl := h.unique hends
  exact stepUpTo_of_ends h hl

theorem Ends.finish_compiler (h : c.Ends k) : c.finish.compiler = c.after (k + 1) :=
  h.stepUpTo.1

/-- Steps taken by hand are steps that a run does not have to take. -/
theorem Ends.after {j : Nat} (h : c.Ends k) (hj : j ≤ k) : (c.after j).Ends (k - j) := by
  refine ⟨fun i hi => ?_, ?_⟩
  · rw [← after_add]
    exact h.more (j + i) (by omega)
  · rw [after_sub hj]
    exact h.last

theorem Ends.finish_after {j : Nat} (h : c.Ends k) (hj : j ≤ k) :
    (c.after j).finish.compiler = c.after (k + 1) := by
  rw [(h.after hj).finish_compiler, ← Nat.sub_add_comm hj, after_sub (Nat.le_succ_of_le hj)]

/-- A run that ends at a step that fails fails for the same reason. -/
theorem Ends.finish_of_error {e : Error} (h : c.Ends k) (he : (c.after k).step.result = .error e) :
    c.finish.result = .error e := by
  simp only [finish, h.stepUpTo.2, he, Except.map]

/-- A run that ends at a step without a node completes the pass and gives its shader. -/
theorem Ends.finish_of_ok (h : c.Ends k) (hf : (c.after k).step.result = .ok false) :
    ∃ pass, c.finish.compiler.stage = .completed pass ∧
    c.finish.result = .ok pass.draft.finish := by
  have hcompleted : ∃ pass, (c.after (k + 1)).stage = .completed pass := by
    have hstepped := (c.after k).stepped
    rw [hf] at hstepped
    change ∃ pass, (c.after k).step.compiler.stage = _
    generalize (c.after k).step.compiler = next at hstepped ⊢
    cases hstepped with
    | @completed pass hstage => exact ⟨pass, hstage⟩
    | @exhausted pass _ _ => exact ⟨pass, rfl⟩
  obtain ⟨pass, hstage⟩ := hcompleted
  refine ⟨pass, by rw [h.finish_compiler, hstage], ?_⟩
  simp only [finish, h.stepUpTo.1, h.stepUpTo.2, hf, Except.map, hstage, Stage.pass?]

/-- A completed compiler stays as it is, and hands its shader out again. -/
theorem finish_of_completed {pass : Pass} (hstage : c.stage = .completed pass) :
    c.finish.compiler = c ∧ c.finish.result = .ok pass.draft.finish := by
  have hleft : c.stepsLeft = 1 := by simp only [stepsLeft, hstage]
  simp only [finish, hleft, stepUpTo, step, hstage, Stage.pass?, and_self]

/-- Steps leave a completed pass as it is. -/
theorem after_of_completed {pass : Pass} (hstage : c.stage = .completed pass) (k : Nat) :
    c.after k = c := by
  induction k with
  | zero => rfl
  | succ k ih => rw [after, ih, step_of_completed hstage]

/-- A run over nodes that are all there takes a step for each of them and one more, and gives the
shader of the draft. That is so however many of the steps are taken by hand. -/
theorem Walked.finish_of_present (haccepted : objection? palette g.toGraph = none)
    (h : c.Walked palette g 0) (hall : ∀ n ∈ g.order, g.nodes.contains n = true) :
    ∃ pass, (c.after (g.order.length + 1)).stage = .completed pass ∧
      ∀ k, (c.after k).finish.compiler = c.after (g.order.length + 1) ∧
        (c.after k).finish.result = .ok pass.draft.finish := by
  have hend := ((h.after g.order.length).step_end le_rfl).1
  have hends : c.Ends g.order.length := by
    refine ⟨fun j hj => ?_, by simp [hend]⟩
    exact ((h.after j).step_present haccepted hj (hall _ (List.getElem_mem hj))).1
  obtain ⟨pass, -, -, -, hstage⟩ := (h.after (g.order.length + 1)).exists_pass
  rw [if_neg (by omega)] at hstage
  refine ⟨pass, hstage, fun k => ?_⟩
  rcases le_or_gt k g.order.length with hk | hk
  · have hcompiler := hends.finish_after hk
    obtain ⟨pass', hcompleted, hshader⟩ := (hends.after hk).finish_of_ok (by rwa [after_sub hk])
    rw [hcompiler, hstage] at hcompleted
    obtain rfl := Stage.completed.inj hcompleted
    exact ⟨hcompiler, hshader⟩
  · obtain ⟨j, rfl⟩ := Nat.exists_eq_add_of_le (Nat.succ_le_of_lt hk)
    rw [after_add, after_of_completed hstage]
    exact finish_of_completed hstage

end Compiler

end ShaderNodes
