import ShaderNodes.Proofs.Compiler.Lifecycle

/-!
# Graphs edited after their check

The nodes of a checked graph may be changed, while its order, its producers and its links stay. A
start looks at the nodes that are there and at the ends of the links, not at the order, so it takes
a graph that lost a node without links. The pass then fails in the turn of that node, and in no
other.

* `Compiler.failure?_ne_nodeVanished`: as long as no graph is edited, no call finds a node gone.
* `Compiler.Walked.step_cases`: the answer of a step over a graph that was taken.
* `Compiler.Walked.finish_of_first_gone`: where a run stops.
* `Compiler.vanished_iff_taken_out`: what edits a pass notices, and when.
-/

namespace ShaderNodes

/-- The graph with other nodes, after its check. -/
def CheckedGraph.withNodes (cg : CheckedGraph) (nodes : SortedMap NodeId Node) : CheckedGraph :=
  { cg with nodes }

namespace Compiler

variable {c : Compiler} {palette : Palette} {g : CheckedGraph} {k : Nat}

/-! ## Calls over graphs that were not edited -/

/-- Why an operation failed, if it did. -/
def Answer.failure? {α : Type} (a : Answer α) : Option Error :=
  match a.result with
  | .ok _ => none
  | .error e => some e

theorem Answer.failure?_eq_some_iff {α : Type} {a : Answer α} {e : Error} :
    a.failure? = some e ↔ a.result = .error e := by
  unfold failure?
  cases a.result <;> simp

/-- Why a call fails, if it does. -/
def failure? (c : Compiler) : Call → Option Error
  | .start g => (c.start g).failure?
  | .step => c.step.failure?
  | .finish => c.finish.failure?
  | .abort => c.abort.failure?
  | .process g => (c.process g).failure?

/-- A start does not look for the nodes of the order. -/
theorem start_result_ne_nodeVanished (c : Compiler) (g : CheckedGraph) (n : NodeId) :
    (c.start g).result ≠ .error (.nodeVanished n) := by
  intro h
  cases objection?_eq_some_iff.1 (start_result_eq_error_iff.1 h)

theorem failure?_ne_nodeVanished (h : c.stage.Sound CheckedGraph.Unedited c.palette) {call : Call}
    (hcall : call.Over CheckedGraph.Unedited) (n : NodeId) :
    c.failure? call ≠ some (.nodeVanished n) := by
  intro hfailure
  cases call with
  | start g => exact c.start_result_ne_nodeVanished g n (Answer.failure?_eq_some_iff.1 hfailure)
  | step => cases ((step_error_iff h).1 (Answer.failure?_eq_some_iff.1 hfailure)).1
  | finish => cases ((finish_error_iff h).1 (Answer.failure?_eq_some_iff.1 hfailure)).1
  | abort =>
    have hresult := Answer.failure?_eq_some_iff.1 hfailure
    unfold abort at hresult
    split at hresult <;> cases hresult
  | process g =>
    have hprocess := Answer.failure?_eq_some_iff.1 hfailure
    obtain ⟨e, hstart, -, hresult⟩ | ⟨-, -, hresult⟩ := c.process_eq g
    · obtain rfl : e = .nodeVanished n := Except.error.inj (hresult.symm.trans hprocess)
      exact c.start_result_ne_nodeVanished g n hstart
    · rw [hresult] at hprocess
      cases ((finish_error_iff (sound_start hcall h)).1 hprocess).1

/-! ## Steps over an edited graph -/

/-- A step evaluates the node whose turn it is, finds it gone, or finds no turn left. -/
theorem Walked.step_cases (haccepted : objection? palette g.toGraph = none)
    (h : c.Walked palette g k) : (∃ n, g.order[k]? = some n ∧ g.nodes.contains n = true ∧
        c.step.result = .ok true ∧ c.step.visited = [n]) ∨
      (∃ n, g.order[k]? = some n ∧ g.nodes.contains n = false ∧
        c.step.result = .error (.nodeVanished n) ∧ c.step.visited = []) ∨
      g.order[k]? = none ∧ c.step.result = .ok false ∧ c.step.visited = [] := by
  by_cases hk : k < g.order.length
  · have hnext : g.order[k]? = some g.order[k] := List.getElem?_eq_getElem hk
    cases hn : g.nodes.contains g.order[k] with
    | true =>
      obtain ⟨hresult, hevaluates⟩ := h.step_present haccepted hk hn
      exact .inl ⟨_, hnext, hn, hresult, hevaluates.report⟩
    | false => exact .inr (.inl ⟨_, hnext, hn, h.step_vanished hk hn⟩)
  · have hend := not_lt.1 hk
    exact .inr (.inr ⟨List.getElem?_eq_none_iff.2 hend, h.step_end hend⟩)

/-- A step finds a node gone in the turn of that node only. -/
theorem Walked.step_vanished_iff (haccepted : objection? palette g.toGraph = none)
    (h : c.Walked palette g k) {n : NodeId} :
    c.step.result = .error (.nodeVanished n) ↔ g.order[k]? = some n ∧
    g.nodes.contains n = false := by
  obtain ⟨m, hm, hthere, hresult, -⟩ | ⟨m, hm, hgone, hresult, -⟩ | ⟨hm, hresult, -⟩ :=
    h.step_cases haccepted
  · simp only [hresult, hm, Option.some.injEq, reduceCtorEq, false_iff, not_and]
    rintro rfl
    simp [hthere]
  · simp only [hresult, hm, Option.some.injEq, Except.error.injEq, Error.nodeVanished.injEq]
    refine ⟨?_, And.left⟩
    rintro rfl
    exact ⟨rfl, hgone⟩
  · simp [hresult, hm]

theorem Walked.step_ne_unknownKind (haccepted : objection? palette g.toGraph = none)
    (h : c.Walked palette g k) (n : NodeId) (kind : Name) :
    c.step.result ≠ .error (.unknownKind n kind) := by
  obtain ⟨_, -, -, hresult, -⟩ | ⟨_, -, -, hresult, -⟩ | ⟨-, hresult, -⟩ :=
    h.step_cases haccepted <;>
    simp [hresult]

theorem Walked.mem_order_of_visited (haccepted : objection? palette g.toGraph = none)
    (h : c.Walked palette g k) {n : NodeId} (hn : n ∈ c.step.visited) : n ∈ g.order := by
  obtain ⟨m, hm, -, -, hvisited⟩ | ⟨_, -, -, -, hvisited⟩ | ⟨-, -, hvisited⟩ :=
    h.step_cases haccepted
  · rw [hvisited, List.mem_singleton] at hn
    exact hn ▸ List.mem_of_getElem? hm
  · simp [hvisited] at hn
  · simp [hvisited] at hn

theorem Walked.get?_eq_none_of_notMem (h : c.Walked palette g k) {pass : Pass}
    (hpass : c.stage.pass? = some pass) {n : NodeId} (hn : n ∉ g.order) (socket : Name) :
    pass.values.get? ⟨n, socket⟩ = none := by
  obtain ⟨pass', -, -, hwithin, hstage⟩ := h.exists_pass
  obtain rfl : pass' = pass := by
    rw [hstage] at hpass
    split at hpass <;> exact Option.some.inj hpass
  rw [Option.eq_none_iff_forall_ne_some]
  intro v hv
  exact hn (List.mem_of_mem_take (hwithin _ _ hv))

/-! ## Runs over an edited graph -/

/-- The nodes of an order are all there, or there is a first one that is gone. -/
theorem present_or_first_gone (order : List NodeId) (nodes : SortedMap NodeId Node) :
    (∀ n ∈ order, nodes.contains n = true) ∨
      ∃ placed n rest, order = placed ++ n :: rest ∧ (∀ m ∈ placed, nodes.contains m = true) ∧
        nodes.contains n = false := by
  cases hfind : order.find? fun n => !nodes.contains n with
  | none => exact .inl (by simpa using hfind)
  | some n =>
    obtain ⟨hn, placed, rest, hsplit, hplaced⟩ := List.find?_eq_some_iff_append.1 hfind
    exact .inr ⟨placed, n, rest, hsplit, by simpa using hplaced, by simpa using hn⟩

/-- The nodes before the first one that is gone have their turns. -/
theorem Walked.evaluates_of_first_gone (haccepted : objection? palette g.toGraph = none)
    (h : c.Walked palette g 0) {placed rest : List NodeId} {n : NodeId}
    (horder : g.order = placed ++ n :: rest) (hplaced : ∀ m ∈ placed, g.nodes.contains m = true)
    (hk : k < placed.length) :
    (c.after k).step.result = .ok true ∧ (c.after k).Evaluates placed[k] := by
  have hk' : k < g.order.length := by
    rw [horder, List.length_append]
    omega
  have hget : g.order[k] = placed[k] := by
    simp only [horder]
    exact List.getElem_append_left hk
  rw [← hget]
  refine (h.after k).step_present haccepted hk' ?_
  rw [hget]
  exact hplaced _ (List.getElem_mem hk)

/-- A run stops in the turn of the first node that is gone. -/
theorem Walked.finish_of_first_gone (haccepted : objection? palette g.toGraph = none)
    (h : c.Walked palette g 0) {placed rest : List NodeId} {n : NodeId}
    (horder : g.order = placed ++ n :: rest) (hplaced : ∀ m ∈ placed, g.nodes.contains m = true)
    (hn : g.nodes.contains n = false) (hk : k ≤ placed.length) :
    (c.after k).finish.result = .error (.nodeVanished n) ∧
      (c.after k).finish.compiler = c.after (placed.length + 1) := by
  have hgone : (c.after placed.length).step.result = .error (.nodeVanished n) :=
    ((h.after _).step_vanished_iff haccepted).2 ⟨by simp [horder], hn⟩
  have hends : c.Ends placed.length := by
    refine ⟨fun j hj => ?_, by simp [hgone]⟩
    exact (h.evaluates_of_first_gone haccepted horder hplaced hj).1
  exact ⟨(hends.after hk).finish_of_error (by rwa [after_sub hk]), hends.finish_after hk⟩

/-! ## Main result -/

/-- A link of a graph that was taken ends at nodes that are there. -/
theorem ne_of_gone (haccepted : objection? palette g.toGraph = none) {n : NodeId}
    (hn : g.nodes.contains n = false) {l : Link} (hl : l ∈ g.connections) :
    l.source.node ≠ n ∧ l.target.node ≠ n := by
  have hgone : g.nodes.get? n = none := by simpa [SortedMap.contains] using hn
  obtain ⟨⟨_, _, hsource, -⟩, ⟨_, _, htarget, -⟩⟩ := (objection?_eq_none_iff.1 haccepted).2 l hl
  refine ⟨?_, ?_⟩
  · rintro rfl
    simp [hgone] at hsource
  · rintro rfl
    simp [hgone] at htarget

/-- Calls over graphs as their checks left them never find a node gone. When the nodes of a graph
are changed after its check and a pass begins over it nevertheless: those taken out had no links;
the pass fails just if a node of the order was taken out, in the turn of the first one, after the
nodes before it have had theirs; nodes that are not of the order have no turn; and all kinds are
known. -/
theorem vanished_iff_taken_out :
    (∀ palette config calls call n, (∀ earlier ∈ calls, Call.Over CheckedGraph.Unedited earlier) →
        call.Over CheckedGraph.Unedited →
        (performAll { palette, config } calls).failure? call ≠ some (.nodeVanished n)) ∧
      ∀ (c : Compiler) (cg : CheckedGraph) (nodes : SortedMap NodeId Node), cg.Unedited →
        (c.start (cg.withNodes nodes)).result = .ok () →
        let d := (c.start (cg.withNodes nodes)).compiler
        (∀ n, cg.nodes.contains n = true → nodes.contains n = false →
          ∀ l ∈ cg.connections, l.source.node ≠ n ∧ l.target.node ≠ n) ∧
        ((∃ n, d.finish.result = .error (.nodeVanished n)) ↔
          ∃ n ∈ cg.order, nodes.contains n = false) ∧
        cg.order.Nodup ∧
        (∀ k n, (d.after k).step.result = .error (.nodeVanished n) ↔
          cg.order[k]? = some n ∧ nodes.contains n = false) ∧
        (∀ placed n rest, cg.order = placed ++ n :: rest → (∀ m ∈ placed, nodes.contains m = true) →
          nodes.contains n = false →
          (∀ k (hk : k < placed.length),
            (d.after k).step.result = .ok true ∧ (d.after k).Evaluates placed[k]) ∧
          ∀ k ≤ placed.length, (d.after k).finish.result = .error (.nodeVanished n) ∧
            (d.after k).finish.compiler = d.after (placed.length + 1)) ∧
        ((∀ n ∈ cg.order, nodes.contains n = true) →
          ∀ k ≤ cg.order.length, ∃ shader, (d.after k).finish.result = .ok shader) ∧
        (∀ n ∉ cg.order, ∀ k, n ∉ (d.after k).step.visited ∧
          ∀ pass, (d.after k).stage.pass? = some pass →
          ∀ socket, pass.values.get? ⟨n, socket⟩ = none) ∧
        ∀ k n kind, (d.after k).step.result ≠ .error (.unknownKind n kind) := by
  refine ⟨fun palette config calls call n hcalls hcall =>
    failure?_ne_nodeVanished (sound_performAll palette config hcalls) hcall n, ?_⟩
  intro c cg nodes hcg hs d
  have haccepted := start_result_eq_ok_iff.1 hs
  have hstart := walked_start hs
  have hwalked := hstart.after
  refine ⟨fun n _ hn l hl => ne_of_gone haccepted hn hl, ⟨?_, ?_⟩,
    hcg.perm.nodup_iff.2 cg.nodes.keys_nodup, fun k n => (hwalked k).step_vanished_iff haccepted,
    fun placed n rest horder hplaced hn =>
      ⟨fun k hk => hstart.evaluates_of_first_gone haccepted horder hplaced hk,
        fun k hk => hstart.finish_of_first_gone haccepted horder hplaced hn hk⟩,
    fun hall k _ => ?_,
    fun n hn k => ⟨fun h => hn ((hwalked k).mem_order_of_visited haccepted h),
      fun pass hpass => (hwalked k).get?_eq_none_of_notMem hpass hn⟩,
    fun k => (hwalked k).step_ne_unknownKind haccepted⟩
  · rintro ⟨n, hfinish⟩
    obtain hall | ⟨placed, m, rest, horder, -, hm⟩ := present_or_first_gone cg.order nodes
    · obtain ⟨pass, -, hshader⟩ := hstart.finish_of_present haccepted hall
      cases (hshader 0).2.symm.trans hfinish
    · exact ⟨m, by simp [horder], hm⟩
  · rintro ⟨n, hn, hgone⟩
    obtain hall | ⟨placed, m, rest, horder, hplaced, hm⟩ := present_or_first_gone cg.order nodes
    · simp [hall n hn] at hgone
    · exact ⟨m, (hstart.finish_of_first_gone haccepted horder hplaced hm (Nat.zero_le _)).1⟩
  · obtain ⟨pass, -, hshader⟩ := hstart.finish_of_present haccepted hall
    exact ⟨_, (hshader k).2⟩

/-- Two surfaces without links. -/
def pair : CheckedGraph where
  nodes := .ofList [("a", ⟨"Geometry", .empty⟩), ("b", ⟨"Geometry", .empty⟩)]
  links := .empty
  order := ["a", "b"]
  producers := .empty

/-- The second surface is taken out and a sum put in: the first has its turn, and the sum has
none. -/
theorem vanished_iff_taken_out_pair :
    let nodes := .ofList [("a", ⟨"Geometry", .empty⟩), ("c", ⟨"Add", .empty⟩)]
    let d := (adder.start (pair.withNodes nodes)).compiler
    pair.Unedited ∧ (adder.start (pair.withNodes nodes)).result = .ok () ∧ d.Evaluates "a" ∧
      (d.after 1).step.result = .error (.nodeVanished "b") ∧
      d.finish.result = .error (.nodeVanished "b") ∧ ∀ k, "c" ∉ (d.after k).step.visited := by
  intro nodes d
  have hpair : pair.Unedited := ⟨pair.toGraph, rfl⟩
  have hs : (adder.start (pair.withNodes nodes)).result = .ok () := rfl
  obtain ⟨-, -, -, hgone, hfirst, -, hother, -⟩ :=
    vanished_iff_taken_out.2 adder pair nodes hpair hs
  obtain ⟨hturns, hruns⟩ := hfirst ["a"] "b" [] rfl (by decide) (by decide)
  exact ⟨hpair, hs, (hturns 0 (by decide)).2, (hgone 1 "b").2 (by decide), (hruns 0 (by decide)).1,
    fun k => (hother "c" (by decide) k).1⟩

end Compiler

end ShaderNodes
