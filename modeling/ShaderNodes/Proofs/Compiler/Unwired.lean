import ShaderNodes.Proofs.Compiler.Resources
import ShaderNodes.Proofs.Graph.Validity

/-!
# Nodes that nothing is linked to

A node may stand in a graph without links, as one does that was just put there. It has its turn
somewhere among the others and is evaluated on no inputs, and what the others give does not depend
on it.

* `Kind.required`: the inputs without which a node is skipped.
* `Kind.skipped_unfed_iff`: which nodes are skipped when no input has a value.
* `Graph.order_addNode`: a new node leaves the order of the others as it was.
* `Graph.objection?_addNode`: a new node of a known kind is no reason to refuse a graph.
* `Graph.solution_addNode`, `Graph.edits_addNode`: what a new node that gives nothing leaves as it
  was.
* `Compiler.unwired_node_is_inert`: such a node leaves the shader as it was.
-/

namespace ShaderNodes

/-! ## Nodes without inputs -/

/-- The literal of a constant is set, and has the form of its type. -/
def Constant.Given (type : SocketType) (data : SortedMap String String) : Prop :=
  ∃ text components, data.get? key = some text ∧ Text.isBlankText text = false ∧
    Literal.parse text type.dimension = .ok components

theorem Inputs.eq_nil_of_require_empty {sockets : List (Name × SocketType)} {values : List Value}
    (h : Inputs.require .empty sockets = .ok values) : sockets = [] := by
  cases require_ok h with
  | nil => rfl
  | cons hget _ => cases hget.1

namespace Kind

/-- The inputs without which a node of the kind is skipped. -/
def required : Kind → List Name
  | operator op => op.template.slots.toList
  | constant _ | geometry | fragColor => []
  | texture | normalMap => ["uv"]
  | lighting model => model.inputs.map (·.1)
  | function definition => definition.parameters.map (·.1)

/-- The node gives nothing when it has no links: it is skipped, or has neither outputs nor edits. -/
def Idle (kind : Kind) (id : NodeId) (data : SortedMap String String) : Prop :=
  ∀ c, kind.evaluate ⟨id, data, []⟩ .empty = .ok c → c = ⟨.empty, []⟩

theorem idle_of_skipped {kind : Kind} {id : NodeId} {data : SortedMap String String} {skip : Skip}
    (h : kind.evaluate ⟨id, data, []⟩ .empty = .error skip) : kind.Idle id data := by
  intro c hc
  rw [h] at hc
  cases hc

/-- No attribute feeds anything. -/
theorem idle_geometry (id : NodeId) (data : SortedMap String String) : geometry.Idle id data := by
  intro c hc
  exact (Except.ok.inj hc).symm

/-- A node that is evaluated on no inputs requires none, and its literal is given if it is a
constant. -/
theorem required_of_evaluate_empty {kind : Kind} {node : Context} {c : Contribution}
    (h : kind.evaluate node .empty = .ok c) :
    kind.required = [] ∧ ∀ type, kind = .constant type → Constant.Given type node.data := by
  have hvalue : ∀ {name v}, Inputs.value .empty name ≠ .ok v := by
    intro name v hv
    cases Inputs.value_ok hv
  have huv : ∀ {v}, Sampler.coordinates .empty ≠ .ok v := by
    intro v hv
    obtain ⟨w, hw, -⟩ := bind_ok hv
    exact hvalue hw
  cases kind with
  | @operator n op =>
    obtain ⟨values, -, hvalues, -⟩ := Operator.evaluate_ok h
    have hgather := Template.gather_of_resolve hvalues
    -- There are operands, and each has a value.
    have hfirst : values[0] ∈ values.toList := Vector.mem_toList_iff.2 (Vector.getElem_mem _)
    obtain ⟨slot, -, hget⟩ := Inputs.get?_of_gather hgather hfirst
    cases hget
  | constant type =>
    obtain ⟨text, components, hsetting, hparse, -⟩ := Constant.evaluate_ok h
    obtain ⟨hget, hblank⟩ := Context.setting_ok_iff.1 hsetting
    refine ⟨rfl, ?_⟩
    rintro _ ⟨⟩
    exact ⟨text, components, hget, hblank, hparse⟩
  | geometry | fragColor => exact ⟨rfl, by rintro _ ⟨⟩⟩
  | texture =>
    obtain ⟨uv, -, hcoordinates, -⟩ := Texture.evaluate_ok h
    exact absurd hcoordinates huv
  | normalMap =>
    obtain ⟨uv, -, -, hcoordinates, -⟩ := NormalMap.evaluate_ok h
    exact absurd hcoordinates huv
  | lighting model =>
    obtain ⟨values, hvalues, -⟩ := Lighting.evaluate_ok h
    have hinputs := Inputs.eq_nil_of_require_empty hvalues
    simp [Lighting.inputs] at hinputs
  | function f =>
    obtain ⟨values, hvalues, -⟩ := Definition.evaluate_ok h
    refine ⟨?_, by rintro _ ⟨⟩⟩
    rw [required, Inputs.eq_nil_of_require_empty hvalues, List.map_nil]

/-- On no inputs, the nodes that require one are skipped, and the constants without a proper
literal. -/
theorem skipped_unfed_iff (kind : Kind) (node : Context) :
    (∃ skip, kind.evaluate node .empty = .error skip) ↔
      kind.required ≠ [] ∨ ∃ type, kind = .constant type ∧ ¬ Constant.Given type node.data := by
  cases heval : kind.evaluate node .empty with
  | ok c =>
    obtain ⟨hrequired, hgiven⟩ := required_of_evaluate_empty heval
    simp only [reduceCtorEq, exists_false, false_iff, not_or, not_exists, not_and, not_not]
    exact ⟨hrequired, hgiven⟩
  | error skip =>
    simp only [Except.error.injEq, exists_eq', true_iff]
    cases kind with
    | operator op => cases op <;> exact .inl (List.cons_ne_nil _ _)
    | constant type =>
      refine .inr ⟨type, rfl, ?_⟩
      rintro ⟨text, components, hget, hblank, hparse⟩
      have hsetting := Context.setting_ok_iff.2 ⟨hget, hblank⟩
      simp only [evaluate, Constant.evaluate, hsetting, bind, Except.bind, hparse] at heval
      cases heval
    | geometry | fragColor => cases heval
    | texture | normalMap => exact .inl (List.cons_ne_nil _ _)
    | lighting model => cases model <;> exact .inl (List.cons_ne_nil _ _)
    | function f =>
      refine .inl fun hnone => ?_
      have hparameters : f.parameters = [] := List.map_eq_nil_iff.1 hnone
      simp only [evaluate, Definition.evaluate, hparameters] at heval
      cases heval

end Kind

/-! ## One more node -/

namespace Graph

variable {g g' : Graph} {z n : NodeId} {node : Node} {palette : Palette}
    {V : SortedMap Endpoint Value}

theorem addNode_eq_ok_iff : g.addNode z node = (.ok (), g') ↔
    g.nodes.contains z = false ∧ g' = { g with nodes := g.nodes.insert z node } := by
  unfold addNode
  cases g.nodes.contains z <;> simp [eq_comm]

theorem links_of_addNode (hadd : g.addNode z node = (.ok (), g')) : g'.links = g.links := by
  have hlinks := g.links_addNode z node
  rwa [hadd] at hlinks

theorem get?_of_absent (hfree : g.nodes.contains z = false) : g.nodes.get? z = none := by
  simpa [SortedMap.contains] using hfree

/-- Links between nodes of a graph pass by what is no node of it. -/
theorem ne_of_joined (hjoined : Joined g.nodes g.connections) (hfree : g.nodes.contains z = false)
    {l : Link} (hl : l ∈ g.connections) : l.source.node ≠ z ∧ l.target.node ≠ z := by
  obtain ⟨hsource, htarget⟩ := hjoined l hl
  constructor
  · rintro rfl
    simp [hfree] at hsource
  · rintro rfl
    simp [hfree] at htarget

theorem connectedOutputs_of_absent (hjoined : Joined g.nodes g.connections)
    (hfree : g.nodes.contains z = false) : g.connectedOutputs z = [] := by
  refine List.eq_nil_iff_forall_not_mem.2 fun s hs => ?_
  obtain ⟨target, hl⟩ := mem_connectedOutputs.1 hs
  exact (ne_of_joined hjoined hfree hl).1 rfl

theorem inflow_of_absent (hjoined : Joined g.nodes g.connections)
    (hfree : g.nodes.contains z = false) (kind : Kind) : g.inflow V z kind = .empty := by
  unfold inflow
  rw [List.filterMap_eq_nil_iff.2 fun l hl => if_neg fun htarget =>
    (ne_of_joined hjoined hfree hl).2 htarget.1]
  rfl

section Added

variable (hadd : g.addNode z node = (.ok (), g'))

include hadd

theorem get?_nodes_addNode (n : NodeId) :
    g'.nodes.get? n = if n = z then some node else g.nodes.get? n := by
  obtain ⟨-, rfl⟩ := addNode_eq_ok_iff.1 hadd
  exact SortedMap.get?_insert _ _ _ _

theorem connections_addNode : g'.connections = g.connections := by
  rw [connections, connections, links_of_addNode hadd]

theorem feeds_addNode : g'.Feeds = g.Feeds := by
  funext m n
  rw [Feeds, Feeds, connections_addNode hadd]

theorem keys_addNode : g'.nodes.keys.filter (· ≠ z) = g.nodes.keys := by
  have hnone := get?_of_absent (addNode_eq_ok_iff.1 hadd).1
  refine (g'.nodes.keys_ascending.filter _).eq_of_mem_iff g.nodes.keys_ascending fun n => ?_
  rw [List.mem_filter, SortedMap.mem_keys_iff, SortedMap.mem_keys_iff, get?_nodes_addNode hadd]
  by_cases hn : n = z
  · simp [hn, hnone]
  · simp [hn]

/-- The nodes that were there have their turns in the same order. -/
theorem order_addNode {cg cg' : CheckedGraph} (hg : g.check = .ok cg) (hg' : g'.check = .ok cg') :
    cg'.order.filter (· ≠ z) = cg.order := by
  obtain ⟨-, hjoined, -, hleast, hperm⟩ := check_ok hg
  obtain ⟨-, -, -, hleast', hperm'⟩ := check_ok hg'
  have hfree := (addNode_eq_ok_iff.1 hadd).1
  have hkept : ∀ m n, g'.Feeds m n → decide (m ≠ z) = true := by
    intro m n hfeeds
    rw [feeds_addNode hadd] at hfeeds
    obtain ⟨l, hl, rfl, -⟩ := hfeeds
    simp [(ne_of_joined hjoined hfree hl).1]
  -- Both lists take the least node first, and there is only one such order.
  have hothers := hleast'.filter (fun n => decide (n ≠ z)) hkept
  have hperms := hperm'.filter fun n => decide (n ≠ z)
  rw [feeds_addNode hadd, keys_addNode hadd] at hothers
  rw [keys_addNode hadd] at hperms
  exact (hothers.isLeast g.nodes.keys_nodup hperms).unique (hleast.isLeast g.nodes.keys_nodup hperm)

/-- A new node of a known kind is no reason to refuse a graph, nor to take one. -/
theorem objection?_addNode (hjoined : Joined g.nodes g.connections) {kind : Kind}
    (hkind : palette.get? node.kind = some kind) :
    Compiler.objection? palette g' = Compiler.objection? palette g := by
  have hfree := (addNode_eq_ok_iff.1 hadd).1
  have hnone := get?_of_absent hfree
  have hunregistered : ∀ n, g'.Unregistered palette n ↔ g.Unregistered palette n := by
    intro n
    unfold Unregistered
    rw [get?_nodes_addNode hadd]
    by_cases hn : n = z
    · simp [hn, hnone, hkind]
    · simp [hn]
  have hkinds : Compiler.unknownKind? palette g' = Compiler.unknownKind? palette g := by
    refine Option.ext fun e => ?_
    rw [Compiler.unknownKind?_eq_some_iff, Compiler.unknownKind?_eq_some_iff]
    simp only [hunregistered]
    refine exists_congr fun n => exists_congr fun other => and_congr_left fun hleast => ?_
    have hn : n ≠ z := by
      rintro rfl
      obtain ⟨_, hget, -⟩ := hleast.1.1
      simp [hnone] at hget
    rw [get?_nodes_addNode hadd, if_neg hn]
  have hdeclares : ∀ side p, p.node ≠ z →
      Compiler.declares palette g' side p = Compiler.declares palette g side p := by
    intro side p hp
    rw [Compiler.declares, Compiler.declares, get?_nodes_addNode hadd, if_neg hp]
  have hsockets : Compiler.unknownSocket? palette g' = Compiler.unknownSocket? palette g := by
    rw [Compiler.unknownSocket?, Compiler.unknownSocket?, ← List.head?_filterMap,
      ← List.head?_filterMap, connections_addNode hadd]
    refine congrArg List.head? (List.filterMap_congr fun l hl => ?_)
    obtain ⟨hsource, htarget⟩ := ne_of_joined hjoined hfree hl
    rw [hdeclares _ _ hsource, hdeclares _ _ htarget]
  rw [Compiler.objection?, Compiler.objection?, hkinds, hsockets]

/-! ## The equations with one more node -/

theorem contribution_addNode (hn : n ≠ z) :
    g'.contribution palette V n = g.contribution palette V n := by
  have houtputs : g'.connectedOutputs n = g.connectedOutputs n := by
    rw [connectedOutputs, connectedOutputs, links_of_addNode hadd]
  have hinflow : ∀ kind, g'.inflow V n kind = g.inflow V n kind := by
    intro kind
    rw [inflow, inflow, connections_addNode hadd]
  simp only [contribution, get?_nodes_addNode hadd, if_neg hn, houtputs, hinflow]

section Idle

variable (hjoined : Joined g.nodes g.connections) {kind : Kind}
    (hkind : palette.get? node.kind = some kind)
  (hidle : kind.Idle z node.data)

include hjoined hkind hidle

/-- Where it is evaluated, a new node is evaluated on nothing. -/
theorem contribution_self_addNode {c : Contribution} (hc : g'.contribution palette V z = some c) :
    c = ⟨.empty, []⟩ := by
  have hfree := (addNode_eq_ok_iff.1 hadd).1
  have houtputs : g'.connectedOutputs z = [] := by
    rw [connectedOutputs, links_of_addNode hadd]
    exact connectedOutputs_of_absent hjoined hfree
  have hinflow : g'.inflow V z kind = .empty := by
    rw [inflow, connections_addNode hadd]
    exact inflow_of_absent hjoined hfree kind
  obtain ⟨node', kind', hnode', hkind', heval⟩ := exists_of_contribution hc
  rw [get?_nodes_addNode hadd, if_pos rfl] at hnode'
  obtain rfl := Option.some.inj hnode'
  obtain rfl := Option.some.inj (hkind.symm.trans hkind')
  rw [houtputs, hinflow] at heval
  exact hidle c heval

theorem edits_addNode (n : NodeId) :
    g'.edits palette V n = if decide (n ≠ z) then g.edits palette V n else [] := by
  by_cases hn : n = z
  · subst hn
    rw [edits]
    cases hc : g'.contribution palette V n with
    | none => simp
    | some c => simp [contribution_self_addNode hadd hjoined hkind hidle hc]
  · rw [edits, edits, contribution_addNode hadd hn]
    simp [hn]

/-- The values of a graph are those of the graph with a node more that gives nothing. -/
theorem solution_addNode (hV : g.Solution palette V) : g'.Solution palette V where
  at_nodes p v hget := by
    rw [SortedMap.contains, get?_nodes_addNode hadd]
    split
    · rfl
    · exact hV.at_nodes p v hget
  balanced n hn s := by
    by_cases hnz : n = z
    · subst hnz
      have hvalue : V.get? ⟨n, s⟩ = none := by
        refine Option.eq_none_iff_forall_ne_some.2 fun v hget => ?_
        have hold := hV.at_nodes ⟨n, s⟩ v hget
        simp [(addNode_eq_ok_iff.1 hadd).1] at hold
      rw [hvalue]
      cases hc : g'.contribution palette V n with
      | none => rfl
      | some c => rw [contribution_self_addNode hadd hjoined hkind hidle hc]; rfl
    · rw [contribution_addNode hadd hnz]
      refine hV.balanced n ?_ s
      rwa [SortedMap.contains, get?_nodes_addNode hadd, if_neg hnz] at hn

end Idle

end Added

end Graph

/-! ## Main result -/

namespace Compiler

variable {c : Compiler} {g g' : Graph} {cg cg' : CheckedGraph} {z : NodeId} {node : Node}
    {kind : Kind}

theorem start_addNode (hadd : g.addNode z node = (.ok (), g')) (hg : g.check = .ok cg)
    (hg' : g'.check = .ok cg') (hkind : c.palette.get? node.kind = some kind) :
    (c.start cg').result = (c.start cg).result := by
  obtain ⟨rfl, hjoined, -⟩ := Graph.check_ok hg
  obtain ⟨rfl, -⟩ := Graph.check_ok hg'
  have hobjections := Graph.objection?_addNode hadd hjoined hkind
  cases h : objection? c.palette cg.toGraph with
  | some e => rw [(start_of_objection h).2, (start_of_objection (hobjections.trans h)).2]
  | none => rw [(start_of_no_objection h).2, (start_of_no_objection (hobjections.trans h)).2]

/-- A new node that gives nothing leaves the shader as it was. -/
theorem process_addNode (hadd : g.addNode z node = (.ok (), g')) (hg : g.check = .ok cg)
    (hg' : g'.check = .ok cg') (hkind : c.palette.get? node.kind = some kind)
    (hidle : kind.Idle z node.data) (hs : (c.start cg).result = .ok ()) :
    ∃ shader, (c.process cg).result = .ok shader ∧ (c.process cg').result = .ok shader := by
  have horder := Graph.order_addNode hadd hg hg'
  have hobjection := (start_ok hs).1
  have hobjection' := (start_ok ((start_addNode hadd hg hg' hkind).trans hs)).1
  obtain ⟨rfl, hjoined, -⟩ := Graph.check_ok hg
  obtain ⟨rfl, -⟩ := Graph.check_ok hg'
  have hrun := runnable_of_check hg hobjection
  have hrun' := runnable_of_check hg' hobjection'
  obtain ⟨pass, h, hconfig, -, hresult⟩ := exists_completed hrun hobjection
  obtain ⟨pass', h', hconfig', -, hresult'⟩ := exists_completed hrun' hobjection'
  have hvalues : pass'.values = pass.values :=
    (h'.solution hrun').unique hrun'.order (Graph.solution_addNode hadd hjoined hkind hidle
      (h.solution hrun))
  have hedits : cg'.order.flatMap (cg'.edits c.palette pass.values) =
      cg.order.flatMap (cg.edits c.palette pass.values) := by
    rw [← horder, ← flatMap_ite_nil]
    exact List.flatMap_congr fun n _ => Graph.edits_addNode hadd hjoined hkind hidle n
  refine ⟨_, hresult, ?_⟩
  rw [hresult', h'.draft, h.draft, hconfig, hconfig', hvalues, hedits]

/-- A node may be added to a valid graph under a free id. The graph is valid again, and the others
have their turns in the same order. With a kind that is known, the graph is accepted, or refused for
the same reason, as the graph before. The shader is the same, too, if the node is of geometry or is
skipped for want of inputs: this happens to the nodes that require an input, and to the constants
without a proper literal. -/
theorem unwired_node_is_inert {g : Graph} {cg : CheckedGraph} {z : NodeId} (hg : g.check = .ok cg)
    (hfree : g.nodes.contains z = false) (node : Node) :
    ∃ g' cg', g.addNode z node = (.ok (), g') ∧ g'.connections = g.connections ∧
      g'.check = .ok cg' ∧ cg'.order.filter (· ≠ z) = cg.order ∧
      ∀ (c : Compiler) (kind : Kind), c.palette.get? node.kind = some kind →
        (c.start cg').result = (c.start cg).result ∧
        ((∃ skip, kind.evaluate ⟨z, node.data, []⟩ .empty = .error skip) ↔
          kind.required ≠ [] ∨ ∃ type, kind = .constant type ∧ ¬ Constant.Given type node.data) ∧
        (kind = .geometry ∨ (∃ skip, kind.evaluate ⟨z, node.data, []⟩ .empty = .error skip) →
          (c.start cg).result = .ok () →
          ∃ shader, (c.process cg).result = .ok shader ∧ (c.process cg').result = .ok shader) := by
  obtain ⟨g', hadd, cg', hg'⟩ := Graph.Valid.addNode ⟨cg, hg⟩ hfree node
  refine ⟨g', cg', hadd, Graph.connections_addNode hadd, hg', Graph.order_addNode hadd hg hg',
    fun c kind hkind => ⟨start_addNode hadd hg hg' hkind, kind.skipped_unfed_iff _,
      fun hgives hs => ?_⟩⟩
  refine process_addNode hadd hg hg' hkind ?_ hs
  rcases hgives with rfl | ⟨skip, hskip⟩
  · exact Kind.idle_geometry z node.data
  · exact Kind.idle_of_skipped hskip

/-- A constant without a literal has the first turn, and is not seen in the shader. -/
theorem unwired_node_is_inert_textures :
    let unset : Node := ⟨"ConstantFloat", .empty⟩
    textures.check = .ok texturesChecked ∧ textures.nodes.contains "b" = false ∧
      fresh.palette.get? unset.kind = some (.constant .float) ∧
      (fresh.start texturesChecked).result = .ok () ∧
      ∃ g' cg', textures.addNode "b" unset = (.ok (), g') ∧ g'.check = .ok cg' ∧
        cg'.order = ["b", "g", "a", "a_map"] ∧ (fresh.start cg').result = .ok () ∧
        ∃ shader, (fresh.process texturesChecked).result = .ok shader ∧
          (fresh.process cg').result = .ok shader := by
  intro unset
  have hfree : textures.nodes.contains "b" = false := by decide
  have hkind : fresh.palette.get? unset.kind = some (.constant .float) :=
    (Palette.get?_registerAll _ _).trans rfl
  have horder : ((textures.addNode "b" unset).2.check.toOption).map (·.order) =
      some ["b", "g", "a", "a_map"] := by decide
  obtain ⟨g', cg', hadd, -, hg', -, hinert⟩ := unwired_node_is_inert check_textures hfree unset
  obtain ⟨hstart, -, hshader⟩ := hinert fresh (.constant .float) hkind
  rw [hadd, hg'] at horder
  simp only [Except.toOption, Option.map_some, Option.some.injEq] at horder
  exact ⟨check_textures, hfree, hkind, start_textures, g', cg', hadd, hg', horder,
    hstart.trans start_textures, hshader (.inr ⟨.unset Constant.key, rfl⟩) start_textures⟩

end Compiler

end ShaderNodes
