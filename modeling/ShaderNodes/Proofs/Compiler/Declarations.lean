import Mathlib.Data.List.Nodup
import Mathlib.Data.List.Perm.Basic
import ShaderNodes.Proofs.Compiler.History
import ShaderNodes.Proofs.Kind.Evaluate
import ShaderNodes.Proofs.Palette

/-!
# What the nodes of a pass declare

A node that is not skipped declares the names of the roles of its kind, and nothing else. Nodes of a
graph have different ids, so where no name of a kind goes on after another all these names differ,
and the draft takes over every one of them.

* `Kind.names_of_evaluate`: the names that one node declares.
* `Graph.names_nodup`, `Pass.Settled.names_perm`: the names that the nodes of a pass declare.
* `Compiler.completed_names_nodup`: kinds without underscores never lead to one name twice.
* `Compiler.variableName_ne_iff_and_locals_nodup`: which nodes have different variables, for any
  kinds, and that no pass declares one twice where no name of a kind goes on after another.
* `Compiler.clash_declares_twice`: two functions for which a pass declares one variable twice.
-/

namespace ShaderNodes

open Text

/-! ## Declared names -/

/-- The variable that a statement declares. -/
def Statement.declared? : Statement → Option Name
  | .declare _ name _ => some name
  | _ => none

namespace Draft

/-- The variables that the statements of a draft declare. -/
def locals (d : Draft) : List Name := d.statements.filterMap Statement.declared?

theorem countP_declared (d : Draft) (x : Name) :
    d.statements.countP (·.declared? == some x) = d.locals.count x :=
  List.count_filterMap.symm

end Draft

/-! ## The names of one node -/

namespace Kind

/-- What nodes of a kind declare variables for, in order. -/
def localRoles : Kind → List Role
  | .operator _ | .constant _ | .function _ | .texture | .normalMap => [.result]
  | .lighting _ => [.material, .result]
  | .geometry | .fragColor => []

/-- What nodes of a kind bind uniforms for. -/
def uniformRoles : Kind → List Role
  | .texture | .normalMap => [.sampler]
  | _ => []

theorem nodup_roles (kind : Kind) : (kind.localRoles ++ kind.uniformRoles).Nodup := by
  cases kind <;> simp [localRoles, uniformRoles]

theorem mem_localRoles {kind : Kind} {role : Role} (h : role ∈ kind.localRoles) :
    role = .result ∨ role = .material := by
  cases kind <;> simp only [localRoles, List.mem_cons, List.not_mem_nil, or_false] at h <;> tauto

theorem mem_uniformRoles {kind : Kind} {role : Role} (h : role ∈ kind.uniformRoles) :
    role = .sampler := by
  cases kind <;> simp only [uniformRoles, List.mem_cons, List.not_mem_nil,
    or_false] at h <;> exact h

/-- A node that is not skipped declares the names of the roles of its kind. -/
theorem names_of_evaluate {kind : Kind} {node : Context} {inputs : Inputs} {c : Contribution}
    (h : kind.evaluate node inputs = .ok c) :
    c.statements.filterMap Statement.declared? =
        kind.localRoles.map (·.name (node.variableName kind.name)) ∧
      (c.edits.filterMap Edit.uniform?).map (·.1) =
        kind.uniformRoles.map (·.name (node.variableName kind.name)) := by
  cases kind with
  | operator op =>
    obtain ⟨values, type, -, -, rfl⟩ := Operator.evaluate_ok h
    exact ⟨rfl, rfl⟩
  | constant type =>
    obtain ⟨literal, components, -, -, rfl⟩ := Constant.evaluate_ok h
    exact ⟨rfl, rfl⟩
  | geometry =>
    obtain rfl := Except.ok.inj h
    simp [Geometry.evaluate, localRoles, uniformRoles, Contribution.statements, Edit.statement?,
      Edit.uniform?]
  | fragColor =>
    obtain rfl := Except.ok.inj h
    exact ⟨rfl, rfl⟩
  | texture =>
    obtain ⟨uv, texture, -, -, rfl⟩ := Texture.evaluate_ok h
    exact ⟨rfl, rfl⟩
  | normalMap =>
    obtain ⟨uv, strength, texture, -, -, -, rfl⟩ := NormalMap.evaluate_ok h
    exact ⟨rfl, rfl⟩
  | lighting model =>
    obtain ⟨values, -, rfl⟩ := Lighting.evaluate_ok h
    cases model <;> exact ⟨rfl, rfl⟩
  | function f =>
    obtain ⟨values, -, rfl⟩ := Definition.evaluate_ok h
    exact ⟨rfl, rfl⟩

end Kind

namespace Graph

variable {g : Graph} {palette : Palette} {V : SortedMap Endpoint Value} {n : NodeId}

/-- The variables that a node declares when `V` holds the values at outputs. -/
def locals (g : Graph) (palette : Palette) (V : SortedMap Endpoint Value)
    (n : NodeId) : List Name :=
  (g.emitted palette V n).filterMap Statement.declared?

/-- The uniforms that a node binds when `V` holds the values at outputs. -/
def uniforms (g : Graph) (palette : Palette) (V : SortedMap Endpoint Value) (n : NodeId) :
    List (Name × Binding) :=
  (g.edits palette V n).filterMap Edit.uniform?

/-- All names that a node declares when `V` holds the values at outputs. -/
def names (g : Graph) (palette : Palette) (V : SortedMap Endpoint Value) (n : NodeId) : List Name :=
  g.locals palette V n ++ (g.uniforms palette V n).map (·.1)

/-- A node that gives something has a kind, which gave it. -/
theorem exists_of_contribution {c : Contribution} (h : g.contribution palette V n = some c) :
    ∃ node kind, g.nodes.get? n = some node ∧ palette.get? node.kind = some kind ∧
      kind.evaluate ⟨n, node.data, g.connectedOutputs n⟩ (g.inflow V n kind) = .ok c := by
  obtain ⟨node, hnode, h⟩ := Option.bind_eq_some_iff.1 h
  obtain ⟨kind, hkind, h⟩ := Option.bind_eq_some_iff.1 h
  refine ⟨node, kind, hnode, hkind, ?_⟩
  cases heval : kind.evaluate ⟨n, node.data, g.connectedOutputs n⟩ (g.inflow V n kind) with
  | error skip => simp [heval, Except.toOption] at h
  | ok c' =>
    rw [heval] at h
    rw [Option.some.inj h]

/-- A node declares nothing, or the names of the roles of its kind. -/
theorem names_cases (g : Graph) (palette : Palette) (V : SortedMap Endpoint Value) (n : NodeId) :
    g.locals palette V n = [] ∧ g.uniforms palette V n = [] ∨
      ∃ node kind, g.nodes.get? n = some node ∧ palette.get? node.kind = some kind ∧
        g.locals palette V n =
          kind.localRoles.map (·.name (lowercase kind.name ++ "_" ++ mangle n)) ∧
        (g.uniforms palette V n).map (·.1) =
          kind.uniformRoles.map (·.name (lowercase kind.name ++ "_" ++ mangle n)) := by
  rw [locals, uniforms, emitted, edits]
  cases hc : g.contribution palette V n with
  | none => exact .inl ⟨rfl, rfl⟩
  | some c =>
    obtain ⟨node, kind, hnode, hkind, heval⟩ := exists_of_contribution hc
    refine .inr ⟨node, kind, hnode, hkind, ?_⟩
    simpa only [Option.map_some, Option.getD_some, Context.variableName] using
      Kind.names_of_evaluate heval

/-- A name of a node is that of one of its roles. -/
theorem exists_of_mem_names {x : Name} (h : x ∈ g.names palette V n) :
    ∃ node kind, ∃ role : Role, g.nodes.get? n = some node ∧ palette.get? node.kind = some kind ∧
      x = role.name (lowercase kind.name ++ "_" ++ mangle n) := by
  rw [names] at h
  obtain ⟨hlocals, huniforms⟩ | ⟨node, kind, hnode, hkind, hlocals, huniforms⟩ :=
    g.names_cases palette V n
  · simp [hlocals, huniforms] at h
  · rw [hlocals, huniforms, ← List.map_append] at h
    obtain ⟨role, -, rfl⟩ := List.mem_map.1 h
    exact ⟨node, kind, role, hnode, hkind, rfl⟩

/-- A variable of a node is that of its result or its material. -/
theorem exists_of_mem_locals {x : Name} (h : x ∈ g.locals palette V n) :
    ∃ node kind, g.nodes.get? n = some node ∧ palette.get? node.kind = some kind ∧
      (x = lowercase kind.name ++ "_" ++ mangle n ∨
        x = lowercase kind.name ++ "_" ++ mangle n ++ "_material") := by
  obtain ⟨hlocals, -⟩ | ⟨node, kind, hnode, hkind, hlocals, -⟩ := g.names_cases palette V n
  · simp [hlocals] at h
  · rw [hlocals] at h
    obtain ⟨role, hrole, rfl⟩ := List.mem_map.1 h
    refine ⟨node, kind, hnode, hkind, ?_⟩
    obtain rfl | rfl := Kind.mem_localRoles hrole
    · exact .inl rfl
    · exact .inr rfl

/-- A uniform of a node is that of its texture. -/
theorem exists_of_mem_uniforms {u : Name × Binding} (h : u ∈ g.uniforms palette V n) :
    ∃ node kind, g.nodes.get? n = some node ∧ palette.get? node.kind = some kind ∧
      u.1 = lowercase kind.name ++ "_" ++ mangle n ++ "_map" := by
  obtain ⟨-, huniforms⟩ | ⟨node, kind, hnode, hkind, -, huniforms⟩ := g.names_cases palette V n
  · simp [huniforms] at h
  · have hmem := List.mem_map_of_mem (f := (·.1)) h
    rw [huniforms] at hmem
    obtain ⟨role, hrole, heq⟩ := List.mem_map.1 hmem
    obtain rfl := Kind.mem_uniformRoles hrole
    exact ⟨node, kind, hnode, hkind, heq.symm⟩

/-- A name is that of one node, for one role. -/
theorem role_inj (hp : palette.Separate) {n m : NodeId} {node node' : Node} {kind kind' : Kind}
    {role role' : Role} (hkind : palette.get? node.kind = some kind)
    (hkind' : palette.get? node'.kind = some kind')
    (h : role.name (lowercase kind.name ++ "_" ++ mangle n) =
      role'.name (lowercase kind'.name ++ "_" ++ mangle m)) : n = m ∧ role = role' :=
  Context.roleName_inj (n := ⟨n, node.data, []⟩) (m := ⟨m, node'.data, []⟩)
    (hp _ _ _ _ hkind hkind') (hp _ _ _ _ hkind' hkind) h

/-- All names that nodes declare are different. -/
theorem names_nodup (hp : palette.Separate) {placed : List NodeId} (hplaced : placed.Nodup) :
    (placed.flatMap (g.names palette V)).Nodup := by
  refine List.nodup_flatMap.2 ⟨fun n _ => ?_, hplaced.imp fun {n m} hne x hx hx' => ?_⟩
  · rw [names]
    obtain ⟨hlocals, huniforms⟩ | ⟨node, kind, -, hkind, hlocals, huniforms⟩ :=
      g.names_cases palette V n
    · simp [hlocals, huniforms]
    · rw [hlocals, huniforms, ← List.map_append]
      exact kind.nodup_roles.map fun _ _ h => (role_inj hp hkind hkind h).2
  · obtain ⟨node, kind, role, -, hkind, rfl⟩ := exists_of_mem_names hx
    obtain ⟨node', kind', role', -, hkind', heq⟩ := exists_of_mem_names hx'
    exact hne (role_inj hp hkind hkind' heq).1

/-- No name of a node is that of an attribute of the surface. -/
theorem not_mem_attributes {x : Name} (h : x ∈ g.names palette V n) :
    x ∉ ["normal", "vUv", "vNormal", "vViewPosition"] := by
  obtain ⟨node, kind, role, -, -, rfl⟩ := exists_of_mem_names h
  have hmem : '_' ∈ (role.name (lowercase kind.name ++ "_" ++ mangle n)).toList := by
    simp [Role.toList_name]
  intro hx
  generalize role.name (lowercase kind.name ++ "_" ++ mangle n) = x at hmem hx
  simp only [List.mem_cons, List.not_mem_nil, or_false] at hx
  rcases hx with rfl | rfl | rfl | rfl <;> simp at hmem

end Graph

/-! ## The names of a pass -/

theorem CheckedGraph.Runnable.nodup_take {g : CheckedGraph} {palette : Palette}
    (h : g.Runnable palette) (k : Nat) : (g.order.take k).Nodup :=
  (h.order.nodup g.nodes.keys_nodup).sublist (List.take_sublist k _)

namespace Pass.Settled

variable {palette : Palette} {g : CheckedGraph} {placed : List NodeId} {pass : Pass}

theorem locals (h : pass.Settled palette g placed) :
    pass.draft.locals = placed.flatMap (g.locals palette pass.values) := by
  rw [Draft.locals, h.statements, List.filterMap_flatMap]
  rfl

/-- No uniform of a node is lost to another one. -/
theorem uniforms (hp : palette.Separate) (hplaced : placed.Nodup)
    (h : pass.Settled palette g placed) :
    pass.draft.uniforms = placed.flatMap (g.uniforms palette pass.values) := by
  have hnames : (placed.flatMap (g.names palette pass.values)).Nodup := Graph.names_nodup hp hplaced
  have hnodup := (List.flatMap_append_perm placed _ _).nodup_iff.2 hnames
  have hedits : (placed.flatMap (g.edits palette pass.values)).filterMap Edit.uniform? =
      placed.flatMap (g.uniforms palette pass.values) := List.filterMap_flatMap
  rw [h.draft, Draft.uniforms_run, hedits, List.nil_append]
  rw [hedits, List.map_nil, List.nil_append, List.map_flatMap]
  exact (List.nodup_append.1 hnodup).2.1

/-- The draft takes over every name that the nodes declare. -/
theorem names_perm (hp : palette.Separate) (hplaced : placed.Nodup)
    (h : pass.Settled palette g placed) :
    (pass.draft.locals ++ pass.draft.uniforms.map (·.1)).Perm
      (placed.flatMap (g.names palette pass.values)) := by
  rw [h.locals, h.uniforms hp hplaced, List.map_flatMap]
  exact List.flatMap_append_perm placed _ _

/-- No variable is declared twice. -/
theorem locals_nodup (hp : palette.Separate) (hplaced : placed.Nodup)
    (h : pass.Settled palette g placed) : pass.draft.locals.Nodup := by
  have hnames : (placed.flatMap (g.names palette pass.values)).Nodup := Graph.names_nodup hp hplaced
  exact (List.nodup_append.1 ((h.names_perm hp hplaced).nodup_iff.2 hnames)).1

end Pass.Settled

/-! ## Main results -/

namespace Compiler

/-- All along a started pass, the nodes that had their turn are settled, and the cursor stands after
them. -/
theorem visited_of_pass? {c : Compiler} {g : Graph} {cg : CheckedGraph} {k : Nat} {pass : Pass}
    (hg : g.check = .ok cg) (hs : (c.start cg).result = .ok ())
    (hpass : ((c.start cg).compiler.after k).stage.pass? = some pass) :
    cg.toGraph = g ∧ cg.Runnable c.palette ∧ pass.Settled c.palette cg (cg.order.take k) ∧
      pass.cursor = min k cg.order.length := by
  have hgraph := (Graph.check_ok hg).1
  have hrun : cg.Runnable c.palette := runnable_of_check hg (hgraph ▸ (start_ok hs).1)
  obtain ⟨pass', hsettled, hcursor, hstage⟩ := ((walked_start hs).after k).exists_settled hrun
  obtain rfl : pass' = pass := by
    rw [hstage] at hpass
    split at hpass <;> exact Option.some.inj hpass
  exact ⟨hgraph, hrun, hsettled, hcursor⟩

theorem settled_of_pass? {c : Compiler} {g : Graph} {cg : CheckedGraph} {k : Nat} {pass : Pass}
    (hg : g.check = .ok cg) (hs : (c.start cg).result = .ok ())
    (hpass : ((c.start cg).compiler.after k).stage.pass? = some pass) :
    cg.toGraph = g ∧ cg.Runnable c.palette ∧ pass.Settled c.palette cg (cg.order.take k) := by
  obtain ⟨hgraph, hrun, hsettled, -⟩ := visited_of_pass? hg hs hpass
  exact ⟨hgraph, hrun, hsettled⟩

/-- A completed pass is settled at all nodes. -/
theorem settled_of_completed {c : Compiler} {g : Graph} {cg : CheckedGraph} {k : Nat} {pass : Pass}
    (hg : g.check = .ok cg) (hs : (c.start cg).result = .ok ())
    (hstage : ((c.start cg).compiler.after k).stage = .completed pass) :
    cg.toGraph = g ∧ cg.Runnable c.palette ∧ pass.Settled c.palette cg cg.order := by
  obtain ⟨hgraph, hrun, hsettled⟩ := settled_of_pass? hg hs (k := k) (by rw [hstage]; rfl)
  have hk := ((walked_start hs).after k).completed_iff.1 ⟨pass, hstage⟩
  rw [List.take_of_length_le hk.le] at hsettled
  exact ⟨hgraph, hrun, hsettled⟩

/-- Where no kind has an underscore in its name, as in the standard palette, the nodes of a
completed pass declare all names once, whatever the ids of the nodes. -/
theorem completed_names_nodup {c : Compiler} {g : Graph} {cg : CheckedGraph} {k : Nat} {pass : Pass}
    (hp : c.palette.UnderscoreFree) (hg : g.check = .ok cg) (hs : (c.start cg).result = .ok ())
    (hstage : ((c.start cg).compiler.after k).stage = .completed pass) :
    Palette.standard.UnderscoreFree ∧
      (cg.order.flatMap (g.names c.palette pass.values)).Nodup ∧
      (pass.draft.locals ++ pass.draft.uniforms.map (·.1)).Perm
        (cg.order.flatMap (g.names c.palette pass.values)) ∧
      (∀ x ∈ pass.draft.locals, pass.draft.statements.countP (·.declared? == some x) = 1) ∧
      (∀ x ∈ pass.draft.locals, ∃ n node kind,
        g.nodes.get? n = some node ∧ c.palette.get? node.kind = some kind ∧
          (x = lowercase kind.name ++ "_" ++ mangle n ∨
            x = lowercase kind.name ++ "_" ++ mangle n ++ "_material")) ∧
      (∀ u ∈ pass.draft.uniforms, ∃ n node kind,
        g.nodes.get? n = some node ∧ c.palette.get? node.kind = some kind ∧
          u.1 = lowercase kind.name ++ "_" ++ mangle n ++ "_map") ∧
      ∀ x ∈ pass.draft.locals ++ pass.draft.uniforms.map (·.1),
        x ∉ ["normal", "vUv", "vNormal", "vViewPosition"] := by
  obtain ⟨rfl, hrun, hsettled⟩ := settled_of_completed hg hs hstage
  have hplaced := hrun.order.nodup cg.nodes.keys_nodup
  have hnodup : (cg.order.flatMap (cg.names c.palette pass.values)).Nodup :=
    Graph.names_nodup hp.separate hplaced
  have hperm := hsettled.names_perm hp.separate hplaced
  refine ⟨Palette.underscoreFree_standard, hnodup, hperm, fun x hx => ?_, fun x hx => ?_,
    fun u hu => ?_, fun x hx => ?_⟩
  · rw [Draft.countP_declared]
    exact List.count_eq_one_of_mem (hsettled.locals_nodup hp.separate hplaced) hx
  · rw [hsettled.locals] at hx
    obtain ⟨n, -, hx⟩ := List.mem_flatMap.1 hx
    exact ⟨n, Graph.exists_of_mem_locals hx⟩
  · rw [hsettled.uniforms hp.separate hplaced] at hu
    obtain ⟨n, -, hu⟩ := List.mem_flatMap.1 hu
    exact ⟨n, Graph.exists_of_mem_uniforms hu⟩
  · obtain ⟨n, -, hx⟩ := List.mem_flatMap.1 (hperm.mem_iff.1 hx)
    exact Graph.not_mem_attributes hx

/-- The id of one texture is that of the other with the suffix of its uniform. -/
def textures : Graph where
  nodes := .ofList [("a", ⟨"Texture", .ofList [("texture", "stone")]⟩),
    ("a_map", ⟨"Texture", .ofList [("texture", "moss")]⟩), ("g", ⟨"Geometry", .empty⟩)]
  links := .ofList [(⟨"g", "uv0"⟩, [⟨"a", "uv"⟩, ⟨"a_map", "uv"⟩])]

def texturesChecked : CheckedGraph where
  toGraph := textures
  order := ["g", "a", "a_map"]
  producers := .ofList [(⟨"a", "uv"⟩, ⟨"g", "uv0"⟩), (⟨"a_map", "uv"⟩, ⟨"g", "uv0"⟩)]

/-- A compiler with the standard palette and settings. -/
def fresh : Compiler where
  palette := .standard
  config := {}

theorem check_textures : textures.check = .ok texturesChecked := rfl

theorem objection?_textures : objection? fresh.palette textures = none := by decide +kernel

theorem start_textures : (fresh.start texturesChecked).result = .ok () :=
  (start_of_no_objection (g := texturesChecked) objection?_textures).2

theorem exists_pass_textures (k : Nat) :
    ∃ pass, ((fresh.start texturesChecked).compiler.after k).stage =
      if k ≤ 3 then .running pass else .completed pass := by
  obtain ⟨pass, -, -, -, hstage⟩ := ((walked_start start_textures).after k).exists_pass
  exact ⟨pass, hstage⟩

theorem completed_names_nodup_textures :
    fresh.palette.UnderscoreFree ∧ textures.check = .ok texturesChecked ∧
      (fresh.start texturesChecked).result = .ok () ∧
      ∃ pass, ((fresh.start texturesChecked).compiler.after 4).stage = .completed pass ∧
        pass.draft.locals = ["texture_a", "texture_a_umap"] ∧
        pass.draft.uniforms.map (·.1) = ["texture_a_map", "texture_a_umap_map"] ∧
        (texturesChecked.order.flatMap (textures.names fresh.palette pass.values)).Nodup := by
  have hp : fresh.palette.UnderscoreFree := Palette.underscoreFree_standard
  obtain ⟨pass, hstage⟩ := exists_pass_textures 4
  have hnames : ((fresh.start texturesChecked).compiler.after 4).stage.pass?.map
      (fun pass => (pass.draft.locals, pass.draft.uniforms.map (·.1))) =
        some (["texture_a", "texture_a_umap"], ["texture_a_map", "texture_a_umap_map"]) := by
    decide +kernel
  rw [hstage] at hnames
  obtain ⟨hlocals, huniforms⟩ := Prod.mk.inj (Option.some.inj hnames)
  exact ⟨hp, check_textures, start_textures, pass, hstage, hlocals, huniforms,
    (completed_names_nodup hp check_textures start_textures hstage).2.1⟩

/-- Nodes of different ids have different variables just if the name of neither kind takes up a part
of the id of the other node. Where no name of a kind goes on after another, no pass declares a
variable twice. -/
theorem variableName_ne_iff_and_locals_nodup {n m : Context} {k l : Name} (hne : n.id ≠ m.id) :
    (n.variableName k ≠ m.variableName l ↔ ¬ Clash k l n.id m.id ∧ ¬ Clash l k m.id n.id) ∧
      ∀ (c : Compiler) (g : Graph) (cg : CheckedGraph) (steps : Nat) (pass : Pass),
        c.palette.Separate → g.check = .ok cg → (c.start cg).result = .ok () →
        ((c.start cg).compiler.after steps).stage.pass? = some pass → pass.draft.locals.Nodup := by
  refine ⟨?_, fun c g cg steps pass hp hg hs hpass => ?_⟩
  · rw [ne_eq, Context.variableName_eq_iff_clash, not_or, not_or]
    exact and_iff_right fun h => hne h.2
  · obtain ⟨rfl, hrun, hsettled⟩ := settled_of_pass? hg hs hpass
    exact hsettled.locals_nodup hp (hrun.nodup_take steps)

theorem variableName_ne_iff_and_locals_nodup_textures :
    let n : Context := ⟨"a", .empty, []⟩
    let m : Context := ⟨"a_map", .empty, []⟩
    n.id ≠ m.id ∧ n.variableName "Texture" ≠ m.variableName "Texture" ∧
      fresh.palette.Separate ∧ textures.check = .ok texturesChecked ∧
      (fresh.start texturesChecked).result = .ok () ∧
      ∃ pass, ((fresh.start texturesChecked).compiler.after 2).stage.pass? = some pass ∧
        pass.draft.locals.Nodup := by
  intro n m
  have hne : n.id ≠ m.id := by decide
  obtain ⟨hnames, hlocals⟩ :=
    variableName_ne_iff_and_locals_nodup (k := "Texture") (l := "Texture") hne
  have hclash : ∀ i j : NodeId, ¬ Clash "Texture" "Texture" i j := fun i j h =>
    not_extends_of_underscore_not_mem (by decide) h.extends
  have hp : fresh.palette.Separate := Palette.underscoreFree_standard.separate
  obtain ⟨pass, hstage⟩ := exists_pass_textures 2
  have hpass : ((fresh.start texturesChecked).compiler.after 2).stage.pass? = some pass := by
    rw [hstage]
    rfl
  exact ⟨hne, hnames.2 ⟨hclash _ _, hclash _ _⟩, hp, check_textures, start_textures, pass, hpass,
    hlocals fresh textures texturesChecked 2 pass hp check_textures start_textures hpass⟩

/-- Functions of which the name of one goes on after that of the other. -/
def clashing : Compiler where
  palette := Palette.empty.registerAll
    [("Function", .function ⟨.float, "f", [], "float f() \x7b return 1.0; \x7d"⟩),
      ("Function", .function ⟨.float, "f_u", [], "float f_u() \x7b return 2.0; \x7d"⟩)]
  config := {}

def clash : Graph where
  nodes := .ofList [("u", ⟨"f_u", .empty⟩), ("u_", ⟨"f", .empty⟩)]
  links := .empty

def clashChecked : CheckedGraph where
  toGraph := clash
  order := ["u", "u_"]
  producers := .empty

/-- Both functions are read from their sources, and a pass declares one variable for both nodes. -/
theorem clash_declares_twice :
    (Definition.parse "float f() \x7b return 1.0; \x7d").toOption =
        some ⟨.float, "f", [], "float f() \x7b return 1.0; \x7d"⟩ ∧
      (Definition.parse "float f_u() \x7b return 2.0; \x7d").toOption =
        some ⟨.float, "f_u", [], "float f_u() \x7b return 2.0; \x7d"⟩ ∧
      clash.check = .ok clashChecked ∧ (clashing.start clashChecked).result = .ok () ∧
      ((clashing.start clashChecked).compiler.after 3).stage.status = .completed ∧
      ((clashing.start clashChecked).compiler.after 3).stage.pass?.map
          (·.draft.statements.map Statement.text) =
        some ["float f_u_u = f_u()", "float f_u_u = f()"] :=
  ⟨by decide +kernel, by decide +kernel, rfl, rfl, by decide +kernel, by decide +kernel⟩

end Compiler

end ShaderNodes
