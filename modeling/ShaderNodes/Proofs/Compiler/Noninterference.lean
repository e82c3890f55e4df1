import ShaderNodes.Proofs.Compiler.Matched

/-!
# Where data goes

Two graphs that differ in their data only, and there in nothing that the kinds of the nodes look at,
give the same programs. What may differ is the texture under a setting that both have. It goes into
the binding of a uniform and no further: not into a text, an order, a skip, or the choice between
uniforms of one name.

* `Graph.Indistinguishable`: the same ids, kinds and links, and data that the kinds do not tell
  apart.
* `Draft.unbound`: a draft but for its textures, which determines the programs.
* `Pass.Settled.unbound_eq`: passes over such graphs have the same draft, but for its textures.
* `Compiler.textures_reach_bindings_only`: the two shaders.
-/

namespace ShaderNodes

open Precedence Text

namespace Graph

/-- The same ids, kinds and connections, and data that differs only where the kinds do not look. -/
structure Indistinguishable (palette : Palette) (g g' : Graph) : Prop where
  kinds : ∀ n, (g.nodes.get? n).map (·.kind) = (g'.nodes.get? n).map (·.kind)
  connections : g.connections = g'.connections
  data : ∀ n node node' kind, g.nodes.get? n = some node → g'.nodes.get? n = some node' →
    palette.get? node.kind = some kind → kind.SameData node.data node'.data

namespace Indistinguishable

section Graphs

variable {palette : Palette} {g g' : Graph} (h : Indistinguishable palette g g')

include h

theorem exists_kind_iff {n : NodeId} (P : Name → Prop) :
    (∃ node, g.nodes.get? n = some node ∧ P node.kind) ↔
      ∃ node, g'.nodes.get? n = some node ∧ P node.kind := by
  have hkind : ∀ {g : Graph}, (∃ node, g.nodes.get? n = some node ∧ P node.kind) ↔
      ∃ kind, (g.nodes.get? n).map (·.kind) = some kind ∧ P kind := by
    simp [Option.map_eq_some_iff]
  rw [hkind, hkind, h.kinds]

theorem keys_eq : g.nodes.keys = g'.nodes.keys := by
  refine g.nodes.keys_ascending.eq_of_mem_iff g'.nodes.keys_ascending fun n => ?_
  rw [SortedMap.mem_keys_iff, SortedMap.mem_keys_iff]
  simpa using h.exists_kind_iff fun _ => True

/-- The nodes stand for themselves. -/
theorem matches_id : g.Matches id g' where
  injOn := Set.injOn_id _
  keys := by rw [List.map_id, h.keys_eq]
  kinds n node hnode := (h.exists_kind_iff (· = node.kind)).1 ⟨node, hnode, rfl⟩
  connections := by
    have hid : g.connections.map (Link.rename id) = g.connections := List.map_id _
    rw [hid, h.connections]

/-- The graphs are both accepted, or refused for the same reason. -/
theorem objection?_eq : Compiler.objection? palette g = Compiler.objection? palette g' := by
  have hdeclares : Compiler.declares palette g = Compiler.declares palette g' := by
    funext side p
    have hbind : ∀ g : Graph, (g.nodes.get? p.node).bind (palette.get? ·.kind) =
        ((g.nodes.get? p.node).map (·.kind)).bind palette.get? := fun g => Option.bind_map.symm
    rw [Compiler.declares, Compiler.declares, hbind, hbind, h.kinds]
  have hunregistered : ∀ n, g.Unregistered palette n ↔ g'.Unregistered palette n := fun n =>
    h.exists_kind_iff (palette.get? · = none)
  have hkinds : Compiler.unknownKind? palette g = Compiler.unknownKind? palette g' := by
    refine Option.ext fun e => ?_
    rw [Compiler.unknownKind?_eq_some_iff, Compiler.unknownKind?_eq_some_iff]
    simp only [hunregistered]
    exact exists_congr fun n =>
      h.exists_kind_iff fun kind => IsLeast {m | g'.Unregistered palette m} n ∧
      e = .unknownKind n kind
  rw [Compiler.objection?, hkinds, Compiler.unknownSocket?, hdeclares, h.connections]
  rfl

/-- The nodes have their turns in the same order. -/
theorem order_eq {cg cg' : CheckedGraph} (hg : g.check = .ok cg) (hg' : g'.check = .ok cg') :
    cg.order = cg'.order := by
  obtain ⟨-, -, -, hleast, hperm⟩ := check_ok hg
  obtain ⟨-, -, -, hleast', hperm'⟩ := check_ok hg'
  have hfeeds : g.Feeds = g'.Feeds := by
    funext m n
    rw [Feeds, Feeds, h.connections]
  have hisLeast := hleast.isLeast g.nodes.keys_nodup hperm
  rw [hfeeds, h.keys_eq] at hisLeast
  exact hisLeast.unique (hleast'.isLeast g'.nodes.keys_nodup hperm')

end Graphs

/-! ## The equations -/

section Solutions

variable {palette : Palette} {g g' : CheckedGraph} {V V' : SortedMap Endpoint Value}
  (h : Indistinguishable palette g.toGraph g'.toGraph) (hjoined : Joined g.nodes g.connections)
  (hrun : g.Runnable palette) (hrun' : g'.Runnable palette) (hV : g.Solution palette V)
  (hV' : g'.Solution palette V')

include h hjoined hrun hrun' hV hV'

/-- Both graphs define the same values, and a node gives the same in both but for its texture. -/
theorem agree {n : NodeId} (hn : g.nodes.contains n = true) :
    (∀ s, V.get? ⟨n, s⟩ = V'.get? ⟨n, s⟩) ∧
      (g.contribution palette V n).map Contribution.unbound =
        (g'.contribution palette V' n).map Contribution.unbound := by
  have hgives : ∀ n node node' kind, g.nodes.get? n = some node → g'.nodes.get? n = some node' →
      palette.get? node.kind = some kind → ∀ inputs inputs' : Inputs,
        (∀ s, (inputs.get? s).map id = (inputs'.get? s).map id) →
        (kind.evaluate ⟨n, node.data, g.connectedOutputs n⟩ inputs).map Contribution.unbound =
          (kind.evaluate ⟨n, node'.data, g.connectedOutputs n⟩ inputs').map
            Contribution.unbound := by
    intro n node node' kind hnode hnode' hkind inputs inputs' hinputs
    obtain rfl : inputs = inputs' := SortedMap.ext_get? fun s => by simpa using hinputs s
    exact kind.unbound_evaluate _ inputs (h.data n node node' kind hnode hnode' hkind)
  have hshown : ∀ c c' : Contribution, c.unbound = c'.unbound →
      ∀ s, (c.outputs.get? s).map id = (c'.outputs.get? s).map id := by
    intro c c' hc s
    have houtputs : c.outputs = c'.outputs := (Contribution.mk.inj hc).1
    rw [houtputs]
  refine ⟨fun s => ?_, h.matches_id.view_contribution hjoined hrun hrun' hshown hgives hV hV' hn⟩
  simpa using h.matches_id.view_values hjoined hrun hrun' hshown hgives hV hV' hn s

theorem unbound_edits {n : NodeId} (hn : g.nodes.contains n = true) :
    (g.edits palette V n).map Edit.unbound = (g'.edits palette V' n).map Edit.unbound := by
  have hedits : ∀ c? : Option Contribution,
      ((c?.map (·.edits)).getD []).map Edit.unbound =
        ((c?.map Contribution.unbound).map (·.edits)).getD [] := by
    intro c?
    cases c? <;> rfl
  rw [edits, edits, hedits, hedits, (h.agree hjoined hrun hrun' hV hV' hn).2]

end Solutions

end Indistinguishable

end Graph

/-! ## Drafts without their textures -/

namespace Draft

/-- The draft, but for the textures of its uniforms. -/
def unbound (d : Draft) : Draft := { d with uniforms := d.uniforms.map fun u => (u.1, u.2.unbound) }

/-- Which uniform stays depends on the names only, so an edit may be made without the texture. -/
theorem unbound_apply (d : Draft) (e : Edit) : (d.apply e).unbound = d.unbound.apply e.unbound := by
  cases e with
  | statement s => rfl
  | uniform name binding =>
    have hhas : d.unbound.hasUniform name = d.hasUniform name := by
      simp [hasUniform, unbound, List.any_map, Function.comp_def]
    simp only [apply, Edit.unbound, hhas]
    split
    · rfl
    · simp [unbound]
  | function name source =>
    have hhas : d.unbound.hasFunction name = d.hasFunction name := rfl
    simp only [apply, Edit.unbound, hhas]
    split <;> rfl
  | enable feature => rfl

theorem unbound_run (d : Draft) (edits : List Edit) :
    (d.run edits).unbound = d.unbound.run (edits.map Edit.unbound) := by
  induction edits generalizing d with
  | nil => rfl
  | cons e edits ih => rw [run_cons, ih, unbound_apply, List.map_cons, run_cons]

/-- No program shows a texture. -/
theorem fragment_unbound (d : Draft) : d.unbound.fragment = d.fragment := by
  have huniforms : d.unbound.uniformSection = d.uniformSection := by
    simp only [uniformSection, unbound, List.map_map]
    rfl
  rw [fragment, huniforms]
  rfl

/-- Drafts that differ in textures only give the same programs and flags, and the same uniforms but
for their textures. -/
theorem finish_of_unbound_eq {d d' : Draft} (h : d.unbound = d'.unbound) :
    d'.finish.vertex = d.finish.vertex ∧ d'.finish.fragment = d.finish.fragment ∧
      d'.finish.usesLighting = d.finish.usesLighting ∧
      d'.finish.requiresDerivatives = d.finish.requiresDerivatives ∧
      ∀ name, (d'.finish.uniforms.get? name).map Binding.unbound =
        (d.finish.uniforms.get? name).map Binding.unbound := by
  have hfeatures : d'.features = d.features := (congrArg Draft.features h).symm
  refine ⟨vertex_congr (congrArg Draft.config h).symm hfeatures, ?_,
    congrArg Features.light hfeatures, congrArg Features.normalMap hfeatures, fun name => ?_⟩
  · exact (fragment_unbound d').symm.trans (h ▸ fragment_unbound d)
  · have htable : ∀ d : Draft, (d.finish.uniforms.get? name).map Binding.unbound =
        d.unbound.finish.uniforms.get? name := fun d =>
      SortedMap.map_get?_ofList Binding.unbound d.uniforms name
    rw [htable, htable, h]

end Draft

namespace Pass.Settled

/-- Passes over the graphs have the same draft but for its textures. -/
theorem unbound_eq {palette : Palette} {g g' : CheckedGraph} {pass pass' : Pass}
    (h : pass.Settled palette g g.order) (h' : pass'.Settled palette g' g'.order)
    (hconfig : pass.draft.config = pass'.draft.config)
    (hsame : Graph.Indistinguishable palette g.toGraph g'.toGraph) (horder : g.order = g'.order)
    (hjoined : Joined g.nodes g.connections) (hrun : g.Runnable palette)
    (hrun' : g'.Runnable palette) : pass.draft.unbound = pass'.draft.unbound := by
  have hedits : ∀ n ∈ g.order, (g.edits palette pass.values n).map Edit.unbound =
      (g'.edits palette pass'.values n).map Edit.unbound := by
    intro n hn
    have hn := SortedMap.contains_iff_mem_keys.2 (hrun.order.perm.mem_iff.1 hn)
    exact hsame.unbound_edits hjoined hrun hrun' (h.solution hrun) (h'.solution hrun') hn
  rw [h.draft, h'.draft, Draft.unbound_run, Draft.unbound_run, List.map_flatMap, List.map_flatMap,
    hconfig, ← horder, List.flatMap_congr hedits]

end Pass.Settled

namespace Compiler

/-- The uniform of a texture tells its node, whatever kinds the palette has. -/
theorem node_of_sampler {kind kind' : Kind} {n m : NodeId}
    (hkind : kind = .texture ∨ kind = .normalMap) (hkind' : kind' = .texture ∨ kind' = .normalMap)
    (h : Role.sampler.name (lowercase kind.name ++ "_" ++ mangle n) =
      Role.sampler.name (lowercase kind'.name ++ "_" ++ mangle m)) : n = m := by
  have hplain : ∀ {kind : Kind}, kind = .texture ∨ kind = .normalMap → '_' ∉ kind.name.toList := by
    rintro _ (rfl | rfl)
    · decide
    · decide
  exact (Context.roleName_inj (n := ⟨n, .empty, []⟩) (m := ⟨m, .empty, []⟩)
    (not_extends_of_underscore_not_mem (hplain hkind'))
    (not_extends_of_underscore_not_mem (hplain hkind)) h).1

/-- Graphs that are checked and differ in their data only, but not in the literals of constants nor
in whether textures are set, are both refused for the same reason or both compiled. The programs and
the flags are then the same, and so are the names and types of the uniforms. The texture of a
uniform is the data of one node as it stands, in each graph its own. -/
theorem textures_reach_bindings_only {c : Compiler} {g g' : Graph} {cg cg' : CheckedGraph}
    (hg : g.check = .ok cg) (hg' : g'.check = .ok cg')
    (hsame : Graph.Indistinguishable c.palette g g') :
    (∀ e, (c.process cg).result = .error e ↔ (c.process cg').result = .error e) ∧
      ∀ shader, (c.process cg).result = .ok shader →
        ∃ shader', (c.process cg').result = .ok shader' ∧
          shader'.vertex = shader.vertex ∧ shader'.fragment = shader.fragment ∧
          shader'.usesLighting = shader.usesLighting ∧
          shader'.requiresDerivatives = shader.requiresDerivatives ∧
          shader'.uniforms.keys = shader.uniforms.keys ∧
          (∀ name, (shader'.uniforms.get? name).map Binding.type =
            (shader.uniforms.get? name).map Binding.type) ∧
          ∀ name binding, shader.uniforms.get? name = some binding →
            ∃ n node node' kind binding', g.nodes.get? n = some node ∧
              g'.nodes.get? n = some node' ∧ c.palette.get? node.kind = some kind ∧
              (kind = .texture ∨ kind = .normalMap) ∧
              name = lowercase kind.name ++ "_" ++ mangle n ++ "_map" ∧
              shader'.uniforms.get? name = some binding' ∧
              node.data.get? "texture" = some binding.texture ∧
              node'.data.get? "texture" = some binding'.texture := by
  have horder := hsame.order_eq hg hg'
  obtain ⟨rfl, hjoined, -⟩ := Graph.check_ok hg
  obtain rfl := (Graph.check_ok hg').1
  have hobjections := hsame.objection?_eq
  cases hobjection : objection? c.palette cg.toGraph with
  | some e =>
    rw [hobjection] at hobjections
    have hresult := process_of_objection hobjection
    have hresult' := process_of_objection hobjections.symm
    refine ⟨fun e => by rw [hresult, hresult'], fun shader hshader => ?_⟩
    rw [hresult] at hshader
    cases hshader
  | none =>
    rw [hobjection] at hobjections
    have hrun := runnable_of_check hg hobjection
    have hrun' := runnable_of_check hg' hobjections.symm
    obtain ⟨pass, h, hconfig, -, hresult⟩ := exists_completed hrun hobjection
    obtain ⟨pass', h', hconfig', -, hresult'⟩ := exists_completed hrun' hobjections.symm
    have hunbound := h.unbound_eq h' (hconfig.trans hconfig'.symm) hsame horder hjoined hrun hrun'
    obtain ⟨hvertex, hfragment, hlighting, hderivatives, htable⟩ :=
      Draft.finish_of_unbound_eq hunbound
    refine ⟨fun e => by simp [hresult, hresult'], fun shader hshader => ?_⟩
    obtain rfl := Except.ok.inj (hresult.symm.trans hshader)
    refine ⟨_, hresult', hvertex, hfragment, hlighting, hderivatives, ?_, fun name => ?_,
      fun name binding hbinding => ?_⟩
    · refine (SortedMap.keys_ascending _).eq_of_mem_iff (SortedMap.keys_ascending _) fun name => ?_
      have hsome := congrArg Option.isSome (htable name)
      rw [Option.isSome_map, Option.isSome_map] at hsome
      rw [← SortedMap.contains_iff_mem_keys, ← SortedMap.contains_iff_mem_keys, SortedMap.contains,
        hsome, SortedMap.contains]
    · simpa [Option.map_map, Function.comp_def, Binding.unbound] using
        congrArg (Option.map Binding.type) (htable name)
    · have hfound := htable name
      rw [hbinding] at hfound
      obtain ⟨binding', hbinding', -⟩ := Option.map_eq_some_iff.1 hfound
      obtain ⟨n, node, kind, hnode, hkind, hsampler, hname, -, hdata⟩ :=
        h.exists_of_mem_uniforms (SortedMap.mem_of_get?_ofList hbinding)
      obtain ⟨m, node', kind', hnode', -, hsampler', hname', -, hdata'⟩ :=
        h'.exists_of_mem_uniforms (SortedMap.mem_of_get?_ofList hbinding')
      obtain rfl := node_of_sampler hsampler hsampler' (hname.symm.trans hname')
      exact ⟨n, node, node', kind, binding', hnode, hnode', hkind, hsampler, hname, hbinding',
        hdata, hdata'⟩

/-- Other textures, and data that no node looks at. -/
def repainted : Graph where
  nodes := .ofList [("a", ⟨"Texture", .ofList [("texture", " moss "), ("value", "1.0")]⟩),
    ("a_map", ⟨"Texture", .ofList [("texture", "*/")]⟩),
    ("g", ⟨"Geometry", .ofList [("texture", "")]⟩)]
  links := textures.links

theorem indistinguishable_repainted : Graph.Indistinguishable fresh.palette textures repainted where
  kinds n := by
    have hkeys : ∀ n ∈ textures.nodes.keys,
        (textures.nodes.get? n).map (·.kind) = (repainted.nodes.get? n).map (·.kind) := by decide
    by_cases hn : n ∈ textures.nodes.keys
    · exact hkeys n hn
    · have hnone : ∀ {g : Graph}, n ∉ g.nodes.keys → g.nodes.get? n = none := fun {g} hn =>
        Option.eq_none_iff_forall_ne_some.2 fun node hnode =>
          hn (SortedMap.mem_keys_iff.2 ⟨node, hnode⟩)
      have hn' : n ∉ repainted.nodes.keys := hn
      rw [hnone hn, hnone hn']
  connections := rfl
  data n node node' kind hnode hnode' hkind := by
    have hn : n ∈ textures.nodes.keys := SortedMap.mem_keys_iff.2 ⟨node, hnode⟩
    have hkeys : textures.nodes.keys = ["a", "a_map", "g"] := rfl
    rw [hkeys] at hn
    simp only [List.mem_cons, List.not_mem_nil, or_false] at hn
    rcases hn with rfl | rfl | rfl
    all_goals
      obtain rfl := Option.some.inj hnode
      obtain rfl := Option.some.inj hnode'
      obtain rfl := Option.some.inj hkind
    · exact iff_of_true ⟨"stone", rfl, by decide⟩ ⟨" moss ", rfl, by decide⟩
    · exact iff_of_true ⟨"moss", rfl, by decide⟩ ⟨"*/", rfl, by decide⟩
    · exact trivial

/-- The texture of a node is bound with the blanks around it. -/
theorem textures_reach_bindings_only_repainted :
    textures.check = .ok texturesChecked ∧
      repainted.check = .ok { texturesChecked with toGraph := repainted } ∧
      Graph.Indistinguishable fresh.palette textures repainted ∧
      ∃ shader shader', (fresh.process texturesChecked).result = .ok shader ∧
        (fresh.process { texturesChecked with toGraph := repainted }).result = .ok shader' ∧
        shader'.vertex = shader.vertex ∧ shader'.fragment = shader.fragment ∧
        shader.uniforms.get? "texture_a_map" = some ⟨"sampler2D", "stone"⟩ ∧
        shader'.uniforms.get? "texture_a_map" = some ⟨"sampler2D", " moss "⟩ := by
  have hcheck : repainted.check = .ok { texturesChecked with toGraph := repainted } := rfl
  obtain ⟨pass, -, -, -, hresult⟩ :=
    exists_completed (c := fresh) (runnable_of_check check_textures objection?_textures)
      objection?_textures
  obtain ⟨shader', hresult', hvertex, hfragment, -⟩ :=
    (textures_reach_bindings_only check_textures hcheck indistinguishable_repainted).2 _ hresult
  have hbound : (fresh.process texturesChecked).result.toOption.bind
      (·.uniforms.get? "texture_a_map") = some ⟨"sampler2D", "stone"⟩ := by decide
  have hbound' : (fresh.process { texturesChecked with toGraph := repainted }).result.toOption.bind
      (·.uniforms.get? "texture_a_map") = some ⟨"sampler2D", " moss "⟩ := by decide
  rw [hresult] at hbound
  rw [hresult'] at hbound'
  exact ⟨check_textures, hcheck, indistinguishable_repainted, _, shader', hresult, hresult',
    hvertex, hfragment, hbound, hbound'⟩

end Compiler

end ShaderNodes
