import ShaderNodes.Proofs.Compiler.Engine
import ShaderNodes.Proofs.Draft.Interleaving
import ShaderNodes.Proofs.Graph.Listing
import ShaderNodes.Proofs.Kind.Effect

/-!
# What a shader does not depend on

The values of a completed pass are the one solution of the equations of its graph, and the draft is
what the nodes add on them. The equations do not say in which order the links were listed, nor in
which order the nodes have their turns.

* `Compiler.exists_completed`: a pass over an accepted graph completes, and what it has then.
* `Graph.Alike.contribution`, `Graph.Alike.solution`: alike graphs have the same equations.
* `Compiler.compile_ignores_listing`: a graph gives the same shader however it was listed.
* `Pass.Settled.features_eq`, `Pass.Settled.functions_perm`, `Pass.Settled.uniforms_perm`: drafts of
  passes that took the nodes in different orders.
* `Compiler.reordered_pass_agrees`: any topological order gives the same values, and the same draft
  but for the order of its parts.
-/

namespace ShaderNodes

open Precedence

/-! ## Completed passes -/

namespace Compiler

variable {c : Compiler} {g : CheckedGraph}

/-- The pass, if there is one, has a draft with these settings. -/
def DraftsWith (config : Config) (c : Compiler) : Prop :=
  ∀ pass, c.stage.pass? = some pass → pass.draft.config = config

/-- No step changes the settings of a draft. -/
theorem DraftsWith.step {config : Config} (h : c.DraftsWith config) :
    c.step.compiler.DraftsWith config := by
  have hstepped := c.stepped
  generalize c.step.compiler = next, c.step.result = result at hstepped ⊢
  cases hstepped with
  | inactive _ => exact h
  | completed _ => exact h
  | @exhausted pass hstage _ | @vanished pass _ hstage _ _ | @unknown pass _ _ hstage _ _ _ =>
    rintro _ ⟨⟩
    exact h pass (by rw [hstage]; rfl)
  | @visited pass n node kind hstage _ _ _ =>
    rintro _ ⟨⟩
    rw [Pass.draft_visit rfl, Draft.config_run]
    exact h pass (by rw [hstage]; rfl)

/-- A pass over an accepted graph completes with one step more than there are nodes, and stays
so. -/
theorem exists_completed (hrun : g.Runnable c.palette)
    (haccepted : objection? c.palette g.toGraph = none) :
      ∃ pass, pass.Settled c.palette g g.order ∧ pass.draft.config = c.config ∧
      (∀ k, g.order.length < k → ((c.start g).compiler.after k).stage = .completed pass) ∧
      (c.process g).result = .ok pass.draft.finish := by
  obtain ⟨hcompiler, hs⟩ := start_of_no_objection haccepted
  have hwalked := walked_start hs
  obtain ⟨pass, hsettled, -, hstage⟩ := (hwalked.after (g.order.length + 1)).exists_settled hrun
  rw [if_neg (by omega)] at hstage
  rw [List.take_of_length_le (by omega)] at hsettled
  have hbegin : (c.start g).compiler.DraftsWith c.config := by
    rw [hcompiler]
    rintro _ ⟨⟩
    rfl
  have hconfig := after_keeps (fun _ => DraftsWith.step) hbegin (g.order.length + 1)
  refine ⟨pass, hsettled, hconfig pass (by rw [hstage]; rfl), fun k hk => ?_, ?_⟩
  · obtain ⟨j, rfl⟩ := Nat.exists_eq_add_of_le (Nat.succ_le_of_lt hk)
    rw [after_add, after_of_completed hstage, hstage]
  · obtain ⟨e, herror, -⟩ | ⟨-, -, hresult⟩ := c.process_eq g
    · rw [hs] at herror
      cases herror
    · obtain ⟨pass', hstage', hfinish⟩ := hwalked.finish_of_present haccepted fun _ => hrun.contains
      obtain rfl : pass' = pass := Stage.completed.inj (hstage'.symm.trans hstage)
      rw [hresult]
      exact (hfinish 0).2

/-- A completed pass has the settings of the compiler, and is the one that processing the graph ends
with. -/
theorem process_of_completed {g : Graph} {cg : CheckedGraph} {k : Nat} {pass : Pass}
    (hg : g.check = .ok cg) (hs : (c.start cg).result = .ok ())
    (hstage : ((c.start cg).compiler.after k).stage = .completed pass) :
    pass.draft.config = c.config ∧ (c.process cg).result = .ok pass.draft.finish := by
  obtain ⟨-, hrun, -⟩ := settled_of_completed hg hs hstage
  have hk : cg.order.length < k := ((walked_start hs).after k).completed_iff.1 ⟨pass, hstage⟩
  obtain ⟨pass', -, hconfig, hcompleted, hprocess⟩ := exists_completed hrun (start_ok hs).1
  obtain rfl : pass' = pass := Stage.completed.inj ((hcompleted k hk).symm.trans hstage)
  exact ⟨hconfig, hprocess⟩

theorem objection?_of_process {shader : Shader} (h : (c.process g).result = .ok shader) :
    objection? c.palette g.toGraph = none := by
  obtain ⟨e, -, -, hresult⟩ | ⟨hs, -, -⟩ := c.process_eq g
  · rw [hresult] at h
    cases h
  · exact (start_ok hs).1

end Compiler

/-! ## Alike graphs -/

namespace Graph.Alike

variable {g g' : Graph} {palette : Palette} {V : SortedMap Endpoint Value} {ps : Producers}

theorem inflow (h : g.Alike g') (hps : ps.Holds g.connections) (n : NodeId) (kind : Kind) :
    g.inflow V n kind = g'.inflow V n kind := by
  refine SortedMap.ext_get? fun s => ?_
  rw [get?_inflow hps, get?_inflow (h.holds hps)]

/-- A node gives the same in both graphs. -/
theorem contribution (h : g.Alike g') (hps : ps.Holds g.connections) :
    g.contribution palette V = g'.contribution palette V := by
  funext n
  simp only [Graph.contribution, h.nodes, h.connectedOutputs n, h.inflow hps n]

theorem edits (h : g.Alike g') (hps : ps.Holds g.connections) :
    g.edits palette V = g'.edits palette V := by
  funext n
  rw [Graph.edits, Graph.edits, h.contribution hps]

theorem solution (h : g.Alike g') (hps : ps.Holds g.connections) (hV : g.Solution palette V) :
    g'.Solution palette V where
  at_nodes := h.nodes ▸ hV.at_nodes
  balanced n hn s := by
    rw [← h.contribution hps]
    exact hV.balanced n (h.nodes ▸ hn) s

theorem accepted (h : g.Alike g') (hg : g.Accepted palette) : g'.Accepted palette := by
  obtain ⟨hkinds, hlinks⟩ := hg
  refine ⟨h.nodes ▸ hkinds, fun l hl => ?_⟩
  have hfits := hlinks l (h.mem_iff.2 hl)
  unfold Fits Declared at hfits ⊢
  rwa [← h.nodes]

end Graph.Alike

namespace Compiler

/-- Alike graphs give the same shader. -/
theorem process_of_alike {c : Compiler} {g g' : Graph} {cg cg' : CheckedGraph} {shader : Shader}
    (h : g.Alike g') (hg : g.check = .ok cg) (hg' : g'.check = .ok cg')
    (hshader : (c.process cg).result = .ok shader) : (c.process cg').result = .ok shader := by
  obtain rfl := Except.ok.inj ((h.check hg).symm.trans hg')
  obtain rfl := (Graph.check_ok hg).1
  have hobjection := objection?_of_process hshader
  have hobjection' : objection? c.palette g' = none :=
    objection?_eq_none_iff.2 (h.accepted (objection?_eq_none_iff.1 hobjection))
  have hrun := runnable_of_check hg hobjection
  have hrun' := runnable_of_check hg' hobjection'
  obtain ⟨pass, hsettled, hconfig, -, hresult⟩ := exists_completed hrun hobjection
  obtain ⟨pass', hsettled', hconfig', -, hresult'⟩ := exists_completed hrun' hobjection'
  have hvalues : pass.values = pass'.values :=
    (h.solution hrun.producers (hsettled.solution hrun)).unique hrun'.order
      (hsettled'.solution hrun')
  have hdraft : pass.draft = pass'.draft := by
    rw [hsettled.draft, hsettled'.draft, hconfig, hconfig', hvalues, h.edits hrun.producers]
  rw [hresult', ← hdraft, ← hresult, hshader]

/-- The same nodes and links, in any order and with links repeated, make graphs that both pass the
check or both do not. If they do, they have the same order and the same producers, and both give the
same shader or both give none. -/
theorem compile_ignores_listing {nodes nodes' : List (NodeId × Node)} {links links' : List Link}
    (hids : (nodes.map (·.1)).Nodup) (hnodes : nodes.Perm nodes')
    (hlinks : ∀ l, l ∈ links ↔ l ∈ links') :
    ∃ g g', Graph.ofParts nodes links = .ok g ∧ Graph.ofParts nodes' links' = .ok g' ∧
      ((∃ cg, g.check = .ok cg) ↔ ∃ cg', g'.check = .ok cg') ∧
      ∀ cg cg', g.check = .ok cg → g'.check = .ok cg' →
        cg.order = cg'.order ∧ cg.producers = cg'.producers ∧
          ∀ shader, cg.compile.result = .ok shader ↔ cg'.compile.result = .ok shader := by
  have hids' : (nodes'.map (·.1)).Nodup := (hnodes.map _).nodup_iff.1 hids
  have halike := Graph.alike_ofParts hids hnodes hlinks
  refine ⟨_, _, Graph.ofParts_eq hids links, Graph.ofParts_eq hids' links', ⟨?_, ?_⟩, ?_⟩
  · rintro ⟨cg, hg⟩
    exact ⟨_, halike.check hg⟩
  · rintro ⟨cg', hg'⟩
    exact ⟨_, halike.symm.check hg'⟩
  · intro cg cg' hg hg'
    have hchecked := Except.ok.inj (hg'.symm.trans (halike.check hg))
    simp only [Engine.result_compile]
    refine ⟨?_, ?_, fun shader => ⟨process_of_alike halike hg hg',
      process_of_alike halike.symm hg' hg⟩⟩
    · rw [hchecked]
    · rw [hchecked]

/-- Nodes and links listed from the last to the first, and the links once more. -/
theorem compile_ignores_listing_textures :
    let nodes := textures.nodes.entries
    let links := textures.connections
    (nodes.map (·.1)).Nodup ∧ nodes.Perm nodes.reverse ∧
      (∀ l, l ∈ links ↔ l ∈ links.reverse ++ links) ∧ Graph.ofParts nodes links = .ok textures ∧
      textures.check = .ok texturesChecked ∧
      (∃ shader, texturesChecked.compile.result = .ok shader) ∧
      ∃ g', Graph.ofParts nodes.reverse (links.reverse ++ links) = .ok g' ∧
        g'.connections = links.reverse ∧ links.reverse ≠ links ∧
        ∃ cg', g'.check = .ok cg' ∧ cg'.order = ["g", "a", "a_map"] ∧
          cg'.producers = texturesChecked.producers ∧
          cg'.compile.result = texturesChecked.compile.result := by
  intro nodes links
  have hids : (nodes.map (·.1)).Nodup := textures.nodes.keys_nodup
  have hnodes : nodes.Perm nodes.reverse := (List.reverse_perm nodes).symm
  have hlinks : ∀ l, l ∈ links ↔ l ∈ links.reverse ++ links := by simp
  have hparts : Graph.ofParts nodes links = .ok textures := rfl
  have hfanout : (Graph.ofParts nodes.reverse (links.reverse ++ links)).toOption.map
      (·.connections) = some links.reverse := by decide
  obtain ⟨g, g', hg, hg', hchecks, hagree⟩ := compile_ignores_listing hids hnodes hlinks
  obtain rfl := Except.ok.inj (hparts.symm.trans hg)
  obtain ⟨cg', hcheck'⟩ := hchecks.1 ⟨_, check_textures⟩
  obtain ⟨horder, hproducers, hshaders⟩ := hagree texturesChecked cg' check_textures hcheck'
  obtain ⟨pass, -, -, -, hresult⟩ :=
    exists_completed (c := fresh) (runnable_of_check check_textures objection?_textures)
      objection?_textures
  rw [hg'] at hfanout
  have hresult : texturesChecked.compile.result = .ok pass.draft.finish :=
    (Engine.result_compile texturesChecked).trans hresult
  exact ⟨hids, hnodes, hlinks, hparts, check_textures, ⟨_, hresult⟩, g', hg',
    Option.some.inj hfanout, by decide, cg', hcheck', horder.symm, hproducers.symm,
    ((hshaders _).1 hresult).trans hresult.symm⟩

end Compiler

/-! ## Other orders -/

namespace Pass.Settled

variable {palette : Palette} {g g' : CheckedGraph} {placed placed' : List NodeId}
    {pass pass' : Pass}

theorem isEnabled_iff (h : pass.Settled palette g placed) {f : Feature} :
    pass.draft.features.isEnabled f = true ↔
    ∃ n ∈ placed, .enable f ∈ g.edits palette pass.values n := by
  have hnone : (({ config := pass.draft.config } : Draft).features.isEnabled f) = false := by
    cases f <;> rfl
  rw [h.draft, Draft.isEnabled_run_iff, hnone, List.mem_flatMap]
  simp only [Bool.false_eq_true, false_or]

theorem mem_functions_iff (hnamed : palette.Named) (h : pass.Settled palette g placed) {name : Name}
    {source : String} :
    (name, source) ∈ pass.draft.functions ↔
      ∃ n ∈ placed, .function name source ∈ g.edits palette pass.values n := by
  refine ⟨fun hmem => ?_, fun ⟨n, hn, he⟩ => h.mem_functions hnamed hn he⟩
  rw [h.draft] at hmem
  exact List.mem_flatMap.1 ((Draft.mem_functions_of_run hmem).resolve_left List.not_mem_nil)

section Orders

variable (h : pass.Settled palette g placed) (h' : pass'.Settled palette g' placed')
  (hgraph : g.toGraph = g'.toGraph) (hvalues : pass.values =
    pass'.values) (hperm : placed.Perm placed')

include h h' hgraph hvalues hperm

theorem features_eq : pass.draft.features = pass'.draft.features := by
  refine Features.ext_isEnabled fun f => Bool.eq_iff_iff.2 ?_
  rw [h.isEnabled_iff, h'.isEnabled_iff, hgraph, hvalues]
  exact exists_congr fun n => and_congr_left' hperm.mem_iff

/-- Which functions are there does not depend on the order: nodes that share a name share the
text. -/
theorem functions_perm (hnamed : palette.Named) :
    pass.draft.functions.Perm pass'.draft.functions := by
  refine (List.perm_ext_iff_of_nodup h.functions_nodup.of_map h'.functions_nodup.of_map).2 ?_
  rintro ⟨name, source⟩
  rw [h.mem_functions_iff hnamed, h'.mem_functions_iff hnamed, hgraph, hvalues]
  exact exists_congr fun n => and_congr_left' hperm.mem_iff

theorem uniforms_perm (hp : palette.Separate) (hplaced : placed.Nodup) :
    pass.draft.uniforms.Perm pass'.draft.uniforms := by
  rw [h.uniforms hp hplaced, h'.uniforms hp (hperm.nodup_iff.1 hplaced), hgraph, hvalues]
  exact hperm.flatMap_right _

end Orders

end Pass.Settled

/-- The graph with its nodes in another order. -/
def CheckedGraph.reordered (g : CheckedGraph) (order : List NodeId) : CheckedGraph :=
  { g with order }

namespace Compiler

/-- A pass in any topological order completes just like one in the stored order. The values, the
vertex program, the uniforms and the flags are the same, and so are the functions with their texts,
maybe in another order. The statements are blocks that depend on the node only, in the order in
which the nodes had their turns. -/
theorem reordered_pass_agrees {c : Compiler} {g : Graph} {cg : CheckedGraph}
    {kinds : List (String × Kind)} {order : List NodeId}
    (hpalette : c.palette = Palette.empty.registerAll kinds)
    (hfree : c.palette.UnderscoreFree) (hg : g.check = .ok cg) (hs : (c.start cg).result = .ok ())
    (horder : Topological g.Feeds g.nodes.keys order) :
    (c.start (cg.reordered order)).result = .ok () ∧
      ∃ pass pass',
        (∀ k, cg.order.length < k →
          ((c.start cg).compiler.after k).stage = .completed pass ∧
            ((c.start (cg.reordered order)).compiler.after k).stage = .completed pass') ∧
        (c.process cg).result = .ok pass.draft.finish ∧
        (c.process (cg.reordered order)).result = .ok pass'.draft.finish ∧
        pass'.values = pass.values ∧
        pass'.draft.finish.vertex = pass.draft.finish.vertex ∧
        (pass.draft.functions.map (·.1)).Nodup ∧ pass'.draft.functions.Perm pass.draft.functions ∧
        pass'.draft.finish.uniforms = pass.draft.finish.uniforms ∧
        pass'.draft.features = pass.draft.features ∧
        pass'.draft.finish.usesLighting = pass.draft.finish.usesLighting ∧
        pass'.draft.finish.requiresDerivatives = pass.draft.finish.requiresDerivatives ∧
        order.Perm cg.order ∧
        pass.draft.statements = cg.order.flatMap (g.emitted c.palette pass.values) ∧
        pass'.draft.statements = order.flatMap (g.emitted c.palette pass.values) := by
  obtain rfl := (Graph.check_ok hg).1
  have hobjection := (start_ok hs).1
  have hrun : cg.Runnable c.palette := runnable_of_check hg hobjection
  have hrun' : (cg.reordered order).Runnable c.palette := ⟨hrun.producers, horder, hrun.kinds⟩
  have hnamed : c.palette.Named := hpalette ▸ Palette.named_registerAll kinds
  have hperm : order.Perm cg.order := horder.perm.trans hrun.order.perm.symm
  have hnodup : order.Nodup := horder.nodup cg.nodes.keys_nodup
  have hs' := (start_of_no_objection (g := cg.reordered order) hobjection).2
  obtain ⟨pass, h, hconfig, hcompleted, hresult⟩ := exists_completed hrun hobjection
  obtain ⟨pass', h', hconfig', hcompleted', hresult'⟩ := exists_completed hrun' hobjection
  -- Both maps of values solve the equations of the graph, which do not mention the order.
  have hvalues : pass'.values = pass.values := (h'.solution hrun').unique horder (h.solution hrun)
  have hfeatures := h'.features_eq h rfl hvalues hperm
  have hstatements : pass'.draft.statements = order.flatMap (cg.emitted c.palette pass.values) :=
    hvalues ▸ h'.statements
  refine ⟨hs', pass, pass', fun k hk => ⟨hcompleted k hk, hcompleted' k ?_⟩, hresult, hresult',
    hvalues, Draft.vertex_congr (hconfig'.trans hconfig.symm) hfeatures, h.functions_nodup,
    h'.functions_perm h rfl hvalues hperm hnamed, ?_, hfeatures, congrArg Features.light hfeatures,
    congrArg Features.normalMap hfeatures, hperm, h.statements, hstatements⟩
  · exact hperm.length_eq.trans_lt hk
  · exact SortedMap.ofList_perm h'.uniforms_nodup
      (h'.uniforms_perm h rfl hvalues hperm hfree.separate hnodup)

theorem topological_textures : Topological textures.Feeds textures.nodes.keys ["g", "a_map",
    "a"] where
  perm := by decide
  before := by
    rintro placed n rest hsplit m ⟨l, hl, rfl, rfl⟩
    have hsource : ∀ l ∈ textures.connections, l.source.node = "g" ∧ l.target.node ≠ "g" := by
      decide
    obtain ⟨hm, hn⟩ := hsource l hl
    cases placed with
    | nil => exact absurd (List.cons.inj hsplit).1.symm hn
    | cons p placed =>
      rw [hm, (List.cons.inj hsplit).1]
      exact List.mem_cons_self

/-- With the textures the other way round, their uniforms are bound in another order. -/
theorem reordered_pass_agrees_textures :
    let kinds := Palette.builtins ++ ToneMapping.all.map fun f => ("ToneMapping", Kind.function f)
    let reordered := texturesChecked.reordered ["g", "a_map", "a"]
    fresh.palette = Palette.empty.registerAll kinds ∧ fresh.palette.UnderscoreFree ∧
      textures.check = .ok texturesChecked ∧ (fresh.start texturesChecked).result = .ok () ∧
      Topological textures.Feeds textures.nodes.keys reordered.order ∧
      ∃ pass pass', ((fresh.start texturesChecked).compiler.after 4).stage = .completed pass ∧
        ((fresh.start reordered).compiler.after 4).stage = .completed pass' ∧
        pass.draft.uniforms.map (·.1) = ["texture_a_map", "texture_a_umap_map"] ∧
        pass'.draft.uniforms.map (·.1) = ["texture_a_umap_map", "texture_a_map"] ∧
        pass'.values = pass.values ∧ pass'.draft.finish.vertex = pass.draft.finish.vertex ∧
        pass'.draft.finish.uniforms = pass.draft.finish.uniforms := by
  intro kinds reordered
  have hpalette : fresh.palette = Palette.empty.registerAll kinds := rfl
  have hfree : fresh.palette.UnderscoreFree := Palette.underscoreFree_standard
  obtain ⟨-, pass, pass', hstages, -, -, hvalues, hvertex, -, -, huniforms, -⟩ :=
    reordered_pass_agrees hpalette hfree check_textures start_textures topological_textures
  obtain ⟨hstage, hstage'⟩ := hstages 4 (by decide)
  have hnames : ((fresh.start texturesChecked).compiler.after 4).stage.pass?.map
      (·.draft.uniforms.map (·.1)) = some ["texture_a_map", "texture_a_umap_map"] := by decide
  have hnames' : ((fresh.start reordered).compiler.after 4).stage.pass?.map
      (·.draft.uniforms.map (·.1)) = some ["texture_a_umap_map", "texture_a_map"] := by decide
  rw [hstage] at hnames
  rw [hstage'] at hnames'
  exact ⟨hpalette, hfree, check_textures, start_textures, topological_textures, pass, pass', hstage,
    hstage', Option.some.inj hnames, Option.some.inj hnames', hvalues, hvertex, huniforms⟩

end Compiler

end ShaderNodes
