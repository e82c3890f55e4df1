import ShaderNodes.Proofs.Compiler.Independence
import ShaderNodes.Proofs.Graph.Matched
import ShaderNodes.Proofs.Kind.Views

/-!
# Passes over graphs that match

Two graphs that match are compiled in two orders, with other names for everything. A view says what
of a value is compared. Where each kind, on inputs of one view, gives outputs of one view, so do the
two passes: a node and the node that stands for it are fed by nodes that stand for each other, and
the equations carry the view from producers to consumers.

* `Graph.Matches.accepted`: both graphs are taken or neither is.
* `Graph.Matches.view_values`, `Graph.Matches.view_contribution`: what the two passes have and give.
* `Compiler.renamed_pass_agrees`: new ids change names only.
-/

namespace ShaderNodes

open Precedence

namespace Graph.Matches

section Accepted

variable {g g' : Graph} {f : NodeId → NodeId} {palette : Palette} (h : g.Matches f g')

include h

theorem declared {side : Side} {p : Endpoint} (hp : g.Declared palette side p) :
    g'.Declared palette side (p.rename f) := by
  obtain ⟨node, kind, hnode, hkind, hsocket⟩ := hp
  obtain ⟨node', hnode', heq⟩ := h.kinds p.node node hnode
  exact ⟨node', kind, hnode', heq ▸ hkind, hsocket⟩

theorem accepted (hg : g.Accepted palette) : g'.Accepted palette := by
  refine ⟨fun m node' hnode' => ?_, fun l hl => ?_⟩
  · have hm : g'.nodes.contains m = true := Option.isSome_iff_exists.2 ⟨node', hnode'⟩
    obtain ⟨n, hn, rfl⟩ := h.exists_of_contains hm
    obtain ⟨node, hnode⟩ := SortedMap.exists_get? hn
    obtain ⟨node'', hnode'', hkind⟩ := h.kinds n node hnode
    obtain rfl := Option.some.inj (hnode'.symm.trans hnode'')
    rw [hkind]
    exact hg.1 n node hnode
  · obtain ⟨k, hk, rfl⟩ := h.exists_of_mem_connections hl
    exact ⟨h.declared (hg.2 k hk).1, h.declared (hg.2 k hk).2⟩

end Accepted

/-! ## Views -/

section Views

variable {g g' : CheckedGraph} {f : NodeId → NodeId} {palette : Palette}
    {V V' : SortedMap Endpoint Value}
  {α β : Type} {view : Value → α} {shown : Contribution → β} {n : NodeId}
  (h : g.Matches f g'.toGraph) (hjoined : Joined g.nodes g.connections)
  (hrun : g.Runnable palette) (hrun' : g'.Runnable palette)

include h hjoined hrun hrun'

/-- Inputs that stand for each other are fed by outputs that do. -/
theorem view_inflow (hn : g.nodes.contains n = true)
    (hfeeds : ∀ m, g.Feeds m n → ∀ s, (V.get? ⟨m, s⟩).map view = (V'.get? ⟨f m, s⟩).map view)
    (kind : Kind) (s : Name) :
    ((g.inflow V n kind).get? s).map view = ((g'.inflow V' (f n) kind).get? s).map view := by
  rw [get?_inflow hrun.producers, get?_inflow hrun'.producers]
  split
  · rw [h.get?_producers hjoined hrun.producers hrun'.producers hn]
    cases hsource : g.producers.get? ⟨n, s⟩ with
    | none => rfl
    | some source =>
      have hl : ⟨source, ⟨n, s⟩⟩ ∈ g.connections := (hrun.producers source ⟨n, s⟩).1 hsource
      exact hfeeds source.node ⟨_, hl, rfl, rfl⟩ source.socket
  · rfl

variable (hshown : ∀ c c', shown c = shown c' →
    ∀ s, (c.outputs.get? s).map view = (c'.outputs.get? s).map view)
  (hgives : ∀ n node node' kind, g.nodes.get? n = some node → g'.nodes.get? (f n) = some node' →
    palette.get? node.kind = some kind → ∀ inputs inputs' : Inputs,
      (∀ s, (inputs.get? s).map view = (inputs'.get? s).map view) →
      (kind.evaluate ⟨n, node.data, g.connectedOutputs n⟩ inputs).map shown =
        (kind.evaluate ⟨f n, node'.data, g.connectedOutputs n⟩ inputs').map shown)

include hgives

theorem view_contribution_of_feeds (hn : g.nodes.contains n = true)
    (hfeeds : ∀ m, g.Feeds m n → ∀ s, (V.get? ⟨m, s⟩).map view = (V'.get? ⟨f m, s⟩).map view) :
    (g.contribution palette V n).map shown = (g'.contribution palette V' (f n)).map shown := by
  obtain ⟨node, hnode⟩ := SortedMap.exists_get? hn
  obtain ⟨node', hnode', hkind'⟩ := h.kinds n node hnode
  obtain ⟨kind, hkind⟩ := hrun.kinds n node hnode
  have hevaluate := hgives n node node' kind hnode hnode' hkind _ _
    (h.view_inflow hjoined hrun hrun' hn hfeeds kind)
  have htoOption : ∀ x : Except Skip Contribution, x.toOption.map shown =
      (x.map shown).toOption := by
    intro x
    cases x <;> rfl
  rw [contribution_eq hnode hkind, contribution_eq hnode' (hkind' ▸ hkind), htoOption, htoOption,
    hevaluate, h.connectedOutputs hjoined hn]

include hshown

/-- The values of two solutions show the same. -/
theorem view_values (hV : g.Solution palette V) (hV' : g'.Solution palette V')
    (hn : g.nodes.contains n = true) (s : Name) :
    (V.get? ⟨n, s⟩).map view = (V'.get? ⟨f n, s⟩).map view := by
  suffices hplaced : ∀ placed rest, g.order = placed ++ rest →
      ∀ n ∈ placed, ∀ s, (V.get? ⟨n, s⟩).map view = (V'.get? ⟨f n, s⟩).map view by
    have horder := hrun.order.perm.mem_iff.2 (SortedMap.contains_iff_mem_keys.1 hn)
    exact hplaced g.order [] (List.append_nil _).symm n horder s
  intro placed
  induction placed using List.reverseRecOn with
  | nil => simp
  | append_singleton placed n ih =>
    intro rest hsplit k hk s
    have hsplit' : g.order = placed ++ n :: rest := by simpa using hsplit
    have hplaced := ih _ hsplit'
    rcases List.mem_append.1 hk with hk | hk
    · exact hplaced k hk s
    · obtain rfl : k = n := List.mem_singleton.1 hk
      -- The producers of the node come before it, so they show the same already.
      have hkey : k ∈ g.nodes.keys := hrun.order.perm.mem_iff.1 (by simp [hsplit'])
      have hcontains := SortedMap.contains_iff_mem_keys.2 hkey
      have hbefore := hrun.order.before placed k rest hsplit'
      have hgiven := h.view_contribution_of_feeds hjoined hrun hrun' hgives hcontains
        fun m hm => hplaced m (hbefore m hm)
      rw [hV.balanced k hcontains s, hV'.balanced (f k) (h.contains_rename hcontains) s]
      cases hc : g.contribution palette V k with
      | none =>
        rw [hc] at hgiven
        rw [Option.map_eq_none_iff.1 hgiven.symm]
      | some c =>
        rw [hc] at hgiven
        obtain ⟨c', hc', heq⟩ := Option.map_eq_some_iff.1 hgiven.symm
        rw [hc']
        exact hshown c c' heq.symm s

/-- Nodes that stand for each other give what shows the same. -/
theorem view_contribution (hV : g.Solution palette V) (hV' : g'.Solution palette V')
    (hn : g.nodes.contains n = true) :
    (g.contribution palette V n).map shown = (g'.contribution palette V' (f n)).map shown := by
  refine h.view_contribution_of_feeds hjoined hrun hrun' hgives hn fun m hm => ?_
  have hm : g.nodes.contains m = true :=
    SortedMap.contains_iff_mem_keys.2 (source_mem_keys hjoined hm)
  exact h.view_values hjoined hrun hrun' hshown hgives hV hV' hm

end Views

end Graph.Matches

/-! ## New ids -/

theorem length_flatMap_of_perm {α β γ δ : Type} {f : α → β} {F : α → List γ} {F' : β → List δ}
    {l : List α} {l' : List β} (hperm : (l.map f).Perm l')
    (h : ∀ a ∈ l, (F a).length = (F' (f a)).length) :
    (l.flatMap F).length = (l'.flatMap F').length := by
  rw [← (hperm.flatMap_right F').length_eq, List.flatMap_map, List.length_flatMap,
    List.length_flatMap, List.map_congr_left h]

/-- Two nodes add as many statements and as many uniforms, and turn on the same features. -/
structure Graph.SameParts (palette : Palette) (g : Graph) (V : SortedMap Endpoint Value)
    (n : NodeId) (g' : Graph) (V' : SortedMap Endpoint Value) (n' : NodeId) : Prop where
  statements : (g.emitted palette V n).length = (g'.emitted palette V' n').length
  uniforms : (g.uniforms palette V n).length = (g'.uniforms palette V' n').length
  features : ∀ x, .enable x ∈ g.edits palette V n ↔ .enable x ∈ g'.edits palette V' n'

/-- Nodes that stand for each other have the same parts, if both are skipped or both are not. -/
theorem Graph.Matches.sameParts {g g' : Graph} {f : NodeId → NodeId} {palette : Palette}
    {V V' : SortedMap Endpoint Value} {n : NodeId} (h : g.Matches f g')
    (hjoined : Joined g.nodes g.connections) (hn : g.nodes.contains n = true)
    (hgiven : (g.contribution palette V n).isSome = (g'.contribution palette V' (f n)).isSome) :
    SameParts palette g V n g' V' (f n) := by
  cases hc : g.contribution palette V n with
  | none =>
    rw [hc, eq_comm, Option.isSome_none, Option.isSome_eq_false_iff,
      Option.isNone_iff_eq_none] at hgiven
    refine ⟨?_, ?_, fun x => ?_⟩
    · rw [emitted, emitted, hc, hgiven]
    · rw [uniforms, uniforms, edits, edits, hc, hgiven]
    · rw [edits, edits, hc, hgiven]
  | some c =>
    rw [hc, eq_comm, Option.isSome_some, Option.isSome_iff_exists] at hgiven
    obtain ⟨c', hc'⟩ := hgiven
    obtain ⟨node, kind, hnode, hkind, heval⟩ := exists_of_contribution hc
    obtain ⟨node', kind', hnode', hkind', heval'⟩ := exists_of_contribution hc'
    -- The nodes are of one kind, and have the same outputs connected.
    obtain ⟨_, hget, heq⟩ := h.kinds n node hnode
    obtain rfl := Option.some.inj (hnode'.symm.trans hget)
    obtain rfl := Option.some.inj (hkind.symm.trans (heq ▸ hkind'))
    refine ⟨?_, ?_, fun x => ?_⟩
    · rw [emitted, emitted, hc, hc']
      exact (Kind.length_statements_of_evaluate heval).trans
        (Kind.length_statements_of_evaluate heval').symm
    · have huniforms := congrArg List.length (Kind.names_of_evaluate heval).2
      have huniforms' := congrArg List.length (Kind.names_of_evaluate heval').2
      simp only [List.length_map] at huniforms huniforms'
      rw [uniforms, uniforms, edits, edits, hc, hc']
      exact huniforms.trans huniforms'.symm
    · have hfeatures : kind.features ⟨n, node.data, g.connectedOutputs n⟩ =
          kind.features ⟨f n, node'.data, g'.connectedOutputs (f n)⟩ :=
        kind.features_congr (h.connectedOutputs hjoined hn).symm
      have hx := (Kind.edits_of_evaluate heval).2.2 x
      rw [hfeatures] at hx
      rw [edits, edits, hc, hc']
      exact hx.trans ((Kind.edits_of_evaluate heval').2.2 x).symm

namespace Pass.Settled

variable {palette : Palette} {g g' : CheckedGraph} {pass pass' : Pass} {f : NodeId → NodeId}
  (h : pass.Settled palette g g.order) (h' : pass'.Settled palette g' g'.order)
  (hperm : (g.order.map f).Perm g'.order)
  (hparts : ∀ n ∈ g.order, Graph.SameParts palette g.toGraph pass.values n g'.toGraph pass'.values
    (f n))

include h h' hperm hparts

theorem features_of_sameParts : pass'.draft.features = pass.draft.features := by
  refine Features.ext_isEnabled fun x => Bool.eq_iff_iff.2 ?_
  rw [h.isEnabled_iff, h'.isEnabled_iff]
  simp only [← hperm.mem_iff, List.mem_map, exists_exists_and_eq_and]
  exact exists_congr fun n => and_congr_right fun hn => ((hparts n hn).features x).symm

theorem length_statements_of_sameParts :
    pass'.draft.statements.length = pass.draft.statements.length := by
  rw [h.statements, h'.statements]
  exact (length_flatMap_of_perm hperm fun n hn => (hparts n hn).statements).symm

theorem length_uniforms_of_sameParts (hp : palette.Separate) (hnodup : g.order.Nodup)
    (hnodup' : g'.order.Nodup) : pass'.draft.uniforms.length = pass.draft.uniforms.length := by
  rw [h.uniforms hp hnodup, h'.uniforms hp hnodup']
  exact (length_flatMap_of_perm hperm fun n hn => (hparts n hn).uniforms).symm

end Pass.Settled

/-- Where the data is the same too, two solutions have values of the same types, and the same nodes
are skipped. -/
theorem Graph.Matches.types_agree {g g' : CheckedGraph} {f : NodeId → NodeId} {palette : Palette}
    {V V' : SortedMap Endpoint Value} (h : g.Matches f g'.toGraph)
    (hdata : ∀ n node, g.nodes.get? n = some node → g'.nodes.get? (f n) = some node)
    (hjoined : Joined g.nodes g.connections) (hrun : g.Runnable palette)
    (hrun' : g'.Runnable palette) (hV : g.Solution palette V) (hV' : g'.Solution palette V')
    {n : NodeId} (hn : g.nodes.contains n = true) :
    (∀ s, (V.get? ⟨n, s⟩).map Value.type = (V'.get? ⟨f n, s⟩).map Value.type) ∧
      (g.contribution palette V n).isSome = (g'.contribution palette V' (f n)).isSome := by
  have hgives : ∀ n node node' kind, g.nodes.get? n = some node → g'.nodes.get? (f n) = some node' →
      palette.get? node.kind = some kind → ∀ inputs inputs' : Inputs, inputs.SameTypes inputs' →
        (kind.evaluate ⟨n, node.data, g.connectedOutputs n⟩ inputs).map Contribution.typeAt =
          (kind.evaluate ⟨f n, node'.data, g.connectedOutputs n⟩ inputs').map
            Contribution.typeAt := by
    intro n node node' kind hnode hnode' _ inputs inputs' hinputs
    obtain rfl := Option.some.inj ((hdata n node hnode).symm.trans hnode')
    refine Kind.types_evaluate hinputs ?_ kind ?_
    · rfl
    · rfl
  have hshown : ∀ c c' : Contribution, c.typeAt = c'.typeAt →
      ∀ s, (c.outputs.get? s).map Value.type = (c'.outputs.get? s).map Value.type :=
    fun c c' hc s => congrFun hc s
  have hgiven := h.view_contribution hjoined hrun hrun' hshown hgives hV hV' hn
  refine ⟨h.view_values hjoined hrun hrun' hshown hgives hV hV' hn, ?_⟩
  simpa only [Option.isSome_map] using congrArg Option.isSome hgiven

namespace Compiler

/-- New ids for the nodes of a graph, in any order, change names only. The renamed graph passes the
check and is accepted. When both passes are completed, a socket has a value in one just if it has
one in the other, and of the same type. The vertex programs and the flags are the same, and there
are as many statements. If no kind has an underscore in its name, there are as many uniforms. -/
theorem renamed_pass_agrees {c : Compiler} {g : Graph} {cg : CheckedGraph}
    {rename : NodeId → NodeId} (hg : g.check = .ok cg) (hs : (c.start cg).result = .ok ())
    (hrename : Set.InjOn rename {n | g.nodes.contains n = true}) :
    Graph.ofParts (g.nodes.entries.map fun e => (rename e.1, e.2))
        (g.connections.map (Link.rename rename)) = .ok (g.rename rename) ∧
      ∃ cg' pass pass',
        (g.rename rename).check = .ok cg' ∧ (c.start cg').result = .ok () ∧
        (∀ k, cg.order.length < k →
          ((c.start cg).compiler.after k).stage = .completed pass ∧
            ((c.start cg').compiler.after k).stage = .completed pass') ∧
        (c.process cg).result = .ok pass.draft.finish ∧
        (c.process cg').result = .ok pass'.draft.finish ∧
        (∀ n, g.nodes.contains n = true → ∀ s,
          (pass'.values.get? ⟨rename n, s⟩).map Value.type =
            (pass.values.get? ⟨n, s⟩).map Value.type) ∧
        (∀ p v, pass'.values.get? p = some v → ∃ n, g.nodes.contains n = true ∧ rename n = p.node) ∧
        pass'.draft.finish.vertex = pass.draft.finish.vertex ∧
        pass'.draft.finish.usesLighting = pass.draft.finish.usesLighting ∧
        pass'.draft.finish.requiresDerivatives = pass.draft.finish.requiresDerivatives ∧
        pass'.draft.statements.length = pass.draft.statements.length ∧
        (c.palette.UnderscoreFree →
          pass'.draft.uniforms.length = pass.draft.uniforms.length ∧
            pass'.draft.finish.uniforms.size = pass.draft.finish.uniforms.size) := by
  obtain ⟨rfl, hjoined, -⟩ := Graph.check_ok hg
  have hmatches := Graph.matches_rename hrename hjoined (Graph.singleFed_of_check hg)
  obtain ⟨cg', hg', hperm⟩ := hmatches.exists_check hg
  have hobjection := (start_ok hs).1
  have hobjection' : objection? c.palette (cg.rename rename) = none :=
    objection?_eq_none_iff.2 (hmatches.accepted (objection?_eq_none_iff.1 hobjection))
  have hrun := runnable_of_check hg hobjection
  have hrun' := runnable_of_check hg' hobjection'
  have hgraph := (Graph.check_ok hg').1
  rw [← hgraph] at hmatches hobjection'
  have hdata : ∀ n node, cg.nodes.get? n = some node → cg'.nodes.get? (rename n) = some node := by
    intro n node hnode
    rw [hgraph]
    exact (Graph.get?_nodes_rename hrename).2 ⟨n, hnode, rfl⟩
  obtain ⟨pass, h, hconfig, hcompleted, hresult⟩ := exists_completed hrun hobjection
  obtain ⟨pass', h', hconfig', hcompleted', hresult'⟩ := exists_completed hrun' hobjection'
  have hV' := h'.solution hrun'
  have htypes := fun n (hn : cg.nodes.contains n = true) =>
    hmatches.types_agree hdata hjoined hrun hrun' (h.solution hrun) hV' hn
  have hparts : ∀ n ∈ cg.order, Graph.SameParts c.palette cg.toGraph pass.values n cg'.toGraph
      pass'.values (rename n) := by
    intro n hn
    have hn := SortedMap.contains_iff_mem_keys.2 (hrun.order.perm.mem_iff.1 hn)
    exact hmatches.sameParts hjoined hn (htypes n hn).2
  have hfeatures := h.features_of_sameParts h' hperm hparts
  have huniforms (hfree : c.palette.UnderscoreFree) :=
    h.length_uniforms_of_sameParts h' hperm hparts hfree.separate
      (hrun.order.nodup cg.nodes.keys_nodup) (hrun'.order.nodup cg'.nodes.keys_nodup)
  refine ⟨Graph.ofParts_rename hrename, cg', pass, pass', hg',
    (start_of_no_objection hobjection').2, fun k hk => ⟨hcompleted k hk, hcompleted' k ?_⟩, hresult,
    hresult', fun n hn s => ((htypes n hn).1 s).symm, fun p v hp =>
    hmatches.exists_of_contains (hV'.at_nodes p v hp),
    Draft.vertex_congr (hconfig'.trans hconfig.symm) hfeatures, congrArg Features.light hfeatures,
    congrArg Features.normalMap hfeatures, h.length_statements_of_sameParts h' hperm hparts,
    fun hfree => ⟨huniforms hfree, ?_⟩⟩
  · rw [← hperm.length_eq, List.length_map]
    exact hk
  · exact (SortedMap.size_ofList h'.uniforms_nodup).trans
      ((huniforms hfree).trans (SortedMap.size_ofList h.uniforms_nodup).symm)

/-- New ids that put the textures the other way round. -/
def swapped (n : NodeId) : NodeId := if n = "a" then "z;" else if n = "a_map" then "b_" else n

theorem renamed_pass_agrees_textures :
    textures.check = .ok texturesChecked ∧ (fresh.start texturesChecked).result = .ok () ∧
      Set.InjOn swapped {n | textures.nodes.contains n = true} ∧ fresh.palette.UnderscoreFree ∧
      ∃ cg' pass pass', (textures.rename swapped).check = .ok cg' ∧ cg'.order = ["g", "b_", "z;"] ∧
        ((fresh.start texturesChecked).compiler.after 4).stage = .completed pass ∧
        ((fresh.start cg').compiler.after 4).stage = .completed pass' ∧
        pass.draft.locals = ["texture_a", "texture_a_umap"] ∧
        (pass.values.get? ⟨"a", "rgb"⟩).map Value.type = some .vec3 ∧
        (pass'.values.get? ⟨"z;", "rgb"⟩).map Value.type = some .vec3 ∧
        pass'.draft.finish.vertex = pass.draft.finish.vertex ∧
        pass'.draft.finish.uniforms.size = pass.draft.finish.uniforms.size := by
  have hkeys : ∀ n ∈ textures.nodes.keys, ∀ m ∈ textures.nodes.keys, swapped n = swapped m →
      n = m := by
    decide
  have hswapped : Set.InjOn swapped {n | textures.nodes.contains n = true} := fun n hn m hm =>
    hkeys n (SortedMap.contains_iff_mem_keys.1 hn) m (SortedMap.contains_iff_mem_keys.1 hm)
  have hfree : fresh.palette.UnderscoreFree := Palette.underscoreFree_standard
  obtain ⟨-, cg', pass, pass', hcheck, -, hstages, -, -, htypes, -, hvertex, -, -, -, huniforms⟩ :=
    renamed_pass_agrees check_textures start_textures hswapped
  obtain ⟨hstage, hstage'⟩ := hstages 4 (by decide)
  have horder : (textures.rename swapped).check.toOption.map (·.order) =
      some ["g", "b_", "z;"] := by
    decide
  have hpass : ((fresh.start texturesChecked).compiler.after 4).stage.pass?.map
      (fun pass => (pass.draft.locals, (pass.values.get? ⟨"a", "rgb"⟩).map Value.type)) =
        some (["texture_a", "texture_a_umap"], some .vec3) := by decide +kernel
  rw [hcheck] at horder
  rw [hstage] at hpass
  obtain ⟨hlocals, htype⟩ := Prod.mk.inj (Option.some.inj hpass)
  exact ⟨check_textures, start_textures, hswapped, hfree, cg', pass, pass', hcheck,
    Option.some.inj horder, hstage, hstage', hlocals, htype,
    (htypes "a" (by decide) "rgb").trans htype, hvertex, (huniforms hfree).2⟩

end Compiler

end ShaderNodes
