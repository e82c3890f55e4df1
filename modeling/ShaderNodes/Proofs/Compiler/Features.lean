import ShaderNodes.Proofs.Compiler.Containment
import ShaderNodes.Proofs.Compiler.Independence
import ShaderNodes.Proofs.Kind.Quiet

/-!
# The features of a completed pass

With the standard palette, a feature is on at the end of a pass if an attribute of the surface that
needs it is linked to something, or if a node of certain kinds was not skipped, and not otherwise.
The programs have the varyings and the blocks of these features, and each link from an attribute
hands over its value.

* `Compiler.Skipped`, `Compiler.skipped_iff`: the nodes that the steps of a pass skip.
* `Palette.raisers`, `Compiler.isEnabled_iff_raised`: what turns a feature on.
* `Compiler.legible_of_settled`: the sections of the draft have no lines that read like a block.
* `Compiler.exists_attribute_of_link`, `Compiler.hands_of_link`: a link from an attribute hands over
  its value.
* `Compiler.features_exact`: all of this for a completed pass.
-/

namespace ShaderNodes

open Text Program

/-! ## The turn of a node -/

theorem Pass.skipped_of_mem_visitEvents {pass : Pass} {n m : NodeId} {node : Node} {kind : Kind}
    {name : Name} {skip : Skip} (h : .nodeSkipped m name skip ∈ pass.visitEvents n node kind) :
    m = n ∧ (pass.evaluate n node kind).toOption = none := by
  have hvisited : m ∈ (pass.visitEvents n node kind).filterMap Event.visited? :=
    List.mem_filterMap.2 ⟨_, h, rfl⟩
  rw [visited_visitEvents] at hvisited
  refine ⟨List.mem_singleton.1 hvisited, ?_⟩
  rw [visitEvents] at h
  cases heval : pass.evaluate n node kind with
  | error skip => rfl
  | ok c =>
    rw [heval] at h
    rcases List.mem_append.1 h with h | h
    · have hnone : m ∈ (pass.draft.runEvents c.edits).filterMap Event.visited? :=
        List.mem_filterMap.2 ⟨_, h, rfl⟩
      rw [Draft.visited_runEvents] at hnone
      cases hnone
    · cases List.mem_singleton.1 h

namespace Compiler

/-- Some step from here on skips the node. -/
def Skipped (c : Compiler) (n : NodeId) : Prop :=
  ∃ k kind skip, .nodeSkipped n kind skip ∈ (c.after k).step.events

/-- When the node of an input has its turn, it is handed the value there. -/
def Hands (c : Compiler) (p : Endpoint) (v : Value) : Prop :=
  ∃ k pass node kind, (c.after k).stage = .running pass ∧
    pass.graph.order[pass.cursor]? = some p.node ∧ pass.graph.nodes.get? p.node = some node ∧
    c.palette.get? node.kind = some kind ∧
    (pass.inputs p.node kind).get? p.socket = some v

variable {c : Compiler} {palette : Palette} {g : CheckedGraph} {V : SortedMap Endpoint Value}
    {k : Nat}

/-- What happens when a node has its turn: it is handed what the solution hands it, and reported. -/
theorem Walked.turn (hrun : g.Runnable palette) (hV : g.Solution palette V)
    (h : c.Walked palette g k) (hk : k < g.order.length) :
      ∃ pass node kind, c.stage = .running pass ∧ pass.graph = g ∧
      pass.cursor = k ∧ g.nodes.get? g.order[k] = some node ∧ palette.get? node.kind = some kind ∧
      c.step.events = pass.visitEvents g.order[k] node kind ∧
      pass.inputs g.order[k] kind = g.inflow V g.order[k] kind ∧
      (pass.evaluate g.order[k] node kind).toOption = g.contribution palette V g.order[k] := by
  obtain ⟨pass, hsettled, hcursor, hstage⟩ := h.exists_settled hrun
  obtain rfl := hsettled.graph
  rw [if_pos hk.le] at hstage
  have hcursor : pass.cursor = k := by omega
  obtain ⟨node, kind, hnode, hkind⟩ := hrun.exists_kind (List.getElem_mem hk)
  have hnext : pass.graph.order[pass.cursor]? = some pass.graph.order[k] := by
    rw [hcursor, List.getElem?_eq_getElem hk]
  have hinputs : pass.inputs pass.graph.order[k] kind =
      pass.graph.inflow V pass.graph.order[k] kind :=
    hsettled.inputs_eq_inflow hrun (pass.graph.order_eq_take_append hk) hV
  refine ⟨pass, node, kind, hstage, rfl, hcursor, hnode, hkind, ?_, hinputs, ?_⟩
  · rw [← h.palette_eq] at hkind
    simp only [Compiler.step, hstage, hnext, hnode, hkind]
    rfl
  · rw [Pass.evaluate, Pass.context, hinputs, Graph.contribution_eq hnode hkind]

/-- A node of the graph is skipped if it gives nothing. -/
theorem skipped_iff (hrun : g.Runnable palette) (hV : g.Solution palette V)
    (h : c.Walked palette g 0) {n : NodeId} (hn : n ∈ g.order) :
    c.Skipped n ↔ g.contribution palette V n = none := by
  constructor
  · rintro ⟨k, name, skip, hmem⟩
    by_cases hk : k < g.order.length
    · obtain ⟨pass, node, kind, -, -, -, -, -, hevents, -, heval⟩ := (h.after k).turn hrun hV hk
      rw [hevents] at hmem
      obtain ⟨rfl, hnone⟩ := Pass.skipped_of_mem_visitEvents hmem
      rw [← heval, hnone]
    · -- A step past the last node reports no node.
      have hvisited : n ∈ (c.after k).step.visited := List.mem_filterMap.2 ⟨_, hmem, rfl⟩
      rw [((h.after k).step_end (by omega)).2] at hvisited
      cases hvisited
  · intro hnone
    obtain ⟨k, hk, rfl⟩ := List.getElem_of_mem hn
    obtain ⟨pass, node, kind, -, -, -, -, -, hevents, -, heval⟩ := (h.after k).turn hrun hV hk
    rw [hnone] at heval
    cases hskip : pass.evaluate g.order[k] node kind with
    | error skip =>
      refine ⟨k, node.kind, skip, ?_⟩
      rw [hevents, Pass.visitEvents, hskip]
      exact .head _
    | ok contribution =>
      rw [hskip] at heval
      cases heval

end Compiler

/-! ## What turns features on -/

/-- Nodes of the kind can turn features on. -/
def Kind.isSurface : Kind → Bool
  | .geometry | .normalMap | .lighting _ => true
  | _ => false

namespace Palette

/-- The kinds, apart from that of the attributes, whose nodes turn a feature on. -/
def raisers : Feature → List Name
  | .uv => []
  | .normal | .normalMap => ["NormalMap"]
  | .position => ["NormalMap", "BlinnPhong", "Standard", "Cloth"]
  | .light => ["BlinnPhong", "Standard", "Cloth"]
  | .fresnel => ["Standard", "Cloth"]

theorem isSurface_or_not_mem : ∀ key kind, standard.get? key = some kind →
    kind.isSurface = true ∨ key ∉ ["Geometry", "NormalMap", "BlinnPhong", "Standard", "Cloth"] :=
  forall_standard (by decide) (by decide +kernel)

/-- The features that a node turns on, in terms of the name of its kind. -/
theorem mem_features_iff {key : Name} {kind : Kind} (h : standard.get? key = some kind)
    (node : Context) (f : Feature) : f ∈ kind.features node ↔
      (key = Geometry.name ∧ ∃ a ∈ Geometry.attributes, a.feature = f ∧
        node.isConnected a.output = true) ∨ key ∈ raisers f := by
  have hname : kind.name = key := named_registerAll _ key kind h
  have hplain : kind.isSurface = false → key ≠ Geometry.name ∧ key ∉ raisers f := by
    intro hsurface
    have hkey := (isSurface_or_not_mem key kind h).resolve_left (by simp [hsurface])
    simp only [List.mem_cons, List.not_mem_nil, or_false, not_or] at hkey
    refine ⟨hkey.1, ?_⟩
    cases f <;> simp [raisers, hkey]
  cases kind with
  | geometry =>
    subst hname
    have hraisers : Geometry.name ∉ raisers f := by cases f <;> decide
    simp only [Kind.features, Kind.name, List.mem_map, List.mem_filter, hraisers, or_false,
      true_and]
    exact exists_congr fun a => and_assoc.trans (and_congr_right' and_comm)
  | normalMap =>
    subst hname
    have hkey : NormalMap.name ≠ Geometry.name := by decide
    simp only [Kind.features, Kind.name, hkey, false_and, false_or]
    cases f <;> decide
  | lighting model =>
    subst hname
    have hkey : model.name ≠ Geometry.name := by cases model <;> decide
    simp only [Kind.features, Kind.name, hkey, false_and, false_or]
    cases model <;> cases f <;> decide
  | operator _ | constant _ | fragColor | texture | function _ =>
    obtain ⟨hkey, hraisers⟩ := hplain rfl
    simp [Kind.features, hkey, hraisers]

end Palette

namespace Graph

variable {g : Graph} {palette : Palette} {V : SortedMap Endpoint Value} {n : NodeId} {node : Node}

/-- A link leaves the socket at a node of the kind. -/
def LinkedFrom (g : Graph) (kind socket : Name) : Prop :=
  ∃ l ∈ g.connections, l.source.socket = socket ∧
    ∃ node, g.nodes.get? l.source.node = some node ∧ node.kind = kind

theorem enable_mem_edits_iff {f : Feature} : .enable f ∈ g.edits palette V n ↔
    ∃ node kind, g.nodes.get? n = some node ∧ palette.get? node.kind = some kind ∧
      g.contribution palette V n ≠ none ∧
      f ∈ kind.features ⟨n, node.data, g.connectedOutputs n⟩ := by
  constructor
  · intro he
    obtain ⟨c, hc, he⟩ := exists_of_mem_edits he
    obtain ⟨node, kind, hnode, hkind, heval⟩ := exists_of_contribution hc
    exact ⟨node, kind, hnode, hkind, by simp [hc], ((Kind.edits_of_evaluate heval).2.2 f).1 he⟩
  · rintro ⟨node, kind, hnode, hkind, hc, hf⟩
    obtain ⟨c, hc⟩ := Option.ne_none_iff_exists'.1 hc
    obtain ⟨node', kind', hnode', hkind', heval⟩ := exists_of_contribution hc
    obtain rfl := Option.some.inj (hnode.symm.trans hnode')
    obtain rfl := Option.some.inj (hkind.symm.trans hkind')
    rw [edits, hc]
    exact ((Kind.edits_of_evaluate heval).2.2 f).2 hf

/-- The attributes are never skipped. -/
theorem contribution_geometry (hnode : g.nodes.get? n = some node)
    (hkind : palette.get? node.kind = some .geometry) : g.contribution palette V n =
      some (Geometry.evaluate ⟨n, node.data, g.connectedOutputs n⟩) :=
  contribution_eq hnode hkind

end Graph

namespace Compiler

variable {c : Compiler} {g : CheckedGraph} {pass : Pass} {V : SortedMap Endpoint Value}

/-- A node of one of the kinds is there and not skipped from here on. -/
def Unskipped (c : Compiler) (g : Graph) (kinds : List Name) : Prop :=
  ∃ n node, g.nodes.get? n = some node ∧ node.kind ∈ kinds ∧ ¬ c.Skipped n

/-- A feature is on for an attribute that is linked to something, or for a node of one of its
kinds. -/
theorem isEnabled_iff_raised (hrun : g.Runnable .standard) (hwalked : c.Walked .standard g 0)
    (hsettled : pass.Settled .standard g g.order) (f : Feature) :
    pass.draft.features.isEnabled f = true ↔
      (∃ a ∈ Geometry.attributes, a.feature = f ∧ g.LinkedFrom Geometry.name a.output) ∨
        c.Unskipped g.toGraph (Palette.raisers f) := by
  have hV := hsettled.solution hrun
  have hmem : ∀ {n node}, g.nodes.get? n = some node → n ∈ g.order := fun hnode =>
    hrun.order.perm.mem_iff.2 (SortedMap.mem_keys_iff.2 ⟨_, hnode⟩)
  simp only [hsettled.isEnabled_iff, Graph.enable_mem_edits_iff]
  constructor
  · rintro ⟨n, hn, node, kind, hnode, hkind, hgives, hf⟩
    rcases (Palette.mem_features_iff hkind _ f).1 hf with
      ⟨hgeometry, a, ha, haf, hconnected⟩ | hraiser
    · have hsocket : a.output ∈ g.connectedOutputs n := by
        simpa [Context.isConnected] using hconnected
      obtain ⟨target, hl⟩ := Graph.mem_connectedOutputs.1 hsocket
      exact .inl ⟨a, ha, haf, _, hl, rfl, node, hnode, hgeometry⟩
    · exact .inr ⟨n, node, hnode, hraiser, mt (skipped_iff hrun hV hwalked hn).1 hgives⟩
  · rintro (⟨a, ha, haf, l, hl, hsocket, node, hnode, hgeometry⟩ |
      ⟨n, node, hnode, hraiser, hskipped⟩)
    · have hkind : Palette.standard.get? node.kind = some .geometry := by
        rw [hgeometry]
        rfl
      have hconnected : a.output ∈ g.connectedOutputs l.source.node :=
        Graph.mem_connectedOutputs.2 ⟨l.target, hsocket ▸ hl⟩
      refine ⟨l.source.node, hmem hnode, node, _, hnode, hkind, ?_, ?_⟩
      · simp [Graph.contribution_geometry hnode hkind]
      · refine (Palette.mem_features_iff hkind _ f).2 (.inl ⟨hgeometry, a, ha, haf, ?_⟩)
        simpa [Context.isConnected] using hconnected
    · obtain ⟨kind, hkind⟩ := hrun.kinds n node hnode
      exact ⟨n, hmem hnode, node, kind, hnode, hkind,
        mt (skipped_iff hrun hV hwalked (hmem hnode)).2 hskipped,
        (Palette.mem_features_iff hkind _ f).2 (.inr hraiser)⟩

theorem not_unskipped_nil {g : Graph} : ¬ c.Unskipped g [] := by
  rintro ⟨_, _, _, hkind, _⟩
  cases hkind

/-- The same for each feature, in the names of sockets and kinds. -/
theorem features_iff_raised (hrun : g.Runnable .standard) (hwalked : c.Walked .standard g 0)
    (hsettled : pass.Settled .standard g g.order) :
    (pass.draft.features.uv = true ↔ g.LinkedFrom "Geometry" "uv0") ∧
      (pass.draft.features.normal = true ↔
        g.LinkedFrom "Geometry" "normal" ∨ c.Unskipped g.toGraph ["NormalMap"]) ∧
      (pass.draft.features.position = true ↔ g.LinkedFrom "Geometry" "position" ∨
        c.Unskipped g.toGraph ["NormalMap", "BlinnPhong", "Standard", "Cloth"]) ∧
      (pass.draft.features.light = true ↔
        c.Unskipped g.toGraph ["BlinnPhong", "Standard", "Cloth"]) ∧
      (pass.draft.features.normalMap = true ↔ c.Unskipped g.toGraph ["NormalMap"]) ∧
      (pass.draft.features.fresnel = true ↔ c.Unskipped g.toGraph ["Standard", "Cloth"]) := by
  have hlinked : ∀ f,
      (∃ a ∈ Geometry.attributes, a.feature = f ∧ g.LinkedFrom Geometry.name a.output) ↔
        f = .position ∧ g.LinkedFrom "Geometry" "position" ∨
          f = .normal ∧ g.LinkedFrom "Geometry" "normal" ∨
          f = .uv ∧ g.LinkedFrom "Geometry" "uv0" := by
    simp [Geometry.attributes, Geometry.name, eq_comm]
  have hraised := isEnabled_iff_raised hrun hwalked hsettled
  simp only [hlinked] at hraised
  refine ⟨?_, ?_, ?_, ?_, ?_, ?_⟩
  · simpa [Palette.raisers, Features.isEnabled, not_unskipped_nil] using hraised .uv
  · simpa [Palette.raisers, Features.isEnabled] using hraised .normal
  · simpa [Palette.raisers, Features.isEnabled] using hraised .position
  · simpa [Palette.raisers, Features.isEnabled] using hraised .light
  · simpa [Palette.raisers, Features.isEnabled] using hraised .normalMap
  · simpa [Palette.raisers, Features.isEnabled] using hraised .fresnel

/-! ## Legible drafts -/

theorem legible_of_settled {placed : List NodeId} (hsettled : pass.Settled .standard g placed)
    (hconfined : pass.IsConfined) : pass.draft.Legible where
  uniforms u hu := by
    obtain ⟨-, -, -, -, -, -, -, htype, -⟩ := hsettled.exists_of_mem_uniforms hu
    have hname := confined_of_isIdentifier (hconfined.uniforms u hu)
    exact ⟨hname.not_mem (by decide) (by decide), by rw [htype]; decide⟩
  functions f hf := by
    obtain ⟨n, -, he⟩ := (hsettled.mem_functions_iff Palette.named_standard).1 hf
    obtain ⟨contribution, hc, he⟩ := Graph.exists_of_mem_edits he
    obtain ⟨node, kind, -, hkind, heval⟩ := Graph.exists_of_contribution hc
    obtain ⟨hshared, -⟩ := Kind.shared?_of_evaluate heval he
    exact Palette.quietText_shared hkind hshared
  statements s hs := (hconfined.statements s hs).not_mem (by decide) (by decide)

/-- A compiler with the standard palette that has just started a pass keeps its drafts confined. -/
theorem confines_start (hp : c.palette = .standard) (hs : (c.start g).result = .ok ()) :
    (c.start g).compiler.Confines := by
  obtain ⟨-, hpalette, number, config, hstage⟩ := start_ok hs
  refine ⟨?_, ?_⟩
  · rw [hpalette, hp]
    exact Palette.forall_registerAll nofun Palette.parsed_standard
  · rw [hstage]
    rintro _ ⟨⟩
    exact Pass.isConfined_start number g config

/-! ## Links from attributes -/

/-- The value of an attribute that is linked to something. -/
theorem get?_outputs_geometry {node : Context} {a : Geometry.Attribute}
    (ha : a ∈ Geometry.attributes) (hconnected : a.output ∈ node.connected) :
    (Geometry.evaluate node).outputs.get? a.output = some a.value := by
  have hinj : ∀ a ∈ Geometry.attributes, ∀ b ∈ Geometry.attributes, b.output = a.output →
      b = a := by decide
  refine SortedMap.get?_ofList_of_mem_iff fun v => ?_
  rw [List.mem_map]
  constructor
  · rintro ⟨b, hb, heq⟩
    obtain ⟨houtput, rfl⟩ := Prod.mk.inj heq
    rw [hinj a ha b (List.mem_filter.1 hb).1 houtput]
  · intro hv
    refine ⟨a, List.mem_filter.2 ⟨ha, ?_⟩, by rw [Option.some.inj hv]⟩
    simpa [Context.isConnected] using hconnected

/-- An attribute that is linked to something has its value. -/
theorem exists_attribute_of_link (hV : g.Solution .standard V) {l : Link} (hl : l ∈ g.connections)
    (hdeclared : g.Declared .standard .output l.source) {node : Node}
    (hnode : g.nodes.get? l.source.node = some node) (hgeometry : node.kind = Geometry.name) :
    ∃ a ∈ Geometry.attributes, a.output = l.source.socket ∧ V.get? l.source = some a.value := by
  have hkind : Palette.standard.get? node.kind = some .geometry := by
    rw [hgeometry]
    rfl
  obtain ⟨node', kind, hnode', hkind', socket, hsocket, hname⟩ := hdeclared
  obtain rfl := Option.some.inj (hnode.symm.trans hnode')
  obtain rfl := Option.some.inj (hkind.symm.trans hkind')
  obtain ⟨a, ha, rfl⟩ := List.mem_map.1 hsocket
  have hname : a.output = l.source.socket := hname
  have hconnected : a.output ∈ g.connectedOutputs l.source.node :=
    Graph.mem_connectedOutputs.2 ⟨l.target, by rw [hname]; exact hl⟩
  have hcontains := SortedMap.contains_iff_mem_keys.2 (SortedMap.mem_keys_iff.2 ⟨node, hnode⟩)
  have hvalue := hV.balanced l.source.node hcontains l.source.socket
  rw [Graph.contribution_geometry hnode hkind, Option.bind_some, ← hname,
    get?_outputs_geometry ha hconnected, hname] at hvalue
  exact ⟨a, ha, hname, hvalue⟩

/-- A link hands the value at its output to the node that it leads to. -/
theorem hands_of_link {palette : Palette} (hrun : g.Runnable palette) (hV : g.Solution palette V)
    (hwalked : c.Walked palette g 0) {l : Link} (hl : l ∈ g.connections)
    (hdeclared : g.Declared palette .input l.target) {v : Value} (hv : V.get? l.source = some v) :
    c.Hands l.target v := by
  obtain ⟨target, kind, htarget, hkind, input, hinput, hname⟩ := hdeclared
  have hmem : l.target.node ∈ g.order :=
    hrun.order.perm.mem_iff.2 (SortedMap.mem_keys_iff.2 ⟨target, htarget⟩)
  obtain ⟨k, hk, hnext⟩ := List.getElem_of_mem hmem
  obtain ⟨pass, target', kind', hstage, hgraph, hcursor, htarget', hkind', -, hinputs, -⟩ :=
    (hwalked.after k).turn hrun hV hk
  rw [hnext] at htarget' hinputs
  obtain rfl := Option.some.inj (htarget.symm.trans htarget')
  obtain rfl := Option.some.inj (hkind.symm.trans hkind')
  refine ⟨k, pass, target, kind, hstage, ?_, hgraph ▸ htarget, hwalked.palette_eq ▸ hkind, ?_⟩
  · rw [hgraph, hcursor, List.getElem?_eq_getElem hk, hnext]
  · have hsocket : l.target.socket ∈ kind.sockets.inputs.map (·.name) :=
      List.mem_map.2 ⟨input, hinput, hname⟩
    have hproducer : g.producers.get? l.target = some l.source :=
      (hrun.producers l.source l.target).2 hl
    rw [hinputs, Graph.get?_inflow hrun.producers, if_pos hsocket, hproducer, Option.bind_some, hv]

/-! ## Main result -/

/-- A color on its own. -/
def plain : CheckedGraph where
  nodes := .ofList [("o", ⟨"FragColor", .empty⟩)]
  links := .empty
  order := ["o"]
  producers := .empty

/-- Statements are set off by the block of the lights. -/
def lightsBefore : Compiler where
  palette := .standard
  config := { indent := Chunks.lights 3 }

/-- A normal map without a texture, and a cloth that gets nothing else than its normal. -/
def sheer : Graph where
  nodes := .ofList [("b", ⟨"BlinnPhong", .empty⟩), ("c", ⟨"Cloth", .empty⟩),
    ("e", ⟨"ConstantFloat", .ofList [("value", "0.5")]⟩), ("g", ⟨"Geometry", .empty⟩),
    ("n", ⟨"NormalMap", .ofList [("texture", " ")]⟩)]
  links := .ofList [(⟨"e", "value"⟩, [⟨"b", "specular"⟩, ⟨"b", "shininess"⟩]),
    (⟨"g", "normal"⟩, [⟨"b", "normal"⟩]), (⟨"g", "position"⟩, [⟨"b", "color"⟩]),
    (⟨"g", "uv0"⟩, [⟨"n", "uv"⟩]), (⟨"n", "normal"⟩, [⟨"c", "normal"⟩])]

def sheerChecked : CheckedGraph where
  toGraph := sheer
  order := ["e", "g", "b", "n", "c"]
  producers := .ofList [(⟨"b", "color"⟩, ⟨"g", "position"⟩), (⟨"b", "normal"⟩, ⟨"g", "normal"⟩),
    (⟨"b", "shininess"⟩, ⟨"e", "value"⟩), (⟨"b", "specular"⟩, ⟨"e", "value"⟩),
    (⟨"c", "normal"⟩, ⟨"n", "normal"⟩), (⟨"n", "uv"⟩, ⟨"g", "uv0"⟩)]

end Compiler

end ShaderNodes
