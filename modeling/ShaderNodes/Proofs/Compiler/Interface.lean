import ShaderNodes.Proofs.Compiler.Declarations
import ShaderNodes.Proofs.Graph.Listing
import ShaderNodes.Proofs.Kind.Interface

/-!
# The values of a pass and the sockets of the nodes

At any time in a pass the nodes that had their turn have values at outputs that their kinds declare,
of the types declared there. A node has values at all of its outputs or at none; geometry has them
at the outputs that feed something. What a pass has found it keeps.

* `Graph.Balanced.exists_fills`: the values at a node fill its outputs.
* `Graph.Balanced.geometry_iff`: where a geometry node has values.
* `Pass.Settled.agree`: passes over a graph agree on the nodes that both have visited.
* `Compiler.values_fit_sockets`: the values of a pass respect the sockets, and are kept.
-/

namespace ShaderNodes

namespace Graph.Balanced

variable {g : Graph} {palette : Palette} {V : SortedMap Endpoint Value} {n : NodeId}

/-- A node with a value has the values that its kind gives at its live outputs. -/
theorem exists_fills {s : Name} {v : Value} (h : g.Balanced palette V n)
    (hv : V.get? ⟨n, s⟩ = some v) : ∃ node kind outputs, g.nodes.get? n = some node ∧
      palette.get? node.kind = some kind ∧
      Fills outputs (kind.live ⟨n, node.data, g.connectedOutputs n⟩) ∧
      ∀ s, V.get? ⟨n, s⟩ = outputs.get? s := by
  cases hc : g.contribution palette V n with
  | none =>
    rw [h s, hc] at hv
    cases hv
  | some c =>
    obtain ⟨node, kind, hnode, hkind, heval⟩ := exists_of_contribution hc
    refine ⟨node, kind, c.outputs, hnode, hkind, Kind.fills_of_evaluate heval, fun s => ?_⟩
    rw [h s, hc]
    rfl

/-- Geometry has values at the outputs that feed something. -/
theorem geometry_iff {node : Node} {socket : SocketDecl} (h : g.Balanced palette V n)
    (hnode : g.nodes.get? n = some node) (hkind : palette.get? node.kind = some .geometry)
    (hsocket : socket ∈ Geometry.sockets.outputs) :
    (∃ v, V.get? ⟨n, socket.name⟩ = some v) ↔
    ∃ target, ⟨⟨n, socket.name⟩, target⟩ ∈ g.connections := by
  let context : Context := ⟨n, node.data, g.connectedOutputs n⟩
  have hfills : Fills (Geometry.evaluate context).outputs (Kind.geometry.live context) :=
    Kind.fills_of_evaluate (show Kind.geometry.evaluate context .empty = _ from rfl)
  have hget : V.get? ⟨n, socket.name⟩ = (Geometry.evaluate context).outputs.get? socket.name := by
    rw [h socket.name, contribution, hnode]
    simp only [Option.bind_eq_bind, Option.bind_some, hkind]
    rfl
  have hconnected : ∀ decl : SocketDecl, context.isConnected decl.name = true ↔
      ∃ target, ⟨⟨n, decl.name⟩, target⟩ ∈ g.connections := by
    intro decl
    rw [Context.isConnected, List.contains_iff_mem, mem_connectedOutputs]
  rw [hget]
  constructor
  · rintro ⟨v, hv⟩
    obtain ⟨decl, hlive, hname, -⟩ := hfills.admits _ _ hv
    rw [← hname]
    exact (hconnected decl).1 (List.mem_filter.1 hlive).2
  · intro hlink
    exact hfills.present socket (List.mem_filter.2 ⟨hsocket, (hconnected socket).2 hlink⟩)

end Graph.Balanced

/-- What two passes have found at the nodes that both have visited is the same. -/
theorem Pass.Settled.agree {palette : Palette} {g : CheckedGraph} {j k : Nat} {pass pass' : Pass}
    (hrun : g.Runnable palette) (hjk : j ≤ k) (h : pass.Settled palette g (g.order.take j))
    (h' : pass'.Settled palette g (g.order.take k)) :
    ∀ n ∈ g.order.take j, ∀ s, pass.values.get? ⟨n, s⟩ = pass'.values.get? ⟨n, s⟩ :=
  Graph.Balanced.agree hrun.order (List.take_append_drop j g.order).symm h.balanced fun n hn =>
    h'.balanced n ((List.take_prefix_take_left hjk).subset hn)

namespace Compiler

/-- The cursor of a pass stands after the nodes that it has visited. -/
theorem take_cursor_of_pass? {c : Compiler} {g : Graph} {cg : CheckedGraph} {k : Nat} {pass : Pass}
    (hg : g.check = .ok cg) (hs : (c.start cg).result = .ok ())
    (hpass : ((c.start cg).compiler.after k).stage.pass? = some pass) :
    cg.order.take pass.cursor = cg.order.take k := by
  obtain ⟨-, -, -, hcursor⟩ := visited_of_pass? hg hs hpass
  by_cases hk : k ≤ cg.order.length
  · rw [hcursor, Nat.min_eq_left hk]
  · rw [hcursor, List.take_of_length_le (by omega), List.take_of_length_le (by omega)]

/-- At any time in a pass, each value is at a node that had its turn, at an output that its kind
declares, and of the type declared there if there is one. Such a node has values at all outputs of
its kind, except for geometry, which has them at those that feed something. No value is changed or
lost later in the pass. -/
theorem values_fit_sockets {c : Compiler} {g : Graph} {cg : CheckedGraph} (hg : g.check = .ok cg)
    (hs : (c.start cg).result = .ok ()) :
    (∀ k pass, ((c.start cg).compiler.after k).stage.pass? = some pass →
      (∀ p v, pass.values.get? p = some v →
        p.node ∈ cg.order.take pass.cursor ∧
        ∃ node kind socket, g.nodes.get? p.node = some node ∧ c.palette.get? node.kind = some kind ∧
          kind.sockets.find? .output p.socket = some socket ∧
          (∀ type, socket.type = some type → v.type = type) ∧
          (kind ≠ .geometry → ∀ other ∈ kind.sockets.outputs,
            ∃ w, pass.values.get? ⟨p.node, other.name⟩ = some w)) ∧
      ∀ n ∈ cg.order.take pass.cursor, ∀ node, g.nodes.get? n = some node →
        c.palette.get? node.kind = some .geometry → ∀ socket ∈ Geometry.sockets.outputs,
          (∃ v, pass.values.get? ⟨n, socket.name⟩ = some v) ↔
            ∃ target, ⟨⟨n, socket.name⟩, target⟩ ∈ g.connections) ∧
      ∀ j k pass pass', j ≤ k → ((c.start cg).compiler.after j).stage.pass? = some pass →
        ((c.start cg).compiler.after k).stage.pass? = some pass' →
        ∀ p v, pass.values.get? p = some v → pass'.values.get? p = some v := by
  refine ⟨fun k pass hpass => ?_, fun j k pass pass' hjk hpass hpass' p v hv => ?_⟩
  · have hcursor := take_cursor_of_pass? hg hs hpass
    obtain ⟨rfl, -, hsettled⟩ := settled_of_pass? hg hs hpass
    rw [hcursor]
    refine ⟨fun p v hv => ?_, fun n hn node hnode hkind socket hsocket => ?_⟩
    · have hp := hsettled.within p v hv
      obtain ⟨node, kind, outputs, hnode, hkind, hfills, hget⟩ :=
        (hsettled.balanced p.node hp).exists_fills hv
      obtain ⟨socket, hlive, hname, htype⟩ := hfills.admits p.socket v (hget p.socket ▸ hv)
      have hfind := Kind.find?_output (Kind.live_subset hlive)
      rw [hname] at hfind
      refine ⟨hp, node, kind, socket, hnode, hkind, hfind, htype, fun hne other hother => ?_⟩
      rw [← Kind.live_of_ne_geometry ⟨p.node, node.data, cg.connectedOutputs p.node⟩ hne] at hother
      rw [hget]
      exact hfills.present other hother
    · exact (hsettled.balanced n hn).geometry_iff hnode hkind hsocket
  · obtain ⟨-, hrun, hsettled⟩ := settled_of_pass? hg hs hpass
    obtain ⟨-, -, hsettled'⟩ := settled_of_pass? hg hs hpass'
    have hp := hsettled.within p v hv
    exact (hsettled.agree hrun hjk hsettled' p.node hp p.socket).symm.trans hv

/-- When the first texture has had its turn it has all of its channels, and the geometry has just
the coordinates that it was asked for. -/
theorem values_fit_sockets_textures :
    textures.check = .ok texturesChecked ∧ (fresh.start texturesChecked).result = .ok () ∧
      ∃ pass pass', ((fresh.start texturesChecked).compiler.after 2).stage.pass? = some pass ∧
        ((fresh.start texturesChecked).compiler.after 4).stage.pass? = some pass' ∧
        pass.values.get? ⟨"a", "rgb"⟩ = some ⟨"texture_a.rgb", .vec3⟩ ∧
        "a" ∈ texturesChecked.order.take pass.cursor ∧
        (∃ v, pass.values.get? ⟨"g", "uv0"⟩ = some v) ∧
        (¬ ∃ v, pass.values.get? ⟨"g", "normal"⟩ = some v) ∧
        pass'.values.get? ⟨"a", "rgb"⟩ = some ⟨"texture_a.rgb", .vec3⟩ := by
  obtain ⟨pass, hstage⟩ := exists_pass_textures 2
  obtain ⟨pass', hstage'⟩ := exists_pass_textures 4
  have hpass : ((fresh.start texturesChecked).compiler.after 2).stage.pass? = some pass := by
    rw [hstage]
    rfl
  have hpass' : ((fresh.start texturesChecked).compiler.after 4).stage.pass? = some pass' := by
    rw [hstage']
    rfl
  have hrgb : ((fresh.start texturesChecked).compiler.after 2).values?.map (·.get? ⟨"a", "rgb"⟩) =
      some (some ⟨"texture_a.rgb", .vec3⟩) := by
    decide +kernel
  have hcursor : ((fresh.start texturesChecked).compiler.after 2).stage.pass?.map (·.cursor) =
      some 2 := by
    decide +kernel
  rw [values?, hpass] at hrgb
  rw [hpass] at hcursor
  have hrgb : pass.values.get? ⟨"a", "rgb"⟩ = some ⟨"texture_a.rgb", .vec3⟩ := Option.some.inj hrgb
  have hcursor : pass.cursor = 2 := Option.some.inj hcursor
  obtain ⟨hfit, hkept⟩ := values_fit_sockets check_textures start_textures
  obtain ⟨hvalues, hgeometry⟩ := hfit 2 pass hpass
  have hturn : "g" ∈ texturesChecked.order.take pass.cursor := by
    rw [hcursor]
    decide
  have hsurface := hgeometry "g" hturn ⟨"Geometry", .empty⟩ rfl rfl
  refine ⟨check_textures, start_textures, pass, pass', hpass, hpass', hrgb, (hvalues _ _ hrgb).1,
    ?_, ?_, hkept 2 4 pass pass' (by decide) hpass hpass' _ _ hrgb⟩
  · exact (hsurface ⟨"uv0", some .vec2⟩ (by decide)).2 ⟨⟨"a", "uv"⟩, by decide⟩
  · rw [hsurface ⟨"normal", some .vec3⟩ (by decide)]
    rintro ⟨target, hlink⟩
    have hsource : ∀ l ∈ textures.connections, l.source.socket = "uv0" := by decide
    exact absurd (hsource _ hlink) (show "normal" ≠ "uv0" by decide)

end Compiler

end ShaderNodes
