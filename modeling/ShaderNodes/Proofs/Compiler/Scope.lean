import ShaderNodes.Proofs.Compiler.Declarations
import ShaderNodes.Proofs.Kind.Scope

/-!
# Passes emit code in scope

A node has its turn after its producers, so what it reads was declared before. What it shares with
other nodes is in the draft under the same name, since a kind is the only one of its name.

* `Pass.Settled.covers`: the draft of a pass has all that its nodes add.
* `Pass.Settled.grounded`, `Pass.Settled.wellScoped`: the values and the statements of a pass.
* `Compiler.standard_code_in_scope`: code from the standard palette is in scope, all along a pass.
-/

namespace ShaderNodes

open Text Precedence

/-! ## What the nodes of a pass add -/

/-- The function that nodes of a kind share, and its source. -/
def Kind.shared? : Kind → Option (Name × String)
  | .lighting model => some (model.name, model.source)
  | .function f => some (f.name, f.source)
  | _ => none

theorem Kind.shared?_of_evaluate {kind : Kind} {node : Context} {inputs : Inputs} {c : Contribution}
    {name : Name} {source : String} (h : kind.evaluate node inputs = .ok c)
    (he : .function name source ∈ c.edits) :
    kind.shared? = some (name, source) ∧ kind.name = name := by
  cases kind with
  | operator op =>
    obtain ⟨values, type, -, -, rfl⟩ := Operator.evaluate_ok h
    simp [Value.declare] at he
  | constant type =>
    obtain ⟨literal, components, -, -, rfl⟩ := Constant.evaluate_ok h
    simp [Value.declare] at he
  | geometry =>
    obtain rfl := Except.ok.inj h
    simp [Geometry.evaluate] at he
  | fragColor =>
    obtain rfl := Except.ok.inj h
    simp [FragColor.evaluate] at he
  | texture =>
    obtain ⟨uv, texture, -, -, rfl⟩ := Texture.evaluate_ok h
    simp [Value.declare, Sampler.bind] at he
  | normalMap =>
    obtain ⟨uv, strength, texture, -, -, -, rfl⟩ := NormalMap.evaluate_ok h
    simp [Value.declare, Sampler.bind] at he
  | lighting model =>
    obtain ⟨values, -, rfl⟩ := Lighting.evaluate_ok h
    have hf : name = model.name ∧ source = model.source := by
      rcases List.mem_append.1 he with he | he
      · simpa [Value.declare] using he
      · split at he <;> simp at he
    obtain ⟨rfl, rfl⟩ := hf
    exact ⟨rfl, rfl⟩
  | function f =>
    obtain ⟨values, -, rfl⟩ := Definition.evaluate_ok h
    have hf : name = f.name ∧ source = f.source := by simpa [Value.declare] using he
    obtain ⟨rfl, rfl⟩ := hf
    exact ⟨rfl, rfl⟩

namespace Graph

variable {g : Graph} {palette : Palette} {V : SortedMap Endpoint Value} {n : NodeId}

theorem exists_of_mem_edits {e : Edit} (h : e ∈ g.edits palette V n) :
    ∃ c, g.contribution palette V n = some c ∧ e ∈ c.edits := by
  rw [edits] at h
  cases hc : g.contribution palette V n with
  | none => simp [hc] at h
  | some c => exact ⟨c, rfl, by simpa [hc] using h⟩

/-- Functions that nodes share under one name have one source, since the palette has one kind of
it. -/
theorem source_unique (hp : palette.Named) {m : NodeId} {name : Name} {source source' : String}
    (h : .function name source ∈ g.edits palette V n)
    (h' : .function name source' ∈ g.edits palette V m) : source = source' := by
  have hkind : ∀ {n : NodeId} {source : String}, .function name source ∈ g.edits palette V n →
      ∃ kind, palette.get? name = some kind ∧ kind.shared? = some (name, source) := by
    intro n source h
    obtain ⟨c, hc, he⟩ := exists_of_mem_edits h
    obtain ⟨node, kind, -, hget, heval⟩ := exists_of_contribution hc
    obtain ⟨hshared, hname⟩ := Kind.shared?_of_evaluate heval he
    have hkey := hp _ _ hget
    exact ⟨kind, by rw [← hname, hkey, hget], hshared⟩
  obtain ⟨kind, hget, hshared⟩ := hkind h
  obtain ⟨kind', hget', hshared'⟩ := hkind h'
  obtain rfl : kind = kind' := Option.some.inj (hget.symm.trans hget')
  exact (Prod.mk.inj (Option.some.inj (hshared.symm.trans hshared'))).2

/-- A value at an input comes over a link. -/
theorem exists_link_of_inflow {kind : Kind} {s : Name} {v : Value}
    (h : (g.inflow V n kind).get? s = some v) :
    ∃ p, ⟨p, ⟨n, s⟩⟩ ∈ g.connections ∧ V.get? p = some v := by
  obtain ⟨⟨source, target⟩, hl, heq⟩ := List.mem_filterMap.1 (SortedMap.mem_of_get?_ofList h)
  split at heq
  · rename_i htarget
    obtain ⟨w, hw, heq⟩ := Option.map_eq_some_iff.1 heq
    obtain ⟨rfl, rfl⟩ := Prod.mk.inj heq
    obtain ⟨rfl, -⟩ := htarget
    exact ⟨source, hl, hw⟩
  · cases heq

/-- A value at an input comes from a producer. -/
theorem exists_feeds_of_inflow {kind : Kind} {s : Name} {v : Value}
    (h : (g.inflow V n kind).get? s = some v) : ∃ p, g.Feeds p.node n ∧ V.get? p = some v := by
  obtain ⟨p, hp, hget⟩ := exists_link_of_inflow h
  exact ⟨p, ⟨_, hp, rfl, rfl⟩, hget⟩

end Graph

namespace Pass.Settled

variable {palette : Palette} {g : CheckedGraph} {placed : List NodeId} {pass : Pass} {n : NodeId}

/-- The draft has the functions that the nodes share. -/
theorem mem_functions (hnamed : palette.Named) (h : pass.Settled palette g placed) (hn : n ∈ placed)
    {name : Name} {source : String} (he : .function name source ∈ g.edits palette pass.values n) :
    (name, source) ∈ pass.draft.functions := by
  have hmem : .function name source ∈ placed.flatMap (g.edits palette pass.values) :=
    List.mem_flatMap.2 ⟨n, hn, he⟩
  obtain ⟨source', hsource'⟩ :=
    Draft.exists_mem_functions_run (d := { config := pass.draft.config }) hmem
  obtain hnone | hadded := Draft.mem_functions_of_run hsource'
  · cases hnone
  · obtain ⟨m, -, hm⟩ := List.mem_flatMap.1 hadded
    rw [Graph.source_unique hnamed he hm, h.draft]
    exact hsource'

/-- The draft has all that the nodes add. -/
theorem covers (hp : palette.Separate) (hnamed : palette.Named) (hplaced : placed.Nodup)
    (h : pass.Settled palette g placed) (hn : n ∈ placed) :
    ∀ e ∈ g.edits palette pass.values n, pass.draft.Covers e := by
  intro e he
  have hmem : e ∈ placed.flatMap (g.edits palette pass.values) := List.mem_flatMap.2 ⟨n, hn, he⟩
  cases e with
  | statement s => trivial
  | uniform name binding =>
    change (name, binding) ∈ pass.draft.uniforms
    rw [h.uniforms hp hplaced]
    exact List.mem_flatMap.2 ⟨n, hn, List.mem_filterMap.2 ⟨_, he, rfl⟩⟩
  | function name source => exact h.mem_functions hnamed hn he
  | enable feature =>
    change pass.draft.features.isEnabled feature = true
    rw [h.draft]
    exact Draft.isEnabled_run_iff.2 (.inr hmem)

/-- A value at a node is read from what the node emits, or from the surface, where all kinds have an
identifier as name. -/
theorem grounded_of_identified (hp : palette.Separate) (hnamed : palette.Named)
    (hids : palette.Identified) (hplaced : placed.Nodup) (h : pass.Settled palette g placed)
    {p : Endpoint} {v : Value} (hv : pass.values.get? p = some v) :
    v.Grounded pass.draft (g.emitted palette pass.values p.node) := by
  have hn : p.node ∈ placed := h.within p v hv
  have hgives := h.balanced p.node hn p.socket
  rw [hv] at hgives
  obtain ⟨c, hc, hout⟩ := Option.bind_eq_some_iff.1 hgives.symm
  obtain ⟨node, kind, -, hkind, heval⟩ := Graph.exists_of_contribution hc
  have hcovers := h.covers hp hnamed hplaced hn
  rw [Graph.edits, hc] at hcovers
  rw [Graph.emitted, hc]
  exact Kind.grounded_of_evaluate (hids _ _ hkind) heval hcovers hout

section Scoped

variable (hp : palette.Separate) (hnamed : palette.Named)
  (hsourced : ∀ key kind, palette.get? key = some kind → kind.Sourced) (hplaced : placed.Nodup)
  (h : pass.Settled palette g placed)

include hp hnamed hsourced hplaced h

/-- A value at a node is read from what the node emits, or from the surface. -/
theorem grounded {p : Endpoint} {v : Value} (hv : pass.values.get? p = some v) :
    v.Grounded pass.draft (g.emitted palette pass.values p.node) :=
  h.grounded_of_identified hp hnamed (fun key kind hkind =>
    (hsourced key kind hkind).isIdentifier_name) hplaced hv

/-- What a node emits after its producers is in scope. -/
theorem wellScoped_node {before : List NodeId} (hn : n ∈ placed)
    (hbefore : ∀ m, g.Feeds m n → m ∈ before) :
    pass.draft.WellScoped (before.flatMap (g.emitted palette pass.values))
      (g.emitted palette pass.values n) := by
  have hcovers := h.covers hp hnamed hplaced hn
  rw [Graph.edits] at hcovers
  change pass.draft.WellScoped _ (((g.contribution palette pass.values n).map (·.statements)).getD
    [])
  cases hc : g.contribution palette pass.values n with
  | none => trivial
  | some c =>
    rw [hc] at hcovers
    obtain ⟨node, kind, -, hkind, heval⟩ := Graph.exists_of_contribution hc
    refine Kind.wellScoped_of_evaluate hcovers (fun s v hv => ?_) (hsourced _ _ hkind) heval
    obtain ⟨p, hfeeds, hget⟩ := Graph.exists_feeds_of_inflow hv
    refine (h.grounded hp hnamed hsourced hplaced hget).mono fun s hs => ?_
    exact List.mem_flatMap.2 ⟨p.node, hbefore _ hfeeds, hs⟩

/-- What the nodes emit one after another is in scope. -/
theorem wellScoped_flatMap (hrun : g.Runnable palette) {rest : List NodeId}
    (hsplit : g.order = placed ++ rest) {before after : List NodeId}
    (hbefore : placed = before ++ after) :
    pass.draft.WellScoped (before.flatMap (g.emitted palette pass.values))
      (after.flatMap (g.emitted palette pass.values)) := by
  -- The nodes before grow by one at each step, so that they are always all that had their turn.
  induction after generalizing before with
  | nil => trivial
  | cons n after ih =>
    have horder : g.order = before ++ n :: (after ++ rest) := by
      rw [hsplit, hbefore, List.append_assoc, List.cons_append]
    have hnext := @ih (before ++ [n]) (by rw [hbefore, List.append_assoc, List.singleton_append])
    rw [List.flatMap_append, List.flatMap_singleton] at hnext
    rw [List.flatMap_cons, Draft.wellScoped_append]
    refine ⟨h.wellScoped_node hp hnamed hsourced hplaced ?_ ?_, hnext⟩
    · rw [hbefore]
      exact List.mem_append_right _ (.head _)
    · exact hrun.order.before before n _ horder

theorem wellScoped (hrun : g.Runnable palette) {rest : List NodeId}
    (hsplit : g.order = placed ++ rest) : pass.draft.WellScoped [] pass.draft.statements := by
  have hall :=
    h.wellScoped_flatMap hp hnamed hsourced hplaced hrun hsplit (List.nil_append placed).symm
  rwa [← h.statements] at hall

end Scoped

end Pass.Settled

/-! ## Main result -/

namespace Compiler

/-- All along a pass with the standard palette, the values are read from variables that one
statement declares, or from attributes of the surface whose features are on. Each statement reads
variables that came before it, samplers and such attributes, and all that it calls is defined. -/
theorem standard_code_in_scope {c : Compiler} {g : Graph} {cg : CheckedGraph} {k : Nat}
    {pass : Pass} (hp : c.palette = .standard) (hg : g.check = .ok cg)
    (hs : (c.start cg).result = .ok ()) (hpass : ((c.start cg).compiler.after k).stage.pass? =
      some pass) :
    (∀ p v, pass.values.get? p = some v → v.Grounded pass.draft pass.draft.statements) ∧
      (∀ type x value, .declare type x value ∈ pass.draft.statements →
        pass.draft.statements.countP (·.declared? == some x) = 1) ∧
      ∀ before s after, pass.draft.statements = before ++ s :: after →
        pass.draft.InScope before s := by
  obtain ⟨rfl, hrun, hsettled⟩ := settled_of_pass? hg hs hpass
  rw [hp] at hrun hsettled
  have hseparate := Palette.underscoreFree_standard.separate
  have hnamed : Palette.standard.Named := Palette.named_registerAll _
  have hplaced := hrun.nodup_take k
  refine ⟨fun p v hv => ?_, fun type x value hx => ?_, fun before s after hsplit => ?_⟩
  · refine (hsettled.grounded hseparate hnamed Palette.sourced_standard hplaced hv).mono
      fun s hs => ?_
    rw [hsettled.statements]
    exact List.mem_flatMap.2 ⟨p.node, hsettled.within p v hv, hs⟩
  · have hlocal : x ∈ pass.draft.locals := List.mem_filterMap.2 ⟨_, hx, rfl⟩
    rw [Draft.countP_declared]
    exact List.count_eq_one_of_mem (hsettled.locals_nodup hseparate hplaced) hlocal
  · have hscoped := hsettled.wellScoped hseparate hnamed Palette.sourced_standard hplaced hrun
      (List.take_append_drop k _).symm
    rw [hsplit] at hscoped
    exact hscoped.inScope

/-- The channels of a texture after three of four steps. -/
theorem standard_code_in_scope_textures :
    fresh.palette = .standard ∧ textures.check = .ok texturesChecked ∧
      (fresh.start texturesChecked).result = .ok () ∧
      ∃ pass, ((fresh.start texturesChecked).compiler.after 3).stage.pass? = some pass ∧
        pass.values.get? ⟨"a", "rgb"⟩ = some ⟨"texture_a.rgb", .vec3⟩ ∧
        (⟨"texture_a.rgb", .vec3⟩ : Value).Grounded pass.draft pass.draft.statements := by
  obtain ⟨pass, hstage⟩ := exists_pass_textures 3
  have hpass : ((fresh.start texturesChecked).compiler.after 3).stage.pass? = some pass := by
    rw [hstage]
    rfl
  have hget : ((fresh.start texturesChecked).compiler.after 3).stage.pass?.bind
      (·.values.get? ⟨"a", "rgb"⟩) = some ⟨"texture_a.rgb", .vec3⟩ := by
    decide +kernel
  rw [hpass] at hget
  exact ⟨rfl, check_textures, start_textures, pass, hpass, hget,
    (standard_code_in_scope rfl check_textures start_textures hpass).1 _ _ hget⟩

end Compiler

end ShaderNodes
