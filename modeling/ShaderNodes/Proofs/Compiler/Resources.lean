import ShaderNodes.Proofs.Compiler.Features
import ShaderNodes.Proofs.Kind.Reads

/-!
# The functions and samplers of a completed pass

Nodes share the functions that they call, and each node that samples a texture has a sampler of its
own. A draft keeps the first of the entries of a name. Nothing is lost by this: functions of one
name are one function, and no two samplers have one name.

* `Pass.Settled.map_functions`, `Pass.Settled.forall₂_uniforms`: what a pass has of both, by its
  nodes.
* `Pass.Settled.reads_cases`, `Pass.Settled.reader_unique`: no other node reads the sampler of a
  node.
* `Compiler.shared_resources_exact`: the functions and samplers of a completed pass.
-/

namespace ShaderNodes

open Text

/-! ## Entries of some members of a list -/

theorem flatMap_ite_nil {α β : Type} (p : α → Bool) (f : α → List β) (l : List α) :
    (l.flatMap fun a => if p a then f a else []) = (l.filter p).flatMap f := by
  induction l with
  | nil => rfl
  | cons a l ih =>
    rw [List.flatMap_cons, ih, List.filter_cons]
    split <;> simp

/-- Entries that some members have, one for each, and the others have not. -/
theorem forall₂_filter_flatMap {α β : Type} {R : α → β → Prop} {p : α → Bool} {f : α → List β}
    {l : List α} (h : ∀ a ∈ l, p a = true → ∃ b, f a = [b] ∧ R a b)
    (hnone : ∀ a ∈ l, p a = false → f a = []) :
    List.Forall₂ R (l.filter p) (l.flatMap f) := by
  induction l with
  | nil => exact .nil
  | cons a l ih =>
    have hrest := ih (fun b hb => h b (.tail _ hb)) fun b hb => hnone b (.tail _ hb)
    rw [List.flatMap_cons]
    cases hp : p a with
    | false => rwa [List.filter_cons_of_neg (by simp [hp]), hnone a (.head _) hp, List.nil_append]
    | true =>
      obtain ⟨b, hb, hR⟩ := h a (.head _) hp
      rw [List.filter_cons_of_pos hp, hb]
      exact .cons hR hrest

/-- What only one member has is counted there. -/
theorem countP_flatMap_of_unique {α β : Type} {p : β → Bool} {f : α → List β} {l : List α} {a : α}
    (hl : l.Nodup) (ha : a ∈ l) (h : ∀ b ∈ l, ∀ x ∈ f b, p x = true → b = a) :
    (l.flatMap f).countP p = (f a).countP p := by
  obtain ⟨before, after, rfl⟩ := List.append_of_mem ha
  rw [List.nodup_middle, List.nodup_cons] at hl
  have hothers : ∀ part ⊆ before ++ after, (part.flatMap f).countP p = 0 := by
    intro part hpart
    refine List.countP_eq_zero.2 fun x hx hp => ?_
    obtain ⟨b, hb, hx⟩ := List.mem_flatMap.1 hx
    have hmem : b ∈ before ++ a :: after :=
      ((List.sublist_cons_self a after).append_left before).subset (hpart hb)
    exact hl.1 (h b hmem x hx hp ▸ hpart hb)
  rw [List.flatMap_append, List.flatMap_cons, List.countP_append, List.countP_append,
    hothers before (List.subset_append_left _ _), hothers after (List.subset_append_right _ _)]
  omega

/-! ## What a node shares and binds -/

namespace Graph

variable {g : Graph} {palette : Palette} {V : SortedMap Endpoint Value} {n : NodeId}

/-- The kind of a node. -/
def kind? (g : Graph) (palette : Palette) (n : NodeId) : Option Kind :=
  (g.nodes.get? n).bind fun node => palette.get? node.kind

/-- The name of the function that a node shares with others of its kind. -/
def sharedName? (g : Graph) (palette : Palette) (n : NodeId) : Option Name :=
  ((g.kind? palette n).bind Kind.shared?).map (·.1)

/-- Whether a node is of a kind that samples a texture. -/
def isSampler (g : Graph) (palette : Palette) (n : NodeId) : Bool :=
  (g.kind? palette n).any Kind.isSampler

/-- The uniform is the sampler of the node: it has the name of the variable of the node, it is bound
to the texture in the data of the node, and a statement of the node reads it. -/
def Binds (g : Graph) (palette : Palette) (V : SortedMap Endpoint Value) (n : NodeId)
    (u : Name × Binding) : Prop :=
  ∃ node kind, g.nodes.get? n = some node ∧ palette.get? node.kind = some kind ∧
    u.1 = lowercase kind.name ++ "_" ++ mangle n ++ "_map" ∧ u.2.type = "sampler2D" ∧
    node.data.get? "texture" = some u.2.texture ∧ ∃ s ∈ g.emitted palette V n, s.reads u.1 = true

theorem kind?_eq_some {node : Node} {kind : Kind} (hnode : g.nodes.get? n = some node)
    (hkind : palette.get? node.kind = some kind) : g.kind? palette n = some kind := by
  rw [kind?, hnode, Option.bind_some, hkind]

/-- A node that is not skipped adds the function of its kind. -/
theorem map_functions_edits (g : Graph) (palette : Palette) (V : SortedMap Endpoint Value)
    (n : NodeId) : ((g.edits palette V n).filterMap Edit.function?).map (·.1) =
      if (g.contribution palette V n).isSome then (g.sharedName? palette n).toList else [] := by
  rw [edits]
  cases hc : g.contribution palette V n with
  | none => rfl
  | some c =>
    obtain ⟨node, kind, hnode, hkind, heval⟩ := exists_of_contribution hc
    have hfunctions := (Kind.edits_of_evaluate heval).2.1
    simp only [Option.map_some, Option.getD_some, hfunctions, Option.isSome_some, if_true,
      sharedName?, kind?_eq_some hnode hkind, Option.bind_some]
    cases kind.shared? <;> rfl

/-- A node that is not skipped and samples a texture has one statement and one uniform, which it
binds. -/
theorem exists_binds (hgives : (g.contribution palette V n).isSome = true)
    (hsampler : g.isSampler palette n = true) :
    ∃ u s, g.uniforms palette V n = [u] ∧ g.emitted palette V n = [s] ∧ s.reads u.1 = true ∧
      g.Binds palette V n u := by
  obtain ⟨c, hc⟩ := Option.isSome_iff_exists.1 hgives
  obtain ⟨node, kind, hnode, hkind, heval⟩ := exists_of_contribution hc
  rw [isSampler, kind?_eq_some hnode hkind] at hsampler
  obtain ⟨u, s, hu, hs, hreads⟩ := Kind.exists_reads_uniform heval hsampler
  have huniforms : g.uniforms palette V n = [u] := by
    rw [uniforms, edits, hc, Option.map_some, Option.getD_some, (Kind.edits_of_evaluate heval).1,
      hu]
    rfl
  have hemitted : g.emitted palette V n = [s] := by
    rw [emitted, hc, Option.map_some, Option.getD_some, hs]
  obtain ⟨-, hname, htype, hdata⟩ := Kind.uniform?_eq_some hu
  refine ⟨u, s, huniforms, hemitted, hreads, node, kind, hnode, hkind, ?_, htype, hdata, s, ?_,
    hreads⟩
  · rw [hname]
    rfl
  · rw [hemitted]
    exact .head _

/-- Any other node binds nothing. -/
theorem uniforms_eq_nil
    (h : ((g.contribution palette V n).isSome && g.isSampler palette n) = false) :
    g.uniforms palette V n = [] := by
  rw [uniforms, edits]
  cases hc : g.contribution palette V n with
  | none => rfl
  | some c =>
    obtain ⟨node, kind, hnode, hkind, heval⟩ := exists_of_contribution hc
    have hother : kind.isSampler = false := by
      simpa [hc, isSampler, kind?_eq_some hnode hkind] using h
    rw [Option.map_some, Option.getD_some, (Kind.edits_of_evaluate heval).1,
      Kind.uniform?_eq_none hother]
    rfl

end Graph

/-! ## What a pass has of both -/

theorem Value.Grounded.of_features {d d' : Draft} {ss : List Statement} {v : Value}
    (h : v.Grounded d ss) (hfeatures : d'.features = d.features) : v.Grounded d' ss := by
  cases h with
  | whole value hx h => exact .whole value hx h
  | part x components value hx h htext hlength hcomponents =>
    exact .part x components value hx h htext hlength hcomponents
  | surface f h hon => exact .surface f h (hfeatures ▸ hon)

namespace Pass.Settled

variable {palette : Palette} {g : CheckedGraph} {placed : List NodeId} {pass : Pass} {n m : NodeId}
  {u : Name × Binding}

theorem map_functions (h : pass.Settled palette g placed) :
    pass.draft.functions.map (·.1) =
      ((placed.filter fun n => (g.contribution palette pass.values n).isSome).filterMap
        (g.sharedName? palette)).eraseDups := by
  rw [h.draft, Draft.functions_run_eq, map_fst_foldl_joinNew, List.filterMap_flatMap,
    List.map_flatMap, List.flatMap_congr fun n _ => g.map_functions_edits palette pass.values n,
    flatMap_ite_nil, List.filterMap_eq_flatMap_toList]
  simp

/-- A function of the draft is that of the kind of its name. -/
theorem exists_shared (hnamed : palette.Named) (h : pass.Settled palette g placed)
    {f : Name × String} (hf : f ∈ pass.draft.functions) :
    ∃ kind, palette.get? f.1 = some kind ∧ kind.shared? = some f := by
  rw [h.draft] at hf
  obtain hnone | hadded := Draft.mem_functions_of_run hf
  · cases hnone
  · obtain ⟨n, -, he⟩ := List.mem_flatMap.1 hadded
    obtain ⟨c, hc, he⟩ := Graph.exists_of_mem_edits he
    obtain ⟨node, kind, -, hkind, heval⟩ := Graph.exists_of_contribution hc
    obtain ⟨hshared, hname⟩ := Kind.shared?_of_evaluate heval he
    refine ⟨kind, ?_, hshared⟩
    rw [← hname, hnamed _ _ hkind, hkind]

section Names

variable (hp : palette.Separate) (hplaced : placed.Nodup) (h : pass.Settled palette g placed)

include hp hplaced h

/-- The uniforms are those of the nodes that sample a texture, in order. -/
theorem forall₂_uniforms :
    List.Forall₂ (g.Binds palette pass.values)
      ((placed.filter fun n => (g.contribution palette pass.values n).isSome).filter
        (g.isSampler palette))
      pass.draft.uniforms := by
  rw [h.uniforms hp hplaced, List.filter_filter]
  refine forall₂_filter_flatMap (fun n _ hn => ?_) fun n _ hn => ?_
  · rw [Bool.and_eq_true] at hn
    obtain ⟨u, s, huniforms, -, -, hbinds⟩ := Graph.exists_binds hn.2 hn.1
    exact ⟨u, huniforms, hbinds⟩
  · rw [Bool.and_comm] at hn
    exact Graph.uniforms_eq_nil hn

variable (hnamed : palette.Named) (hids : palette.Identified)

include hnamed hids

/-- A node reads variables of the pass, its own sampler, and attributes of the surface. -/
theorem reads_cases (hm : m ∈ placed) {s : Statement} (hs : s ∈ g.emitted palette pass.values m)
    {x : Name} (hx : s.reads x = true) :
    x ∈ pass.draft.locals ∨ x ∈ (g.uniforms palette pass.values m).map (·.1) ∨
      x ∈ Draft.attributes.map (·.1) := by
  have hstatements : ∀ {n : NodeId}, n ∈ placed →
      ∀ s ∈ g.emitted palette pass.values n, s ∈ pass.draft.statements := by
    intro n hn s hs
    rw [h.statements]
    exact List.mem_flatMap.2 ⟨n, hn, hs⟩
  have hcovers := h.covers hp hnamed hplaced hm
  have hown := hstatements hm
  rw [Graph.edits] at hcovers
  rw [Graph.emitted] at hs hown
  cases hc : g.contribution palette pass.values m with
  | none =>
    rw [hc] at hs
    cases hs
  | some c =>
    rw [hc] at hs hown hcovers
    obtain ⟨node, kind, -, hkind, heval⟩ := Graph.exists_of_contribution hc
    -- In a draft that has no uniforms but those of the node, its statements are in scope as well.
    let own : Draft := { pass.draft with uniforms := g.uniforms palette pass.values m }
    have hcovers' : ∀ e ∈ c.edits, own.Covers e := by
      intro e he
      cases e with
      | uniform name binding =>
        refine List.mem_filterMap.2 ⟨.uniform name binding, ?_, rfl⟩
        rw [Graph.edits, hc]
        exact he
      | _ => exact hcovers _ he
    have hinputs : ∀ s v, (g.inflow pass.values m kind).get? s = some v →
        v.Grounded own pass.draft.statements := by
      intro s v hv
      obtain ⟨p, -, hget⟩ := Graph.exists_feeds_of_inflow hv
      have hground := (h.grounded_of_identified hp hnamed hids hplaced hget).mono
        (hstatements (h.within p v hget))
      exact hground.of_features rfl
    rcases Kind.reads_of_evaluate (hids _ _ hkind) hcovers' hinputs heval hs hx with
      ⟨type, value, hdeclared⟩ | hbrings
    · have hmem : .declare type x value ∈ pass.draft.statements :=
        (List.mem_append.1 hdeclared).elim id (hown _)
      exact .inl (List.mem_filterMap.2 ⟨_, hmem, rfl⟩)
    · cases hbrings with
      | sampler binding hu _ => exact .inr (.inl (List.mem_map.2 ⟨_, hu, rfl⟩))
      | surface type f ha _ => exact .inr (.inr (List.mem_map.2 ⟨_, ha, rfl⟩))

/-- No other node reads the sampler of a node. -/
theorem reader_unique (hn : n ∈ placed) (hm : m ∈ placed)
    (hu : u ∈ g.uniforms palette pass.values n) {s : Statement}
      (hs : s ∈ g.emitted palette pass.values m) (hx : s.reads u.1 = true) : m = n := by
  have hname : u.1 ∈ g.names palette pass.values n :=
    List.mem_append_right _ (List.mem_map.2 ⟨u, hu, rfl⟩)
  rcases h.reads_cases hp hplaced hnamed hids hm hs hx with hlocal | hown | hattribute
  · have hnodup := (h.names_perm hp hplaced).nodup_iff.2 (Graph.names_nodup hp hplaced)
    have huniform : u.1 ∈ pass.draft.uniforms.map (·.1) := by
      rw [h.uniforms hp hplaced]
      exact List.mem_map.2 ⟨u, List.mem_flatMap.2 ⟨n, hn, hu⟩, rfl⟩
    exact absurd rfl ((List.nodup_append.1 hnodup).2.2 _ hlocal _ huniform)
  · obtain ⟨node, kind, role, -, hkind, heq⟩ := Graph.exists_of_mem_names hname
    obtain ⟨node', kind', role', -, hkind', heq'⟩ :=
      Graph.exists_of_mem_names (List.mem_append_right (g.locals palette pass.values m) hown)
    exact (Graph.role_inj hp hkind' hkind (heq'.symm.trans heq)).1
  · have hsurface : ∀ x ∈ Draft.attributes.map (·.1),
        x ∈ ["normal", "vUv", "vNormal", "vViewPosition"] := by
      decide
    exact absurd (hsurface _ hattribute) (Graph.not_mem_attributes hname)

/-- A sampler is read by one statement of the pass. -/
theorem countP_reads (hu : u ∈ pass.draft.uniforms) :
    pass.draft.statements.countP (·.reads u.1) = 1 := by
  rw [h.uniforms hp hplaced] at hu
  obtain ⟨n, hn, hu⟩ := List.mem_flatMap.1 hu
  -- The node with the uniform reads it in its one statement.
  cases hsampler : (g.contribution palette pass.values n).isSome && g.isSampler palette n with
  | false =>
    rw [Graph.uniforms_eq_nil hsampler] at hu
    cases hu
  | true =>
    rw [Bool.and_eq_true] at hsampler
    obtain ⟨u', s, huniforms, hemitted, hreads, -⟩ := Graph.exists_binds hsampler.1 hsampler.2
    rw [huniforms] at hu
    obtain rfl := List.mem_singleton.1 hu
    have hcount := countP_flatMap_of_unique hplaced hn fun m hm s hs hx =>
      h.reader_unique hp hplaced hnamed hids hn hm (huniforms ▸ List.mem_singleton_self u) hs hx
    rw [h.statements, hcount, hemitted]
    simp [hreads]

end Names

end Pass.Settled

/-! ## Main result -/

namespace Compiler

/-- In a completed pass over kinds without underscores in their names, the functions are those of
the nodes that were not skipped and call one, each name once where it comes first, with the source
of the kind of that name. The uniforms are the samplers of the nodes that were not skipped and
sample a texture, one for each of them in order, and the shader has the same. Each sampler is read
by one statement, which is one of its node. -/
theorem shared_resources_exact {c : Compiler} {kinds : List (String × Kind)} {g : Graph}
    {cg : CheckedGraph} {k : Nat} {pass : Pass} (hp : c.palette = Palette.empty.registerAll kinds)
    (hkinds : ∀ k ∈ kinds, k.2.Parsed) (hfree : c.palette.UnderscoreFree) (hg : g.check = .ok cg)
    (hs : (c.start cg).result = .ok ())
    (hstage : ((c.start cg).compiler.after k).stage = .completed pass) :
    let d := pass.draft
    ∃ evaluated : List NodeId, evaluated.Sublist cg.order ∧
      (∀ n ∈ cg.order, n ∈ evaluated ↔ ¬ (c.start cg).compiler.Skipped n) ∧
      d.functions.map (·.1) = (evaluated.filterMap (g.sharedName? c.palette)).eraseDups ∧
      (∀ f ∈ d.functions, ∃ kind, c.palette.get? f.1 = some kind ∧ kind.shared? = some f) ∧
      List.Forall₂ (g.Binds c.palette pass.values) (evaluated.filter (g.isSampler c.palette))
      d.uniforms ∧
      (∀ u ∈ d.uniforms, d.statements.countP (·.reads u.1) = 1) ∧
      (d.functions.map (·.1)).Nodup ∧ (d.uniforms.map (·.1)).Nodup ∧
      (c.process cg).result = .ok d.finish ∧ d.finish.uniforms.entries.Perm d.uniforms := by
  intro d
  obtain ⟨-, hprocess⟩ := process_of_completed hg hs hstage
  obtain ⟨rfl, hrun, hsettled⟩ := settled_of_completed hg hs hstage
  have hnamed : c.palette.Named := hp ▸ Palette.named_registerAll kinds
  have hids : c.palette.Identified := by
    have hparsed : ∀ key kind, c.palette.get? key = some kind → kind.Parsed :=
      hp ▸ Palette.forall_registerAll nofun hkinds
    exact fun key kind hkind => (hparsed key kind hkind).isIdentifier_name
  have hplaced := hrun.order.nodup cg.nodes.keys_nodup
  refine ⟨cg.order.filter fun n => (cg.contribution c.palette pass.values n).isSome,
    List.filter_sublist, fun n hn => ?_, hsettled.map_functions, fun f =>
    hsettled.exists_shared hnamed, hsettled.forall₂_uniforms hfree.separate hplaced,
    fun u => hsettled.countP_reads hfree.separate hplaced hnamed hids, hsettled.functions_nodup,
    hsettled.uniforms_nodup, hprocess, SortedMap.entries_ofList_perm hsettled.uniforms_nodup⟩
  rw [List.mem_filter, skipped_iff hrun (hsettled.solution hrun) (walked_start hs) hn, ← ne_eq,
    Option.ne_none_iff_isSome]
  exact and_iff_right hn

/-- Three nodes sample one image, and a texture has none. One curve is called for two of the colors,
another one for the color that is missing. -/
def tiles : Graph where
  nodes := .ofList [("a", ⟨"Texture", .ofList [("texture", "stone")]⟩),
    ("b", ⟨"Texture", .ofList [("texture", "stone")]⟩),
    ("e", ⟨"ConstantFloat", .ofList [("value", "0.5")]⟩), ("g", ⟨"Geometry", .empty⟩),
    ("n", ⟨"NormalMap", .ofList [("texture", "stone")]⟩), ("s", ⟨"Texture", .empty⟩),
    ("t", ⟨"ReinhardToneMapping", .empty⟩), ("u", ⟨"ReinhardToneMapping", .empty⟩),
    ("v", ⟨"LinearToneMapping", .empty⟩)]
  links := .ofList [(⟨"a", "rgb"⟩, [⟨"t", "color"⟩]), (⟨"b", "rgb"⟩, [⟨"u", "color"⟩]),
    (⟨"e", "value"⟩, [⟨"t", "exposure"⟩, ⟨"u", "exposure"⟩, ⟨"v", "exposure"⟩]),
    (⟨"g", "uv0"⟩, [⟨"a", "uv"⟩, ⟨"b", "uv"⟩, ⟨"n", "uv"⟩, ⟨"s", "uv"⟩]),
    (⟨"s", "rgb"⟩, [⟨"v", "color"⟩])]

def tilesChecked : CheckedGraph where
  toGraph := tiles
  order := ["e", "g", "a", "b", "n", "s", "t", "u", "v"]
  producers := .ofList [(⟨"a", "uv"⟩, ⟨"g", "uv0"⟩), (⟨"b", "uv"⟩, ⟨"g", "uv0"⟩),
    (⟨"n", "uv"⟩, ⟨"g", "uv0"⟩), (⟨"s", "uv"⟩, ⟨"g", "uv0"⟩), (⟨"t", "color"⟩, ⟨"a", "rgb"⟩),
    (⟨"t", "exposure"⟩, ⟨"e", "value"⟩), (⟨"u", "color"⟩, ⟨"b", "rgb"⟩),
    (⟨"u", "exposure"⟩, ⟨"e", "value"⟩), (⟨"v", "color"⟩, ⟨"s", "rgb"⟩),
    (⟨"v", "exposure"⟩, ⟨"e", "value"⟩)]

/-- The image has three samplers, and only the curve that gets colors has a function. -/
theorem shared_resources_exact_tiles :
    let kinds := Palette.builtins ++ ToneMapping.all.map fun f => ("ToneMapping", Kind.function f)
    let run := (fresh.start tilesChecked).compiler
    let samplers : List (Name × Binding) := [("texture_a_map", ⟨"sampler2D", "stone"⟩),
      ("texture_b_map", ⟨"sampler2D", "stone"⟩), ("normalmap_n_map", ⟨"sampler2D", "stone"⟩)]
    fresh.palette = Palette.empty.registerAll kinds ∧ (∀ k ∈ kinds, k.2.Parsed) ∧
      fresh.palette.UnderscoreFree ∧ tiles.check = .ok tilesChecked ∧
      (fresh.start tilesChecked).result = .ok () ∧
      ∃ pass, (run.after 10).stage = .completed pass ∧
        ∃ evaluated : List NodeId, (∀ n ∈ tilesChecked.order, n ∈ evaluated ↔ ¬ run.Skipped n) ∧
          (evaluated.filterMap (tiles.sharedName? fresh.palette)).eraseDups =
            ["ReinhardToneMapping"] ∧
          List.Forall₂ (tiles.Binds fresh.palette pass.values)
            (evaluated.filter (tiles.isSampler fresh.palette)) samplers ∧
          (∀ u ∈ samplers, pass.draft.statements.countP (·.reads u.1) = 1) ∧
          (fresh.process tilesChecked).result = .ok pass.draft.finish ∧
          pass.draft.finish.uniforms.entries.Perm samplers := by
  intro kinds run samplers
  have hp : fresh.palette = Palette.empty.registerAll kinds := rfl
  have hfree : fresh.palette.UnderscoreFree := Palette.underscoreFree_standard
  have hg : tiles.check = .ok tilesChecked := rfl
  have hobjection : objection? fresh.palette tiles = none := by decide +kernel
  have hs : (fresh.start tilesChecked).result = .ok () :=
    (start_of_no_objection (g := tilesChecked) hobjection).2
  obtain ⟨pass, -, -, -, hstage⟩ := ((walked_start hs).after 10).exists_pass
  have hstage : (run.after 10).stage = .completed pass := hstage
  have hdraft : (run.after 10).stage.pass?.map (fun pass => (pass.draft.functions.map (·.1),
      pass.draft.uniforms)) = some (["ReinhardToneMapping"], samplers) := by decide +kernel
  rw [hstage] at hdraft
  obtain ⟨hfunctions, huniforms⟩ := Prod.mk.inj (Option.some.inj hdraft)
  obtain ⟨evaluated, -, hevaluated, hnames, -, hbinds, hreads, -, -, hprocess, hperm⟩ :=
    shared_resources_exact hp Palette.parsed_standard hfree hg hs hstage
  rw [huniforms] at hbinds hreads hperm
  exact ⟨hp, Palette.parsed_standard, hfree, hg, hs, pass, hstage, evaluated, hevaluated,
    hnames.symm.trans hfunctions, hbinds, hreads, hprocess, hperm⟩

end Compiler

end ShaderNodes
