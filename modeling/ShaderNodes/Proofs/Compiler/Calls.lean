import ShaderNodes.Proofs.Definition
import ShaderNodes.Proofs.Grammar.Struct
import ShaderNodes.Proofs.Kind.Effect

/-!
# Calls agree with definitions

A node of a function calls it on the values at its inputs, and a lighting node packs them into a
material. The definition comes with the code once for all nodes of a kind, so a call and its
definition meet only in the text of the draft. They agree: the text reads as a definition with the
types of the values, in order.

* `Grammar.readStruct`: the struct that a text begins with.
* `Graph.Arrives`: the value that a link brings to a socket.
* `Pass.Settled.filter_functions`: the draft has one text for each function.
* `Compiler.calls_match_definitions`: calls and materials of a completed pass.
-/

namespace ShaderNodes

open Grammar Text

namespace Lighting

theorem isIdentifier_fields (model : Lighting) : ∀ f ∈ model.fields, isIdentifier f.1 = true := by
  cases model <;> decide

theorem isIdentifier_material (model : Lighting) : isIdentifier model.material = true := by
  cases model <;> decide

theorem exists_append {p s : String} (h : ∃ rest, s = p ++ rest) (t : String) :
    ∃ rest, s ++ t = p ++ rest := by
  obtain ⟨rest, rfl⟩ := h
  exact ⟨rest ++ t, String.append_assoc⟩

/-- The text of a lighting model begins with its material. -/
theorem readStruct_source (model : Lighting) :
    readStruct model.source = some (model.material, model.fields) := by
  -- The text after the material stays closed, so that its characters are never looked at.
  obtain ⟨rest, hrest⟩ : ∃ rest, model.source = "struct " ++ model.material ++ " \x7b\n" ++
      String.join (model.fields.map fieldLine) ++ "\x7d;\n\n" ++ rest := by
    unfold source
    iterate 8 refine exists_append ?_ _
    exact ⟨"", String.append_empty.symm⟩
  have hfields : (String.join (model.fields.map fieldLine)).toList = fieldLines model.fields := by
    simp [fieldLines, fieldLine, List.flatMap_map]
  refine readStruct_eq_some model.isIdentifier_material model.isIdentifier_fields
    (r := '\n' :: '\n' :: rest.toList) ?_
  simp only [hrest, String.toList_append, hfields, List.append_assoc]
  rfl

end Lighting

namespace ToneMapping

theorem qualified_nil : ∀ q ∈ ([] : List (String × List Char)), q.1 ∈ qualifierWords ∧
    Separates q.2 :=
  List.forall_mem_nil _

/-- How the text of a curve is written. -/
def written (name : String) (body : List Char) (hname : isIdentifier name = true)
    (hbody : Balanced body) : Written where
  start := []
  returnType := .vec3
  afterType := [' ']
  name := name
  afterName := []
  afterOpen := []
  items :=
    [⟨[], ⟨[], .vec3, [' '], "color", qualified_nil, by decide, by decide⟩, [], .nil, .nil⟩,
      ⟨[' '], ⟨[], .float, [' '], "exposure", qualified_nil, by decide, by decide⟩, [], by decide,
        .nil⟩]
  afterClose := [' ']
  body := '\n' :: body
  ending := []
  blanks_start := .nil
  separates := by decide
  name_isIdentifier := hname
  blanks_afterName := .nil
  blanks_afterOpen := .nil
  blanks_afterClose := by decide
  balanced := .char (by decide) (by decide) hbody
  blanks_ending := .nil

/-- A curve is what its text reads as. -/
theorem parse_curve {name : String} {body : List String} (hname : isIdentifier name = true)
    (hbody : Balanced (lines body).toList) :
    Definition.parse (curve name body).source = .ok (curve name body) := by
  have htext : (curve name body).source.toList =
      (written name (lines body).toList hname hbody).text := by
    rw [curve, String.toList_append, String.toList_append, String.toList_append,
      String.toList_append, List.append_assoc, List.append_assoc, List.append_assoc]
    simp only [written, Written.text, Written.named, Written.tail, Written.Item.text,
      Written.Parameter.text, Written.Parameter.typed, List.map_cons, List.map_nil]
    rfl
  have htrim : trim (curve name body).source = (curve name body).source := by
    rw [trim, htext, ← Written.text_trimmed, ← String.ofList_toList (s := (curve name body).source),
      htext]
    rfl
  refine Definition.parse_eq_ok_iff.2 ⟨_, htext, (by decide : ["color", "exposure"].Nodup), ?_⟩
  rw [htrim]
  rfl

theorem parse_source_of_mem : ∀ f ∈ all, Definition.parse f.source = .ok f := by
  intro f hf
  simp only [all, List.mem_cons, List.not_mem_nil, or_false] at hf
  rcases hf with rfl | rfl | rfl | rfl
  · exact parse_curve (by decide) (by decide +kernel)
  · exact parse_curve (by decide) (by decide +kernel)
  · exact parse_curve (by decide) (by decide +kernel)
  · exact parse_curve (by decide) (by decide +kernel)

end ToneMapping

/-- A kind that comes with the library, or a function that was read from a text. -/
def Kind.Parsed : Kind → Prop
  | .function f => ∃ source, Definition.parse source = .ok f
  | _ => True

/-- The curves of the library might as well have been read. -/
theorem Palette.parsed_standard :
    ∀ k ∈ builtins ++ ToneMapping.all.map fun f => ("ToneMapping", Kind.function f),
    k.2.Parsed := by
  intro k hk
  rcases List.mem_append.1 hk with hk | hk
  · simp only [builtins, List.mem_cons, List.not_mem_nil, or_false] at hk
    rcases hk with rfl | rfl | rfl | rfl | rfl | rfl | rfl | rfl | rfl | rfl | rfl | rfl | rfl |
      rfl | rfl | rfl | rfl | rfl <;> trivial
  · obtain ⟨f, hf, rfl⟩ := List.mem_map.1 hk
    exact ⟨f.source, ToneMapping.parse_source_of_mem f hf⟩

/-! ## One text for each function -/

theorem filter_eq_singleton {α : Type} {l : List (Name × α)} (h : (l.map (·.1)).Nodup)
    {e : Name × α} (he : e ∈ l) : l.filter (·.1 == e.1) = [e] := by
  induction l with
  | nil => cases he
  | cons d l ih =>
    obtain ⟨hd, hl⟩ := List.nodup_cons.1 h
    rcases List.mem_cons.1 he with rfl | he
    · have hnone : l.filter (·.1 == e.1) = [] := by
        refine List.filter_eq_nil_iff.2 fun a ha heq => hd ?_
        exact List.mem_map.2 ⟨a, ha, beq_iff_eq.1 heq⟩
      rw [List.filter_cons, if_pos (beq_self_eq_true e.1), hnone]
    · have hne : d.1 ≠ e.1 := fun heq => hd (List.mem_map.2 ⟨e, he, heq.symm⟩)
      rw [List.filter_cons, if_neg (by simpa using hne), ih hl he]

namespace Pass.Settled

variable {palette : Palette} {g : CheckedGraph} {placed : List NodeId} {pass : Pass} {n : NodeId}

/-- A function that a node shares is in the draft once, with the text that the node has for it. -/
theorem filter_functions (hnamed : palette.Named) (h : pass.Settled palette g placed)
    (hn : n ∈ placed) {name : Name} {source : String}
    (he : .function name source ∈ g.edits palette pass.values n) :
    pass.draft.functions.filter (·.1 == name) = [(name, source)] :=
  filter_eq_singleton h.functions_nodup (h.mem_functions hnamed hn he)

end Pass.Settled

/-! ## Arguments -/

namespace Graph

/-- The value that reaches an input of node `n` over its one link, where `V` holds the values at
outputs. It is of the type of the socket. -/
def Arrives (g : Graph) (V : SortedMap Endpoint Value) (n : NodeId) (socket : Name × SocketType)
    (v : Value) : Prop :=
  v.type = socket.2 ∧
    ∃ source, (∀ p, ⟨p, ⟨n, socket.1⟩⟩ ∈ g.connections ↔ p = source) ∧ V.get? source = some v

variable {g : Graph} {palette : Palette} {V : SortedMap Endpoint Value} {n : NodeId}
    {ps : Producers}

theorem arrives_of_require (hps : ps.Holds g.connections) {kind : Kind}
    {sockets : List (Name × SocketType)} {values : List Value}
    (h : (g.inflow V n kind).require sockets = .ok values) :
    List.Forall₂ (g.Arrives V n) sockets values := by
  refine (Inputs.require_ok h).imp fun socket v hv => ?_
  obtain ⟨source, hlink, hget⟩ := exists_link_of_inflow hv.1
  refine ⟨hv.2, source, fun p => ⟨fun hp => ?_, fun hp => hp ▸ hlink⟩, hget⟩
  have hsource := (hps source ⟨n, socket.1⟩).2 hlink
  rw [(hps p ⟨n, socket.1⟩).2 hp] at hsource
  exact Option.some.inj hsource

/-- What a node of a given kind gives, where it emits anything. -/
theorem exists_evaluate_of_emitted {node : Node} {kind : Kind} (hnode : g.nodes.get? n = some node)
    (hkind : palette.get? node.kind = some kind) :
    g.emitted palette V n = [] ∨
      ∃ c, kind.evaluate ⟨n, node.data, g.connectedOutputs n⟩ (g.inflow V n kind) = .ok c ∧
        g.emitted palette V n = c.statements ∧ g.edits palette V n = c.edits := by
  rw [emitted, edits]
  cases hc : g.contribution palette V n with
  | none => exact .inl rfl
  | some c =>
    obtain ⟨node', kind', hnode', hkind', heval⟩ := exists_of_contribution hc
    obtain rfl := Option.some.inj (hnode.symm.trans hnode')
    obtain rfl := Option.some.inj (hkind.symm.trans hkind')
    exact .inr ⟨c, heval, rfl, rfl⟩

/-- A node of a function emits a call on what arrives at its parameters, or nothing. -/
theorem emitted_function (hps : ps.Holds g.connections) {node : Node} {f : Definition}
    (hnode : g.nodes.get? n = some node) (hkind : palette.get? node.kind = some (.function f)) :
    g.emitted palette V n = [] ∨
      ∃ x values, g.emitted palette V n =
          [.declare f.returnType.glsl x (.call f.name (values.map fun v => .operand v.text))] ∧
        .function f.name f.source ∈ g.edits palette V n ∧
        List.Forall₂ (g.Arrives V n) f.parameters values := by
  refine (exists_evaluate_of_emitted hnode hkind).imp_right ?_
  rintro ⟨c, heval, hemitted, hedits⟩
  obtain ⟨values, hvalues, rfl⟩ := Definition.evaluate_ok heval
  exact ⟨_, values, hemitted, hedits ▸ .head _, arrives_of_require hps hvalues⟩

/-- A lighting node packs what arrives at its fields into a material and passes it on with the
normal, or emits nothing. -/
theorem emitted_lighting (hps : ps.Holds g.connections) {node : Node} {model : Lighting}
    (hnode : g.nodes.get? n = some node) (hkind : palette.get? node.kind = some (.lighting model)) :
    g.emitted palette V n = [] ∨
      ∃ x y values normal, g.emitted palette V n =
          [.declare model.material x (.call model.material (values.map fun v => .operand v.text)),
            .declare "vec3" y (.call model.name [.operand x,
              .call "normalize" [.operand normal.text],
              .call "normalize" [.operand "vViewPosition"]])] ∧
        .function model.name model.source ∈ g.edits palette V n ∧
        List.Forall₂ (g.Arrives V n) model.fields values ∧
        g.Arrives V n ("normal", .vec3) normal := by
  refine (exists_evaluate_of_emitted hnode hkind).imp_right ?_
  rintro ⟨c, heval, hemitted, hedits⟩
  obtain ⟨values, hvalues, rfl⟩ := Lighting.evaluate_ok heval
  have harrive := arrives_of_require hps hvalues
  have hfields := List.forall₂_take model.fields.length harrive
  have hnormal := List.forall₂_drop model.fields.length harrive
  rw [Lighting.inputs, List.take_left] at hfields
  rw [Lighting.inputs, List.drop_left] at hnormal
  obtain ⟨normal, rest, hnormal, hrest, hdrop⟩ := List.forall₂_cons_left_iff.1 hnormal
  obtain rfl := List.forall₂_nil_left_iff.1 hrest
  refine ⟨Lighting.materialName (Context.variableName ⟨n, node.data,
    g.connectedOutputs n⟩ model.name),
    Context.variableName ⟨n, node.data, g.connectedOutputs n⟩ model.name, _, normal, ?_,
    hedits ▸ .head _, hfields, hnormal⟩
  rw [hemitted, Contribution.statements, Lighting.pack, Lighting.light, hdrop]
  cases model.usesFresnel <;> rfl

end Graph

/-! ## Main result -/

namespace Compiler

/-- In a completed pass over kinds that were read from texts, or came with the library, each call
has one text under its name. The text reads as a definition whose result has the type of the
variable, and whose parameters have the types of the arguments, which arrived at the inputs of their
names. Each material is made of what arrived for the fields of its struct, in order, and is passed
to the call that follows. -/
theorem calls_match_definitions {c : Compiler} {kinds : List (String × Kind)} {g : Graph}
    {cg : CheckedGraph} {k : Nat} {pass : Pass} (hp : c.palette = Palette.empty.registerAll kinds)
    (hkinds : ∀ k ∈ kinds, k.2.Parsed) (hg : g.check = .ok cg) (hs : (c.start cg).result = .ok ())
    (hstage : ((c.start cg).compiler.after k).stage = .completed pass) :
    pass.draft.statements = cg.order.flatMap (g.emitted c.palette pass.values) ∧
      (∀ n node f, g.nodes.get? n = some node → c.palette.get? node.kind = some (.function f) →
        g.emitted c.palette pass.values n = [] ∨
          ∃ x values source d, g.emitted c.palette pass.values n =
              [.declare d.returnType.glsl x (.call f.name (values.map fun v => .operand v.text))] ∧
            pass.draft.functions.filter (·.1 == f.name) = [(f.name, source)] ∧
            Definition.parse source = .ok d ∧ d.name = f.name ∧
            List.Forall₂ (g.Arrives pass.values n) d.parameters values) ∧
      ∀ n node model, g.nodes.get? n = some node →
        c.palette.get? node.kind = some (.lighting model) → g.emitted c.palette pass.values n = [] ∨
          ∃ x y values normal source fields, g.emitted c.palette pass.values n =
              [.declare model.material x (.call model.material (values.map fun v =>
                .operand v.text)), .declare "vec3" y (.call model.name [.operand x,
                  .call "normalize" [.operand normal.text],
                  .call "normalize" [.operand "vViewPosition"]])] ∧
            pass.draft.functions.filter (·.1 == model.name) = [(model.name, source)] ∧
            readStruct source = some (model.material, fields) ∧
            List.Forall₂ (g.Arrives pass.values n) fields values ∧
            g.Arrives pass.values n ("normal", .vec3) normal := by
  obtain ⟨rfl, hrun, hsettled⟩ := settled_of_completed hg hs hstage
  have hnamed : c.palette.Named := hp ▸ Palette.named_registerAll kinds
  have hparsed : ∀ key kind, c.palette.get? key = some kind → kind.Parsed :=
    hp ▸ Palette.forall_registerAll nofun hkinds
  have horder : ∀ {n node}, cg.nodes.get? n = some node → n ∈ cg.order := fun hnode =>
    hrun.order.perm.mem_iff.2 (SortedMap.mem_keys_iff.2 ⟨_, hnode⟩)
  refine ⟨hsettled.statements, fun n node f hnode hkind => ?_, fun n node model hnode hkind => ?_⟩
  · refine (Graph.emitted_function hrun.producers hnode hkind).imp_right ?_
    rintro ⟨x, values, hemitted, hedit, harrive⟩
    obtain ⟨text, htext⟩ := hparsed _ _ hkind
    exact ⟨x, values, f.source, f, hemitted, hsettled.filter_functions hnamed (horder hnode) hedit,
      Definition.parse_source htext, rfl, harrive⟩
  · refine (Graph.emitted_lighting hrun.producers hnode hkind).imp_right ?_
    rintro ⟨x, y, values, normal, hemitted, hedit, harrive, hnormal⟩
    exact ⟨x, y, values, normal, model.source, model.fields, hemitted,
      hsettled.filter_functions hnamed (horder hnode) hedit, model.readStruct_source, harrive,
      hnormal⟩

/-- Two nodes share a curve, and a lighting node takes the color of the second. -/
def lit : Graph where
  nodes :=
    .ofList [("b", ⟨"BlinnPhong", .empty⟩), ("e", ⟨"ConstantFloat", .ofList [("value", "0.5")]⟩),
    ("g", ⟨"Geometry", .empty⟩), ("t", ⟨"ReinhardToneMapping", .empty⟩),
    ("u", ⟨"ReinhardToneMapping", .empty⟩)]
  links := .ofList
    [(⟨"e", "value"⟩, [⟨"t", "exposure"⟩, ⟨"u", "exposure"⟩, ⟨"b", "specular"⟩,
      ⟨"b", "shininess"⟩]), (⟨"g", "normal"⟩, [⟨"t", "color"⟩, ⟨"b", "normal"⟩]),
      (⟨"t", "result"⟩, [⟨"u", "color"⟩]), (⟨"u", "result"⟩, [⟨"b", "color"⟩])]

def litChecked : CheckedGraph where
  toGraph := lit
  order := ["e", "g", "t", "u", "b"]
  producers := .ofList
    [(⟨"b", "color"⟩, ⟨"u", "result"⟩), (⟨"b", "normal"⟩, ⟨"g", "normal"⟩),
      (⟨"b", "shininess"⟩, ⟨"e", "value"⟩), (⟨"b", "specular"⟩, ⟨"e", "value"⟩),
      (⟨"t", "color"⟩, ⟨"g", "normal"⟩), (⟨"t", "exposure"⟩, ⟨"e", "value"⟩),
      (⟨"u", "color"⟩, ⟨"t", "result"⟩), (⟨"u", "exposure"⟩, ⟨"e", "value"⟩)]

theorem check_lit : lit.check = .ok litChecked := rfl

theorem objection?_lit : objection? fresh.palette lit = none := by decide +kernel

theorem start_lit : (fresh.start litChecked).result = .ok () :=
  (start_of_no_objection (g := litChecked) objection?_lit).2

/-- The second of two calls of a curve, and the material made of its result. -/
theorem calls_match_definitions_lit :
    fresh.palette = Palette.empty.registerAll
        (Palette.builtins ++ ToneMapping.all.map fun f => ("ToneMapping", .function f)) ∧
      (∀ k ∈ Palette.builtins ++ ToneMapping.all.map fun f => ("ToneMapping", Kind.function f),
        k.2.Parsed) ∧
      lit.check = .ok litChecked ∧ (fresh.start litChecked).result = .ok () ∧
      ∃ pass, ((fresh.start litChecked).compiler.after 6).stage = .completed pass ∧
        (∃ x values source d, lit.emitted fresh.palette pass.values "u" =
            [.declare d.returnType.glsl x
              (.call "ReinhardToneMapping" (values.map fun v => .operand v.text))] ∧
          pass.draft.functions.filter (·.1 == "ReinhardToneMapping") =
            [("ReinhardToneMapping", source)] ∧
          Definition.parse source = .ok d ∧ d.name = "ReinhardToneMapping" ∧
          List.Forall₂ (lit.Arrives pass.values "u") d.parameters values) ∧
        ∃ source fields values, pass.draft.functions.filter (·.1 == "BlinnPhong") =
          [("BlinnPhong", source)] ∧ readStruct source = some ("BlinnPhongMaterial", fields) ∧
          List.Forall₂ (lit.Arrives pass.values "b") fields values := by
  have hp : fresh.palette = Palette.empty.registerAll
      (Palette.builtins ++ ToneMapping.all.map fun f => ("ToneMapping", .function f)) := rfl
  have hrun : litChecked.Runnable fresh.palette := runnable_of_check check_lit objection?_lit
  obtain ⟨pass, -, -, -, hstage⟩ := ((walked_start start_lit).after 6).exists_pass
  have hstage : ((fresh.start litChecked).compiler.after 6).stage = .completed pass := hstage
  obtain ⟨-, hcalls, hmaterials⟩ :=
    calls_match_definitions hp Palette.parsed_standard check_lit start_lit hstage
  have hemits : ((fresh.start litChecked).compiler.after 6).values?.map (fun V =>
      ((lit.emitted fresh.palette V "u").length, (lit.emitted fresh.palette V "b").length)) =
        some (1, 2) := by
    decide +kernel
  rw [values?, hstage] at hemits
  obtain ⟨hcall, hmaterial⟩ := Prod.mk.inj (Option.some.inj hemits)
  refine ⟨hp, Palette.parsed_standard, check_lit, start_lit, pass, hstage, ?_, ?_⟩
  · refine (hcalls "u" ⟨"ReinhardToneMapping", .empty⟩ ToneMapping.reinhard rfl rfl).resolve_left ?_
    intro hnone
    rw [hnone] at hcall
    cases hcall
  · obtain ⟨x, y, values, normal, source, fields, -, hsource, hfields, harrive, -⟩ :=
      (hmaterials "b" ⟨"BlinnPhong", .empty⟩ .blinnPhong rfl rfl).resolve_left fun hnone => by
        rw [hnone] at hmaterial
        cases hmaterial
    exact ⟨source, fields, values, hsource, hfields, harrive⟩

end Compiler

end ShaderNodes
