import ShaderNodes.Proofs.Compiler.Dataflow
import ShaderNodes.Proofs.Draft.Scope
import ShaderNodes.Proofs.Kind.Evaluate
import ShaderNodes.Proofs.Literal
import ShaderNodes.Proofs.Names
import ShaderNodes.Proofs.Palette
import ShaderNodes.Proofs.Text.Lines

/-!
# What the kinds mention

The statements of a node are in scope in a draft that has what the node adds, if the values at its
inputs are read from what came before (`Kind.wellScoped_of_evaluate`). The values at its outputs are
then read from its own statements (`Kind.grounded_of_evaluate`). Neither asks when the edits of the
node are made.
-/

namespace ShaderNodes

open Text Grammar

variable {d : Draft} {earlier : List Statement} {node : Context} {inputs : Inputs}
    {c : Contribution}

/-! ## Names -/

theorem Context.isIdentifier_variableName {kind : Name} (node : Context)
    (h : isIdentifier kind = true) : isIdentifier (node.variableName kind) = true := by
  rw [variableName, String.append_assoc]
  refine isIdentifier_append (isIdentifier_lowercase h) fun c hc => ?_
  rw [String.toList_append] at hc
  rcases List.mem_append.1 hc with hc | hc
  · obtain rfl := List.mem_singleton.1 hc
    decide
  · exact isWordChar_of_mem_mangle hc

theorem Role.isIdentifier_name {x : Name} (role : Role) (h : isIdentifier x = true) :
    isIdentifier (role.name x) = true := by
  have hsuffix : role.suffix.all isWordChar = true := by cases role <;> decide
  obtain ⟨c, rest, hx, hc, hrest⟩ := isIdentifier_iff.1 h
  refine isIdentifier_iff.2 ⟨c, rest ++ role.suffix, ?_, hc, fun e he => ?_⟩
  · rw [toList_name, hx, List.cons_append]
  · exact (List.mem_append.1 he).elim (hrest e) (List.all_eq_true.1 hsuffix e)

/-- Kinds with an identifier as name, whose function, if any, is defined by its source. -/
structure Kind.Sourced (kind : Kind) : Prop where
  isIdentifier_name : isIdentifier kind.name = true
  defines : ∀ f, kind = .function f → DefinesFunction f.source f.name

/-! ## Sources -/

theorem ToneMapping.definesFunction_curve (name : String) (body : List String) :
    DefinesFunction (curve name body).source name := by
  have htype : "vec3 " = "vec3" ++ " " := by decide
  have hparen : "(vec3 color, float exposure) \x7b\n" =
      "(" ++ "vec3 color, float exposure) \x7b\n" := by
    decide
  refine ⟨.vec3, "", "vec3 color, float exposure) \x7b\n" ++ lines body ++ "\x7d", ?_, nofun⟩
  unfold curve
  simp only [htype, hparen, SocketType.glsl, String.append_assoc, String.empty_append]

namespace Lighting

theorem definesStruct_source (model : Lighting) : DefinesStruct model.source model.material := by
  have hbrace : " \x7b\n" = " \x7b" ++ "\n" := by decide
  refine ⟨"",
    "\n" ++ String.join (model.fields.map fieldLine) ++ "\x7d;\n\n" ++ model.helpers ++ "vec3 "
    ++ model.name ++ "(const in " ++ model.material
    ++ " material, const in vec3 normal, const in vec3 viewDir) \x7b\n" ++ model.body ++ "\x7d\n",
    ?_, nofun⟩
  unfold source
  simp only [hbrace, String.append_assoc, String.empty_append]

/-- The function comes after the struct and the helpers, which end with their lines. -/
theorem definesFunction_source (model : Lighting) : DefinesFunction model.source model.name := by
  have htype : "vec3 " = "vec3" ++ " " := by decide
  have hparen : "(const in " = "(" ++ "const in " := by decide
  refine ⟨.vec3,
    "struct " ++ model.material ++ " \x7b\n" ++ String.join (model.fields.map fieldLine)
    ++ "\x7d;\n\n" ++ model.helpers, "const in " ++ model.material
    ++ " material, const in vec3 normal, const in vec3 viewDir) \x7b\n" ++ model.body ++ "\x7d\n",
    ?_, ?_⟩
  · unfold source
    simp only [htype, hparen, SocketType.glsl, String.append_assoc]
  · have hhelpers : ∀ c ∈ model.helpers.toList.getLast?, c = '\n' := by
      cases model <;> exact getLast?_lines
    have hstruct : "\x7d;\n\n".toList.getLast? = some '\n' := by decide
    rw [String.toList_append, List.getLast?_append, String.toList_append, List.getLast?_append,
      hstruct]
    simp only [Option.mem_def, Option.or_eq_some_iff]
    rintro c (hc | ⟨-, hc | ⟨hc, -⟩⟩)
    · exact hhelpers c hc
    · exact (Option.some.inj hc).symm
    · cases hc

end Lighting

theorem Draft.provides_perturbNormal (h : d.features.isEnabled .normalMap = true) :
    d.Provides "perturbNormal2Arb" := by
  refine .block .normalMap h (.inl ⟨.vec3, ?_⟩)
  have hline :
      "vec3 perturbNormal2Arb(vec3 eyePos, vec3 surfNorm, vec3 mapN, vec2 uv, float normalScale) \x7b" =
      SocketType.vec3.glsl ++ " " ++ "perturbNormal2Arb" ++ "(" ++
        "vec3 eyePos, vec3 surfNorm, vec3 mapN, vec2 uv, float normalScale) \x7b" := by
    decide
  unfold block Chunks.normalMap
  rw [lines_cons, hline, String.append_assoc, String.append_assoc]
  exact beginsLine_append ..

theorem Palette.sourced_standard : ∀ key kind, standard.get? key = some kind → kind.Sourced := by
  have hcurves : ∀ f ∈ ToneMapping.all, DefinesFunction f.source f.name := by
    intro f hf
    simp only [ToneMapping.all, List.mem_cons, List.not_mem_nil, or_false] at hf
    rcases hf with rfl | rfl | rfl | rfl <;> exact ToneMapping.definesFunction_curve ..
  intro key kind hkind
  refine ⟨identified_standard key kind hkind, ?_⟩
  refine forall_standard (P := fun _ kind => ∀ f, kind = .function f →
    DefinesFunction f.source f.name) (fun k hk f hf => ?_) (fun f hf f' heq => ?_) key kind hkind
  · have hbuiltins : ∀ k ∈ builtins, ∀ f, k.2 ≠ .function f := by
      simp [builtins]
    exact absurd hf (hbuiltins k hk f)
  · exact Kind.function.inj heq ▸ hcurves f hf

/-! ## Expressions -/

theorem Value.Grounded.mentionsOnly_operand {v : Value} (h : v.Grounded d earlier) :
    MentionsOnly (d.Allows earlier) (Expr.operand v.text).text.toList := by
  rw [Expr.text_operand]
  exact h.mentionsOnly

/-- Grounded values as arguments. -/
theorem mentionsOnly_operands {values : List Value} (h : ∀ v ∈ values, v.Grounded d earlier) :
    ∀ arg ∈ values.map fun v => Expr.operand v.text,
      MentionsOnly (d.Allows earlier) arg.text.toList := by
  intro arg harg
  obtain ⟨v, hv, rfl⟩ := List.mem_map.1 harg
  exact (h v hv).mentionsOnly_operand

theorem mentionsOnly_operand {x : Name} (hx : isIdentifier x = true)
    (h : d.Allows earlier ⟨x, false⟩) :
    MentionsOnly (d.Allows earlier) (Expr.operand x).text.toList := by
  rw [Expr.text_operand]
  exact mentionsOnly_word hx h

/-- A declaration of a value of the graph. -/
theorem Draft.wellScoped_declare {type : SocketType} {x : Name} {e : Expr}
    (h : MentionsOnly (d.Allows earlier) e.text.toList) :
    d.WellScoped earlier [.declare type.glsl x e] :=
  ⟨⟨d.provides_glsl type, h.forall_mentions⟩, trivial⟩

namespace Operator

theorem mentionsOnly_symbolic {op : String} {values : Vector Value 2}
    (hop : op.toList.all isPunctuation = true)
    (hvalues : ∀ v ∈ values.toList, v.Grounded d earlier) :
    MentionsOnly (d.Allows earlier) ((symbolic op).render values).text.toList := by
  have hargs : ∀ i (h : i < 2),
      MentionsOnly (d.Allows earlier) (values.map fun v => Expr.operand v.text)[i].text.toList := by
    intro i hi
    rw [Vector.getElem_map]
    exact (hvalues _ (by simp)).mentionsOnly_operand
  exact Expr.mentionsOnly_text_binary hop (hargs 0 (by decide)) (hargs 1 (by decide))

theorem mentionsOnly_calling {n : Nat} {f : Name} {slots : Vector Name n} {values : Vector Value n}
    (hf : isIdentifier f = true ∧ f ∈ builtinNames)
    (hvalues : ∀ v ∈ values.toList, v.Grounded d earlier) :
    MentionsOnly (d.Allows earlier) ((calling f slots).render values).text.toList := by
  refine Expr.mentionsOnly_text_call hf.1 (Draft.allows_called (.builtin hf.2)) fun arg harg => ?_
  rw [Vector.toList_map] at harg
  exact mentionsOnly_operands hvalues arg harg

theorem mentionsOnly_render {n : Nat} (op : Operator n) {values : Vector Value n}
    (hvalues : ∀ v ∈ values.toList, v.Grounded d earlier) :
    MentionsOnly (d.Allows earlier) (op.template.render values).text.toList := by
  cases op with
  | add | subtract | multiply | divide => exact mentionsOnly_symbolic (by decide) hvalues
  | dot | cross | mix => exact mentionsOnly_calling (by decide) hvalues

end Operator

theorem SocketType.isIdentifier_glsl (type : SocketType) : isIdentifier type.glsl = true := by
  cases type <;> decide

theorem Constant.mentionsOnly_expression {type : SocketType} {components : List String}
    (h : ∀ n ∈ components, ∀ c ∈ n.toList, isNumeric c = true) :
    MentionsOnly (d.Allows earlier) (expression type components).text.toList := by
  have hsilent : (",".intercalate components).toList.all (!isWordStart ·) = true := by
    refine List.all_eq_true.2 fun c hc => ?_
    rw [String.toList_intercalate] at hc
    rw [Bool.not_eq_true']
    obtain hc | ⟨a, ha, hc⟩ := mem_of_mem_intercalate hc
    · obtain rfl := List.mem_singleton.1 hc
      decide
    · obtain ⟨n, hn, rfl⟩ := List.mem_map.1 ha
      exact isWordStart_of_isNumeric (h n hn c hc)
  rw [expression]
  split
  · rw [Expr.text_plain]
    exact mentionsOnly_silent hsilent
  · have htext :
        (Expr.text [.callee type.glsl, .plain ("(" ++ ",".intercalate components ++ ")")]).toList =
        type.glsl.toList ++ '(' :: ((",".intercalate components).toList ++ [')']) := by
      simp [Expr.toList_text, Piece.text]
    rw [htext]
    exact mentionsOnly_call type.isIdentifier_glsl (Draft.allows_called (d.provides_glsl type))
      (mentionsOnly_silent hsilent)

theorem mentionsOnly_plain {text : String} (h : text.toList.all (!isWordStart ·) = true) :
    MentionsOnly (d.Allows earlier) (Expr.plain text).text.toList := by
  rw [Expr.text_plain]
  exact mentionsOnly_silent h

theorem FragColor.mentionsOnly_expression {color alpha : Option Value}
    (hcolor : ∀ v ∈ color, v.Grounded d earlier) (halpha : ∀ v ∈ alpha, v.Grounded d earlier) :
    MentionsOnly (d.Allows earlier) (expression color alpha).text.toList := by
  have hvec4 : d.Allows earlier ⟨"vec4", true⟩ := Draft.allows_called (d.provides_glsl .vec4)
  have hname : isIdentifier "vec4" = true := by decide
  cases color with
  | none =>
    refine Expr.mentionsOnly_text_call hname hvec4 ?_
    simp only [List.forall_mem_cons]
    exact ⟨mentionsOnly_plain (by decide), mentionsOnly_plain (by decide),
      mentionsOnly_plain (by decide), mentionsOnly_plain (by decide), nofun⟩
  | some color =>
    have hcolor := (hcolor color rfl).mentionsOnly
    cases alpha with
    | some alpha =>
      refine Expr.mentionsOnly_text_call hname hvec4 ?_
      simp only [List.forall_mem_cons, Expr.text_operand]
      refine ⟨?_, (halpha alpha rfl).mentionsOnly, nofun⟩
      have htext : (Expr.text [.operand color.text, .plain ".rgb"]).toList =
          color.text.toList ++ ['.', 'r', 'g', 'b'] := by
        simp [Expr.toList_text, Piece.text]
      rw [htext]
      exact hcolor.append (mentionsOnly_component (by decide)) (by simp [Ends]; decide)
    | none =>
      rw [expression]
      split
      · refine Expr.mentionsOnly_text_call hname hvec4 ?_
        simp only [List.forall_mem_cons, Expr.text_operand]
        exact ⟨hcolor, mentionsOnly_plain (by decide), nofun⟩
      · rwa [Expr.text_operand]

/-- The sample of a texture, whose uniform is bound by the node. -/
theorem Sampler.mentionsOnly_sample {x texture : String} {uv : Value} (hx : isIdentifier x = true)
    (hcovers : d.Covers (bind x texture)) (huv : uv.Grounded d earlier) :
    MentionsOnly (d.Allows earlier) (sample (uniformName x) uv).text.toList := by
  refine Expr.mentionsOnly_text_call (by decide)
    (Draft.allows_called (.builtin (by decide))) ?_
  simp only [List.forall_mem_cons]
  exact ⟨mentionsOnly_operand (Role.sampler.isIdentifier_name hx)
    (Draft.allows_read (.sampler _ hcovers rfl)), huv.mentionsOnly_operand, nofun⟩

theorem NormalMap.mentionsOnly_expression {x texture : String} {uv : Value} {strength : Expr}
    (hx : isIdentifier x = true) (hbind : d.Covers (Sampler.bind x texture))
    (hnormal : d.Covers (.enable .normal)) (hposition : d.Covers (.enable .position))
    (hmap : d.Covers (.enable .normalMap)) (huv : uv.Grounded d earlier)
    (hstrength : MentionsOnly (d.Allows earlier) strength.text.toList) :
    MentionsOnly (d.Allows earlier)
      (expression (Sampler.uniformName x) uv strength).text.toList := by
  refine Expr.mentionsOnly_text_call (by decide)
    (Draft.allows_called (Draft.provides_perturbNormal hmap)) ?_
  simp only [List.forall_mem_cons]
  refine ⟨?_, ?_, ?_, huv.mentionsOnly_operand, hstrength, nofun⟩
  · have htext : (Expr.text [.plain "-", .operand "vViewPosition"]).toList =
        ['-'] ++ "vViewPosition".toList := by
      simp [Expr.toList_text, Piece.text]
    rw [htext]
    exact (mentionsOnly_word (by decide)
      (Draft.allows_read (.surface .vec3 .position (by decide) hposition))).after (by decide)
  · exact mentionsOnly_operand (by decide)
      (Draft.allows_read (.surface .vec3 .normal (by decide) hnormal))
  · have htext :
        (Expr.text (Sampler.sample (Sampler.uniformName x) uv ++ .plain
          ".xyz * 2.0 - 1.0")).toList =
        (Sampler.sample (Sampler.uniformName x) uv).text.toList ++
          (['.', 'x', 'y', 'z'] ++ ([' ', '*', ' '] ++ "2.0 - 1.0".toList)) := by
      rw [Expr.toList_text_append, Expr.text_plain]
      simp
    rw [htext]
    have hnumbers : MentionsOnly (d.Allows earlier) "2.0 - 1.0".toList :=
      mentionsOnly_silent (by decide)
    have hcomponents : MentionsOnly (d.Allows earlier) ['.', 'x', 'y', 'z'] :=
      mentionsOnly_component (by decide)
    have hrest := hcomponents.append (hnumbers.after (s := [' ', '*', ' ']) (by decide))
      (by simp [Ends]; decide)
    exact (Sampler.mentionsOnly_sample hx hbind huv).append hrest (by simp [Ends]; decide)

/-! ## Statements -/

/-- A material, and the color that is lit with it. -/
theorem Lighting.statements_of_evaluate {model : Lighting}
    (h : model.evaluate node inputs = .ok c) :
      ∃ values, inputs.require model.inputs = .ok values ∧ c.statements =
      [.declare model.material (materialName (node.variableName model.name))
          (model.pack (values.take model.fields.length)),
        .declare SocketType.vec3.glsl (node.variableName model.name)
          (model.light (materialName (node.variableName model.name))
            (values.drop model.fields.length))] := by
  obtain ⟨values, hvalues, rfl⟩ := evaluate_ok h
  refine ⟨values, hvalues, ?_⟩
  cases model <;> rfl

section Statements

variable (hcovers : ∀ e ∈ c.edits, d.Covers e)
  (hinputs : ∀ s v, inputs.get? s = some v → v.Grounded d earlier)

include hinputs

theorem Operator.wellScoped {n : Nat} {op : Operator (n + 1)}
    (h : op.evaluate node inputs = .ok c) : d.WellScoped earlier c.statements := by
  obtain ⟨values, type, hvalues, -, rfl⟩ := evaluate_ok h
  refine Draft.wellScoped_declare (op.mentionsOnly_render fun v hv => ?_)
  obtain ⟨slot, -, hget⟩ := Inputs.get?_of_gather (Template.gather_of_resolve hvalues) hv
  exact hinputs slot v hget

omit hinputs in
theorem Constant.wellScoped {type : SocketType} (h : Constant.evaluate type node = .ok c) :
    d.WellScoped earlier c.statements := by
  obtain ⟨literal, components, -, hparse, rfl⟩ := evaluate_ok h
  exact Draft.wellScoped_declare (mentionsOnly_expression (Literal.parse_ok hparse).2)

theorem FragColor.wellScoped : d.WellScoped earlier (FragColor.evaluate inputs).statements := by
  refine ⟨MentionsOnly.forall_mentions (mentionsOnly_expression ?_ ?_), trivial⟩
  · exact fun v hv => hinputs _ v (Option.filter_eq_some_iff.1 hv).1
  · exact fun v hv => hinputs _ v (Option.filter_eq_some_iff.1 hv).1

theorem Sampler.grounded_coordinates {uv : Value} (h : Sampler.coordinates inputs = .ok uv) :
    uv.Grounded d earlier := by
  obtain ⟨v, hv, h⟩ := bind_ok h
  obtain ⟨rfl, -⟩ := Value.expect_ok h
  exact hinputs _ _ (Inputs.value_ok hv)

include hcovers

theorem Texture.wellScoped (h : Texture.evaluate node inputs = .ok c) :
    d.WellScoped earlier c.statements := by
  obtain ⟨uv, texture, huv, -, rfl⟩ := evaluate_ok h
  exact Draft.wellScoped_declare (Sampler.mentionsOnly_sample
    (node.isIdentifier_variableName (by decide)) (hcovers _ (.head _))
    (Sampler.grounded_coordinates hinputs huv))

theorem NormalMap.wellScoped (h : NormalMap.evaluate node inputs = .ok c) :
    d.WellScoped earlier c.statements := by
  obtain ⟨uv, strength, texture, huv, hstrength, -, rfl⟩ := evaluate_ok h
  have hscale : MentionsOnly (d.Allows earlier) strength.text.toList := by
    obtain rfl | ⟨v, hget, rfl⟩ := scale_ok hstrength
    · exact mentionsOnly_plain (by decide)
    · exact (hinputs _ v hget).mentionsOnly_operand
  exact Draft.wellScoped_declare (mentionsOnly_expression
    (node.isIdentifier_variableName (by decide)) (hcovers _ (.head _)) (hcovers _ (by simp))
    (hcovers _ (by simp)) (hcovers _ (by simp)) (Sampler.grounded_coordinates hinputs huv) hscale)

/-- The material is declared right before the color that reads it. -/
theorem Lighting.wellScoped {model : Lighting} (h : model.evaluate node inputs = .ok c) :
    d.WellScoped earlier c.statements := by
  obtain ⟨values, hvalues, hstatements⟩ := statements_of_evaluate h
  obtain ⟨_, -, hc⟩ := evaluate_ok h
  have hfunction : (model.name, model.source) ∈ d.functions :=
    hcovers (.function model.name model.source) (by rw [hc]; exact .head _)
  have hposition : d.Covers (.enable .position) := hcovers _ (by simp [hc])
  have hname : isIdentifier model.name = true := by cases model <;> decide
  have hstruct : d.Provides model.material := .struct _ _ hfunction model.definesStruct_source
  have hground : ∀ v ∈ values, v.Grounded d earlier := fun v hv => by
    obtain ⟨socket, -, hget⟩ := Inputs.get?_of_require hvalues hv
    exact hinputs _ v hget
  rw [hstatements]
  refine ⟨⟨hstruct, MentionsOnly.forall_mentions ?_⟩, Draft.wellScoped_declare ?_⟩
  · refine Expr.mentionsOnly_text_call (by cases model <;> decide) (Draft.allows_called hstruct) ?_
    exact mentionsOnly_operands fun v hv => hground v (List.mem_of_mem_take hv)
  · have hnormalize : d.Provides "normalize" := .builtin (by decide)
    refine Expr.mentionsOnly_text_call hname
      (Draft.allows_called (.function _ hfunction model.definesFunction_source)) ?_
    simp only [List.forall_mem_cons]
    refine ⟨?_, ?_, ?_, List.forall_mem_nil _⟩
    · exact mentionsOnly_operand
        (Role.material.isIdentifier_name (node.isIdentifier_variableName hname))
        (.inl ⟨_, _, List.mem_append_right _ (.head _)⟩)
    · refine Expr.mentionsOnly_text_call (by decide) (Draft.allows_called hnormalize) ?_
      exact mentionsOnly_operands fun v hv =>
        (hground v (List.mem_of_mem_drop hv)).mono (List.subset_append_left ..)
    · refine Expr.mentionsOnly_text_call (by decide) (Draft.allows_called hnormalize) ?_
      simp only [List.forall_mem_cons]
      exact ⟨mentionsOnly_operand (by decide)
        (Draft.allows_read (.surface .vec3 .position (by decide) hposition)), List.forall_mem_nil _⟩

theorem Definition.wellScoped {f : Definition} (hf : isIdentifier f.name = true)
    (hsource : DefinesFunction f.source f.name) (h : f.evaluate node inputs = .ok c) :
    d.WellScoped earlier c.statements := by
  obtain ⟨values, hvalues, rfl⟩ := evaluate_ok h
  refine Draft.wellScoped_declare (Expr.mentionsOnly_text_call hf
    (Draft.allows_called (.function _ (hcovers _ (.head _)) hsource))
      (mentionsOnly_operands fun v hv => ?_))
  obtain ⟨socket, -, hget⟩ := Inputs.get?_of_require hvalues hv
  exact hinputs _ v hget

/-- The statements of a node are in scope. -/
theorem Kind.wellScoped_of_evaluate {kind : Kind} (hkind : kind.Sourced)
    (h : kind.evaluate node inputs = .ok c) : d.WellScoped earlier c.statements := by
  cases kind with
  | operator op => exact Operator.wellScoped hinputs h
  | constant type => exact Constant.wellScoped h
  | geometry =>
    obtain rfl := Except.ok.inj h
    have hnone : (Geometry.evaluate node).statements = [] := by
      simp [Geometry.evaluate, Contribution.statements, Edit.statement?]
    rw [hnone]
    trivial
  | fragColor =>
    obtain rfl := Except.ok.inj h
    exact FragColor.wellScoped hinputs
  | texture => exact Texture.wellScoped hcovers hinputs h
  | normalMap => exact NormalMap.wellScoped hcovers hinputs h
  | lighting model => exact Lighting.wellScoped hcovers hinputs h
  | function f =>
    exact Definition.wellScoped hcovers hinputs hkind.isIdentifier_name (hkind.defines f rfl) h

end Statements

/-! ## Outputs -/

section Outputs

variable {s : Name} {v : Value}

theorem Value.grounded_declare {x : Name} {type : SocketType} {e : Expr} {output : Name}
    {ss : List Statement} (hx : isIdentifier x = true) (h : .declare type.glsl x e ∈ ss)
    (hv : (SortedMap.ofList [(output, (⟨x, type⟩ : Value))]).get? s = some v) :
    v.Grounded d ss := by
  obtain ⟨-, rfl⟩ := Prod.mk.inj (List.mem_singleton.1 (SortedMap.mem_of_get?_ofList hv))
  exact .whole e hx h

theorem Geometry.grounded (hcovers : ∀ e ∈ (Geometry.evaluate node).edits, d.Covers e)
    (hv : (Geometry.evaluate node).outputs.get? s = some v) :
    v.Grounded d (Geometry.evaluate node).statements := by
  have htable : ∀ a ∈ attributes, (a.value.text, a.value.type, a.feature) ∈ Draft.attributes := by
    decide
  obtain ⟨a, ha, heq⟩ := List.mem_map.1 (SortedMap.mem_of_get?_ofList hv)
  obtain ⟨-, rfl⟩ := Prod.mk.inj heq
  have hon : d.Covers (.enable a.feature) := hcovers _ (List.mem_map.2 ⟨a, ha, rfl⟩)
  exact .surface a.feature (htable a (List.mem_filter.1 ha).1) hon

theorem Texture.grounded (h : Texture.evaluate node inputs = .ok c)
    (hv : c.outputs.get? s = some v) : v.Grounded d c.statements := by
  have hparts : ∀ p ∈ parts, p.1 ≠ "rgba" →
      p.1.length = p.2.dimension ∧ p.1.toList.all (· ∈ ['r', 'g', 'b', 'a']) = true := by
    decide
  obtain ⟨uv, texture, -, -, rfl⟩ := evaluate_ok h
  have hx : isIdentifier (node.variableName name) = true :=
    node.isIdentifier_variableName (by decide)
  obtain ⟨p, hp, heq⟩ := List.mem_map.1 (SortedMap.mem_of_get?_ofList hv)
  obtain ⟨-, rfl⟩ := Prod.mk.inj heq
  rw [part]
  split
  · exact .whole _ hx (.head _)
  · rename_i hrgba
    obtain ⟨hlength, hcomponents⟩ := hparts p hp hrgba
    exact .part _ p.1 _ hx (.head _) rfl hlength fun c hc =>
      of_decide_eq_true (List.all_eq_true.1 hcomponents c hc)

/-- The values that a node gives are read from its own statements, or from the surface. -/
theorem Kind.grounded_of_evaluate {kind : Kind} (hname : isIdentifier kind.name = true)
    (h : kind.evaluate node inputs = .ok c) (hcovers : ∀ e ∈ c.edits, d.Covers e)
    (hv : c.outputs.get? s = some v) : v.Grounded d c.statements := by
  have hx := node.isIdentifier_variableName hname
  cases kind with
  | operator op =>
    obtain ⟨values, type, -, -, rfl⟩ := Operator.evaluate_ok h
    exact Value.grounded_declare hx (.head _) hv
  | constant type =>
    obtain ⟨literal, components, -, -, rfl⟩ := Constant.evaluate_ok h
    exact Value.grounded_declare hx (.head _) hv
  | geometry =>
    obtain rfl := Except.ok.inj h
    exact Geometry.grounded hcovers hv
  | fragColor =>
    obtain rfl := Except.ok.inj h
    cases hv
  | texture => exact Texture.grounded h hv
  | normalMap =>
    obtain ⟨uv, strength, texture, -, -, -, rfl⟩ := NormalMap.evaluate_ok h
    exact Value.grounded_declare hx (.head _) hv
  | lighting model =>
    obtain ⟨values, -, rfl⟩ := Lighting.evaluate_ok h
    exact Value.grounded_declare hx (.tail _ (.head _)) hv
  | function f =>
    obtain ⟨values, -, rfl⟩ := Definition.evaluate_ok h
    exact Value.grounded_declare hx (.head _) hv

end Outputs

end ShaderNodes
