import ShaderNodes.Proofs.Compiler.Calls
import ShaderNodes.Proofs.Text.Confined

/-!
# What a node can write

Text of a user comes into what a node writes in three ways. Ids are encoded, the literals of
constants are read by a grammar, and textures are not written at all. So where the values at the
inputs are confined, the statements of a node and the values at its outputs are, whatever the id and
the data of the node.

* `Kind.confined_of_evaluate`: what a node of any kind writes.
-/

namespace ShaderNodes

open Text Grammar

variable {node : Context} {inputs : Inputs} {c : Contribution}

/-! ## Names -/

/-- The name of a function that was read is an identifier, like those of the other kinds. -/
theorem Kind.Parsed.isIdentifier_name {kind : Kind} (h : kind.Parsed) :
    isIdentifier kind.name = true := by
  cases kind with
  | operator op => cases op <;> decide
  | constant type => cases type <;> decide
  | geometry => decide
  | fragColor => decide
  | texture => decide
  | normalMap => decide
  | lighting model => cases model <;> decide
  | function f =>
    obtain ⟨source, hsource⟩ := h
    obtain ⟨w, -, -, rfl⟩ := Definition.parse_eq_ok_iff.1 hsource
    exact w.name_isIdentifier

/-- A value whose text is confined. -/
def Value.IsConfined (v : Value) : Prop := Confined v.text.toList

theorem Value.isConfined_variable {kind : Name} (node : Context) (type : SocketType)
    (h : isIdentifier kind = true) : Value.IsConfined ⟨node.variableName kind, type⟩ :=
  confined_of_isIdentifier (node.isIdentifier_variableName h)

/-- A declaration of a value of the graph. -/
theorem confined_declare {x : Name} {type : SocketType} {e : Expr} (hx : isIdentifier x = true)
    (he : Confined e.text.toList) :
    ∀ s ∈ [Statement.declare type.glsl x e], Confined s.text.toList :=
  List.forall_mem_singleton.2 (Statement.confined_declare type.isIdentifier_glsl hx he)

theorem confined_operands {values : List Value} (h : ∀ v ∈ values, v.IsConfined) :
    ∀ arg ∈ values.map fun v => Expr.operand v.text, Confined arg.text.toList := by
  intro arg harg
  obtain ⟨v, hv, rfl⟩ := List.mem_map.1 harg
  exact Expr.confined_operand (h v hv)

/-! ## Expressions -/

namespace Operator

theorem confined_symbolic {op : String} {values : Vector Value 2}
    (hop : Confined (" " ++ op ++ " ").toList) (h : ∀ v ∈ values.toList, v.IsConfined) :
    Confined ((symbolic op).render values).text.toList := by
  have hargs : ∀ i (h : i < 2),
      Confined (values.map fun v => Expr.operand v.text)[i].text.toList := by
    intro i hi
    rw [Vector.getElem_map]
    exact Expr.confined_operand (h _ (by simp))
  exact Expr.confined_binary hop (hargs 0 (by decide)) (hargs 1 (by decide))

theorem confined_calling {n : Nat} {f : Name} {slots : Vector Name n} {values : Vector Value n}
    (hf : isIdentifier f = true) (h : ∀ v ∈ values.toList, v.IsConfined) :
    Confined ((calling f slots).render values).text.toList := by
  refine Expr.confined_call (confined_of_isIdentifier hf) fun arg harg => ?_
  rw [Vector.toList_map] at harg
  exact confined_operands h arg harg

/-- The slash of a quotient stands between spaces. -/
theorem confined_render {n : Nat} (op : Operator n) {values : Vector Value n}
    (h : ∀ v ∈ values.toList, v.IsConfined) : Confined (op.template.render values).text.toList := by
  cases op with
  | add | subtract | multiply => exact confined_symbolic (confined_of_all (by decide)) h
  | divide => exact confined_symbolic (.inert (by decide) (.slash .nil)) h
  | dot | cross | mix => exact confined_calling (by decide) h

end Operator

theorem isInert_of_isNumeric {c : Char} (h : isNumeric c = true) : isInert c = true := by
  simp only [isNumeric, Bool.or_eq_true, decide_eq_true_eq] at h
  rcases h with (h | rfl) | rfl
  · simp [isInert, isWordChar, Char.isAlphanum, h]
  · decide
  · decide

theorem Constant.confined_expression {type : SocketType} {components : List String}
    (h : ∀ n ∈ components, ∀ c ∈ n.toList, isNumeric c = true) :
    Confined (expression type components).text.toList := by
  have hnumbers : Confined (",".intercalate components).toList := by
    have hcomma : Confined ",".toList := confined_of_all (by decide)
    rw [String.toList_intercalate]
    refine hcomma.intercalate fun a ha => ?_
    obtain ⟨n, hn, rfl⟩ := List.mem_map.1 ha
    exact confined_of_all (List.all_eq_true.2 fun c hc => isInert_of_isNumeric (h n hn c hc))
  rw [expression]
  split
  · rwa [Expr.text_plain]
  · have htext :
        (Expr.text [.callee type.glsl, .plain ("(" ++ ",".intercalate components ++ ")")]).toList =
        type.glsl.toList ++ '(' :: ((",".intercalate components).toList ++ [')']) := by
      simp [Expr.toList_text, Piece.text]
    have hclose : Confined [')'] := confined_of_all (by decide)
    rw [htext]
    exact (confined_of_isIdentifier type.isIdentifier_glsl).append
      (.inert (by decide) (hnumbers.append hclose))

theorem FragColor.confined_expression {color alpha : Option Value}
    (hcolor : ∀ v ∈ color, v.IsConfined) (halpha : ∀ v ∈ alpha, v.IsConfined) :
    Confined (expression color alpha).text.toList := by
  have hvec4 : Confined "vec4".toList := confined_of_all (by decide)
  cases color with
  | none =>
    refine Expr.confined_call hvec4 ?_
    simp only [List.forall_mem_cons]
    exact ⟨Expr.confined_plain (by decide), Expr.confined_plain (by decide),
      Expr.confined_plain (by decide), Expr.confined_plain (by decide), List.forall_mem_nil _⟩
  | some color =>
    have hcolor := Expr.confined_operand (hcolor color rfl)
    cases alpha with
    | some alpha =>
      refine Expr.confined_call hvec4 ?_
      simp only [List.forall_mem_cons]
      exact ⟨Expr.confined_append hcolor (Expr.confined_plain (by decide)),
        Expr.confined_operand (halpha alpha rfl), List.forall_mem_nil _⟩
    | none =>
      rw [expression]
      split
      · refine Expr.confined_call hvec4 ?_
        simp only [List.forall_mem_cons]
        exact ⟨hcolor, Expr.confined_plain (by decide), List.forall_mem_nil _⟩
      · exact hcolor

theorem Sampler.confined_sample {x : String} {uv : Value} (hx : isIdentifier x = true)
    (huv : uv.IsConfined) : Confined (sample (uniformName x) uv).text.toList := by
  refine Expr.confined_call (confined_of_all (by decide)) ?_
  simp only [List.forall_mem_cons]
  exact ⟨Expr.confined_operand (confined_of_isIdentifier (Role.sampler.isIdentifier_name hx)),
    Expr.confined_operand huv, List.forall_mem_nil _⟩

theorem NormalMap.confined_expression {x : String} {uv : Value} {strength : Expr}
    (hx : isIdentifier x = true) (huv : uv.IsConfined) (hstrength : Confined strength.text.toList) :
    Confined (expression (Sampler.uniformName x) uv strength).text.toList := by
  have hword : ∀ {y : String}, isIdentifier y = true → Confined (Expr.operand y).text.toList :=
    fun hy => Expr.confined_operand (confined_of_isIdentifier hy)
  refine Expr.confined_call (confined_of_all (by decide)) ?_
  simp only [List.forall_mem_cons]
  exact ⟨Expr.confined_append (Expr.confined_plain (s := "-") (by decide)) (hword (by decide)),
    hword (by decide),
    Expr.confined_append (Sampler.confined_sample hx huv) (Expr.confined_plain (by decide)),
    Expr.confined_operand huv, hstrength, List.forall_mem_nil _⟩

/-! ## Statements and outputs -/

section Inputs

variable (hinputs : ∀ s v, inputs.get? s = some v → v.IsConfined)

include hinputs

theorem Sampler.isConfined_coordinates {uv : Value} (h : Sampler.coordinates inputs = .ok uv) :
    uv.IsConfined := by
  obtain ⟨v, hv, h⟩ := bind_ok h
  obtain ⟨rfl, -⟩ := Value.expect_ok h
  exact hinputs _ _ (Inputs.value_ok hv)

theorem Inputs.isConfined_of_require {sockets : List (Name × SocketType)} {values : List Value}
    (h : inputs.require sockets = .ok values) : ∀ v ∈ values, v.IsConfined := by
  intro v hv
  obtain ⟨socket, -, hget⟩ := get?_of_require h hv
  exact hinputs _ v hget

theorem Lighting.confined_statements {model : Lighting} (h : model.evaluate node inputs = .ok c) :
    ∀ s ∈ c.statements, Confined s.text.toList := by
  obtain ⟨values, hvalues, hstatements⟩ := statements_of_evaluate h
  have hvalues := Inputs.isConfined_of_require hinputs hvalues
  have hname : isIdentifier model.name = true := by cases model <;> decide
  have hx := node.isIdentifier_variableName hname
  rw [hstatements]
  refine List.forall_mem_cons.2 ⟨?_, confined_declare hx ?_⟩
  · refine Statement.confined_declare model.isIdentifier_material
      (Role.material.isIdentifier_name hx)
        (Expr.confined_call (confined_of_isIdentifier model.isIdentifier_material) ?_)
    exact confined_operands fun v hv => hvalues v (List.mem_of_mem_take hv)
  · refine Expr.confined_call (confined_of_isIdentifier hname) ?_
    simp only [List.forall_mem_cons]
    refine ⟨Expr.confined_operand (confined_of_isIdentifier (Role.material.isIdentifier_name hx)),
      ?_, ?_, List.forall_mem_nil _⟩
    · refine Expr.confined_call (confined_of_all (by decide)) ?_
      exact confined_operands fun v hv => hvalues v (List.mem_of_mem_drop hv)
    · refine Expr.confined_call (confined_of_all (by decide)) ?_
      simp only [List.forall_mem_cons]
      exact ⟨Expr.confined_operand (confined_of_all (by decide)), List.forall_mem_nil _⟩

theorem Kind.confined_statements {kind : Kind} (hkind : isIdentifier kind.name = true)
    (h : kind.evaluate node inputs = .ok c) : ∀ s ∈ c.statements, Confined s.text.toList := by
  have hx := node.isIdentifier_variableName hkind
  cases kind with
  | operator op =>
    obtain ⟨values, type, hvalues, -, rfl⟩ := Operator.evaluate_ok h
    refine confined_declare hx (op.confined_render fun v hv => ?_)
    obtain ⟨slot, -, hget⟩ := Inputs.get?_of_gather (Template.gather_of_resolve hvalues) hv
    exact hinputs slot v hget
  | constant type =>
    obtain ⟨literal, components, -, hparse, rfl⟩ := Constant.evaluate_ok h
    exact confined_declare hx (Constant.confined_expression (Literal.parse_ok hparse).2)
  | geometry =>
    obtain rfl := Except.ok.inj h
    have hnone : (Geometry.evaluate node).statements = [] := by
      simp [Geometry.evaluate, Contribution.statements, Edit.statement?]
    rw [hnone]
    exact List.forall_mem_nil _
  | fragColor =>
    obtain rfl := Except.ok.inj h
    refine List.forall_mem_singleton.2 (Statement.confined_assign (confined_of_all (by decide))
      (FragColor.confined_expression ?_ ?_))
    · exact fun v hv => hinputs _ v (Option.filter_eq_some_iff.1 hv).1
    · exact fun v hv => hinputs _ v (Option.filter_eq_some_iff.1 hv).1
  | texture =>
    obtain ⟨uv, texture, huv, -, rfl⟩ := Texture.evaluate_ok h
    exact confined_declare hx
      (Sampler.confined_sample hx (Sampler.isConfined_coordinates hinputs huv))
  | normalMap =>
    obtain ⟨uv, strength, texture, huv, hstrength, -, rfl⟩ := NormalMap.evaluate_ok h
    have hscale : Confined strength.text.toList := by
      obtain rfl | ⟨v, hget, rfl⟩ := NormalMap.scale_ok hstrength
      · exact Expr.confined_plain (by decide)
      · exact Expr.confined_operand (hinputs _ v hget)
    exact confined_declare hx
      (NormalMap.confined_expression hx (Sampler.isConfined_coordinates hinputs huv) hscale)
  | lighting model => exact Lighting.confined_statements hinputs h
  | function f =>
    obtain ⟨values, hvalues, rfl⟩ := Definition.evaluate_ok h
    exact confined_declare hx (Expr.confined_call (confined_of_isIdentifier hkind)
      (confined_operands (Inputs.isConfined_of_require hinputs hvalues)))

end Inputs

theorem Kind.confined_outputs {kind : Kind} (hkind : isIdentifier kind.name = true)
    (h : kind.evaluate node inputs = .ok c) {s : Name} {v : Value}
    (hv : c.outputs.get? s = some v) : v.IsConfined := by
  have hvariable : ∀ {output : Name} {type : SocketType},
      (SortedMap.ofList [(output, (⟨node.variableName kind.name, type⟩ : Value))]).get? s = some v →
        v.IsConfined := by
    intro output type hv
    obtain ⟨-, rfl⟩ := Prod.mk.inj (List.mem_singleton.1 (SortedMap.mem_of_get?_ofList hv))
    exact Value.isConfined_variable node type hkind
  cases kind with
  | operator op =>
    obtain ⟨values, type, -, -, rfl⟩ := Operator.evaluate_ok h
    exact hvariable hv
  | constant type =>
    obtain ⟨literal, components, -, -, rfl⟩ := Constant.evaluate_ok h
    exact hvariable hv
  | geometry =>
    obtain rfl := Except.ok.inj h
    have hattributes : ∀ a ∈ Geometry.attributes, a.value.text.toList.all isInert = true := by
      decide
    obtain ⟨a, ha, heq⟩ := List.mem_map.1 (SortedMap.mem_of_get?_ofList hv)
    obtain ⟨-, rfl⟩ := Prod.mk.inj heq
    exact confined_of_all (hattributes a (List.mem_filter.1 ha).1)
  | fragColor =>
    obtain rfl := Except.ok.inj h
    cases hv
  | texture =>
    obtain ⟨uv, texture, -, -, rfl⟩ := Texture.evaluate_ok h
    have hparts : ∀ p ∈ Texture.parts, ("." ++ p.1).toList.all isInert = true := by decide
    have hcolor := Value.isConfined_variable node .vec4 hkind
    obtain ⟨p, hp, heq⟩ := List.mem_map.1 (SortedMap.mem_of_get?_ofList hv)
    obtain ⟨-, rfl⟩ := Prod.mk.inj heq
    rw [Texture.part]
    split
    · exact hcolor
    · unfold Value.IsConfined
      rw [String.append_assoc, String.toList_append]
      exact hcolor.append (confined_of_all (hparts p hp))
  | normalMap =>
    obtain ⟨uv, strength, texture, -, -, -, rfl⟩ := NormalMap.evaluate_ok h
    exact hvariable hv
  | lighting model =>
    obtain ⟨values, -, rfl⟩ := Lighting.evaluate_ok h
    exact hvariable hv
  | function f =>
    obtain ⟨values, -, rfl⟩ := Definition.evaluate_ok h
    exact hvariable hv

/-- Confined statements and outputs, and identifiers as names. -/
structure Contribution.IsConfined (c : Contribution) : Prop where
  outputs : ∀ s v, c.outputs.get? s = some v → v.IsConfined
  statements : ∀ s ∈ c.statements, Confined s.text.toList
  locals : ∀ x ∈ c.statements.filterMap Statement.declared?, isIdentifier x = true
  uniforms : ∀ u ∈ c.edits.filterMap Edit.uniform?, isIdentifier u.1 = true

/-- What a node writes is confined, whatever its id and its data. -/
theorem Kind.confined_of_evaluate {kind : Kind} (hkind : kind.Parsed)
    (hinputs : ∀ s v, inputs.get? s = some v → v.IsConfined)
    (h : kind.evaluate node inputs = .ok c) : c.IsConfined := by
  have hname := hkind.isIdentifier_name
  have hroles : ∀ {roles : List Role}, ∀ x ∈ roles.map (·.name (node.variableName kind.name)),
      isIdentifier x = true := by
    intro roles x hx
    obtain ⟨role, -, rfl⟩ := List.mem_map.1 hx
    exact role.isIdentifier_name (node.isIdentifier_variableName hname)
  obtain ⟨hlocals, huniforms⟩ := names_of_evaluate h
  refine ⟨fun s v => confined_outputs hname h, confined_statements hinputs hname h, ?_,
    fun u hu => ?_⟩
  · rw [hlocals]
    exact hroles
  · exact hroles _ (huniforms ▸ List.mem_map_of_mem hu)

end ShaderNodes
