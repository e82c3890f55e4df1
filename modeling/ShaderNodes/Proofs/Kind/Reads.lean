import ShaderNodes.Proofs.Kind.Effect

/-!
# What the statements of a node read

A statement reads the names in its expression that it does not call. What a node reads was declared
before it or by it, is its own sampler, or comes from the surface; a node with a sampler reads it in
its one statement.

* `Statement.reads`: whether a statement reads a variable.
* `Kind.reads_of_evaluate`: what the statements of a node can read.
* `Kind.exists_reads_uniform`: a node that samples a texture reads its sampler.
-/

namespace ShaderNodes

open Text Grammar

/-- The names in the expression of a statement. -/
def Statement.mentions : Statement → List Mention
  | .verbatim text => Text.mentions text
  | .declare _ _ value => Text.mentions value.text
  | .assign _ value => Text.mentions value.text

/-- Whether the statement reads the variable. -/
def Statement.reads (s : Statement) (x : Name) : Bool := decide (⟨x, false⟩ ∈ s.mentions)

variable {d : Draft} {earlier : List Statement} {node : Context} {inputs : Inputs}
    {c : Contribution}
  {kind : Kind} {s : Statement} {x : Name}

theorem Draft.InScope.of_reads (h : d.InScope earlier s) (hx : s.reads x = true) :
    (∃ type value, .declare type x value ∈ earlier) ∨ d.Brings x := by
  have hmem : ⟨x, false⟩ ∈ s.mentions := of_decide_eq_true hx
  cases s with
  | verbatim text => exact h.elim
  | declare type name value => exact h.2 _ hmem
  | assign target value => exact h _ hmem

/-- A call reads what its arguments read, whatever is called. -/
theorem Definition.reads_of_evaluate {f : Definition} (hname : isIdentifier f.name = true)
    (hinputs : ∀ s v, inputs.get? s = some v → v.Grounded d earlier)
    (h : f.evaluate node inputs = .ok c) (hs : s ∈ c.statements) (hx : s.reads x = true) :
    (∃ type value, .declare type x value ∈ earlier) ∨ d.Brings x := by
  obtain ⟨values, hvalues, rfl⟩ := evaluate_ok h
  obtain rfl := List.mem_singleton.1 hs
  have hground : ∀ v ∈ values, v.Grounded d earlier := by
    intro v hv
    obtain ⟨socket, -, hget⟩ := Inputs.get?_of_require hvalues hv
    exact hinputs _ v hget
  have honly : MentionsOnly (fun m => m.called = true ∨ d.Allows earlier m)
      (Expr.call f.name (values.map fun v => .operand v.text)).text.toList :=
    Expr.mentionsOnly_text_call hname (.inl rfl) fun arg harg =>
      (mentionsOnly_operands hground arg harg).mono fun _ => .inr
  exact (honly.forall_mentions _ (of_decide_eq_true hx)).resolve_left Bool.false_ne_true

/-- What a node reads was declared before, is declared by it, or is brought in by the draft. -/
theorem Kind.reads_of_evaluate (hname : isIdentifier kind.name = true)
    (hcovers : ∀ e ∈ c.edits, d.Covers e) (hinputs : ∀ s v, inputs.get? s = some v →
      v.Grounded d earlier) (h : kind.evaluate node inputs = .ok c)
    (hs : s ∈ c.statements) (hx : s.reads x = true) :
    (∃ type value, .declare type x value ∈ earlier ++ c.statements) ∨ d.Brings x := by
  by_cases hfunction : ∃ f, kind = .function f
  · obtain ⟨f, rfl⟩ := hfunction
    refine (Definition.reads_of_evaluate hname hinputs h hs hx).imp_left ?_
    rintro ⟨type, value, hdeclared⟩
    exact ⟨type, value, List.mem_append_left _ hdeclared⟩
  · -- Only for a function does its scope ask for more than its name.
    have hsourced : kind.Sourced := ⟨hname, fun f hf => absurd ⟨f, hf⟩ hfunction⟩
    have hscoped := Kind.wellScoped_of_evaluate hcovers hinputs hsourced h
    obtain ⟨before, after, hsplit⟩ := List.append_of_mem hs
    rw [hsplit] at hscoped
    refine (hscoped.inScope.of_reads hx).imp_left ?_
    rintro ⟨type, value, hdeclared⟩
    refine ⟨type, value, ?_⟩
    rw [hsplit, ← List.append_assoc]
    exact List.mem_append_left _ hdeclared

/-! ## Samplers -/

/-- Nodes of the kind sample a texture. -/
def Kind.isSampler : Kind → Bool
  | .texture | .normalMap => true
  | _ => false

theorem Kind.uniform?_eq_none (h : kind.isSampler = false) : kind.uniform? node = none := by
  cases kind with
  | texture => cases h
  | normalMap => cases h
  | _ => rfl

theorem Sampler.occurs_sample (variableName : String) (uv : Value) :
    Occurs (uniformName variableName) (sample (uniformName variableName) uv).text.toList :=
  Expr.occurs_text_call_head ..

theorem NormalMap.occurs_expression (variableName : String) (uv : Value) (strength : Expr) :
    Occurs (Sampler.uniformName variableName) (expression (Sampler.uniformName variableName) uv
      strength).text.toList := by
  refine Expr.occurs_text_call (.tail _ (.tail _ (.head _))) ?_
  rw [Expr.toList_text_append]
  exact (Sampler.occurs_sample variableName uv).mono (List.prefix_append _ _).isInfix

theorem Statement.reads_of_occurs {type y : String} {value : Expr} (hx : isIdentifier x = true)
    (h : Occurs x value.text.toList) : (Statement.declare type y value).reads x = true :=
  decide_eq_true (h.mem_mentions hx)

/-- A node that samples a texture has one statement, which reads its sampler. -/
theorem Kind.exists_reads_uniform (h : kind.evaluate node inputs = .ok c)
    (hsampler : kind.isSampler = true) :
    ∃ u s, kind.uniform? node = some u ∧ c.statements = [s] ∧ s.reads u.1 = true := by
  have hx : ∀ {name : Name}, isIdentifier name = true →
      isIdentifier (Sampler.uniformName (node.variableName name)) = true := fun hname =>
    Role.sampler.isIdentifier_name (node.isIdentifier_variableName hname)
  cases kind with
  | texture =>
    obtain ⟨uv, texture, -, htexture, rfl⟩ := Texture.evaluate_ok h
    refine ⟨(Sampler.uniformName (node.variableName Texture.name), ⟨"sampler2D", texture⟩), _, ?_,
      rfl, Statement.reads_of_occurs (hx (by decide)) (Sampler.occurs_sample _ uv)⟩
    rw [uniform?, htexture]
    rfl
  | normalMap =>
    obtain ⟨uv, strength, texture, -, -, htexture, rfl⟩ := NormalMap.evaluate_ok h
    refine ⟨(Sampler.uniformName (node.variableName NormalMap.name), ⟨"sampler2D", texture⟩), _, ?_,
      rfl, Statement.reads_of_occurs (hx (by decide)) (NormalMap.occurs_expression _ uv strength)⟩
    rw [uniform?, htexture]
    rfl
  | _ => cases hsampler

end ShaderNodes
