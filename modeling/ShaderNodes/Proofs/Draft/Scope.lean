import ShaderNodes.Draft.Program
import ShaderNodes.Proofs.Text.Mentions

/-!
# Scope

What the statements of a draft may name. A statement reads variables that were declared before it,
samplers among the uniforms, and attributes of features that are on. It names functions and types of
GLSL itself, of the shared functions, or of the blocks of features that are on.

A feature may be turned on, and a function or uniform be added, after the statement that needs it,
so all of these are those of the whole draft; only variables have to come first.

* `Draft.WellScoped`: a list of statements, after others, is in scope.
* `Value.Grounded`: a value reads a declared variable, components of one, or an attribute.
* `Value.Grounded.mentionsOnly`: such values may stand in later statements.
-/

namespace ShaderNodes

open Text

/-! ## Definitions in source texts -/

/-- Types and functions of GLSL that generated code uses. -/
def builtinNames : List Name :=
  ["float", "vec2", "vec3", "vec4", "dot", "cross", "mix", "normalize", "texture2D"]

/-- A line of the source begins with the text. -/
def BeginsLine (source text : String) : Prop :=
  ∃ before after, source = before ++ text ++ after ∧ ∀ c ∈ before.toList.getLast?, c = '\n'

def DefinesFunction (source : String) (name : Name) : Prop :=
  ∃ type : SocketType, BeginsLine source (type.glsl ++ " " ++ name ++ "(")

def DefinesStruct (source : String) (name : Name) : Prop :=
  BeginsLine source ("struct " ++ name ++ " \x7b")

theorem beginsLine_append (text after : String) : BeginsLine (text ++ after) text :=
  ⟨"", after, by rw [String.empty_append], nofun⟩

namespace Draft

/-- The attributes of the surface, their types, and the features that bring them in. -/
def attributes : List (Name × SocketType × Feature) :=
  [("normal", .vec3, .normal), ("vViewPosition", .vec3, .position), ("vUv", .vec2, .uv)]

/-- The definitions that a feature brings in. -/
def block (d : Draft) : Feature → String
  | .light => Chunks.lights d.config.directionalLights
  | .normalMap => Chunks.normalMap
  | .fresnel => Chunks.fresnel
  | .normal | .uv | .position => ""

/-- A function or type that statements may name. -/
inductive Provides (d : Draft) (name : Name) : Prop where
  | builtin (h : name ∈ builtinNames)
  | function (source : String) (h : (name, source) ∈ d.functions)
      (hdefines : DefinesFunction source name)
  | struct (f : Name) (source : String) (h : (f, source) ∈ d.functions)
      (hdefines : DefinesStruct source name)
  | block (f : Feature) (h : d.features.isEnabled f = true)
      (hdefines : DefinesFunction (d.block f) name ∨ DefinesStruct (d.block f) name)

/-- A variable that statements may read without a declaration among them. -/
inductive Brings (d : Draft) (x : Name) : Prop where
  | sampler (binding : Binding) (h : (x, binding) ∈ d.uniforms) (htype : binding.type = "sampler2D")
  | surface (type : SocketType) (f : Feature) (h : (x, type, f) ∈ attributes)
      (hon : d.features.isEnabled f = true)

/-- A name that may be mentioned after the given statements. -/
def Allows (d : Draft) (earlier : List Statement) (m : Mention) : Prop :=
  if m.called then d.Provides m.name
  else (∃ type value, .declare type m.name value ∈ earlier) ∨ d.Brings m.name

/-- A statement after the given ones that mentions allowed names only. -/
def InScope (d : Draft) (earlier : List Statement) : Statement → Prop
  | .verbatim _ => False
  | .declare type _ value => d.Provides type ∧ ∀ m ∈ mentions value.text, d.Allows earlier m
  | .assign _ value => ∀ m ∈ mentions value.text, d.Allows earlier m

/-- Statements after the given ones, each in scope. -/
def WellScoped (d : Draft) (earlier : List Statement) : List Statement → Prop
  | [] => True
  | s :: rest => d.InScope earlier s ∧ WellScoped d (earlier ++ [s]) rest

variable {d : Draft} {earlier : List Statement}

theorem wellScoped_append {ss ss' : List Statement} :
    d.WellScoped earlier (ss ++ ss') ↔ d.WellScoped earlier ss ∧
    d.WellScoped (earlier ++ ss) ss' := by
  induction ss generalizing earlier with
  | nil => simp [WellScoped]
  | cons s ss ih => simp [WellScoped, ih, and_assoc]

theorem WellScoped.inScope {before after : List Statement} {s : Statement}
    (h : d.WellScoped earlier (before ++ s :: after)) : d.InScope (earlier ++ before) s :=
  (wellScoped_append.1 h).2.1

theorem provides_glsl (d : Draft) (type : SocketType) : d.Provides type.glsl :=
  .builtin (by cases type <;> decide)

theorem allows_called {f : Name} (h : d.Provides f) : d.Allows earlier ⟨f, true⟩ := h

theorem allows_read {x : Name} (h : d.Brings x) : d.Allows earlier ⟨x, false⟩ := .inr h

/-- What one edit asks of the whole draft is there. -/
def Covers (d : Draft) : Edit → Prop
  | .statement _ => True
  | .uniform name binding => (name, binding) ∈ d.uniforms
  | .function name source => (name, source) ∈ d.functions
  | .enable feature => d.features.isEnabled feature = true

end Draft

/-! ## Values -/

/-- A value is a declared variable of its type, components of a declared color, or an attribute. -/
inductive Value.Grounded (d : Draft) (ss : List Statement) (v : Value) : Prop where
  | whole (value : Expr) (hx : isIdentifier v.text = true)
      (h : .declare v.type.glsl v.text value ∈ ss)
  | part (x components : String) (value : Expr) (hx : isIdentifier x = true)
      (h : .declare "vec4" x value ∈ ss) (htext : v.text = x ++ "." ++ components)
      (hlength : components.length = v.type.dimension)
      (hcomponents : ∀ c ∈ components.toList, c ∈ ['r', 'g', 'b', 'a'])
  | surface (f : Feature) (h : (v.text, v.type, f) ∈ Draft.attributes)
      (hon : d.features.isEnabled f = true)

namespace Value.Grounded

variable {d : Draft} {ss ss' : List Statement} {v : Value}

theorem mono (h : v.Grounded d ss) (hss : ss ⊆ ss') : v.Grounded d ss' := by
  cases h with
  | whole value hx h => exact .whole value hx (hss h)
  | part x components value hx h htext hlength hcomponents =>
    exact .part x components value hx (hss h) htext hlength hcomponents
  | surface f h hon => exact .surface f h hon

/-- A value mentions one variable, which may be read. -/
theorem mentionsOnly (h : v.Grounded d ss) : MentionsOnly (d.Allows ss) v.text.toList := by
  cases h with
  | whole value hx h => exact mentionsOnly_word hx (.inl ⟨_, value, h⟩)
  | part x components value hx h htext hlength hcomponents =>
    have hword : components.toList.all Grammar.isWordChar = true := by
      refine List.all_eq_true.2 fun c hc => ?_
      have hmem := hcomponents c hc
      simp only [List.mem_cons, List.not_mem_nil, or_false] at hmem
      rcases hmem with rfl | rfl | rfl | rfl <;> decide
    have hlist : v.text.toList = x.toList ++ '.' :: components.toList := by
      simp [htext]
    rw [hlist]
    exact (mentionsOnly_word hx (.inl ⟨_, value, h⟩)).append (mentionsOnly_component hword)
      (by simp [Ends]; decide)
  | surface f h hon =>
    have hx : ∀ a ∈ Draft.attributes, isIdentifier a.1 = true := by decide
    exact mentionsOnly_word (hx _ h) (.inr (.surface _ f h hon))

end Value.Grounded

end ShaderNodes
