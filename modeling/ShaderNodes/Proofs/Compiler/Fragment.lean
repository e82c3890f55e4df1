import ShaderNodes.Proofs.Compiler.Resources

/-!
# The color of the fragment

Every sink sets the color of the fragment in one statement, whatever reached it, and no other node
does. The names in a statement are its type and its variable, or its target, and those in its
expression. The name of the color is among them in the statement of a sink only, and there once.

* `Statement.mentions_text_declare`, `Statement.mentions_text_assign`: the names in the text of a
  statement.
* `Kind.exists_declare_of_evaluate`: all kinds but that of the sinks declare variables only.
* `Graph.ne_target_of_mem_names`: no node declares a variable of that name.
* `FragColor.text_painted_eq_black_iff`, `FragColor.text_painted_of_wide`: the colors that a sink
  sets.
* `Pass.Settled.count_target`, `Pass.Settled.filter_sets`: the statements of a pass.
* `Compiler.one_color_per_sink`: the assignments of a completed pass.
-/

namespace ShaderNodes

open Text Grammar

/-! ## The names in a statement -/

namespace Statement

/-- An assignment names its target first. -/
theorem mentions_text_assign {target : Name} {value : Expr} (htarget : isIdentifier target = true) :
    Text.mentions (assign target value).text =
      ⟨target, false⟩ :: (assign target value).mentions := by
  have htext : (assign target value).text.toList = target.toList ++ ' ' :: '=' :: ' ' ::
      value.text.toList := by
    simp [text]
  rw [Text.mentions, htext,
    mentionsFrom_identifier htarget (by decide) (ends_cons (by decide) (by decide) _),
    mentionsFrom_cons (by decide), mentionsFrom_cons (by decide), mentionsFrom_cons (by decide)]
  rfl

/-- A declaration names a type and a variable first. -/
theorem mentions_text_declare {type x : Name} {value : Expr} (htype : isIdentifier type = true)
    (hx : isIdentifier x = true) :
    Text.mentions (declare type x value).text =
      ⟨type, false⟩ :: ⟨x, false⟩ :: (declare type x value).mentions := by
  have htext : (declare type x value).text.toList =
      type.toList ++ ' ' :: (x.toList ++ ' ' :: '=' :: ' ' :: value.text.toList) := by
    simp [text]
  rw [Text.mentions, htext,
    mentionsFrom_identifier htype (by decide) (ends_cons (by decide) (by decide) _),
    mentionsFrom_cons (by decide),
    mentionsFrom_identifier hx (by decide) (ends_cons (by decide) (by decide) _),
    mentionsFrom_cons (by decide), mentionsFrom_cons (by decide), mentionsFrom_cons (by decide)]
  rfl

end Statement

namespace FragColor

/-- The variable that holds the color of the fragment. -/
def target : Name := "gl_FragColor"

/-- The text begins as an assignment of the color of the fragment. -/
def sets (text : String) : Bool := (target ++ " = ").toList.isPrefixOf text.toList

/-- A text that begins so has the name in it. -/
theorem mem_mentions_of_sets {text : String} (h : sets text = true) :
    ⟨target, false⟩ ∈ mentions text := by
  obtain ⟨rest, hrest⟩ := List.isPrefixOf_iff_prefix.1 h
  have htext : text.toList = target.toList ++ ' ' :: '=' :: ' ' :: rest := by
    simp [← hrest]
  rw [mentions, htext,
    mentionsFrom_identifier (by decide) (by decide) (ends_cons (by decide) (by decide) _)]
  exact .head _

theorem sets_assign (value : Expr) : sets (Statement.assign target value).text = true :=
  List.isPrefixOf_iff_prefix.2 ⟨value.text.toList, by simp [Statement.text]⟩

end FragColor

/-! ## The colors -/

/-- The text of a value is a word, with components after it or without. -/
theorem Value.Grounded.exists_text {d : Draft} {ss : List Statement} {v : Value}
    (h : v.Grounded d ss) : ∃ c rest, v.text.toList = c :: rest ∧ isWordStart c = true ∧
    '(' ∉ v.text.toList := by
  have hword : ∀ {x : String}, isIdentifier x = true →
      ∃ c rest, x.toList = c :: rest ∧ isWordStart c = true ∧ '(' ∉ x.toList := by
    intro x hx
    obtain ⟨c, rest, hlist, hc, -⟩ := isIdentifier_iff.1 hx
    refine ⟨c, rest, hlist, hc, fun hparen => ?_⟩
    exact absurd (isWordChar_of_isIdentifier hx _ hparen) (by decide)
  cases h with
  | whole value hx _ => exact hword hx
  | part x components value hx _ htext _ hcomponents =>
    obtain ⟨c, rest, hlist, hc, hparen⟩ := hword hx
    refine ⟨c, rest ++ '.' :: components.toList, by simp [htext, hlist], hc, ?_⟩
    simp only [htext, String.toList_append, List.mem_append, not_or]
    refine ⟨⟨hparen, by decide⟩, fun hmem => ?_⟩
    exact absurd (hcomponents _ hmem) (by decide)
  | surface f hmem _ =>
    have hattributes : ∀ a ∈ Draft.attributes, isIdentifier a.1 = true := by decide
    exact hword (hattributes _ hmem)

namespace FragColor

/-- The text of opaque black. -/
def black : String := "vec4(0.0, 0.0, 0.0, 1.0)"

theorem text_black (alpha : Option Value) : (expression none alpha).text = black := by
  have hcall : expression none alpha = .call "vec4" [.plain "0.0", .plain "0.0", .plain "0.0",
      .plain "1.0"] := rfl
  rw [hcall]
  decide

theorem text_with_opacity (color alpha : Value) :
    (expression (some color) (some alpha)).text =
      "vec4(" ++ color.text ++ ".rgb, " ++ alpha.text ++ ")" := by
  refine String.toList_inj.1 ?_
  rw [expression, Expr.toList_text_call]
  simp [Expr.toList_text, Piece.text, Expr.operand, List.intercalate]

theorem text_of_vec3 {color : Value} (h : color.type = .vec3) :
    (expression (some color) none).text = "vec4(" ++ color.text ++ ", 1.0)" := by
  refine String.toList_inj.1 ?_
  rw [expression, if_pos h, Expr.toList_text_call]
  simp [Expr.toList_text, Piece.text, Expr.operand, Expr.plain, List.intercalate]

theorem text_of_ne_vec3 {color : Value} (h : color.type ≠ .vec3) :
    (expression (some color) none).text = color.text := by
  rw [expression, if_neg h, Expr.text_operand]

/-- No color of a graph reads as opaque black. -/
theorem text_ne_black {d : Draft} {ss : List Statement} {color : Value} (h : color.Grounded d ss)
    (alpha : Option Value) : (expression (some color) alpha).text ≠ black := by
  obtain ⟨c, rest, htext, hc, hparen⟩ := h.exists_text
  -- A number stands where the color would.
  have hargument : ∀ after : String, "vec4(" ++ color.text ++ after ≠ black := by
    intro after heq
    have hhead : c = '0' := by
      have hlist := congrArg String.toList heq
      simp [htext, black] at hlist
      exact hlist.1
    rw [hhead] at hc
    exact absurd hc (by decide)
  cases alpha with
  | some alpha =>
    rw [text_with_opacity, String.append_assoc, String.append_assoc]
    exact hargument _
  | none =>
    by_cases htype : color.type = .vec3
    · rw [text_of_vec3 htype]
      exact hargument _
    · rw [text_of_ne_vec3 htype]
      intro heq
      rw [heq] at hparen
      exact hparen (by decide)

/-- What a sink sets, from what arrives as its color and as its opacity. -/
def painted (color alpha : Option Value) : Expr :=
  expression (color.filter (·.type.dimension ≥ 3)) (alpha.filter (·.type = .float))

theorem text_painted_eq_black_iff {d : Draft} {ss : List Statement} {color : Option Value}
    (alpha : Option Value) (h : ∀ v, color = some v → v.Grounded d ss) :
    (painted color alpha).text = black ↔ ∀ v, color = some v → v.type.dimension < 3 := by
  unfold painted
  cases color with
  | none =>
    rw [Option.filter_none, text_black]
    refine iff_of_true rfl ?_
    rintro _ ⟨⟩
  | some v =>
    by_cases hwide : v.type.dimension ≥ 3
    · rw [Option.filter_some_pos (by simpa using hwide)]
      refine iff_of_false (text_ne_black (h v rfl) _) fun hnarrow => ?_
      have := hnarrow v rfl
      omega
    · rw [Option.filter_some_neg (by simpa using hwide), text_black]
      refine iff_of_true rfl ?_
      rintro _ ⟨⟩
      omega

theorem text_painted_of_wide {v : Value} {alpha : Option Value} (hwide : 3 ≤ v.type.dimension) :
    (∀ a, alpha = some a → a.type = .float →
      (painted (some v) alpha).text = "vec4(" ++ v.text ++ ".rgb, " ++ a.text ++ ")") ∧
    ((∀ a, alpha = some a → a.type ≠ .float) →
      (v.type = .vec3 → (painted (some v) alpha).text = "vec4(" ++ v.text ++ ", 1.0)") ∧
      (v.type = .vec4 → (painted (some v) alpha).text = v.text)) := by
  unfold painted
  rw [Option.filter_some_pos (by simpa using hwide)]
  constructor
  · rintro a rfl hfloat
    rw [Option.filter_some_pos (by simpa using hfloat), text_with_opacity]
  · intro hother
    have hnone : alpha.filter (·.type = .float) = none := by
      rw [Option.filter_eq_none_iff]
      simpa using hother
    rw [hnone]
    refine ⟨text_of_vec3, fun htype => text_of_ne_vec3 ?_⟩
    rw [htype]
    decide

end FragColor

/-! ## What the nodes declare -/

theorem SocketType.underscore_not_mem_glsl (type : SocketType) : '_' ∉ type.glsl.toList := by
  cases type <;> decide

/-- All nodes but the sinks declare variables only, of types without an underscore. -/
theorem Kind.exists_declare_of_evaluate {kind : Kind} {node : Context} {inputs : Inputs}
    {c : Contribution} {s : Statement} (hkind : kind ≠ .fragColor)
    (h : kind.evaluate node inputs = .ok c) (hs : s ∈ c.statements) :
    ∃ type x value, s = .declare type x value ∧ isIdentifier type = true ∧ '_' ∉ type.toList := by
  have hvalue : ∀ {type : SocketType} {x : Name} {value : Expr}, s ∈ [.declare type.glsl x value] →
      ∃ type x value, s = .declare type x value ∧ isIdentifier type = true ∧ '_' ∉ type.toList := by
    intro type x value hs
    exact ⟨_, x, value, List.mem_singleton.1 hs, type.isIdentifier_glsl,
      type.underscore_not_mem_glsl⟩
  cases kind with
  | operator op =>
    obtain ⟨values, type, -, -, rfl⟩ := Operator.evaluate_ok h
    exact hvalue hs
  | constant type =>
    obtain ⟨literal, components, -, -, rfl⟩ := Constant.evaluate_ok h
    exact hvalue hs
  | geometry =>
    obtain rfl := Except.ok.inj h
    simp [Geometry.evaluate, Contribution.statements, Edit.statement?] at hs
  | fragColor => exact absurd rfl hkind
  | texture =>
    obtain ⟨uv, texture, -, -, rfl⟩ := Texture.evaluate_ok h
    exact hvalue hs
  | normalMap =>
    obtain ⟨uv, strength, texture, -, -, -, rfl⟩ := NormalMap.evaluate_ok h
    exact hvalue hs
  | lighting model =>
    obtain ⟨values, -, hstatements⟩ := Lighting.statements_of_evaluate h
    rw [hstatements] at hs
    rcases List.mem_cons.1 hs with rfl | hs
    · exact ⟨_, _, _, rfl, by cases model <;> decide, by cases model <;> decide⟩
    · exact hvalue hs
  | function f =>
    obtain ⟨values, -, rfl⟩ := Definition.evaluate_ok h
    exact hvalue hs

theorem Palette.lowercase_ne_gl : ∀ key kind, standard.get? key = some kind →
    lowercase kind.name ≠ "gl" :=
  forall_standard (by decide) (by decide)

theorem Palette.get?_fragColor : standard.get? FragColor.name = some .fragColor :=
  (get?_registerAll _ _).trans rfl

namespace Graph

variable {g : Graph} {V : SortedMap Endpoint Value} {n : NodeId} {ps : Producers}

/-- No node has a variable or a uniform that is named like the color of the fragment. -/
theorem ne_target_of_mem_names {x : Name} (h : x ∈ g.names .standard V n) :
    x ≠ FragColor.target := by
  obtain ⟨node, kind, role, -, hkind, rfl⟩ := exists_of_mem_names h
  have hfree : '_' ∉ (lowercase kind.name).toList :=
    mt underscore_mem_lowercase (Palette.underscoreFree_standard _ _ hkind)
  intro heq
  have htarget : FragColor.target.toList = ['g', 'l'] ++ '_' :: ['F', 'r', 'a', 'g', 'C', 'o', 'l',
      'o', 'r'] := by
    decide
  have hlist : (lowercase kind.name).toList ++ '_' :: ((mangle n).toList ++ role.suffix) =
      ['g', 'l'] ++ '_' :: ['F', 'r', 'a', 'g', 'C', 'o', 'l', 'o', 'r'] := by
    rw [← htarget, ← heq]
    simp [Role.toList_name]
  -- What comes before the first underscore is the name of the kind.
  rcases append_cons_eq_append_cons_iff.1 hlist with ⟨hname, -⟩ | ⟨t, ht, -⟩ | ⟨t, ht, -⟩
  · exact Palette.lowercase_ne_gl _ _ hkind (String.toList_inj.1 hname)
  · have hmem : '_' ∈ ['g', 'l'] := ht ▸ by simp
    simp at hmem
  · exact hfree (ht ▸ by simp)

theorem isIdentifier_of_mem_names {x : Name} (h : x ∈ g.names .standard V n) :
    isIdentifier x = true := by
  obtain ⟨node, kind, role, -, hkind, rfl⟩ := exists_of_mem_names h
  exact role.isIdentifier_name (Context.isIdentifier_variableName ⟨n, node.data, []⟩
    (Palette.identified_standard _ _ hkind))

/-- The node is a sink: it sets the color of the fragment. -/
def setsColor (g : Graph) (n : NodeId) : Bool := (g.nodes.get? n).any (·.kind = FragColor.name)

theorem setsColor_iff {node : Node} {kind : Kind} (hnode : g.nodes.get? n = some node)
    (hkind : Palette.standard.get? node.kind = some kind) :
    g.setsColor n = true ↔ kind = .fragColor := by
  rw [setsColor, hnode, Option.any_some, decide_eq_true_iff]
  constructor
  · intro hname
    rw [hname, Palette.get?_fragColor] at hkind
    exact (Option.some.inj hkind).symm
  · rintro rfl
    exact (Palette.named_standard _ _ hkind).symm

/-- A sink is never skipped. -/
theorem emitted_of_setsColor (hps : ps.Holds g.connections) (h : g.setsColor n = true) :
    g.emitted .standard V n =
      [.assign FragColor.target (FragColor.painted ((ps.get? ⟨n, "color"⟩).bind V.get?)
        ((ps.get? ⟨n, "alpha"⟩).bind V.get?))] := by
  obtain ⟨node, hnode, hname⟩ := (Option.any_eq_true _ _).1 h
  have hkind : Palette.standard.get? node.kind = some .fragColor := by
    rw [of_decide_eq_true hname, Palette.get?_fragColor]
  have hcontribution : g.contribution .standard V n =
      some (FragColor.evaluate (g.inflow V n .fragColor)) :=
    contribution_eq hnode hkind
  have hcolor : "color" ∈ Kind.fragColor.sockets.inputs.map (·.name) := by decide
  have halpha : "alpha" ∈ Kind.fragColor.sockets.inputs.map (·.name) := by decide
  rw [emitted, hcontribution, Option.map_some, Option.getD_some, FragColor.evaluate,
    get?_inflow hps, get?_inflow hps, if_pos hcolor, if_pos halpha]
  rfl

/-- Any other node declares variables only. -/
theorem exists_declare_of_mem_emitted {s : Statement} (h : g.setsColor n = false)
    (hs : s ∈ g.emitted .standard V n) :
    ∃ type x value, s = .declare type x value ∧ isIdentifier type = true ∧ '_' ∉ type.toList := by
  rw [emitted] at hs
  cases hc : g.contribution .standard V n with
  | none =>
    rw [hc] at hs
    cases hs
  | some c =>
    rw [hc] at hs
    obtain ⟨node, kind, hnode, hkind, heval⟩ := exists_of_contribution hc
    have hother : kind ≠ .fragColor := by
      rintro rfl
      simp [(setsColor_iff hnode hkind).2 rfl] at h
    exact Kind.exists_declare_of_evaluate hother heval hs

theorem countP_setsColor (g : Graph) :
    g.nodes.keys.countP g.setsColor = g.nodes.entries.countP (·.2.kind = FragColor.name) := by
  rw [SortedMap.keys, List.countP_map]
  refine List.countP_congr fun e he => ?_
  have hnode : g.nodes.get? e.1 = some e.2 := SortedMap.get?_eq_some_iff.2 he
  simp [setsColor, hnode]

end Graph

/-! ## The statements of a pass -/

/-- The value at the output that feeds an input, where `V` holds the values at outputs. -/
def CheckedGraph.arriving? (g : CheckedGraph) (V : SortedMap Endpoint Value) (input : Endpoint) :
    Option Value :=
  (g.producer? input).bind V.get?

namespace Pass.Settled

variable {g : CheckedGraph} {placed : List NodeId} {pass : Pass} {n : NodeId} {s : Statement}
  (hplaced : placed.Nodup) (h : pass.Settled .standard g placed)

include hplaced h

/-- No node reads the color of the fragment. -/
theorem not_reads_target (hn : n ∈ placed) (hs : s ∈ g.emitted .standard pass.values n) :
    s.reads FragColor.target = false := by
  refine Bool.eq_false_iff.2 fun hreads => ?_
  rcases h.reads_cases Palette.underscoreFree_standard.separate hplaced Palette.named_standard
    Palette.identified_standard hn hs hreads with hlocal | huniform | hattribute
  · rw [h.locals] at hlocal
    obtain ⟨m, -, hlocal⟩ := List.mem_flatMap.1 hlocal
    exact Graph.ne_target_of_mem_names (List.mem_append_left _ hlocal) rfl
  · exact Graph.ne_target_of_mem_names (List.mem_append_right _ huniform) rfl
  · exact absurd hattribute (by decide)

/-- A statement names the color of the fragment once if it begins with it, and else not at all. -/
theorem count_target (hrun : g.Runnable .standard) (hn : n ∈ placed)
    (hs : s ∈ g.emitted .standard pass.values n) :
    FragColor.sets s.text = g.setsColor n ∧
      (mentions s.text).count ⟨FragColor.target, false⟩ = if g.setsColor n then 1 else 0 := by
  have hreads := h.not_reads_target hplaced hn hs
  have hnone : s.mentions.count ⟨FragColor.target, false⟩ = 0 :=
    List.count_eq_zero.2 (of_decide_eq_false hreads)
  cases hsets : g.setsColor n with
  | true =>
    rw [Graph.emitted_of_setsColor hrun.producers hsets] at hs
    obtain rfl := List.mem_singleton.1 hs
    rw [Statement.mentions_text_assign (by decide), List.count_cons_self, hnone]
    exact ⟨FragColor.sets_assign _, rfl⟩
  | false =>
    obtain ⟨type, x, value, rfl, htype, hunderscore⟩ := Graph.exists_declare_of_mem_emitted hsets hs
    have hx : x ∈ g.names .standard pass.values n :=
      List.mem_append_left _ (List.mem_filterMap.2 ⟨_, hs, rfl⟩)
    have hne : type ≠ FragColor.target := by
      rintro rfl
      exact hunderscore (by decide)
    have hcount : (mentions (Statement.declare type x value).text).count ⟨FragColor.target, false⟩ =
        0 := by
      rw [Statement.mentions_text_declare htype (Graph.isIdentifier_of_mem_names hx),
        List.count_cons_of_ne, List.count_cons_of_ne, hnone]
      · simpa using Graph.ne_target_of_mem_names hx
      · simpa using hne
    refine ⟨Bool.eq_false_iff.2 fun htext => ?_, hcount⟩
    exact List.count_eq_zero.1 hcount (FragColor.mem_mentions_of_sets htext)

/-- The texts that begin as such assignments are those of the sinks, in order. -/
theorem filter_sets (hrun : g.Runnable .standard) :
    (pass.draft.statements.map Statement.text).filter FragColor.sets =
      (placed.filter g.setsColor).map fun n =>
        "gl_FragColor = " ++ (FragColor.painted (g.arriving? pass.values ⟨n, "color"⟩)
          (g.arriving? pass.values ⟨n, "alpha"⟩)).text := by
  have hnode : ∀ n ∈ placed,
      ((g.emitted .standard pass.values n).map Statement.text).filter FragColor.sets =
      if g.setsColor n then
        ["gl_FragColor = " ++ (FragColor.painted (g.arriving? pass.values ⟨n, "color"⟩)
          (g.arriving? pass.values ⟨n, "alpha"⟩)).text]
      else [] := by
    intro n hn
    cases hsets : g.setsColor n with
    | true =>
      rw [Graph.emitted_of_setsColor hrun.producers hsets, List.map_singleton,
        List.filter_singleton, FragColor.sets_assign]
      rfl
    | false =>
      refine List.filter_eq_nil_iff.2 fun text htext => ?_
      obtain ⟨s, hs, rfl⟩ := List.mem_map.1 htext
      rw [(h.count_target hplaced hrun hn hs).1, hsets]
      exact Bool.false_ne_true
  rw [h.statements, List.map_flatMap, List.filter_flatMap, List.flatMap_congr hnode,
    flatMap_ite_nil, List.map_eq_flatMap]

end Pass.Settled

/-! ## Main result -/

namespace Compiler

/-- In a completed pass with the standard palette, the statements that begin with `gl_FragColor = `
are one for each sink, in the order of their turns, and no statement names that variable elsewhere.
A sink sets opaque black just if no value of three components or more arrives as its color.
Otherwise it sets that color, with the opacity that arrives if it is a scalar, and else opaque or,
if the color has four components, as it is. -/
theorem one_color_per_sink {c : Compiler} {g : Graph} {cg : CheckedGraph} {k : Nat} {pass : Pass}
    (hp : c.palette = .standard) (hg : g.check = .ok cg) (hs : (c.start cg).result = .ok ())
    (hstage : ((c.start cg).compiler.after k).stage = .completed pass) :
    let texts := pass.draft.statements.map Statement.text
    let color := fun n => cg.arriving? pass.values ⟨n, "color"⟩
    let alpha := fun n => cg.arriving? pass.values ⟨n, "alpha"⟩
    ∃ painted : NodeId → String,
      texts.filter FragColor.sets =
        (cg.order.filter g.setsColor).map ("gl_FragColor = " ++ painted ·) ∧
      (∀ text ∈ texts, (mentions text).count ⟨"gl_FragColor", false⟩ =
        if FragColor.sets text then 1 else 0) ∧
      texts.countP FragColor.sets = g.nodes.entries.countP (·.2.kind = "FragColor") ∧
      ∀ n, g.setsColor n = true →
        (painted n = "vec4(0.0, 0.0, 0.0, 1.0)" ↔ ∀ v, color n = some v → v.type.dimension < 3) ∧
        ∀ v, color n = some v → 3 ≤ v.type.dimension →
          (∀ a, alpha n = some a → a.type = .float →
            painted n = "vec4(" ++ v.text ++ ".rgb, " ++ a.text ++ ")") ∧
          ((∀ a, alpha n = some a → a.type ≠ .float) →
            (v.type = .vec3 → painted n = "vec4(" ++ v.text ++ ", 1.0)") ∧
            (v.type = .vec4 → painted n = v.text)) := by
  intro texts color alpha
  obtain ⟨rfl, hrun, hsettled⟩ := settled_of_completed hg hs hstage
  rw [hp] at hrun hsettled
  have hplaced := hrun.order.nodup cg.nodes.keys_nodup
  have hfilter := hsettled.filter_sets hplaced hrun
  have hgrounded : ∀ {n} v, color n = some v → v.Grounded pass.draft pass.draft.statements := by
    intro n v hv
    obtain ⟨p, -, hget⟩ := Option.bind_eq_some_iff.1 hv
    refine (hsettled.grounded_of_identified Palette.underscoreFree_standard.separate
      Palette.named_standard Palette.identified_standard hplaced hget).mono fun s hs => ?_
    rw [hsettled.statements]
    exact List.mem_flatMap.2 ⟨p.node, hsettled.within p v hget, hs⟩
  refine ⟨fun n => (FragColor.painted (color n) (alpha n)).text, hfilter, fun text htext => ?_, ?_,
    fun n _ => ⟨?_, fun v hv hwide => ?_⟩⟩
  · obtain ⟨s, hs, rfl⟩ := List.mem_map.1 htext
    rw [hsettled.statements] at hs
    obtain ⟨n, hn, hs⟩ := List.mem_flatMap.1 hs
    obtain ⟨hsets, hcount⟩ := hsettled.count_target hplaced hrun hn hs
    rw [hsets]
    exact hcount
  · rw [List.countP_eq_length_filter, hfilter, List.length_map, ← List.countP_eq_length_filter]
    exact (hrun.order.perm.countP_eq _).trans cg.countP_setsColor
  · exact FragColor.text_painted_eq_black_iff (alpha n) hgrounded
  · simp only [hv]
    exact FragColor.text_painted_of_wide hwide

/-- A sink with a color and an opacity, and one whose color is a constant that is none. -/
def sinks : Graph where
  nodes := .ofList [("c", ⟨"ConstantVector3", .ofList [("value", "1.0,0.5,0.0")]⟩),
    ("e", ⟨"ConstantFloat", .ofList [("value", "0.5")]⟩),
    ("k", ⟨"ConstantVector4", .ofList [("value", "red")]⟩), ("p", ⟨"FragColor", .empty⟩),
    ("q", ⟨"FragColor", .empty⟩)]
  links := .ofList [(⟨"c", "value"⟩, [⟨"p", "color"⟩]), (⟨"e", "value"⟩, [⟨"p", "alpha"⟩]),
    (⟨"k", "value"⟩, [⟨"q", "color"⟩])]

def sinksChecked : CheckedGraph where
  toGraph := sinks
  order := ["c", "e", "k", "p", "q"]
  producers := .ofList [(⟨"p", "color"⟩, ⟨"c", "value"⟩), (⟨"p", "alpha"⟩, ⟨"e", "value"⟩),
    (⟨"q", "color"⟩, ⟨"k", "value"⟩)]

/-- Both sinks set a color, in the order of their turns. -/
theorem one_color_per_sink_sinks :
    fresh.palette = .standard ∧ sinks.check = .ok sinksChecked ∧
      (fresh.start sinksChecked).result = .ok () ∧
      ∃ pass, ((fresh.start sinksChecked).compiler.after 6).stage = .completed pass ∧
        (pass.draft.statements.map Statement.text).filter FragColor.sets =
          ["gl_FragColor = vec4(constantvector3_c.rgb, constantfloat_e)",
            "gl_FragColor = vec4(0.0, 0.0, 0.0, 1.0)"] ∧
        (pass.draft.statements.map Statement.text).countP FragColor.sets = 2 := by
  have hg : sinks.check = .ok sinksChecked := rfl
  have hobjection : objection? fresh.palette sinks = none := by decide
  have hs : (fresh.start sinksChecked).result = .ok () :=
    (start_of_no_objection (g := sinksChecked) hobjection).2
  obtain ⟨pass, -, -, -, hstage⟩ := ((walked_start hs).after 6).exists_pass
  have hstage : ((fresh.start sinksChecked).compiler.after 6).stage = .completed pass := hstage
  have hvalues : ((fresh.start sinksChecked).compiler.after 6).stage.pass?.map (fun pass =>
      [sinksChecked.arriving? pass.values ⟨"p", "color"⟩,
        sinksChecked.arriving? pass.values ⟨"p", "alpha"⟩,
        sinksChecked.arriving? pass.values ⟨"q", "color"⟩]) =
      some [some ⟨"constantvector3_c", .vec3⟩, some ⟨"constantfloat_e", .float⟩, none] := by
        decide +kernel
  rw [hstage] at hvalues
  simp only [Stage.pass?, Option.map_some, Option.some.injEq, List.cons.injEq, and_true] at hvalues
  obtain ⟨hcolor, halpha, hnone⟩ := hvalues
  obtain ⟨painted, hfilter, -, hcount, hpainted⟩ := one_color_per_sink rfl hg hs hstage
  have hp := ((hpainted "p" (by decide)).2 _ hcolor (by decide)).1 _ halpha rfl
  have hq : painted "q" = "vec4(0.0, 0.0, 0.0, 1.0)" := by
    refine (hpainted "q" (by decide)).1.2 fun v hv => ?_
    cases hnone.symm.trans hv
  have hsinks : sinksChecked.order.filter sinks.setsColor = ["p", "q"] := by decide
  refine ⟨rfl, hg, hs, pass, hstage, ?_, hcount.trans (by decide)⟩
  rw [hfilter, hsinks, List.map_cons, List.map_cons, List.map_nil, hp, hq]
  decide

end Compiler

end ShaderNodes
