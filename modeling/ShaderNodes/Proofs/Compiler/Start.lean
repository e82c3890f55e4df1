import Mathlib.Order.Bounds.Basic
import ShaderNodes.Proofs.Compiler.History

/-!
# What a compiler refuses

A pass begins over a graph whose nodes are all of known kinds and whose links all join sockets that
their nodes declare. Any other graph is refused for one fault: the least node of an unknown kind, or
else the first link that ends at a socket that is not declared.

* `Graph.Accepted`, `Graph.Refused`: which graphs are taken, and why one is not.
* `Compiler.objection?_eq_none_iff`, `Compiler.objection?_eq_some_iff`: the scans find just this.
* `Compiler.start_refuses_first_fault`: what a refused start answers, and what it leaves as it was.
-/

namespace ShaderNodes

namespace Graph

/-- The node is there and of a kind that the palette does not have. -/
def Unregistered (g : Graph) (palette : Palette) (n : NodeId) : Prop :=
  ∃ node, g.nodes.get? n = some node ∧ palette.get? node.kind = none

/-- The endpoint is at a node that is there, whose kind declares the socket on the given side. -/
def Declared (g : Graph) (palette : Palette) (side : Side) (p : Endpoint) : Prop :=
  ∃ node kind, g.nodes.get? p.node = some node ∧ palette.get? node.kind = some kind ∧
    ∃ socket ∈ kind.sockets.on side, socket.name = p.socket

/-- The link leaves a declared output and enters a declared input. -/
def Fits (g : Graph) (palette : Palette) (l : Link) : Prop :=
  g.Declared palette .output l.source ∧ g.Declared palette .input l.target

/-- All nodes are of known kinds, and all links fit. -/
def Accepted (g : Graph) (palette : Palette) : Prop :=
  (∀ n node, g.nodes.get? n = some node → ∃ kind, palette.get? node.kind = some kind) ∧
    ∀ l ∈ g.connections, g.Fits palette l

/-- Why a graph is not taken. Links are looked at only where all kinds are known, and the output of
a link before its input. -/
inductive Refused (g : Graph) (palette : Palette) : Compiler.Error → Prop where
  | kind {n : NodeId} {node : Node} : g.nodes.get? n = some node →
      IsLeast {m | g.Unregistered palette m} n → Refused g palette (.unknownKind n node.kind)
  | output {earlier rest : List Link} {l : Link} : (∀ n, ¬ g.Unregistered palette n) →
      g.connections = earlier ++ l :: rest → (∀ k ∈ earlier, g.Fits palette k) →
      ¬ g.Declared palette .output l.source → Refused g palette (.unknownSocket .output l.source)
  | input {earlier rest : List Link} {l : Link} : (∀ n, ¬ g.Unregistered palette n) →
      g.connections = earlier ++ l :: rest → (∀ k ∈ earlier, g.Fits palette k) →
      g.Declared palette .output l.source → ¬ g.Declared palette .input l.target →
      Refused g palette (.unknownSocket .input l.target)

end Graph

theorem Palette.contains_eq_isSome (palette : Palette) (kind : Name) :
    palette.contains kind = (palette.get? kind).isSome := rfl

namespace Compiler

variable {palette : Palette} {g : Graph} {e : Error}

/-! ## The scan of the nodes -/

theorem unknownKind?_eq_none_iff :
    unknownKind? palette g = none ↔ ∀ n, ¬ g.Unregistered palette n := by
  simp only [unknownKind?, List.findSome?_eq_none_iff, Graph.Unregistered, not_exists, not_and]
  constructor
  · intro h n node hnode hkind
    have hentry := h (n, node) (SortedMap.get?_eq_some_iff.1 hnode)
    simp [Palette.contains_eq_isSome, hkind] at hentry
  · rintro h ⟨n, node⟩ he
    have hkind := h n node (SortedMap.get?_eq_some_iff.2 he)
    exact if_pos (Option.isSome_iff_ne_none.2 hkind)

/-- The entries stand in the order of the ids, so the first node of an unknown kind is the least. -/
theorem exists_of_unknownKind? (h : unknownKind? palette g = some e) :
    ∃ n node, g.nodes.get? n = some node ∧ IsLeast {m | g.Unregistered palette m} n ∧
      e = .unknownKind n node.kind := by
  obtain ⟨before, ⟨n, node⟩, after, hsplit, hfound, hbefore⟩ := List.findSome?_eq_some_iff.1 h
  split at hfound
  · cases hfound
  rename_i hkind
  have hnode : g.nodes.get? n = some node := SortedMap.get?_eq_some_iff.2 (by simp [hsplit])
  refine ⟨n, node, hnode, ⟨⟨node, hnode, ?_⟩, ?_⟩, (Option.some.inj hfound).symm⟩
  · simpa [Palette.contains_eq_isSome] using hkind
  · rintro m ⟨node', hnode', hkind'⟩
    have hmem := SortedMap.get?_eq_some_iff.1 hnode'
    rw [hsplit] at hmem
    rcases List.mem_append.1 hmem with hmem | hmem
    · -- A node before this one is of a known kind.
      have hnone := hbefore _ hmem
      simp [Palette.contains_eq_isSome, hkind'] at hnone
    · rcases List.mem_cons.1 hmem with heq | hmem
      · exact (congrArg Prod.fst heq).ge
      · have hasc := g.nodes.ascending
        rw [hsplit, List.pairwise_append, List.pairwise_cons] at hasc
        exact (compare_lt_iff_lt.1 (hasc.2.1.1 _ hmem)).le

theorem unknownKind?_eq_some_iff : unknownKind? palette g = some e ↔
    ∃ n node, g.nodes.get? n = some node ∧ IsLeast {m | g.Unregistered palette m} n ∧
      e = .unknownKind n node.kind := by
  refine ⟨exists_of_unknownKind?, ?_⟩
  rintro ⟨n, node, hnode, hleast, rfl⟩
  cases h : unknownKind? palette g with
  | none => exact absurd hleast.1 (unknownKind?_eq_none_iff.1 h n)
  | some e =>
    obtain ⟨n', node', hnode', hleast', rfl⟩ := exists_of_unknownKind? h
    obtain rfl := hleast.unique hleast'
    obtain rfl := Option.some.inj (hnode.symm.trans hnode')
    rfl

/-! ## The scan of the links -/

theorem declares_iff {side : Side} {p : Endpoint} :
    declares palette g side p = true ↔ g.Declared palette side p := by
  rw [declares, Graph.Declared]
  cases hnode : g.nodes.get? p.node with
  | none => simp
  | some node =>
    cases hkind : palette.get? node.kind with
    | none => simp [hkind]
    | some kind => simp [hkind, Sockets.find?]

theorem fits_iff {l : Link} : g.Fits palette l ↔
    declares palette g .output l.source = true ∧ declares palette g .input l.target = true := by
  rw [Graph.Fits, declares_iff, declares_iff]

theorem unknownSocket?_eq_none_iff :
    unknownSocket? palette g = none ↔ ∀ l ∈ g.connections, g.Fits palette l := by
  simp only [unknownSocket?, List.findSome?_eq_none_iff, fits_iff]
  refine forall₂_congr fun l _ => ?_
  cases declares palette g .output l.source <;> cases declares palette g .input l.target <;> simp

/-- What the scan reports is the output or the input of the first link that does not fit. -/
theorem unknownSocket?_eq_some_iff : unknownSocket? palette g = some e ↔
    ∃ earlier l rest, g.connections = earlier ++ l :: rest ∧ (∀ k ∈ earlier, g.Fits palette k) ∧
      (¬ g.Declared palette .output l.source ∧ e = .unknownSocket .output l.source ∨
        g.Declared palette .output l.source ∧ ¬ g.Declared palette .input l.target ∧
          e = .unknownSocket .input l.target) := by
  simp only [unknownSocket?, List.findSome?_eq_some_iff, fits_iff, ← declares_iff]
  constructor
  · rintro ⟨earlier, l, rest, hsplit, hfound, hearlier⟩
    refine ⟨earlier, l, rest, hsplit, fun k hk => ?_, ?_⟩
    · have hnone := hearlier k hk
      revert hnone
      cases declares palette g .output k.source <;> cases declares palette g .input k.target <;>
        simp
    · revert hfound
      cases declares palette g .output l.source <;> cases declares palette g .input l.target <;>
        simp [eq_comm]
  · rintro ⟨earlier, l, rest, hsplit, hearlier, hl⟩
    refine ⟨earlier, l, rest, hsplit, ?_, fun k hk => ?_⟩
    · rcases hl with ⟨hout, rfl⟩ | ⟨hout, hin, rfl⟩
      · simp [hout]
      · simp [hout, hin]
    · simp [hearlier k hk]

/-! ## Both scans -/

theorem objection?_eq_none_iff : objection? palette g = none ↔ g.Accepted palette := by
  have hkinds : (∀ n, ¬ g.Unregistered palette n) ↔
      ∀ n node, g.nodes.get? n = some node → ∃ kind, palette.get? node.kind = some kind := by
    simp only [Graph.Unregistered, not_exists, not_and]
    refine forall₃_congr fun n node _ => ?_
    rw [← Option.isSome_iff_exists, Option.isSome_iff_ne_none]
  rw [Graph.Accepted, ← hkinds, ← unknownKind?_eq_none_iff, ← unknownSocket?_eq_none_iff,
    objection?]
  cases unknownKind? palette g <;> simp

theorem objection?_eq_some_iff : objection? palette g = some e ↔ g.Refused palette e := by
  rw [objection?]
  constructor
  · intro h
    cases hkind : unknownKind? palette g with
    | some e' =>
      obtain rfl : e' = e := by simpa [hkind] using h
      obtain ⟨n, node, hnode, hleast, rfl⟩ := unknownKind?_eq_some_iff.1 hkind
      exact .kind hnode hleast
    | none =>
      have hsocket : unknownSocket? palette g = some e := by simpa [hkind] using h
      have hkinds := unknownKind?_eq_none_iff.1 hkind
      obtain ⟨earlier, l, rest, hsplit, hearlier, ⟨hout, rfl⟩ | ⟨hout, hin, rfl⟩⟩ :=
        unknownSocket?_eq_some_iff.1 hsocket
      · exact .output hkinds hsplit hearlier hout
      · exact .input hkinds hsplit hearlier hout hin
  · intro h
    cases h with
    | kind hnode hleast =>
      rw [unknownKind?_eq_some_iff.2 ⟨_, _, hnode, hleast, rfl⟩]
      rfl
    | output hkinds hsplit hearlier hout =>
      rw [unknownKind?_eq_none_iff.2 hkinds,
        unknownSocket?_eq_some_iff.2 ⟨_, _, _, hsplit, hearlier, .inl ⟨hout, rfl⟩⟩]
      rfl
    | input hkinds hsplit hearlier hout hin =>
      rw [unknownKind?_eq_none_iff.2 hkinds,
        unknownSocket?_eq_some_iff.2 ⟨_, _, _, hsplit, hearlier, .inr ⟨hout, hin, rfl⟩⟩]
      rfl

/-! ## Main result -/

theorem start_result_eq_ok_iff {c : Compiler} {g : CheckedGraph} :
    (c.start g).result = .ok () ↔ objection? c.palette g.toGraph = none := by
  cases h : objection? c.palette g.toGraph with
  | none => simp [(start_of_no_objection h).2]
  | some e => simp [(start_of_objection h).2]

theorem start_result_eq_error_iff {c : Compiler} {g : CheckedGraph} :
    (c.start g).result = .error e ↔ objection? c.palette g.toGraph = some e := by
  cases h : objection? c.palette g.toGraph with
  | none => simp [(start_of_no_objection h).2]
  | some e => simp [(start_of_objection h).2]

theorem abort_of_running {c : Compiler} {pass : Pass} (h : c.stage = .running pass) :
    c.abort.compiler = { c with stage := .aborted } := by
  simp only [abort, h]

theorem abort_of_not_running {c : Compiler} (h : ∀ pass, c.stage ≠ .running pass) :
    c.abort.compiler = c := by
  rw [abort]
  cases hstage : c.stage with
  | running pass => exact absurd hstage (h pass)
  | idle | completed _ | aborted => rfl

/-- A pass begins over a graph just if its nodes are of known kinds and its links join declared
sockets. Otherwise the answer names the first fault, and nothing changes but that a running pass is
given up: no pass begins, and none is counted. -/
theorem start_refuses_first_fault (c : Compiler) (g : CheckedGraph) :
    ((c.start g).result = .ok () ↔ g.Accepted c.palette) ∧
      (∀ e, (c.start g).result = .error e ↔ g.Refused c.palette e) ∧
      ∀ e, (c.start g).result = .error e →
        ((∀ pass, c.stage ≠ .running pass) → (c.start g).compiler = c) ∧
        (∀ pass, c.stage = .completed pass →
          (c.start g).compiler.finish.result = .ok pass.draft.finish ∧
            (c.start g).compiler.values? = some pass.values) ∧
        (∀ pass, c.stage = .running pass →
          (c.start g).compiler = { c with stage := .aborted } ∧
            (c.start g).compiler.stage.pass? = none) ∧
        (∀ pass, (c.start g).compiler.stage.pass? = some pass → c.stage = .completed pass) ∧
        (c.start g).compiler.passes = c.passes := by
  refine ⟨start_result_eq_ok_iff.trans objection?_eq_none_iff,
    fun e => start_result_eq_error_iff.trans objection?_eq_some_iff, fun e he => ?_⟩
  obtain ⟨hcompiler, -⟩ := start_of_objection (start_result_eq_error_iff.1 he)
  rw [hcompiler]
  refine ⟨abort_of_not_running, fun pass hstage => ?_, fun pass hstage => ?_, fun pass hpass => ?_,
    ?_⟩
  · rw [abort_of_not_running (by simp [hstage]), values?, hstage]
    exact ⟨(finish_of_completed hstage).2, rfl⟩
  · rw [abort_of_running hstage]
    exact ⟨rfl, rfl⟩
  · cases hstage : c.stage with
    | running pass' =>
      rw [abort_of_running hstage] at hpass
      cases hpass
    | idle | completed _ | aborted =>
      rw [abort_of_not_running (by simp [hstage]), hstage] at hpass
      cases hpass <;> rfl
  · obtain ⟨stage, habort⟩ := c.abort_eq
    rw [habort]

end Compiler

end ShaderNodes
