import ShaderNodes.Proofs.Grammar.Signature

/-!
# Blocks and the depth of braces

The body of a definition is read by a rule that calls itself: an opening brace, then as many blocks
and other characters as there are, then a closing brace. What has been read is not read again in
another way.

* `balanced_iff_depth`: text is balanced if the depth of its braces ends at zero and was never
  below.
* `exists_balanced_close`: before the first closing brace too many, text is balanced.
* `Parser.parsed_braced_iff`: the rule has one solution, which is `Parser.body`.
* `Parser.takes_body_append_iff`, `Parser.parsed_body_of_inner`: a block inside is final. If it was
  read, the block around it goes on behind it, and if it cannot be read, the block around it cannot
  be read either.
* `Parser.body_takes_shortest_closed`: what a body takes is the shortest beginning of the text with
  as many closing braces as opening ones.
-/

namespace ShaderNodes.Grammar

/-! ## Depth -/

/-- How many more braces a text opens than it closes. -/
def depth (s : List Char) : ℤ := s.count '\x7b' - s.count '\x7d'

@[simp] theorem depth_nil : depth [] = 0 := rfl

@[simp] theorem depth_append (s t : List Char) : depth (s ++ t) = depth s + depth t := by
  simp only [depth, List.count_append]
  omega

@[simp] theorem depth_open (s : List Char) : depth ('\x7b' :: s) = depth s + 1 := by
  rw [depth, depth, List.count_cons_self, List.count_cons_of_ne (by decide)]
  omega

@[simp] theorem depth_close (s : List Char) : depth ('\x7d' :: s) = depth s - 1 := by
  rw [depth, depth, List.count_cons_self, List.count_cons_of_ne (by decide)]
  omega

theorem depth_plain {c : Char} (hopen : c ≠ '\x7b') (hclose : c ≠ '\x7d') (s : List Char) :
    depth (c :: s) = depth s := by
  simp [depth, hopen, hclose]

theorem depth_eq_zero_iff {s : List Char} : depth s = 0 ↔ s.count '\x7d' = s.count '\x7b' := by
  unfold depth
  omega

theorem prefix_append_cons {b r p : List Char} {c : Char} (h : p <+: b ++ c :: r) :
    p <+: b ∨ ∃ q, q <+: r ∧ p = b ++ c :: q := by
  rcases List.prefix_or_prefix_of_prefix h (List.prefix_append b (c :: r)) with hb | ⟨t, rfl⟩
  · exact .inl hb
  · rcases List.prefix_cons_iff.1 ((List.prefix_append_right_inj b).1 h) with rfl | ⟨q, rfl, hq⟩
    · exact .inl (by simp)
    · exact .inr ⟨q, hq, rfl⟩

namespace Balanced

variable {b s : List Char}

theorem depth_eq (h : Balanced b) : depth b = 0 := by
  induction h with
  | nil => rfl
  | char hopen hclose _ ih => rw [depth_plain hopen hclose, ih]
  | braces _ _ ihinner ih =>
    rw [depth_open, depth_append, depth_close, ihinner, ih]
    rfl

theorem depth_nonneg (h : Balanced b) {p : List Char} (hp : p <+: b) : 0 ≤ depth p := by
  induction h generalizing p with
  | nil => simp [List.prefix_nil.1 hp]
  | char hopen hclose _ ih =>
    rcases List.prefix_cons_iff.1 hp with rfl | ⟨t, rfl, ht⟩
    · simp
    · rw [depth_plain hopen hclose]
      exact ih ht
  | braces hinner _ ihinner ih =>
    rcases List.prefix_cons_iff.1 hp with rfl | ⟨t, rfl, ht⟩
    · simp
    · rcases prefix_append_cons ht with ht | ⟨q, hq, rfl⟩
      · have hdepth := ihinner ht
        rw [depth_open]
        omega
      · have hdepth := ih hq
        simp [hinner.depth_eq, hdepth]

theorem append (hb : Balanced b) (hs : Balanced s) : Balanced (b ++ s) := by
  induction hb with
  | nil => exact hs
  | char hopen hclose _ ih => exact .char hopen hclose ih
  | braces hinner _ _ ih =>
    rw [List.cons_append, List.append_assoc]
    exact .braces hinner ih

end Balanced

/-- Where the depth falls below zero, a closing brace comes after balanced text. -/
theorem exists_balanced_close {s p : List Char} (hp : p <+: s) (hdepth : depth p < 0) :
    ∃ b r, Balanced b ∧ s = b ++ '\x7d' :: r := by
  induction hn : s.length using Nat.strong_induction_on generalizing s p with
  | _ n ih =>
    cases s with
    | nil => simp [List.prefix_nil.1 hp] at hdepth
    | cons c s =>
      rcases List.prefix_cons_iff.1 hp with rfl | ⟨t, rfl, ht⟩
      · simp at hdepth
      rw [List.length_cons] at hn
      by_cases hclose : c = '\x7d'
      · exact ⟨[], s, .nil, by simp [hclose]⟩
      by_cases hopen : c = '\x7b'
      · -- The brace opened here is closed at the end of `b`, so it is behind `b` that the depth
        -- falls.
        subst hopen
        rw [depth_open] at hdepth
        obtain ⟨b, r, hb, rfl⟩ := ih s.length (by omega) ht (by omega) rfl
        rcases prefix_append_cons ht with ht | ⟨q, hq, rfl⟩
        · have hnonneg := hb.depth_nonneg ht
          omega
        · rw [depth_append, depth_close, hb.depth_eq] at hdepth
          rw [List.length_append, List.length_cons] at hn
          obtain ⟨b', r', hb', rfl⟩ := ih r.length (by omega) hq (by omega) rfl
          exact ⟨'\x7b' :: (b ++ '\x7d' :: b'), r', .braces hb hb', by simp⟩
      · rw [depth_plain hopen hclose] at hdepth
        obtain ⟨b, r, hb, rfl⟩ := ih s.length (by omega) ht hdepth rfl
        exact ⟨c :: b, r, .char hopen hclose hb, rfl⟩

theorem balanced_iff_depth {s : List Char} :
    Balanced s ↔ depth s = 0 ∧ ∀ p, p <+: s → 0 ≤ depth p := by
  constructor
  · intro h
    exact ⟨h.depth_eq, fun p hp => h.depth_nonneg hp⟩
  · rintro ⟨hdepth, hnonneg⟩
    -- With one more closing brace, the first one too many is that one.
    have hlast : depth (s ++ ['\x7d']) < 0 := by simp [hdepth]
    obtain ⟨b, r, hb, hs⟩ := exists_balanced_close List.prefix_rfl hlast
    rcases List.prefix_concat_iff.1 (⟨r, by simp [hs]⟩ : b ++ ['\x7d'] <+: s ++ ['\x7d']) with
      heq | hprefix
    · exact List.append_cancel_right heq ▸ hb
    · have hclosed := hnonneg _ hprefix
      simp [hb.depth_eq] at hclosed

theorem Balanced.of_append {b s : List Char} (h : Balanced (b ++ s)) (hb : Balanced b) :
    Balanced s := by
  rw [balanced_iff_depth] at h ⊢
  obtain ⟨hdepth, hnonneg⟩ := h
  rw [depth_append, hb.depth_eq] at hdepth
  refine ⟨by omega, fun p hp => ?_⟩
  have hprefix := hnonneg (b ++ p) ((List.prefix_append_right_inj b).2 hp)
  rwa [depth_append, hb.depth_eq, Int.zero_add] at hprefix

/-! ## Closed beginnings -/

/-- Text that begins with an opening brace and has as many closing braces as opening ones. -/
def Closed (p : List Char) : Prop := p.head? = some '\x7b' ∧ p.count '\x7d' = p.count '\x7b'

/-- A primitive block: its first brace is closed at its end and no earlier. -/
structure Primitive (p : List Char) : Prop where
  opens : p.head? = some '\x7b'
  closes : depth p = 0
  inside : ∀ q, q <+: p → q ≠ [] → q ≠ p → 0 < depth q

theorem closed_iff {p : List Char} : Closed p ↔ ∃ t, p = '\x7b' :: t ∧ depth t = -1 := by
  unfold Closed
  rw [← depth_eq_zero_iff, List.head?_eq_some_iff]
  constructor
  · rintro ⟨⟨t, rfl⟩, hdepth⟩
    rw [depth_open] at hdepth
    exact ⟨t, rfl, by omega⟩
  · rintro ⟨t, rfl, hdepth⟩
    exact ⟨⟨t, rfl⟩, by rw [depth_open]; omega⟩

theorem Balanced.closed {b : List Char} (h : Balanced b) : Closed ('\x7b' :: (b ++ ['\x7d'])) :=
  closed_iff.2 ⟨_, rfl, by simp [h.depth_eq]⟩

/-- A text with a closed beginning begins with balanced text in braces. -/
theorem Closed.exists_balanced {s p : List Char} (h : Closed p) (hp : p <+: s) :
    ∃ b r, Balanced b ∧ s = '\x7b' :: (b ++ '\x7d' :: r) := by
  obtain ⟨t, rfl, hdepth⟩ := closed_iff.1 h
  obtain ⟨r, rfl⟩ := hp
  obtain ⟨b, r', hb, hs⟩ := exists_balanced_close (List.prefix_append t r) (by omega)
  exact ⟨b, r', hb, by rw [List.cons_append, hs]⟩

/-- Of the closed beginnings, balanced text in braces is the shortest. -/
theorem Balanced.prefix_of_closed {b r q : List Char} (h : Balanced b) (hclosed : Closed q)
    (hq : q <+: '\x7b' :: (b ++ '\x7d' :: r)) : '\x7b' :: (b ++ ['\x7d']) <+: q := by
  obtain ⟨t, rfl, hdepth⟩ := closed_iff.1 hclosed
  rcases prefix_append_cons (List.cons_prefix_cons.1 hq).2 with ht | ⟨q, -, rfl⟩
  · have hnonneg := h.depth_nonneg ht
    omega
  · exact ⟨q, by simp⟩

theorem primitive_iff {p : List Char} :
    Primitive p ↔ ∃ b, Balanced b ∧ p = '\x7b' :: (b ++ ['\x7d']) := by
  constructor
  · rintro ⟨hopens, hcloses, hinside⟩
    have hclosed : Closed p := ⟨hopens, depth_eq_zero_iff.1 hcloses⟩
    obtain ⟨b, r, hb, rfl⟩ := hclosed.exists_balanced List.prefix_rfl
    refine ⟨b, hb, ?_⟩
    by_contra hne
    have hdepth :=
      hinside ('\x7b' :: (b ++ ['\x7d'])) ⟨r, by simp⟩ (List.cons_ne_nil _ _) (Ne.symm hne)
    simp [hb.depth_eq] at hdepth
  · rintro ⟨b, hb, rfl⟩
    refine ⟨rfl, depth_eq_zero_iff.2 hb.closed.2, fun q hq hnil hne => ?_⟩
    rcases List.prefix_cons_iff.1 hq with rfl | ⟨t, rfl, ht⟩
    · exact absurd rfl hnil
    · rcases List.prefix_concat_iff.1 ht with rfl | ht
      · exact absurd rfl hne
      · have hnonneg := hb.depth_nonneg ht
        rw [depth_open]
        omega

namespace Parser

/-! ## The rule of bodies -/

section Rule

variable {α : Type} {p q : Parser α} {s r : List Char}

/-- The first parser, or where it fails the second. -/
def either (p q : Parser α) : Parser α := do
  match ← optional p with
  | some a => pure a
  | none => q

/-- Takes nothing, and only where a parser fails. -/
def notAhead (p : Parser α) : Parser Unit := fun s =>
  match p s with
  | ⟨none, record⟩ => ⟨some ((), s), record⟩
  | ⟨some _, record⟩ => ⟨none, record⟩

/-- Any character. -/
def anyChar : Parser Unit :=
  token fun
    | [] => none
    | _ :: rest => some ((), rest)

theorem parsed_eq_of_takes_iff {s' : List Char} (h : ∀ a r, p.Takes s a r ↔ q.Takes s' a r) :
    (p s).parsed = (q s').parsed :=
  Option.ext fun m => h m.1 m.2

theorem parsed_either : (either p q s).parsed = (p s).parsed.or (q s).parsed := by
  rw [either, parsed_bind, parsed_optional]
  cases (p s).parsed <;> rfl

theorem takes_either_iff {a : α} :
    (either p q).Takes s a r ↔ p.Takes s a r ∨ (p s).parsed = none ∧ q.Takes s a r := by
  unfold Takes
  rw [parsed_either, Option.or_eq_some_iff]

theorem takes_notAhead_iff {u : Unit} : (notAhead p).Takes s u r ↔ (p s).parsed = none ∧ r = s := by
  unfold Takes notAhead
  obtain ⟨_ | _, _⟩ := p s <;> simp [eq_comm]

theorem takes_anyChar_iff {u : Unit} : anyChar.Takes s u r ↔ ∃ c, s = c :: r := by
  rw [anyChar, takes_token_iff]
  cases s <;> simp

/-- Repetition asks a parser only about texts that are no longer than the one it is given. -/
theorem parsed_manyUpTo_congr (hq : q.Progresses) {k : Nat}
    (h : ∀ s, s.length ≤ k → (p s).parsed = (q s).parsed) (hs : s.length ≤ k) (n : Nat) :
    (manyUpTo p n s).parsed = (manyUpTo q n s).parsed := by
  induction n generalizing s with
  | zero => rfl
  | succ n ih =>
    simp only [manyUpTo, parsed_bind, parsed_optional, h s hs]
    cases hmatch : (q s).parsed with
    | none => rfl
    | some m =>
      have hlt := hq s m.1 m.2 hmatch
      simp [ih (s := m.2) (by omega)]

end Rule

/-- What stands in a block, given a parser for the blocks inside: a block, or else a character that
is no brace. -/
def item (inner : Parser Unit) : Parser Unit :=
  either inner do
    notAhead (either (char '\x7b') (char '\x7d'))
    anyChar

/-- The rule of bodies, given a parser for the blocks inside. -/
def braced (inner : Parser Unit) : Parser Unit := do
  char '\x7b'
  let _ ← many (item inner)
  char '\x7d'

variable {s r : List Char}

theorem takes_item_iff {inner : Parser Unit} {u : Unit} :
    (item inner).Takes s u r ↔ inner.Takes s u r ∨
      (inner s).parsed = none ∧ ∃ c, c ≠ '\x7b' ∧ c ≠ '\x7d' ∧ s = c :: r := by
  simp only [item, takes_either_iff, takes_bind_iff, takes_notAhead_iff, takes_anyChar_iff,
    parsed_either, Option.or_eq_none_iff, parsed_eq_none_iff, takes_char_iff]
  constructor
  · rintro (h | ⟨hnone, -, s', ⟨⟨hopen, hclose⟩, rfl⟩, c, rfl⟩)
    · exact .inl h
    · refine .inr ⟨hnone, c, ?_, ?_, rfl⟩
      · rintro rfl
        exact hopen () r rfl
      · rintro rfl
        exact hclose () r rfl
  · rintro (h | ⟨hnone, c, hopen, hclose, rfl⟩)
    · exact .inl h
    · refine .inr ⟨hnone, (), c :: r, ⟨⟨fun _ r' heq => ?_, fun _ r' heq => ?_⟩, rfl⟩, c, rfl⟩
      · exact hopen (List.cons.inj heq).1
      · exact hclose (List.cons.inj heq).1

theorem takes_braced_iff {inner : Parser Unit} (h : (item inner).Progresses) {u : Unit} :
    (braced inner).Takes s u r ↔ ∃ t l, s = '\x7b' :: t ∧ Reads (item inner) t l ('\x7d' :: r) ∧
      (item inner ('\x7d' :: r)).parsed = none := by
  simp only [braced, takes_bind_iff, takes_char_iff, takes_many_iff h]
  constructor
  · rintro ⟨-, t, rfl, l, s', ⟨hreads, hnone⟩, rfl⟩
    exact ⟨t, l, rfl, hreads, hnone⟩
  · rintro ⟨t, l, rfl, hreads, hnone⟩
    exact ⟨(), t, rfl, l, _, ⟨hreads, hnone⟩, rfl⟩

theorem parsed_body_of_ne {c : Char} (hopen : c ≠ '\x7b') (s : List Char) :
    (body (c :: s)).parsed = none := by
  refine parsed_eq_none_iff.2 fun u r h => ?_
  obtain ⟨inner, -, heq⟩ := takes_body_iff.1 h
  exact hopen (List.cons.inj heq).1

theorem progresses_body : body.Progresses := by
  intro s u r h
  obtain ⟨inner, -, rfl⟩ := takes_body_iff.1 h
  simp only [List.length_cons, List.length_append]
  omega

theorem Progresses.item {inner : Parser Unit} (h : inner.Progresses) : (item inner).Progresses := by
  intro s u r hitem
  rcases takes_item_iff.1 hitem with hinner | ⟨-, c, -, -, rfl⟩
  · exact h s u r hinner
  · exact Nat.lt_succ_self _

theorem balanced_of_reads {l : List Unit} (h : Reads (item body) s l r) :
    ∃ b, Balanced b ∧ s = b ++ r := by
  induction h with
  | nil => exact ⟨[], .nil, rfl⟩
  | cons hitem _ ih =>
    obtain ⟨b, hb, rfl⟩ := ih
    rcases takes_item_iff.1 hitem with hbody | ⟨-, c, hopen, hclose, rfl⟩
    · obtain ⟨inner, hinner, rfl⟩ := takes_body_iff.1 hbody
      exact ⟨'\x7b' :: (inner ++ '\x7d' :: b), .braces hinner hb, by simp⟩
    · exact ⟨c :: b, .char hopen hclose hb, rfl⟩

theorem exists_reads_of_balanced {b : List Char} (h : Balanced b) (r : List Char) :
    ∃ l, Reads (item body) (b ++ r) l r := by
  induction h with
  | nil => exact ⟨[], .nil⟩
  | @char c s hopen hclose _ ih =>
    obtain ⟨l, hl⟩ := ih
    exact ⟨() :: l,
      .cons (takes_item_iff.2 (.inr ⟨parsed_body_of_ne hopen _, c, hopen, hclose, rfl⟩)) hl⟩
  | @braces inner s hinner _ _ ih =>
    obtain ⟨l, hl⟩ := ih
    exact ⟨() :: l, .cons (takes_item_iff.2 (.inl (takes_body_iff.2 ⟨inner, hinner, by simp⟩))) hl⟩

theorem parsed_item_close : (item body ('\x7d' :: r)).parsed = none := by
  refine parsed_eq_none_iff.2 fun u r' h => ?_
  rcases takes_item_iff.1 h with hbody | ⟨-, c, -, hclose, heq⟩
  · exact parsed_eq_none_iff.1 (parsed_body_of_ne (by decide) r) _ _ hbody
  · exact hclose (List.cons.inj heq).1.symm

/-- Bodies are read as their rule says. -/
theorem parsed_braced_body (s : List Char) : (braced body s).parsed = (body s).parsed := by
  refine parsed_eq_of_takes_iff fun u r => ?_
  rw [takes_braced_iff progresses_body.item, takes_body_iff]
  constructor
  · rintro ⟨t, l, rfl, hreads, -⟩
    obtain ⟨b, hb, rfl⟩ := balanced_of_reads hreads
    exact ⟨b, hb, rfl⟩
  · rintro ⟨b, hb, rfl⟩
    obtain ⟨l, hl⟩ := exists_reads_of_balanced hb ('\x7d' :: r)
    exact ⟨_, l, rfl, hl, parsed_item_close⟩

/-- The rule asks the parser for the blocks inside only about shorter texts. -/
theorem parsed_braced_congr {p q : Parser Unit} (hq : q.Progresses)
    (h : ∀ t, t.length < s.length → (p t).parsed = (q t).parsed) :
    (braced p s).parsed = (braced q s).parsed := by
  cases s with
  | nil => rfl
  | cons c t =>
    have hitem : ∀ t', t'.length ≤ t.length → (item p t').parsed = (item q t').parsed := by
      intro t' ht'
      rw [item, item, parsed_either, parsed_either, h t' (Nat.lt_succ_of_le ht')]
    have hmany : (many (item p) t).parsed = (many (item q) t).parsed :=
      parsed_manyUpTo_congr hq.item hitem le_rfl _
    by_cases hc : c = '\x7b'
    · simp [braced, char, hc, hmany]
    · simp [braced, char, hc]

/-- The rule has one solution: a parser reads as the rule says, with itself for the blocks inside,
if and only if it reads as `body` does. -/
theorem parsed_braced_iff {p : Parser Unit} :
    (∀ s, (p s).parsed = (braced p s).parsed) ↔ ∀ s, (p s).parsed = (body s).parsed := by
  constructor
  · intro h s
    induction hn : s.length using Nat.strong_induction_on generalizing s with
    | _ n ih =>
      rw [h s, ← parsed_braced_body s]
      exact parsed_braced_congr progresses_body fun t ht => ih t.length (hn ▸ ht) t rfl
  · intro h s
    rw [h s, ← parsed_braced_body s]
    exact (parsed_braced_congr progresses_body fun t _ => h t).symm

/-! ## What a body takes -/

theorem isSome_body_iff : (body s).parsed.isSome = true ↔ ∃ p, p <+: s ∧ Closed p := by
  constructor
  · intro h
    obtain ⟨m, hm⟩ := Option.isSome_iff_exists.1 h
    obtain ⟨b, hb, rfl⟩ := takes_body_iff.1 (show Takes _ _ m.1 m.2 from hm)
    exact ⟨_, ⟨m.2, by simp⟩, hb.closed⟩
  · rintro ⟨p, hp, hclosed⟩
    obtain ⟨b, r, hb, rfl⟩ := hclosed.exists_balanced hp
    exact Option.isSome_iff_exists.2 ⟨((), r), takes_body_iff.2 ⟨b, hb, rfl⟩⟩

theorem takes_body_iff_shortest {u : Unit} :
    body.Takes s u r ↔ ∃ p, s = p ++ r ∧ Closed p ∧ ∀ q, q <+: s → Closed q →
    p.length ≤ q.length := by
  rw [takes_body_iff]
  constructor
  · rintro ⟨b, hb, rfl⟩
    exact ⟨_, by simp, hb.closed, fun q hq hclosed => (hb.prefix_of_closed hclosed hq).length_le⟩
  · rintro ⟨p, rfl, hclosed, hshortest⟩
    obtain ⟨b, r', hb, hs⟩ := hclosed.exists_balanced (List.prefix_append p r)
    have hprefix := hb.prefix_of_closed hclosed (hs ▸ List.prefix_append p r)
    have hlength := hshortest _ (hs ▸ ⟨r', by simp⟩) hb.closed
    obtain rfl := hprefix.eq_of_length_le hlength
    exact ⟨b, hb, by simp⟩

theorem takes_body_iff_primitive {p : List Char} {u : Unit} :
    body.Takes (p ++ r) u r ↔ Primitive p := by
  rw [takes_body_iff, primitive_iff]
  refine exists_congr fun b => and_congr_right fun _ => ?_
  have happend : '\x7b' :: (b ++ '\x7d' :: r) = '\x7b' :: (b ++ ['\x7d']) ++ r := by simp
  rw [happend, List.append_left_inj]

/-! ## Blocks inside -/

/-- Balanced text behind the opening brace makes no difference to what is left. -/
theorem takes_body_append_iff {b t : List Char} (hb : Balanced b) {u : Unit} :
    body.Takes ('\x7b' :: (b ++ t)) u r ↔ body.Takes ('\x7b' :: t) u r := by
  simp only [takes_body_iff, List.cons.injEq, true_and]
  constructor
  · rintro ⟨b', hb', heq⟩
    rcases List.append_eq_append_iff.1 heq with ⟨c, rfl, rfl⟩ | ⟨c, rfl, hc⟩
    · exact ⟨c, hb'.of_append hb, rfl⟩
    · -- The block is not over before the end of `b`, where the depth is zero again.
      cases c with
      | nil => exact ⟨[], .nil, hc.symm⟩
      | cons d c =>
        obtain ⟨rfl, -⟩ := List.cons.inj hc
        have hnonneg := hb.depth_nonneg (⟨c, by simp⟩ : b' ++ ['\x7d'] <+: b' ++ '\x7d' :: c)
        simp [hb'.depth_eq] at hnonneg
  · rintro ⟨b', hb', rfl⟩
    exact ⟨b ++ b', hb.append hb', by simp⟩

/-- Where a block inside cannot be read, the block around it cannot be read either. -/
theorem parsed_body_of_inner {b t : List Char} (hb : Balanced b)
    (h : (body ('\x7b' :: t)).parsed = none) :
    (body ('\x7b' :: (b ++ '\x7b' :: t))).parsed = none := by
  refine parsed_eq_none_iff.2 fun u r htakes => ?_
  rw [takes_body_append_iff hb] at htakes
  obtain ⟨inner, hinner, heq⟩ := takes_body_iff.1 htakes
  cases hinner with
  | nil => simp at heq
  | char hopen hclose _ => exact hopen (List.cons.inj (List.cons.inj heq).2).1.symm
  | @braces inner s hinner hs =>
    refine parsed_eq_none_iff.1 h () (s ++ '\x7d' :: r) (takes_body_iff.2 ⟨inner, hinner, ?_⟩)
    simpa using heq

/-- Where a block inside has been read, the block around it goes on as if it had not been there. -/
theorem parsed_body_after_inner {b t t' : List Char} (hb : Balanced b) (h : body.Takes t () t') :
    (body ('\x7b' :: (b ++ t))).parsed = (body ('\x7b' :: (b ++ t'))).parsed := by
  obtain ⟨inner, hinner, rfl⟩ := takes_body_iff.1 h
  have hblock : Balanced ('\x7b' :: (inner ++ ['\x7d'])) := .braces hinner .nil
  have happend : '\x7b' :: (inner ++ '\x7d' :: t') = '\x7b' :: (inner ++ ['\x7d']) ++ t' := by simp
  refine parsed_eq_of_takes_iff fun u r => ?_
  rw [happend, takes_body_append_iff hb, takes_body_append_iff hblock, takes_body_append_iff hb]

/-- The rule of bodies has one solution. Wherever in a text it is tried, it reads a block if and
only if the text left has a closed beginning, counting braces in comments too. It takes the shortest
one, and thereby the primitive blocks and no other texts. Any way to divide a text into braces,
blocks and other characters gives the same: a block inside that has been read need not be read in
another way, and one that cannot be read leaves nothing else to try. -/
theorem body_takes_shortest_closed :
    (∀ reader : Parser Unit,
        (∀ s, (reader s).parsed = (braced reader s).parsed) ↔
        ∀ s, (reader s).parsed = (body s).parsed) ∧
      ∀ s : List Char,
        ((body s).parsed.isSome = true ↔ ∃ p, p <+: s ∧ Closed p) ∧
        (∀ r, body.Takes s () r ↔
          ∃ p, s = p ++ r ∧ Closed p ∧ ∀ q, q <+: s → Closed q → p.length ≤ q.length) ∧
        (∀ p r, s = p ++ r → (body.Takes s () r ↔ Primitive p)) ∧
        (∀ r, body.Takes s () r ↔ ∃ inner, Balanced inner ∧ s = '\x7b' :: (inner ++ '\x7d' :: r)) ∧
        ∀ b t, Balanced b → s = '\x7b' :: (b ++ t) →
          (∀ t', body.Takes t () t' → (body s).parsed = (body ('\x7b' :: (b ++ t'))).parsed) ∧
          (t.head? = some '\x7b' → (body t).parsed = none → (body s).parsed = none) := by
  refine ⟨fun _ => parsed_braced_iff, fun s => ⟨isSome_body_iff, fun _ => takes_body_iff_shortest,
    ?_, fun _ => takes_body_iff, ?_⟩⟩
  · rintro p r rfl
    exact takes_body_iff_primitive
  · rintro b t hb rfl
    refine ⟨fun _ => parsed_body_after_inner hb, fun hopen hnone => ?_⟩
    obtain ⟨t, rfl⟩ := List.head?_eq_some_iff.1 hopen
    exact parsed_body_of_inner hb hnone

/-- A block may end in a comment, and the end of a block inside is not the end of the block around
it. -/
theorem body_takes_shortest_closed_commented :
    Primitive ['\x7b', '/', '*', '\x7b', '\x7d', '\x7d'] ∧
      (body ['\x7b', '/', '*', '\x7b', '\x7d', '\x7d', '*', '/', '\x7d']).parsed =
        some ((), ['*', '/', '\x7d']) ∧
      ¬ ∃ p, p <+: ['\x7b', 'a', '\x7b', 'b', '\x7d'] ∧ Closed p := by
  obtain ⟨-, h⟩ := body_takes_shortest_closed
  refine ⟨((h _).2.2.1 _ ['*', '/', '\x7d'] rfl).1 rfl, rfl, fun hclosed => ?_⟩
  exact absurd ((h _).1.2 hclosed) (by decide)

end Parser

end ShaderNodes.Grammar
