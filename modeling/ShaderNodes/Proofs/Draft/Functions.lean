import ShaderNodes.Proofs.Definition
import ShaderNodes.Proofs.Draft.Sections

/-!
# Definitions in the fragment program

The text of a definition has no blanks at its ends, so it is in the program as it stands, with a
line break after it. The definition is read back from there, also if its last line is a comment: the
line break ends that.

* `Draft.exists_fragment_eq_around`: what a function adds to the fragment program.
* `Definition.emitted_reads_back`: the text of a definition in the program is this definition.
-/

namespace ShaderNodes

open Grammar Text

namespace Draft

theorem functionSection_ne_empty (f : Name × String) : functionSection f ≠ "" := by
  intro hempty
  have hchars := congrArg String.toList hempty
  simp [functionSection] at hchars

/-- A function adds a section of its own to the program, and an empty line. -/
theorem exists_fragment_eq_around {d : Draft} {before after : List (Name × String)}
    {f : Name × String} (h : d.functions = before ++ f :: after) : ∃ front back,
    ({ d with functions := before ++ after } : Draft).fragment = front ++ "\n" ++ back ∧
      d.fragment = front ++ "\n" ++ functionSection f ++ "\n" ++ back := by
  let front := ({ d with functions := before } : Draft).preamble
  let back := after.map functionSection ++ [d.fragmentMain]
  have hfront : ∃ s ∈ front, s ≠ "" := ⟨Chunks.constants, .head _, by decide⟩
  have hback : ∃ s ∈ back, s ≠ "" :=
    ⟨d.fragmentMain, List.mem_append_right _ (.head _), mainFunction_ne_empty _⟩
  have hwithout : ({ d with functions := before ++ after } : Draft).fragment =
    joinSections (front ++ back) := by
    rw [fragment_eq]
    simp only [preamble, front, back, List.map_append, List.append_assoc]
    rfl
  have hwith : d.fragment = joinSections (front ++ functionSection f :: back) := by
    rw [fragment_eq]
    simp only [preamble, h, front, back, List.map_append, List.map_cons, List.append_assoc,
      List.cons_append]
    rfl
  refine ⟨joinSections front, joinSections back, ?_, ?_⟩
  · rw [hwithout, joinSections_append hfront hback]
  · have hsection := functionSection_ne_empty f
    rw [hwith, joinSections_append hfront ⟨_, .head _, hsection⟩, joinSections_cons hsection hback]
    simp only [String.append_assoc]

end Draft

namespace Definition

theorem functionSection_source {source : String} {f : Definition} (h : parse source = .ok f)
    (name : Name) : Draft.functionSection (name, f.source) = f.source ++ "\n" := by
  obtain ⟨w, -, -, rfl⟩ := parse_eq_ok_iff.1 h
  rw [Draft.functionSection, trimEnd_trim]

/-- The text that is kept of a definition reads as this definition, and has no blanks at its ends. A
program that has it as a function has it as it stands, with a line break, and what the program has
there reads as this definition too. -/
theorem emitted_reads_back {source : String} {f : Definition} (h : parse source = .ok f) :
    parse f.source = .ok f ∧ trim f.source = f.source ∧
      ∀ (d : Draft) (name : Name) (before after : List (Name × String)),
        d.functions = before ++ (name, f.source) :: after → ∃ emitted front back,
          ({ d with functions := before ++ after } : Draft).fragment = front ++ "\n" ++ back ∧
            d.fragment = front ++ "\n" ++ emitted ++ "\n" ++ back ∧
            emitted = f.source ++ "\n" ∧ parse emitted = .ok f := by
  have hsource := parse_source h
  refine ⟨hsource, ?_, fun d name before after hfunctions => ?_⟩
  · obtain ⟨w, -, -, rfl⟩ := parse_eq_ok_iff.1 h
    exact trim_trim source
  · obtain ⟨front, back, hwithout, hwith⟩ := Draft.exists_fragment_eq_around hfunctions
    rw [functionSection_source h] at hwith
    exact ⟨f.source ++ "\n", front, back, hwithout, hwith, rfl, parse_append_newline hsource⟩

/-- A layout with blanks before the first comment, and in the last one blanks that the grammar does
not know. -/
def padded : Written :=
  { scattered with
    start := "\t// result\n".toList
    ending := " // end\u3000".toList
    blanks_start := by decide
    blanks_ending := by decide }

theorem emitted_reads_back_padded :
    let text :=
      "// result\nvec3/* ( */vec2( const\nhighp/**/vec3\tconst, float//,\rin )\x7b\x7b\x7d\x7d // end"
    let f : Definition := ⟨.vec3, "vec2", [("const", .vec3), ("in", .float)], text⟩
    parse ("\t" ++ text ++ "\u3000") = .ok f ∧ parse text = .ok f ∧ trim text = text ∧
      ∃ emitted front back,
        ({ config := {} } : Draft).fragment = front ++ "\n" ++ back ∧
          ({ config := {}, functions := [("vec2", text)] } : Draft).fragment =
            front ++ "\n" ++ emitted ++ "\n" ++ back ∧
          emitted = text ++ "\n" ∧ parse emitted = .ok f := by
  intro text f
  have hparse : parse ("\t" ++ text ++ "\u3000") = .ok f := by
    have hwritten : ("\t" ++ text ++ "\u3000").toList = padded.text := by decide
    have hkept : trim ("\t" ++ text ++ "\u3000") = text := by decide
    rw [parse_of_nodup hwritten (by decide), hkept]
    rfl
  obtain ⟨hsource, htrim, hdraft⟩ := emitted_reads_back hparse
  exact ⟨hparse, hsource, htrim,
    hdraft { config := {}, functions := [("vec2", text)] } "vec2" [] [] rfl⟩

end Definition

end ShaderNodes
