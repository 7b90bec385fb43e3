/-
**Where lines end.** What an element of a line gives goes on with the line begun so far, and what
comes behind it goes on with its last line.

* `Output.glue` puts lines together in this way.
* `Resolver.line_eq`: the lines of a line are the gluing of what its elements give, from an empty
  line on. `Resolver.lines_flatten_eq`: their nodes are those of the elements, one after the other.
* `Resolver.line_glues` says what this comes to: which nodes there are, on how many lines, and which
  error is reported.
-/

import Mathlib.Algebra.GroupWithZero.Nat
import TypedMarkup.Expansion.Stock
import TypedMarkup.Proofs.Resolution.RunEnds
import TypedMarkup.Resolution

namespace TypedMarkup

/-! ### Gluing -/

namespace Output

/-- Lines with others glued to them: their last line and the first of the others become one. -/
def glue (lines : List Line) : List Line → List Line
  | [] => lines
  | first :: rest => lines.dropLast ++ (lines.getLast?.getD [] ++ first) :: rest

variable {lines : List Line}

/-- The lines before the last one stay as they are. -/
theorem glue_append (before : List Line) (begun : lines ≠ []) (more : List Line) :
    glue (before ++ lines) more = before ++ glue lines more := by
  cases more with
  | nil => rfl
  | cons first rest =>
    simp only [glue, List.dropLast_append_of_ne_nil begun, List.getLast?_append_of_ne_nil _ begun,
      List.append_assoc]

theorem glue_ne_nil (begun : lines ≠ []) (more : List Line) : glue lines more ≠ [] := by
  cases more with
  | nil => exact begun
  | cons first rest => exact List.append_ne_nil_of_right_ne_nil _ (List.cons_ne_nil _ _)

theorem glue_flatten (lines more : List Line) :
    (glue lines more).flatten = lines.flatten ++ more.flatten := by
  cases more with
  | nil => exact (List.append_nil _).symm
  | cons first rest =>
    rcases List.eq_nil_or_concat' lines with rfl | ⟨before, last, rfl⟩
    · simp [glue]
    · simp [glue]

theorem glue_length (begun : lines ≠ []) (more : List Line) :
    (glue lines more).length = lines.length + (more.length - 1) := by
  cases more with
  | nil => rfl
  | cons first rest =>
    obtain ⟨before, last, rfl⟩ := (List.eq_nil_or_concat' lines).resolve_left begun
    simp only [glue, List.dropLast_concat, List.length_append, List.length_cons, List.length_nil]
    omega

variable (expansions : List (List Line))

theorem foldl_glue_append (before : List Line) (begun : lines ≠ []) :
    expansions.foldl glue (before ++ lines) = before ++ expansions.foldl glue lines := by
  induction expansions generalizing lines with
  | nil => rfl
  | cons expanded rest ih =>
    rw [List.foldl_cons, List.foldl_cons, glue_append before begun, ih (glue_ne_nil begun _)]

/-- Gluing keeps all nodes in their order. -/
theorem foldl_glue_flatten (lines : List Line) :
    (expansions.foldl glue lines).flatten =
      lines.flatten ++ (expansions.map List.flatten).flatten := by
  induction expansions generalizing lines with
  | nil => exact (List.append_nil _).symm
  | cons expanded rest ih =>
    rw [List.foldl_cons, ih, glue_flatten, List.map_cons, List.flatten_cons, List.append_assoc]

/-- Every expansion makes one line fewer than it has. -/
theorem foldl_glue_length (begun : lines ≠ []) :
    (expansions.foldl glue lines).length =
      lines.length + (expansions.map fun expanded => expanded.length - 1).sum := by
  induction expansions generalizing lines with
  | nil => rfl
  | cons expanded rest ih =>
    rw [List.foldl_cons, ih (glue_ne_nil begun _), glue_length begun, List.map_cons, List.sum_cons,
      Nat.add_assoc]

end Output

namespace Resolver

open Output (Line glue)

variable {resolver : Resolver} {env : Environment}

/-! ### Lines -/

/-- What is begun and what comes behind it is glued together. -/
theorem joinElements_eq (begun : Line) (elements : List LineElement) :
    resolver.joinElements env begun elements =
      List.foldl glue [begun] <$> elements.mapM (resolver env) := by
  induction elements generalizing begun with
  | nil => simp [joinElements]
  | cons element rest ih =>
    unfold joinElements
    rw [List.mapM_cons, map_bind]
    refine bind_congr fun expanded => ?_
    match expanded with
    | [] => simp [ih, glue]
    | [only] => simp [ih, glue]
    | first :: second :: more =>
      -- All but the last line of the element are done with, and the last one is begun.
      let last := (second :: more).getLast (List.cons_ne_nil second more)
      let done := (begun ++ first) :: (second :: more).dropLast
      have glued : glue [begun] (first :: second :: more) = done ++ [last] := by
        rw [List.cons_append, List.dropLast_concat_getLast]
        rfl
      dsimp only
      rw [ih]
      simp only [map_eq_pure_bind, bind_assoc, pure_bind]
      refine bind_congr fun expansions => congrArg pure ?_
      rw [List.foldl_cons, glued, Output.foldl_glue_append expansions done (List.cons_ne_nil _ _)]

/-- The lines of a line are the gluing of what its elements give. -/
theorem line_eq (elements : List LineElement) :
    resolver.line env elements = List.foldl glue [[]] <$> elements.mapM (resolver env) :=
  joinElements_eq [] elements

/-- The nodes of lines are those of their elements. -/
theorem lines_flatten_eq (lines : List (List LineElement)) :
    List.flatten <$> resolver.lines env lines =
      (fun expansions => (expansions.map List.flatten).flatten) <$>
        lines.flatten.mapM (resolver env) := by
  induction lines with
  | nil => simp [Resolver.lines]
  | cons first rest ih =>
    have split : List.flatten <$> resolver.lines env (first :: rest) = (do
        let resolved ← resolver.line env first
        let nodes ← List.flatten <$> resolver.lines env rest
        return resolved.flatten ++ nodes) := by simp [Resolver.lines]
    rw [split, ih, line_eq, List.flatten_cons, List.mapM_append]
    simp [Output.foldl_glue_flatten]

/-! ### Blocks -/

/-- **Lines are glued together.** Where all elements of a line resolve, its output is the gluing of
what they give, from an empty line on: the nodes are theirs, one element after the other, and each
element adds one line fewer than it gives. A block fails with the error of its first element that
does not resolve. -/
theorem line_glues (resolver : Resolver) (env : Environment) :
    (∀ elements expansions,
      List.Forall₂ (fun element expanded => (resolver env element).outcome = .ok expanded)
        elements expansions →
      ∃ lines, (resolver.line env elements).outcome = .ok lines ∧
        lines = expansions.foldl glue [[]] ∧
        lines.flatten = (expansions.map List.flatten).flatten ∧
        lines.length = 1 + (expansions.map fun expanded => expanded.length - 1).sum) ∧
    (∀ content implied inner before element after stop,
      env.applyPreamble content.preamble = .ok inner →
      content.lines.flatten = before ++ element :: after →
      (∀ earlier ∈ before, ∃ expanded, (resolver inner earlier).outcome = .ok expanded) →
      (resolver inner element).outcome = .error stop →
      (resolver.block env content implied).outcome = .error stop) := by
  refine ⟨fun elements expansions resolved => ?_, fun content implied inner before element after stop
    applied parts resolved failed => ?_⟩
  · refine ⟨expansions.foldl glue [[]], ?_, rfl, Output.foldl_glue_flatten expansions [[]],
      Output.foldl_glue_length expansions (List.cons_ne_nil _ _)⟩
    rw [line_eq, Run.outcome_map_eq_ok]
    exact ⟨expansions, Run.outcome_mapM_eq_ok.2 resolved, rfl⟩
  · have stopped : (resolver.lines inner content.lines).outcome = .error stop := by
      rw [← Run.outcome_map_eq_error, lines_flatten_eq, Run.outcome_map_eq_error, parts]
      exact Run.outcome_mapM_of_error resolved failed
    unfold block
    rw [applied, Run.outcome_bind_of_ok rfl, Run.outcome_bind_of_error stopped]

/-- A line of a text, a block of three lines, a block without lines and a text again; the block
behind it uses a value that is not bound. -/
def splitLine : List LineElement :=
  let here := Position.start
  let text (content : String) : LineElement := .plain ⟨content, here⟩
  [text "a", .node (.block here ⟨[], [[text "b"], [], [text "c"]]⟩), .node (.block here Content.empty),
    text "d"]

/-- The block of three lines ends the line and begins another one, with an empty line between. -/
theorem line_glues_split :
    let resolver := Resolver.ofDepth Expansion.stock 2
    let env := Environment.ofFile Reader.nothing "" Registry.empty
    let stray : LineElement := .node (.value Position.start ⟨"x", Position.start⟩)
    (∃ lines, (resolver.line env splitLine).outcome = .ok lines ∧ lines.length = 3 ∧
      lines = [[env.textNode "a", env.textNode "b"], [], [env.textNode "c", env.textNode "d"]]) ∧
    (resolver.block env ⟨[], [splitLine, stray :: splitLine]⟩ true).outcome =
      .error (.error (.of env (.unboundValue "x") [Position.start])) := by
  intro resolver env stray
  obtain ⟨glued, fails⟩ := line_glues resolver env
  refine ⟨?_, ?_⟩
  · obtain ⟨lines, resolved, same, -, count⟩ := glued splitLine
      [[[env.textNode "a"]], [[env.textNode "b"], [], [env.textNode "c"]], [], [[env.textNode "d"]]]
      (.cons rfl (.cons rfl (.cons rfl (.cons rfl .nil))))
    exact ⟨lines, resolved, count, same⟩
  · refine fails _ true env splitLine stray splitLine _ rfl rfl ?_ rfl
    simp only [splitLine, List.forall_mem_cons]
    exact ⟨⟨_, rfl⟩, ⟨_, rfl⟩, ⟨_, rfl⟩, ⟨_, rfl⟩, List.forall_mem_nil _⟩

end Resolver

end TypedMarkup
