/-
**Signs and positions of a tree.** Every position that reading records or blames counts what stands
before it, and a construct that opens with a sign of its own is recorded where that sign stands.

* `Content.signs` lists the opening signs of a tree with their positions, in the order of the
  source: brackets, marks, dots, backslashes, braces and backticks.
* `Part.Stands.leads` and `Part.Stands.findsSign`: the source leads to every position of a part that
  stands in it, and to its signs.
* `Content.parse_counts`: all positions of a tree and of an error are true of the source, and every
  sign of the tree stands where it is recorded.
-/

import TypedMarkup.Proofs.Source.Places
import TypedMarkup.Proofs.Tree.ReadsBlock

namespace TypedMarkup

/-! ### Signs -/

/-- The sign that a value opens with. A literal has none. -/
def Value.signs : Value → List (Char × Position)
  | literal _ => []
  | bound start _ => [('<', start)]
  | escaped text => [('\x60', text.start)]

/-- The signs in a setting. -/
def Setting.signs : Setting → List (Char × Position)
  | pair _ value => value.signs
  | flag _ => []
  | negated start _ => [('!', start)]

/-- The signs of a part. Words and runs of text have none. -/
def Part.signs : Part → List (Char × Position)
  | node start => [('[', start)]
  | element start => [('<', start)]
  | fallback mark => [('?', mark)]
  | classRef used => [('.', used.start)]
  | path route => route.steps.map fun step => ('\\', step.start)
  | block start => [('\x7b', start)]
  | value given => given.signs
  | setting set => set.signs
  | escaped text => [('\x60', text.start)]
  | name _ | keyword _ | run _ => []

/-- All signs that a tree records. -/
def Content.signs (content : Content) : List (Char × Position) :=
  content.parts.flatMap Part.signs

/-! ### Places of parts -/

namespace Cursor

variable {source : Cursor} {position : Position} {holds holds' : Cursor → Prop}

/-- The source leads to a position. -/
def LeadsTo (source : Cursor) (position : Position) : Prop :=
  source.Finds position fun _ => True

theorem Finds.mono (found : source.Finds position holds)
    (weaken : ∀ there, holds there → holds' there) : source.Finds position holds' := by
  obtain ⟨there, reaches, same, here⟩ := found
  exact ⟨there, reaches, same, weaken there here⟩

theorem Finds.leads (found : source.Finds position holds) : source.LeadsTo position :=
  found.mono fun _ _ => trivial

end Cursor

variable {source : Cursor}

/-- Escaped text is led to, and so is the place behind its backtick. -/
theorem EscapedText.Stands.leads {text : EscapedText} (stands : text.Stands source) :
    source.LeadsTo text.start ∧ source.LeadsTo text.text.start := by
  refine ⟨Cursor.Finds.leads stands, ?_⟩
  obtain ⟨there, reaches, _, tick, behind⟩ := stands
  rw [behind]
  exact (reaches.trans (Cursor.reaches_behind (Cursor.one_stands_of_head tick))).finds trivial

theorem EscapedText.Stands.findsChar {text : EscapedText} (stands : text.Stands source) :
    source.FindsChar text.start '\x60' :=
  Cursor.Finds.mono stands fun _ found => found.1

theorem Value.Stands.leads {value : Value} (stands : value.Stands source) :
    ∀ position ∈ value.positions, source.LeadsTo position := by
  cases value with
  | literal word => exact List.forall_mem_singleton.2 (Cursor.Finds.leads stands)
  | bound start name =>
    refine List.forall_mem_cons.2 ⟨Cursor.Finds.leads stands.1, ?_⟩
    exact List.forall_mem_singleton.2 (Cursor.Finds.leads stands.2)
  | escaped text =>
    have led := EscapedText.Stands.leads stands
    exact List.forall_mem_cons.2 ⟨led.1, List.forall_mem_singleton.2 led.2⟩

theorem Value.Stands.findsSign {value : Value} (stands : value.Stands source) :
    ∀ sign ∈ value.signs, source.FindsChar sign.2 sign.1 := by
  cases value with
  | literal word => exact List.forall_mem_nil _
  | bound start name => exact List.forall_mem_singleton.2 stands.1
  | escaped text => exact List.forall_mem_singleton.2 (EscapedText.Stands.findsChar stands)

theorem Setting.Stands.leads {setting : Setting} (stands : setting.Stands source) :
    ∀ position ∈ setting.positions, source.LeadsTo position := by
  cases setting with
  | pair name value =>
    exact List.forall_mem_cons.2 ⟨Cursor.Finds.leads stands.1, Value.Stands.leads stands.2⟩
  | flag name => exact List.forall_mem_singleton.2 (Cursor.Finds.leads stands)
  | negated start name =>
    refine List.forall_mem_cons.2 ⟨Cursor.Finds.leads stands.1, ?_⟩
    exact List.forall_mem_singleton.2 (Cursor.Finds.leads stands.2)

/-- The steps of a path that stands in the source do so. -/
theorem TypePath.Stands.steps {path : TypePath} (stands : path.Stands source) :
    ∀ step ∈ path.steps, step.Stands source := by
  cases path with
  | absolute root steps => exact stands.2
  | relative steps => exact stands.2

theorem TypePath.Stands.leads {path : TypePath} (stands : path.Stands source) :
    ∀ position ∈ path.positions, source.LeadsTo position := by
  have below : ∀ position ∈ path.steps.flatMap (fun step => [step.start, step.name.start]),
      source.LeadsTo position := by
    intro position member
    obtain ⟨step, inside, member⟩ := List.mem_flatMap.1 member
    have here := stands.steps step inside
    have both : ∀ position ∈ [step.start, step.name.start], source.LeadsTo position :=
      List.forall_mem_cons.2 ⟨here.1.leads, List.forall_mem_singleton.2 here.2.leads⟩
    exact both position member
  cases path with
  | absolute root steps => exact List.forall_mem_cons.2 ⟨Cursor.Finds.leads stands.1, below⟩
  | relative steps => exact below

/-- **The source leads to all positions** of a part that stands in it. -/
theorem Part.Stands.leads {part : Part} (stands : part.Stands source) :
    ∀ position ∈ part.positions, source.LeadsTo position := by
  cases part with
  | node start => exact List.forall_mem_singleton.2 (Cursor.Finds.leads stands)
  | element start => exact List.forall_mem_singleton.2 (Cursor.Finds.leads stands)
  | fallback mark => exact List.forall_mem_singleton.2 (Cursor.Finds.leads stands)
  | name word => exact List.forall_mem_singleton.2 (Cursor.Finds.leads stands)
  | keyword word => exact List.forall_mem_singleton.2 (Cursor.Finds.leads stands)
  | classRef used =>
    refine List.forall_mem_cons.2 ⟨Cursor.Finds.leads stands.1, ?_⟩
    exact List.forall_mem_singleton.2 (Cursor.Finds.leads stands.2)
  | path route => exact TypePath.Stands.leads stands
  | block start => exact List.forall_mem_singleton.2 (Cursor.Finds.leads stands)
  | value given => exact Value.Stands.leads stands
  | setting set => exact Setting.Stands.leads stands
  | run text => exact List.forall_mem_singleton.2 (Cursor.Finds.leads stands)
  | escaped text =>
    have led := EscapedText.Stands.leads stands
    exact List.forall_mem_cons.2 ⟨led.1, List.forall_mem_singleton.2 led.2⟩

/-- **The signs of a part** that stands in the source are found where it records them. -/
theorem Part.Stands.findsSign {part : Part} (stands : part.Stands source) :
    ∀ sign ∈ part.signs, source.FindsChar sign.2 sign.1 := by
  cases part with
  | node start => exact List.forall_mem_singleton.2 stands
  | element start => exact List.forall_mem_singleton.2 stands
  | fallback mark => exact List.forall_mem_singleton.2 stands
  | classRef used => exact List.forall_mem_singleton.2 stands.1
  | path route => exact List.forall_mem_map.2 fun step member => (TypePath.Stands.steps stands step member).1
  | block start => exact List.forall_mem_singleton.2 stands
  | value given => exact Value.Stands.findsSign stands
  | setting set =>
    cases set with
    | pair name value => exact Value.Stands.findsSign stands.2
    | flag name => exact List.forall_mem_nil _
    | negated start name => exact List.forall_mem_singleton.2 stands.1
  | escaped text => exact List.forall_mem_singleton.2 (EscapedText.Stands.findsChar stands)
  | name word => exact List.forall_mem_nil _
  | keyword word => exact List.forall_mem_nil _
  | run text => exact List.forall_mem_nil _

/-! ### Sources -/

/-- A position that a source leads to counts what stands before it. -/
theorem Cursor.LeadsTo.counts {source : String} {position : Position}
    (leads : (Cursor.ofString source).LeadsTo position) : position.Counts source := by
  obtain ⟨there, reaches, rfl, _⟩ := leads
  exact reaches.counts

/-- **All positions are true.** Every position in the tree of a source, or in its error, counts the
bytes, the lines and the characters before it, and every construct of the tree starts with its own
sign. -/
theorem Content.parse_counts (source : String) :
    (∀ content, parse source = .ok content →
      (∀ position ∈ content.positions, position.Counts source) ∧
      ∀ sign ∈ content.signs, String.Pos.Raw.get? source ⟨sign.2.offset⟩ = some sign.1) ∧
    ∀ error, parse source = .error error →
      error.position.Counts source ∧ ∀ start, error.start = some start → start.Counts source := by
  constructor
  · intro content parsed
    have stand := parse_stands parsed
    constructor
    · intro position member
      obtain ⟨part, inside, member⟩ := List.mem_flatMap.1 member
      exact ((stand part inside).leads position member).counts
    · intro sign member
      obtain ⟨part, inside, member⟩ := List.mem_flatMap.1 member
      obtain ⟨there, reaches, same, found⟩ := (stand part inside).findsSign sign member
      rw [← same, ← found]
      exact reaches.get?
  · intro error failed
    obtain ⟨there, reaches, same, _, started⟩ := (parse_tells failed).found
    refine ⟨same ▸ reaches.counts, fun start recorded => ?_⟩
    exact (started start recorded).leads.counts

/-- A letter of two bytes, and a text node with a class on the second line. -/
def accentedTree : Content :=
  ⟨[], [[.plain ⟨"é", ⟨1, 1, 0⟩⟩],
    [.node (.text ⟨2, 1, 3⟩ none [⟨⟨2, 2, 4⟩, ⟨"a", ⟨2, 3, 5⟩⟩⟩] none [])]]⟩

/-- The name of the class is recorded behind two characters of its line and five bytes of the
source; and where the node is not closed, its start is recorded as well. -/
theorem Content.parse_counts_accented : ∃ error,
    parse "é\n[.a]" = .ok accentedTree ∧ (⟨2, 3, 5⟩ : Position) ∈ accentedTree.positions ∧
    ('.', (⟨2, 2, 4⟩ : Position)) ∈ accentedTree.signs ∧
    (⟨2, 3, 5⟩ : Position).Counts "é\n[.a]" ∧
    String.Pos.Raw.get? "é\n[.a]" ⟨4⟩ = some '.' ∧
    parse "é\n[" = .error error ∧ error.position.Counts "é\n[" ∧
    error.start = some ⟨2, 1, 3⟩ ∧ (⟨2, 1, 3⟩ : Position).Counts "é\n[" := by
  have fits : parse "é\n[.a]" = .ok accentedTree := by
    with_unfolding_all rfl
  have fails : parse "é\n[" = .error ⟨⟨2, 2, 4⟩, .endOfFile, Parser.nodeStarts, some .node,
      some ⟨2, 1, 3⟩⟩ := by
    with_unfolding_all rfl
  have found := (parse_counts "é\n[.a]").1 _ fits
  have blamed := (parse_counts "é\n[").2 _ fails
  have name : (⟨2, 3, 5⟩ : Position) ∈ accentedTree.positions := by decide
  have dot : ('.', (⟨2, 2, 4⟩ : Position)) ∈ accentedTree.signs := by decide
  exact ⟨_, fits, name, dot, found.1 _ name, found.2 _ dot, fails, blamed.1, rfl, blamed.2 _ rfl⟩

end TypedMarkup
