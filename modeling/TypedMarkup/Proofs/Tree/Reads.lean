/-
**What a parser does from a cursor on.** A logic for parsers, one rule for each way to build one.

* `Parser.Reads source bound parser c holds`: run at `c`, which the source leads to, the parser
  either moves forward and its result satisfies `holds`, or it blames the source and the error is
  true of it (`ParseError.Tells`), or it is exhausted, which happens only if at least `bound`
  characters are left.
* `Reads.bind` chains parsers, `Reads.many` repeats a step that moves whenever it goes on; the other
  rules are about looking, moving and failing.
-/

import TypedMarkup.Proofs.Tree.Loops
import TypedMarkup.Proofs.Tree.Part

namespace TypedMarkup

/-! ### True errors -/

/-- What was found stands at a cursor. -/
def Found.Stands (there : Cursor) : Found → Prop
  | char c => there.head = some c
  | word text => text.toList = there.rest.takeWhile isNameChar ∧ text.toList ≠ []
  | endOfFile => there.rest = []

/-- The alternative that what was found would be. -/
def Found.expectation : Found → Expectation
  | char c => .char c
  | word text => .keyword text
  | endOfFile => .endOfFile

/-- An error is true of a source: what was found stands at its position, which its start is not
behind, and was not expected there, where something was. -/
structure ParseError.Tells (source : Cursor) (error : ParseError) : Prop where
  found : source.Finds error.position fun there => error.found.Stands there ∧
    ∀ start, error.start = some start → source.Finds start fun earlier => earlier.Reaches there
  expected : error.expected ≠ []
  unexpected : error.found.expectation ∉ error.expected

namespace Found

theorem stands_ofHead (c : Cursor) : (ofHead c.head).Stands c := by
  cases split : c.head with
  | some x => exact split
  | none => exact List.head?_eq_none_iff.1 split

@[simp] theorem expectation_ofHead_eq_char {head : Option Char} {x : Char} :
    (ofHead head).expectation = .char x ↔ head = some x := by
  cases head <;> simp [ofHead, expectation]

@[simp] theorem expectation_ofHead_ne_construct {head : Option Char} {part : Construct} :
    (ofHead head).expectation ≠ .construct part := by
  cases head <;> simp [ofHead, expectation]

@[simp] theorem expectation_ofHead_ne_keyword {head : Option Char} {word : String} :
    (ofHead head).expectation ≠ .keyword word := by
  cases head <;> simp [ofHead, expectation]

@[simp] theorem expectation_ofHead_eq_endOfFile {head : Option Char} :
    (ofHead head).expectation = .endOfFile ↔ head = none := by
  cases head <;> simp [ofHead, expectation]

end Found

namespace Parser

variable {α β : Type} {source c after : Cursor} {bound : Nat} {parser : Parser α}
  {holds holds' : α → Cursor → Prop}

/-! ### The judgement -/

/-- What a parser does at a cursor that the source leads to. -/
def Reads (source : Cursor) (bound : Nat) (parser : Parser α) (c : Cursor)
    (holds : α → Cursor → Prop) : Prop :=
  source.Reaches c →
    match parser c with
    | .ok (a, after) => c.Reaches after ∧ holds a after
    | .error (.malformed error) => error.Tells source
    | .error .exhausted => bound ≤ c.rest.length

namespace Reads

/-- The source leads to the cursor. -/
theorem here (reads : source.Reaches c → Reads source bound parser c holds) :
    Reads source bound parser c holds :=
  fun reaches => reads reaches reaches

theorem pure {a : α} (result : holds a c) :
    Reads source bound (Pure.pure a) c holds :=
  fun _ => ⟨.refl c, result⟩

/-- A run of a parser that does not fail. -/
theorem of_run {a : α} {after : Cursor} (run : parser c = .ok (a, after))
    (moves : c.Reaches after) (result : holds a after) :
    Reads source bound parser c holds := by
  intro _
  rw [run]
  exact ⟨moves, result⟩

theorem mono (reads : Reads source bound parser c holds)
    (weaken : ∀ a after, c.Reaches after → holds a after → holds' a after) :
    Reads source bound parser c holds' := by
  intro reaches
  have run := reads reaches
  split
  · next a after same =>
    rw [same] at run
    exact ⟨run.1, weaken a after run.1 run.2⟩
  · next error same =>
    rw [same] at run
    exact run
  · next same =>
    rw [same] at run
    exact run

/-- **One parser after another**, where the second may be exhausted with so many characters less
left as the first one has passed over. -/
theorem bind_shorter {next : α → Parser β} {holds' : β → Cursor → Prop} (passed : Nat)
    (first : Reads source (bound + passed) parser c holds)
    (second : ∀ a after, c.Reaches after → holds a after →
      after.rest.length + passed ≤ c.rest.length ∧ Reads source bound (next a) after holds') :
    Reads source (bound + passed) (parser >>= next) c holds' := by
  intro reaches
  have run := first reaches
  have unfolded : (parser >>= next) c = (parser c >>= fun result => next result.1 result.2) := rfl
  rw [unfolded]
  cases same : parser c with
  | error failure =>
    rw [same] at run
    cases failure with
    | malformed error => exact run
    | exhausted => exact run
  | ok result =>
    obtain ⟨a, after⟩ := result
    rw [same] at run
    obtain ⟨moves, result⟩ := run
    obtain ⟨short, later⟩ := second a after moves result
    have rest := later (reaches.trans moves)
    show match next a after with
      | .ok (b, last) => c.Reaches last ∧ holds' b last
      | .error (.malformed error) => error.Tells source
      | .error .exhausted => bound + passed ≤ c.rest.length
    cases same' : next a after with
    | error failure =>
      rw [same'] at rest
      cases failure with
      | malformed error => exact rest
      | exhausted =>
        have left : bound ≤ after.rest.length := rest
        show bound + passed ≤ c.rest.length
        omega
    | ok result =>
      obtain ⟨b, last⟩ := result
      rw [same'] at rest
      exact ⟨moves.trans rest.1, rest.2⟩

/-- **One parser after another.** -/
theorem bind {next : α → Parser β} {holds' : β → Cursor → Prop}
    (first : Reads source bound parser c holds)
    (second : ∀ a after, c.Reaches after → holds a after →
      Reads source bound (next a) after holds') :
    Reads source bound (parser >>= next) c holds' := by
  refine bind_shorter 0 first fun a after moves result => ?_
  exact ⟨moves.length_le, second a after moves result⟩

/-! ### Looking -/

theorem head_bind {next : Option Char → Parser α}
    (reads : Reads source bound (next c.head) c holds) :
    Reads source bound (head >>= next) c holds :=
  reads

theorem get_bind {next : Cursor → Parser α} (reads : Reads source bound (next c) c holds) :
    Reads source bound (get >>= next) c holds :=
  reads

theorem set_bind {next : PUnit → Parser α} {target : Cursor} (moves : c.Reaches target)
    (reads : Reads source bound (next ⟨⟩) target holds) :
    Reads source bound (set target >>= next) c holds := by
  have moved : Reads source bound (set target : Parser PUnit) c fun _ after => after = target :=
    of_run rfl moves rfl
  exact moved.bind fun _ _ _ same => same ▸ reads

theorem position_bind {next : Position → Parser α}
    (reads : Reads source bound (next c.position) c holds) :
    Reads source bound (position >>= next) c holds :=
  reads

/-! ### Moving -/

/-- Passing over a text that stands at the cursor. -/
theorem take {front : List Char → List Char} (stands : front c.rest <+: c.rest) :
    Reads source bound (take front) c fun text after =>
      text = front c.rest ∧ after = c.behind (front c.rest) :=
  of_run rfl (Cursor.reaches_behind stands) ⟨rfl, rfl⟩

theorem advance {x : Char} (found : c.head = some x) :
    Reads source bound advance c fun _ after =>
      after = c.behind [x] ∧ after.rest.length + 1 ≤ c.rest.length := by
  have one := Cursor.take_one_of_head found
  have stands : [x] <+: c.rest := one ▸ Cursor.take_one_stands c
  have run : Parser.advance c = .ok ((), c.behind [x]) := by
    show Except.ok ((), c.behind (c.rest.take 1)) = _
    rw [one]
  exact of_run run (Cursor.reaches_behind stands)
    ⟨rfl, Cursor.behind_shorter stands (List.cons_ne_nil x [])⟩

theorem skip : Reads source bound skip c fun _ after =>
    after = c.behind (triviaText c.rest) ∧ trivia? after.rest = none := by
  have moves := Cursor.reaches_behind (triviaText_stands c.rest)
  exact of_run rfl moves ⟨rfl, trivia?_drop_triviaText c.rest⟩

/-! ### Failing -/

/-- The place where a construct started lies before the cursor. -/
def Started (source c : Cursor) (start : Option Position) : Prop :=
  ∀ place, start = some place → source.Finds place fun earlier => earlier.Reaches c

theorem started_none : Started source c none := by
  intro place same
  cases same

theorem started_some {earlier : Cursor} (reaches : source.Reaches earlier)
    (onward : earlier.Reaches c) : Started source c (some earlier.position) := by
  intro place same
  cases same
  exact reaches.finds onward

/-- It lies before all that come after it. -/
theorem Started.onward {start : Option Position} (started : Started source c start)
    (moves : c.Reaches after) : Started source after start := by
  intro place same
  obtain ⟨earlier, reaches, position, leads⟩ := started place same
  exact ⟨earlier, reaches, position, leads.trans moves⟩

theorem fail {expected : List Expectation} {parsing : Option Construct} {start : Option Position}
    (some : expected ≠ []) (unexpected : (Found.ofHead c.head).expectation ∉ expected)
    (started : Started source c start) :
    Reads source bound (fail expected parsing start : Parser α) c holds := by
  intro reaches
  exact ⟨reaches.finds ⟨Found.stands_ofHead c, started⟩, some, unexpected⟩

theorem fail_bind {expected : List Expectation} {parsing : Option Construct}
    {start : Option Position} {next : β → Parser α} (some : expected ≠ [])
    (unexpected : (Found.ofHead c.head).expectation ∉ expected)
    (started : Started source c start) :
    Reads source bound (Parser.fail expected parsing start >>= next) c holds :=
  fail some unexpected started

theorem failAt {word : Word} {expected : List Expectation} {parsing : Option Construct}
    (some : expected ≠ []) (stands : word.Stands source isNameChar)
    (unexpected : Expectation.keyword word.content ∉ expected) :
    Reads source bound (failAt word expected parsing : Parser α) c holds := by
  intro _
  obtain ⟨there, reaches, same, found⟩ := stands
  refine ⟨⟨there, reaches, same, found, ?_⟩, some, unexpected⟩
  intro start none
  cases none

theorem failAt_bind {word : Word} {expected : List Expectation} {parsing : Option Construct}
    {next : β → Parser α} (some : expected ≠ []) (stands : word.Stands source isNameChar)
    (unexpected : Expectation.keyword word.content ∉ expected) :
    Reads source bound (Parser.failAt word expected parsing >>= next) c holds :=
  failAt some stands unexpected

theorem expect {x : Char} {parsing : Option Construct} {start : Option Position}
    (started : Started source c start) :
    Reads source bound (expect x parsing start) c fun _ after =>
      c.head = some x ∧ after = c.behind [x] ∧ after.rest.length + 1 ≤ c.rest.length := by
  unfold Parser.expect
  apply head_bind
  split
  · next found => exact (advance found).mono fun _ _ _ moved => ⟨found, moved⟩
  · next other =>
    exact fail (List.cons_ne_nil _ _) (by simpa using other) started

/-! ### Words -/

/-- A word of characters of one class, if the first of them stands at the cursor. -/
theorem word {allowed : Char → Bool} (found : c.head.any allowed = true) :
    Reads source bound (word allowed) c fun word after =>
      word.Stands source allowed ∧ word.content.toList = c.rest.takeWhile allowed ∧
        word.start = c.position ∧ after = c.behind (c.rest.takeWhile allowed) ∧
        after.rest.length + 1 ≤ c.rest.length := by
  have nonempty := Cursor.takeWhile_ne_nil found
  have stands : c.rest.takeWhile allowed <+: c.rest := List.takeWhile_prefix allowed
  refine here fun reaches => of_run rfl (Cursor.reaches_behind stands) ⟨?_, ?_, rfl, rfl, ?_⟩
  · refine reaches.finds ⟨?_, ?_⟩
    · rw [String.toList_ofList]
    · rwa [String.toList_ofList]
  · rw [String.toList_ofList]
  · exact Cursor.behind_shorter stands nonempty

theorem name : Reads source bound name c fun word after =>
    word.Stands source isNameChar ∧ word.content.toList = c.rest.takeWhile isNameChar ∧
      word.start = c.position ∧ after = c.behind (c.rest.takeWhile isNameChar) ∧
      after.rest.length + 1 ≤ c.rest.length := by
  unfold Parser.name
  apply head_bind
  split
  · next found => exact word found
  · exact fail (List.cons_ne_nil _ _) (by simp) started_none

/-! ### Repeating -/

/-- What a step of a repetition has to do: whenever it goes on it has moved, `keeps` holds of the
items it reads, and `stops` where it stops. -/
def Goes (keeps : α → Prop) (stops : Cursor → Prop) (here : Cursor) : Round α → Cursor → Prop
  | .stop, after => stops after
  | .pass, after => after.rest.length + 1 ≤ here.rest.length
  | .item a, after => after.rest.length + 1 ≤ here.rest.length ∧ keeps a

section Repetition

variable {step : Parser (Round α)} (keeps : α → Prop) (stops : Cursor → Prop)

theorem rounds {left : Nat} (enough : c.rest.length < left)
    (round : ∀ here, c.Reaches here → Reads source bound step here (Goes keeps stops here)) :
    Reads source bound (Parser.rounds step left) c fun items after =>
      (∀ a ∈ items, keeps a) ∧ stops after := by
  induction left generalizing c with
  | zero => omega
  | succ left ih =>
    unfold Parser.rounds
    refine (round c (.refl c)).bind fun result after moves went => ?_
    have further : ∀ here, after.Reaches here →
        Reads source bound step here (Goes keeps stops here) :=
      fun here reaches => round here (moves.trans reaches)
    cases result with
    | stop => exact pure ⟨fun _ none => absurd none List.not_mem_nil, went⟩
    | pass =>
      have short : after.rest.length + 1 ≤ c.rest.length := went
      exact ih (by omega) further
    | item a =>
      obtain ⟨short, kept⟩ := went
      refine (ih (by omega) further).bind fun items last _ later => ?_
      exact pure ⟨List.forall_mem_cons.2 ⟨kept, later.1⟩, later.2⟩

/-- **A repetition** is never exhausted itself, since a step that goes on has moved. -/
theorem many
    (round : ∀ here, c.Reaches here → Reads source bound step here (Goes keeps stops here)) :
    Reads source bound (many step) c fun items after =>
      (∀ a ∈ items, keeps a) ∧ stops after :=
  rounds keeps stops (Nat.lt_succ_self _) round

/-- A repetition whose first round has to be an item has items, and moves. -/
theorem many_starting (starts : Cursor → Prop)
    (round : ∀ here, c.Reaches here → Reads source bound step here fun result after =>
      Goes keeps stops here result after ∧ (starts here → ∃ a, result = .item a)) :
    Reads source bound (Parser.many step) c fun items after =>
      ((∀ a ∈ items, keeps a) ∧ stops after) ∧
        (starts c → items ≠ [] ∧ after.rest.length + 1 ≤ c.rest.length) := by
  have goes : ∀ here, c.Reaches here → Reads source bound step here (Goes keeps stops here) :=
    fun here reaches => (round here reaches).mono fun _ _ _ went => went.1
  by_cases first : starts c
  · unfold Parser.many
    apply get_bind
    unfold Parser.rounds
    refine (round c (.refl c)).bind fun result after moves went => ?_
    obtain ⟨a, rfl⟩ := went.2 first
    obtain ⟨short, kept⟩ := went.1
    have rest := rounds keeps stops short fun here reaches => goes here (moves.trans reaches)
    refine rest.bind fun items last moved later => ?_
    have fewer := moved.length_le
    exact pure ⟨⟨List.forall_mem_cons.2 ⟨kept, later.1⟩, later.2⟩,
      fun _ => ⟨List.cons_ne_nil _ _, by omega⟩⟩
  · exact (many keeps stops goes).mono fun items after _ went => ⟨went, fun same => absurd same first⟩

end Repetition

end Reads

end Parser

end TypedMarkup
