/-
**Expansions.** What expanders do. An expander is given a node and the environment around it; a
pre-expander answers with markup, a post-expander with finished lines.

* `Expansion` is what an expander does, as a value: it answers, gives up, raises an error it was
  given, or asks for some markup to be resolved and goes on with the reply.
* `Run` is what resolving gives: a result or the reason to stop, and, whichever it is, the calls
  of expanders made on the way, in order.
-/

import TypedMarkup.Error
import TypedMarkup.Output

namespace TypedMarkup

/-! ### Expanders -/

/-- The node that an expander is given. -/
structure Invocation where
  type : TypeId
  properties : Properties
  /-- The block inside the node, as it stands. -/
  content : Content
  /-- The opening bracket of the node. -/
  start : Position

/-- What an expander does. -/
inductive Expansion (α : Type) where
  /-- It answers. -/
  | done (answer : α)
  /-- It gives up. -/
  | fail (reason : String)
  /-- It raises an error as it is. -/
  | raise (error : Error)
  /-- It asks for a block to be resolved, with or without implied paragraphs. -/
  | resolve (env : Environment) (content : Content) (implied : Bool)
      (next : Except Error (List Output.Line) → Expansion α)

/-- The expanders by name. -/
structure Expanders where
  /-- Those that answer with markup. -/
  pre : String → Environment → Invocation → Expansion Content
  /-- Those that answer with lines. -/
  post : String → Environment → Invocation → Expansion (List Output.Line)

/-! ### Runs -/

/-- A call of an expander. -/
structure Call where
  environment : Environment
  invocation : Invocation

/-- Why resolving stops early. -/
inductive Stop where
  | error (error : Error)
  /-- The bound on nesting was too small. -/
  | exhausted

/-- What resolving gives. -/
structure Run (α : Type) where
  /-- The calls of expanders, in order. -/
  calls : List Call
  outcome : Except Stop α

namespace Run

variable {α β : Type}

/-- One run after another. -/
def andThen (first : Run α) (next : α → Run β) : Run β :=
  match first.outcome with
  | .error stop => ⟨first.calls, .error stop⟩
  | .ok result =>
    let second := next result
    ⟨first.calls ++ second.calls, second.outcome⟩

instance : Monad Run where
  pure result := ⟨[], .ok result⟩
  bind := andThen

/-- The run of something that calls no expander. -/
def ofExcept : Except Error α → Run α
  | .ok result => ⟨[], .ok result⟩
  | .error error => ⟨[], .error (.error error)⟩

/-- Stops with an error. -/
def throw (error : Error) : Run α :=
  ⟨[], .error (.error error)⟩

/-- Stops because of something without meaning. -/
def blame (env : Environment) (cause : Cause) (positions : List Position) : Run α :=
  throw (.of env cause positions)

/-- Stops because of nesting. -/
def exhausted : Run α :=
  ⟨[], .error .exhausted⟩

/-- Records the call of an expander. -/
def record (call : Call) : Run Unit :=
  ⟨[call], .ok ()⟩

/-- Turns the errors of a run into results. -/
def attempt (run : Run α) : Run (Except Error α) :=
  match run.outcome with
  | .ok result => ⟨run.calls, .ok (.ok result)⟩
  | .error (.error error) => ⟨run.calls, .ok (.error error)⟩
  | .error .exhausted => ⟨run.calls, .error .exhausted⟩

end Run

/-- Carries out what an expander does: `block` resolves what it asks for, and giving up becomes the
error `blamed`. -/
def Expansion.run {α : Type} (block : Environment → Content → Bool → Run (List Output.Line))
    (blamed : String → Error) : Expansion α → Run α
  | .done answer => pure answer
  | .fail reason => Run.throw (blamed reason)
  | .raise error => Run.throw error
  | .resolve env content implied next => do
    let reply ← (block env content implied).attempt
    (next reply).run block blamed

end TypedMarkup
