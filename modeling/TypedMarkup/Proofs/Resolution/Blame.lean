/-
**Whose position is it?** A semantic error names a file, the one of its environment, and places. The
places are places of that file unless the markup at fault has left its own file.

* `Origin` says where markup comes from that is resolved at some place: from the file there, or out
  of one of the including files.
* `Tracked` is what is known of an environment on the way: the contents bound in it have an origin.
* `resolveWithin_located`: every semantic error blames places of the file that it names, or places
  of an including file inside an include's preamble or a bound content.
* `semantic_error_atHome_iff`: it is right about the file exactly if the places of the second kind
  are places of the file that it names as well, and all of its places are of one kind.
* `include_preamble_strays`: an include's preamble is blamed in the file that it includes.
-/

import TypedMarkup.Expansion.Stock
import TypedMarkup.Proofs.Environment.Bindings
import TypedMarkup.Proofs.Registry.Built
import TypedMarkup.Proofs.Resolution.RunEnds
import TypedMarkup.Proofs.Tree.Carried
import TypedMarkup.Proofs.Tree.ReadsBlock
import TypedMarkup.Reader.FileTable
import TypedMarkup.Resolution

namespace TypedMarkup

open Output (Line)

/-! ### Files and their trees -/

/-- A path leads to a text, and the text reads as a tree. -/
def TreeAt (texts : String → Option String) (path : String) (tree : Content) : Prop :=
  ∃ text, texts path = some text ∧ Content.parse text = .ok tree

namespace SemanticError

variable (texts : String → Option String) (failure : SemanticError)

/-- A place that the tree of the file records that a semantic error names. -/
def Records (position : Position) : Prop :=
  ∃ tree, TreeAt texts failure.environment.path tree ∧ position ∈ tree.positions

/-- A place of an including file inside markup that is resolved away from it. -/
def Carries (position : Position) : Prop :=
  ∃ frame ∈ failure.environment.includes, ∃ tree, TreeAt texts frame.path tree ∧
    position ∈ tree.carriedPositions

/-- All places that a semantic error blames are places of the file that it names. -/
def AtHome : Prop :=
  ∀ position ∈ failure.positions, failure.Records texts position

/-- All places that a semantic error blames are inside markup that has left an including file. -/
def Strayed : Prop :=
  ∀ position ∈ failure.positions, failure.Carries texts position

end SemanticError

/-- Semantic errors are at home or have strayed; nothing is said of others. -/
def Error.Located (texts : String → Option String) : Error → Prop
  | semantic failure => failure.AtHome texts ∨ failure.Strayed texts
  | parse _ _ _ | read _ _ => True

variable {texts : String → Option String} {env : Environment}

/-! ### Origins -/

/-- Where markup comes from that is resolved in the file at a path, behind some includes: the places
it can be blamed at, and those it takes along into other files. -/
inductive Origin (texts : String → Option String) (path : String) (includes : List IncludeFrame) :
    (Position → Prop) → (Position → Prop) → Prop where
  /-- It stands in the file. -/
  | home {tree : Content} (named : TreeAt texts path tree) :
    Origin texts path includes (· ∈ tree.positions) (· ∈ tree.carriedPositions)
  /-- It has been taken along out of an including file. -/
  | away {frame : IncludeFrame} {tree : Content} (through : frame ∈ includes)
    (named : TreeAt texts frame.path tree) :
    Origin texts path includes (· ∈ tree.carriedPositions) (· ∈ tree.carriedPositions)

namespace Origin

variable {path : String} {includes : List IncludeFrame} {known carries : Position → Prop}

/-- What is taken along can be blamed. -/
theorem known_of_carries (origin : Origin texts path includes known carries) :
    ∀ position, carries position → known position := by
  cases origin with
  | home named =>
    intro position member
    obtain ⟨part, inside, member⟩ := List.mem_flatMap.1 member
    exact List.mem_flatMap.2 ⟨part, Content.carried_subset _ inside, member⟩
  | away through named => exact fun _ member => member

/-- What is taken along into an included file has left its own. -/
theorem enter (origin : Origin texts env.path env.includes known carries) (into : String) :
    Origin texts (env.entered into).path (env.entered into).includes carries carries := by
  cases origin with
  | home named => exact .away List.mem_cons_self named
  | away through named => exact .away (List.mem_cons_of_mem _ through) named

/-- An error that blames markup is located by where the markup comes from. -/
theorem located {error : Error} (origin : Origin texts env.path env.includes known carries)
    (blames : error.Blames env known) : error.Located texts := by
  cases error with
  | semantic failure =>
    obtain ⟨near, places, -⟩ := blames
    cases origin with
    | home named =>
      exact .inl fun position member => ⟨_, near.path ▸ named, places position member⟩
    | away through named =>
      exact .inr fun position member =>
        ⟨_, near.includes ▸ through, _, named, places position member⟩
  | parse _ _ _ => trivial
  | read _ _ => trivial

end Origin

/-! ### Placed markup -/

/-- Markup, given by its parts and those that it takes along, has an origin. -/
def Placed (texts : String → Option String) (env : Environment) (parts carried : List Part) :
    Prop :=
  ∃ known carries, Origin texts env.path env.includes known carries ∧ AllKnown known parts ∧
    AllKnown carries carried

namespace Placed

variable {parts carried more moreCarried : List Part}

theorem subset (placed : Placed texts env parts carried) (inside : more ⊆ parts)
    (insideCarried : moreCarried ⊆ carried) : Placed texts env more moreCarried := by
  obtain ⟨known, carries, origin, all, allCarried⟩ := placed
  exact ⟨known, carries, origin, all.subset inside, allCarried.subset insideCarried⟩

theorem left (placed : Placed texts env (parts ++ more) (carried ++ moreCarried)) :
    Placed texts env parts carried :=
  placed.subset (List.subset_append_left _ _) (List.subset_append_left _ _)

theorem right (placed : Placed texts env (parts ++ more) (carried ++ moreCarried)) :
    Placed texts env more moreCarried :=
  placed.subset (List.subset_append_right _ _) (List.subset_append_right _ _)

theorem beside {other : Environment} (placed : Placed texts env parts carried)
    (near : env.Beside other) : Placed texts other parts carried := by
  unfold Placed
  rw [near.path, near.includes]
  exact placed

/-- What markup takes along into an included file is placed there. -/
theorem enter (placed : Placed texts env parts carried) (into : String) :
    Placed texts (env.entered into) carried carried := by
  obtain ⟨known, carries, origin, _, allCarried⟩ := placed
  exact ⟨carries, carries, origin.enter into, allCarried, allCarried⟩

/-- The tree of the file at hand. -/
theorem tree {source : Content} (named : TreeAt texts env.path source) :
    Placed texts env source.parts source.carried := by
  obtain ⟨text, found, parsed⟩ := named
  have stand := Content.parse_stands parsed
  have stands : AllStand (Cursor.ofString text) source.carried :=
    fun part member => stand part (source.carried_subset member)
  exact ⟨_, _, .home ⟨text, found, parsed⟩, AllKnown.self stand, AllKnown.self stands⟩

/-- What fails at places of the markup alone fails where the markup comes from. -/
theorem located {α : Type} {result : Except Error α} {holds : α → Prop}
    (placed : Placed texts env parts carried)
    (ends : ∀ known, AllKnown known parts → Ends result holds (Error.Blames env known)) :
    Ends result holds (Error.Located texts) := by
  obtain ⟨known, carries, origin, all, _⟩ := placed
  exact (ends known all).mono (fun _ held => held) fun _ => origin.located

/-- One place of the markup is to blame. -/
theorem blame {α : Type} {holds : α → Prop} {cause : Cause} {position : Position}
    (placed : Placed texts env parts carried)
    (place : ∀ known, AllKnown known parts → known position)
    (grounded : cause.Grounded env := by trivial) :
    (Run.blame env cause [position] : Run α).Ends holds (Error.Located texts) := by
  obtain ⟨known, carries, origin, all, _⟩ := placed
  exact origin.located (Error.Blames.one (place known all) grounded)

end Placed

/-! ### Tracked environments -/

/-- What is known of an environment: texts that are read are those at their paths, no type is an
expander, and bound contents have left files on the way here, or will leave this one. -/
structure Tracked (texts : String → Option String) (env : Environment) : Prop where
  reads : ∀ current path text, env.reader current path = .ok text →
    texts text.path = some text.content
  plain : env.registry.withoutExpanders = true
  bound : ∀ binding ∈ env.contents, ∃ known carries,
    Origin texts env.path env.includes known carries ∧ AllKnown carries binding.2.parts

namespace Tracked

theorem within (tracked : Tracked texts env) (type : TypeId) : Tracked texts (env.within type) := by
  obtain ⟨reads, plain, bound⟩ := tracked
  exact ⟨reads, plain, bound⟩

/-- Bound contents leave the file along with an include. -/
theorem enter (tracked : Tracked texts env) (into : String) : Tracked texts (env.entered into) := by
  refine ⟨tracked.reads, tracked.plain, fun binding member => ?_⟩
  obtain ⟨known, carries, origin, all⟩ := tracked.bound binding member
  exact ⟨carries, carries, origin.enter into, all⟩

/-- A bound content is placed wherever it is used. -/
theorem content_placed (tracked : Tracked texts env) {name : String} {content : Content}
    (found : env.content? name = some content) :
    Placed texts env content.parts content.carried := by
  have member : (name, content) ∈ env.contents := by
    obtain ⟨before, after, same, _⟩ := List.lookup_eq_some_iff.1 found
    rw [same]
    exact List.mem_append_right _ List.mem_cons_self
  obtain ⟨known, carries, origin, all⟩ := tracked.bound _ member
  exact ⟨known, carries, origin, all.mono origin.known_of_carries, all.subset content.carried_subset⟩

/-- What is read is the text at its path. -/
theorem readFile_ends (tracked : Tracked texts env) (path : String) (start : Position) :
    Ends (env.readFile path start) (fun text => texts text.path = some text.content)
      (Error.Located texts) := by
  unfold Environment.readFile
  split
  · next text found => exact tracked.reads _ _ text found
  · trivial

/-- An environment stays tracked through a preamble that is placed, and errors are located. -/
theorem applyPreamble_ends {preamble : List PreambleElement} (tracked : Tracked texts env)
    (placed : Placed texts env (preambleParts preamble) (preambleCarried preamble)) :
    Ends (env.applyPreamble preamble) (fun inner => env.Beside inner ∧ Tracked texts inner)
      (Error.Located texts) := by
  have located := placed.located fun known all => env.applyPreamble_ends all
  refine (located.and (env.applyPreamble_ends_contents preamble)).mono (fun inner ends => ?_)
    fun _ failed => failed.1
  obtain ⟨near, contents⟩ := ends
  refine ⟨near, ?_, near.registry ▸ tracked.plain, fun binding member => ?_⟩
  · rw [near.reader]
    exact tracked.reads
  · rw [near.path, near.includes]
    rcases contents binding member with before | ⟨element, inside, name, body⟩
    · exact tracked.bound binding before
    · obtain ⟨known, carries, origin, _, all⟩ := placed
      refine ⟨known, carries, origin, all.subset fun part within => ?_⟩
      refine List.mem_flatMap.2 ⟨element, inside, ?_⟩
      unfold PreambleElement.carried
      rw [body]
      exact within

end Tracked

namespace Resolver

/-! ### Lines and blocks -/

/-- A resolver whose errors are located. -/
def Locates (texts : String → Option String) (resolver : Resolver) : Prop :=
  ∀ env element, Tracked texts env → Placed texts env element.parts element.carried →
    (resolver env element).Ends (fun _ => True) (Error.Located texts)

variable {resolver : Resolver}

theorem joinElements_located (sound : resolver.Locates texts) (tracked : Tracked texts env)
    {elements : List LineElement} (placed : Placed texts env (lineParts elements) (lineCarried elements))
    (begun : Line) :
    (resolver.joinElements env begun elements).Ends (fun _ => True) (Error.Located texts) := by
  induction elements generalizing begun with
  | nil => trivial
  | cons element rest ih =>
    have here : Placed texts env element.parts element.carried := placed.left
    have later : Placed texts env (lineParts rest) (lineCarried rest) := placed.right
    unfold joinElements
    refine (sound env element tracked here).bind fun expanded _ => ?_
    match expanded with
    | [] => exact ih later begun
    | [only] => exact ih later _
    | first :: second :: more => exact (ih later _).bind fun _ _ => trivial

theorem lines_located (sound : resolver.Locates texts) (tracked : Tracked texts env)
    {lines : List (List LineElement)}
    (placed : Placed texts env (linesParts lines) (linesCarried lines)) :
    (resolver.lines env lines).Ends (fun _ => True) (Error.Located texts) := by
  induction lines with
  | nil => trivial
  | cons first rest ih =>
    have here : Placed texts env (lineParts first) (lineCarried first) := placed.left
    have later : Placed texts env (linesParts rest) (linesCarried rest) := placed.right
    unfold lines line
    refine (joinElements_located sound tracked here []).bind fun resolved _ => ?_
    exact (ih later).bind fun _ _ => trivial

/-- The inside of a block is tracked, and its lines are placed there. -/
theorem enter_located {preamble : List PreambleElement} {lines : List (List LineElement)}
    (tracked : Tracked texts env)
    (placed : Placed texts env (Content.parts ⟨preamble, lines⟩) (Content.carried ⟨preamble, lines⟩)) :
    (Run.ofExcept (env.applyPreamble preamble)).Ends (fun inner => env.Beside inner ∧
      Tracked texts inner ∧ Placed texts inner (linesParts lines) (linesCarried lines))
      (Error.Located texts) := by
  have ahead : Placed texts env (preambleParts preamble) (preambleCarried preamble) := placed.left
  have inside : Placed texts env (linesParts lines) (linesCarried lines) := placed.right
  refine (Run.Ends.ofExcept (tracked.applyPreamble_ends ahead)).mono (fun inner known => ?_)
    fun _ failed => failed
  exact ⟨known.1, known.2, inside.beside known.1⟩

theorem block_located (sound : resolver.Locates texts) (tracked : Tracked texts env)
    {content : Content} (placed : Placed texts env content.parts content.carried)
    (implied : Bool) :
    (resolver.block env content implied).Ends (fun _ => True) (Error.Located texts) := by
  obtain ⟨preamble, lines⟩ := content
  unfold block
  refine (enter_located tracked placed).bind fun inner known => ?_
  exact (lines_located sound known.2.1 known.2.2).bind fun _ _ => trivial

/-! ### Lists and maps -/

theorem slottedElements_located (sound : resolver.Locates texts) {inner : Environment}
    (near : env.Beside inner) (tracked : Tracked texts inner) (type : TypeId) (shape : MapType)
    {elements : List LineElement}
    (placed : Placed texts env (lineParts elements) (lineCarried elements)) :
    (resolver.slottedElements env inner type shape elements).Ends (fun _ => True)
      (Error.Located texts) := by
  induction elements with
  | nil => trivial
  | cons element rest ih =>
    have here : Placed texts env element.parts element.carried := placed.left
    have later : Placed texts env (lineParts rest) (lineCarried rest) := placed.right
    unfold slottedElements
    refine (sound inner element tracked (here.beside near)).bind fun expanded _ => ?_
    dsimp only
    split
    · exact (ih later).bind fun _ _ => trivial
    · exact here.blame fun known all => LineElement.start_known all

/-- The properties of a node fail at places of its classes and its property block. -/
theorem nodeProperties_located {parts carried : List Part} (placed : Placed texts env parts carried)
    (type : TypeId) {classes : List ClassRef} {block : Option PropertyBlock}
    (inside : classes.map Part.classRef ++ blockParts block ⊆ parts) :
    (Run.ofExcept (env.nodeProperties type classes block)).Ends (fun _ => True)
      (Error.Located texts) := by
  refine Run.Ends.ofExcept (placed.located fun known all => ?_)
  have both := AllKnown.append.1 (all.subset inside)
  exact env.nodeProperties_ends both.1 both.2

theorem mapNode_located (sound : resolver.Locates texts) (tracked : Tracked texts env)
    {parts carried : List Part} (placed : Placed texts env parts carried) (type : TypeId)
    (shape : MapType) {classes : List ClassRef} {block : Option PropertyBlock}
    (inside : classes.map Part.classRef ++ blockParts block ⊆ parts) {content : Content}
    (body : Placed texts env content.parts content.carried) :
    (resolver.mapNode env type shape classes block content).Ends (fun _ => True)
      (Error.Located texts) := by
  obtain ⟨preamble, lines⟩ := content
  unfold mapNode
  refine (enter_located tracked body).bind fun inner known => ?_
  obtain ⟨near, tracked', placed'⟩ := known
  have finish : ∀ nodes, (do
      let properties ← Run.ofExcept (env.nodeProperties type classes block)
      return .map type properties (env.slotsOf shape nodes) : Run Output.Node).Ends (fun _ => True)
        (Error.Located texts) := fun nodes =>
    (nodeProperties_located placed type inside).bind fun _ _ => trivial
  cases shape.mainSlot with
  | none =>
    have elements : Placed texts env (lineParts lines.flatten) (lineCarried lines.flatten) := by
      rw [← linesParts_flatten, ← linesCarried_flatten]
      exact body.right
    refine (slottedElements_located sound near tracked' type shape elements).bind fun nodes _ => ?_
    exact finish nodes
  | some main =>
    refine (lines_located sound tracked' placed').bind fun resolved _ => ?_
    exact finish _

theorem listNode_located (sound : resolver.Locates texts) (tracked : Tracked texts env)
    {parts carried : List Part} (placed : Placed texts env parts carried) (type : TypeId)
    (shape : ListType) {start : Position}
    (here : ∀ known, AllKnown known parts → known start) {classes : List ClassRef}
    {block : Option PropertyBlock}
    (inside : classes.map Part.classRef ++ blockParts block ⊆ parts) {content : Content}
    (body : Placed texts env content.parts content.carried) :
    (resolver.listNode env type shape start classes block content).Ends (fun _ => True)
      (Error.Located texts) := by
  have tracked' : Tracked texts (env.within type) := tracked.within type
  have body' : Placed texts (env.within type) content.parts content.carried := body
  have placed' : Placed texts (env.within type) parts carried := placed
  unfold listNode
  refine (block_located sound tracked' body' shape.containsParagraphs).bind fun lines _ => ?_
  have finish : (do
      let properties ← Run.ofExcept ((env.within type).nodeProperties type classes block)
      return .list type properties lines.flatten : Run Output.Node).Ends (fun _ => True)
        (Error.Located texts) :=
    (nodeProperties_located placed' type inside).bind fun _ _ => trivial
  dsimp only
  split
  · split
    · exact placed.blame here
    · exact finish
  · exact finish

/-! ### Nodes -/

theorem typedNode_located (expanders : Expanders) (sound : resolver.Locates texts)
    (tracked : Tracked texts env) {parts carried : List Part}
    (placed : Placed texts env parts carried) (type : TypeId) {start : Position}
    (here : ∀ known, AllKnown known parts → known start) {classes : List ClassRef}
    {block : Option PropertyBlock}
    (inside : classes.map Part.classRef ++ blockParts block ⊆ parts) {content : Content}
    (body : Placed texts env content.parts content.carried) :
    (resolver.typedNode expanders env type start classes block content).Ends (fun _ => True)
      (Error.Located texts) := by
  unfold typedNode
  split
  · next expander kind => exact absurd kind (Registry.kind_ne_preExpander tracked.plain type expander)
  · next expander kind => exact absurd kind (Registry.kind_ne_postExpander tracked.plain type expander)
  · next shape _ =>
    exact (listNode_located sound tracked placed type shape here inside body).bind fun _ _ => trivial
  · next shape _ =>
    refine (mapNode_located sound (tracked.within type) placed type shape inside body).bind ?_
    exact fun _ _ => trivial
  all_goals exact placed.blame here

theorem inclusion_located (sound : resolver.Locates texts) (tracked : Tracked texts env)
    {start : Position} {classes : List ClassRef} {block : Option PropertyBlock}
    {preamble : List PreambleElement}
    (placed : Placed texts env (Node.parts (.inclusion start classes block preamble))
      (Node.carried (.inclusion start classes block preamble))) :
    (resolver.inclusion env start classes block preamble).Ends (fun _ => True)
      (Error.Located texts) := by
  have here : ∀ known, AllKnown known (Node.parts (.inclusion start classes block preamble)) →
      known start := fun known all => all (.node start) List.mem_cons_self start List.mem_cons_self
  unfold inclusion
  refine (nodeProperties_located placed _ ?_).bind fun properties _ => ?_
  · exact fun part member => List.mem_append_left _ (List.mem_cons_of_mem _ member)
  dsimp only
  split
  · exact placed.blame here
  · refine (Run.Ends.ofExcept (tracked.readFile_ends _ start)).bind fun text named => ?_
    split
    · trivial
    · next content parsed =>
      have entered : Ends (env.enterInclude text.path start) (· = env.entered text.path)
          (Error.Located texts) :=
        placed.located fun known all => env.enterInclude_ends text.path (here known all)
      refine (Run.Ends.ofExcept entered).bind fun inside led => ?_
      subst led
      have tree : TreeAt texts (env.entered text.path).path content := ⟨text.content, named, parsed⟩
      -- Only what the preamble of the include takes along is placed in the included file.
      have ahead : Placed texts (env.entered text.path) (preambleParts preamble)
          (preambleCarried preamble) :=
        (placed.enter text.path).subset (fun _ member => member) (preambleCarried_subset preamble)
      have bound := (tracked.enter text.path).applyPreamble_ends ahead
      refine (Run.Ends.ofExcept bound).bind fun included known => ?_
      exact block_located sound known.2 ((Placed.tree tree).beside known.1) false

/-- One level of nesting keeps errors located. -/
theorem element_located (expanders : Expanders) (sound : resolver.Locates texts) :
    (resolver.element expanders).Locates texts := by
  intro env element tracked placed
  match element, placed with
  | .plain run, _ => trivial
  | .escaped text, _ => trivial
  | .node (.text start keyword classes block elements), placed =>
    refine (nodeProperties_located placed _ fun part member => ?_).bind fun _ _ => trivial
    rcases List.mem_append.1 member with member | member
    · exact List.mem_append_left _ (List.mem_append_left _ (List.mem_append_right _ member))
    · exact List.mem_append_left _ (List.mem_append_right _ member)
  | .node (.inclusion start classes block preamble), placed =>
    exact inclusion_located sound tracked placed
  | .node (.read start classes block), placed =>
    refine (nodeProperties_located placed _ ?_).bind fun properties _ => ?_
    · exact fun part member => List.mem_cons_of_mem _ member
    · exact (Run.Ends.ofExcept (tracked.readFile_ends _ start)).bind fun _ _ => trivial
  | .node (.block start content), placed =>
    refine block_located sound tracked (placed.subset ?_ ?_) false
    · exact fun part member => List.mem_cons_of_mem _ member
    · exact fun part member => member
  | .node (.content start name preamble), placed =>
    simp only [Resolver.element, Resolver.node]
    split
    · exact placed.blame fun known all =>
        all (.name name) (List.mem_cons_of_mem _ List.mem_cons_self) _ List.mem_cons_self
    · next content found =>
      have ahead : Placed texts env (preambleParts preamble) (preambleCarried preamble) :=
        placed.subset (fun part member => List.mem_cons_of_mem _ (List.mem_cons_of_mem _ member))
          fun part member => member
      refine (Run.Ends.ofExcept (tracked.applyPreamble_ends ahead)).bind fun inner known => ?_
      exact block_located sound known.2 ((tracked.content_placed found).beside known.1) false
  | .node (.value start name), placed =>
    simp only [Resolver.element, Resolver.node]
    split
    · trivial
    · exact placed.blame fun known all =>
        all (.name name) (List.mem_cons_of_mem _ List.mem_cons_self) _ List.mem_cons_self
  | .node (.typed start path classes block content), placed =>
    have route : Ends (env.resolvePath path) (fun _ => True) (Error.Located texts) :=
      placed.located fun known all => env.resolvePath_ends
        (all _ (List.mem_append_left _ (List.mem_append_left _
          (List.mem_cons_of_mem _ List.mem_cons_self))))
    refine (Run.Ends.ofExcept route).bind fun type _ => ?_
    refine typedNode_located expanders sound tracked placed type ?_ (fun part member => ?_) ?_
    · exact fun known all => all (.node start) (List.mem_append_left _ (List.mem_append_left _
        List.mem_cons_self)) start List.mem_cons_self
    · rcases List.mem_append.1 member with member | member
      · exact List.mem_append_left _ (List.mem_append_left _
          (List.mem_cons_of_mem _ (List.mem_cons_of_mem _ member)))
      · exact List.mem_append_left _ (List.mem_append_right _ member)
    · exact placed.subset (List.subset_append_right _ _) fun part member => member

theorem ofDepth_located (expanders : Expanders) (depth : Nat) :
    (ofDepth expanders depth).Locates texts := by
  induction depth with
  | zero => exact fun _ _ _ _ => trivial
  | succ depth ih => exact element_located expanders ih

end Resolver

/-! ### Documents -/

/-- The texts of a table of files and of a document at a path. -/
def textsWith (table : FileTable) (path source : String) : String → Option String := fun other =>
  if other = path then some source else table.files.get? other

/-- The environment of a document over a table of files is tracked. -/
theorem tracked_of_table {table : FileTable} {source : String} (reader : env.reader = table.read)
    (unbound : env.contents = []) (without : env.registry.withoutExpanders = true)
    (same : ∀ text, table.files.get? env.path = some text → text = source) :
    Tracked (textsWith table env.path source) env := by
  refine ⟨fun current path text found => ?_, without, fun binding member => ?_⟩
  · rw [reader] at found
    unfold FileTable.read at found
    dsimp only at found
    split at found
    · next content there =>
      cases found
      unfold textsWith
      dsimp only
      split
      · next hit => rw [same content (hit ▸ there)]
      · exact there
    · cases found
  · rw [unbound] at member
    cases member

/-- **Semantic errors are located.** They blame places of the file that they name, or places inside
markup that has left one of the including files. -/
theorem resolveWithin_located {table : FileTable} {source : String} {content : Content}
    {expanders : Expanders} {depth : Nat} {implied : Bool} {failure : SemanticError}
    (parsed : Content.parse source = .ok content) (reader : env.reader = table.read)
    (unbound : env.contents = []) (without : env.registry.withoutExpanders = true)
    (same : ∀ text, table.files.get? env.path = some text → text = source)
    (failed : (resolveWithin depth expanders env content implied).outcome =
      .error (.error (.semantic failure))) :
    failure.AtHome (textsWith table env.path source) ∨
      failure.Strayed (textsWith table env.path source) := by
  have named : TreeAt (textsWith table env.path source) env.path content :=
    ⟨source, if_pos rfl, parsed⟩
  have tracked := tracked_of_table reader unbound without same
  have sound : (Resolver.ofDepth expanders depth).Locates (textsWith table env.path source) :=
    Resolver.ofDepth_located expanders depth
  exact (Resolver.block_located sound tracked (Placed.tree named) implied).of_error failed

/-- The places that a run blames, the file that it names, and the includes that lead there. -/
def Run.blamed? (run : Run (List Line)) : Option (List Position × String × List IncludeFrame) :=
  match run.outcome with
  | .error (.error (.semantic failure)) =>
    some (failure.positions, failure.environment.path, failure.environment.includes)
  | _ => none

theorem Run.of_blamed {run : Run (List Line)} {positions : List Position} {path : String}
    {includes : List IncludeFrame} (blamed : run.blamed? = some (positions, path, includes)) :
    ∃ failure : SemanticError, run.outcome = .error (.error (.semantic failure)) ∧
      failure.positions = positions ∧ failure.environment.path = path ∧
      failure.environment.includes = includes := by
  unfold Run.blamed? at blamed
  split at blamed
  · next failure same =>
    cases blamed
    exact ⟨failure, same, rfl, rfl, rfl⟩
  · cases blamed

/-- **When a semantic error is right about the file.** Either all places that it blames are places of
the file that it names, or all of them stand in an include's preamble or in a bound content of an
including file. It is right about the file exactly if those of the second kind are places of the
file that it names as well. -/
theorem semantic_error_atHome_iff {table : FileTable} {source : String} {content : Content}
    {expanders : Expanders} {depth : Nat} {implied : Bool} {failure : SemanticError}
    (parsed : Content.parse source = .ok content) (reader : env.reader = table.read)
    (unbound : env.contents = []) (without : env.registry.withoutExpanders = true)
    (same : ∀ text, table.files.get? env.path = some text → text = source)
    (failed : (resolveWithin depth expanders env content implied).outcome =
      .error (.error (.semantic failure))) :
    (failure.AtHome (textsWith table env.path source) ∨
      failure.Strayed (textsWith table env.path source)) ∧
    (failure.AtHome (textsWith table env.path source) ↔
      ∀ position ∈ failure.positions, failure.Carries (textsWith table env.path source) position →
        failure.Records (textsWith table env.path source) position) := by
  have located := resolveWithin_located parsed reader unbound without same failed
  refine ⟨located, fun home position member _ => home position member, ?_⟩
  intro recorded position member
  rcases located with home | strayed
  · exact home position member
  · exact recorded position member (strayed position member)

/-- A document that includes a file which uses a name that nothing binds. The file is named, and the
place of the name is one of its places. -/
theorem semantic_error_atHome_iff_included :
    let table := FileTable.ofList [("/b.gob", "[val x]")]
    let source := "[include {=b.gob}]"
    ∃ content failure, Content.parse source = .ok content ∧
      (resolveWithin 2 Expansion.stock (.ofFile table.read "/main.gob" Registry.empty) content
        true).outcome = .error (.error (.semantic failure)) ∧
      failure.environment.includes = [⟨"/main.gob", 1⟩] ∧ failure.positions = [⟨1, 6, 5⟩] ∧
      failure.AtHome (textsWith table "/main.gob" source) := by
  intro table source
  let env : Environment := .ofFile table.read "/main.gob" Registry.empty
  obtain ⟨content, parsed, inside, blamed⟩ : ∃ content, Content.parse source = .ok content ∧
      content.carriedPositions = [] ∧
      (resolveWithin 2 Expansion.stock env content true).blamed? =
        some ([⟨1, 6, 5⟩], "/b.gob", [⟨"/main.gob", 1⟩]) := by
    have read : (Content.parse source).toOption.map (fun content => (content.carriedPositions,
        (resolveWithin 2 Expansion.stock env content true).blamed?)) =
        some ([], some ([⟨1, 6, 5⟩], "/b.gob", [⟨"/main.gob", 1⟩])) := by
      decide +kernel
    cases parsed : Content.parse source with
    | error error =>
      rw [parsed] at read
      cases read
    | ok content =>
      rw [parsed] at read
      obtain ⟨inside, blamed⟩ := Prod.mk.inj (Option.some.inj read)
      exact ⟨content, rfl, inside, blamed⟩
  obtain ⟨failure, failed, positions, _, includes⟩ := Run.of_blamed blamed
  have absent : ∀ text, table.files.get? "/main.gob" = some text → text = source := by
    intro text found
    have none : table.files.get? "/main.gob" = .none := by decide +kernel
    rw [none] at found
    cases found
  have reader : env.reader = table.read := rfl
  have right := semantic_error_atHome_iff parsed reader rfl rfl absent failed
  refine ⟨content, failure, parsed, failed, includes, positions, right.2.2 ?_⟩
  intro position _ carried
  obtain ⟨frame, through, tree, ⟨text, there, reads⟩, within⟩ := carried
  rw [includes, List.mem_singleton] at through
  subst through
  obtain rfl : source = text := Option.some.inj there
  rw [parsed] at reads
  cases reads
  rw [inside] at within
  cases within

/-! ### Strays -/

/-- The preamble of an include is blamed in the included file, even if that one is empty. -/
theorem include_preamble_strays : ∃ failure : SemanticError,
    (resolveSource Expansion.stock
      (.ofFile (FileTable.ofList [("/b.gob", "")]).read "/main.gob" Registry.empty)
      "[include {=b.gob} <val x <val y>>]").outcome = .error (.error (.semantic failure)) ∧
    ¬ failure.AtHome (textsWith (FileTable.ofList [("/b.gob", "")]) "/main.gob"
      "[include {=b.gob} <val x <val y>>]") := by
  have blamed : (resolveSource Expansion.stock
      (.ofFile (FileTable.ofList [("/b.gob", "")]).read "/main.gob" Registry.empty)
      "[include {=b.gob} <val x <val y>>]").blamed? =
        some ([⟨1, 31, 30⟩], "/b.gob", [⟨"/main.gob", 1⟩]) := by
    decide +kernel
  obtain ⟨failure, failed, positions, path, _⟩ := Run.of_blamed blamed
  refine ⟨failure, failed, fun home => ?_⟩
  obtain ⟨tree, ⟨text, found, parsed⟩, inside⟩ := home ⟨1, 31, 30⟩ (positions ▸ List.mem_cons_self)
  rw [path] at found
  have empty : text = "" := by
    have there : textsWith (FileTable.ofList [("/b.gob", "")]) "/main.gob"
        "[include {=b.gob} <val x <val y>>]" "/b.gob" = some "" := by decide +kernel
    rw [there] at found
    exact (Option.some.inj found).symm
  have nothing : Content.parse "" = .ok ⟨[], []⟩ := by
    with_unfolding_all rfl
  rw [empty, nothing] at parsed
  cases parsed
  cases inside

end TypedMarkup
