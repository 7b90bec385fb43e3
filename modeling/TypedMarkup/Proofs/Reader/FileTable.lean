/-
**File tables are consistent.** Every path has one absolute form, files are put and found under it,
and what was read is found again by the path that it carries.

* `IsAbsolute` is the form: a slash, and segments with slashes between them, of which none is empty,
  `.` or `..`. `normalize_isAbsolute` and `normalize_of_isAbsolute` say that normalizing gives this
  form, and leaves alone what has it.
* `FileTable.resolve_isAbsolute`, `FileTable.resolve_of_isAbsolute`: so does resolving, whatever the
  file that asks.
* `FileTable.get?_ofList_eq_some_iff`: at each absolute path there is the last file put there.
* `FileTable.read_consistent` puts these together.

Normalizing goes through the segments with those that count so far. The invariant is that these are
segments of an absolute path (`stepInto_isSegment`); where all segments are such, every one is kept
(`foldl_stepInto_eq`).
-/

import TypedMarkup.Reader.FileTable

namespace TypedMarkup

/-! ### Absolute paths -/

/-- A segment of an absolute path. -/
structure IsSegment (segment : List Char) : Prop where
  nonempty : segment ≠ []
  notHere : segment ≠ ['.']
  notUp : segment ≠ ['.', '.']
  noSlash : '/' ∉ segment

/-- The form of an absolute path. -/
def IsAbsolute (path : String) : Prop :=
  ∃ segments, path = pathOf segments ∧ ∀ segment ∈ segments, IsSegment segment

section Normalizing

variable {segments : List (List Char)} {segment : List Char} {path : String}

/-- A step keeps segments of an absolute path. -/
theorem stepInto_isSegment (kept : ∀ earlier ∈ segments, IsSegment earlier)
    (noSlash : '/' ∉ segment) : ∀ next ∈ stepInto segments segment, IsSegment next := by
  unfold stepInto
  split
  · exact kept
  · next counts =>
    obtain ⟨nonempty, notHere⟩ := not_or.1 counts
    split
    · exact fun next member => kept next (List.mem_of_mem_tail member)
    · next notUp => exact List.forall_mem_cons.2 ⟨⟨nonempty, notHere, notUp, noSlash⟩, kept⟩

/-- The segments of a path that count are those of an absolute path. -/
theorem segmentsOf_isSegment (path : List Char) :
    ∀ segment ∈ segmentsOf path, IsSegment segment := by
  have kept : ∀ segment ∈ (Text.splitOn '/' path).foldl stepInto [], IsSegment segment :=
    List.foldlRecOn (motive := fun segments => ∀ segment ∈ segments, IsSegment segment) _ stepInto
      (List.forall_mem_nil _) fun _ kept part member =>
        stepInto_isSegment kept (Text.notMem_of_mem_splitOn part member)
  exact fun segment member => kept segment (List.mem_reverse.1 member)

/-- Segments of an absolute path all count. -/
theorem foldl_stepInto_eq (all : ∀ segment ∈ segments, IsSegment segment)
    (start : List (List Char)) : segments.foldl stepInto start = segments.reverse ++ start := by
  induction segments generalizing start with
  | nil => rfl
  | cons segment rest ih =>
    obtain ⟨here, behind⟩ := List.forall_mem_cons.1 all
    have step : stepInto start segment = segment :: start := by
      unfold stepInto
      rw [if_neg (not_or.2 ⟨here.nonempty, here.notHere⟩), if_neg here.notUp]
    rw [List.foldl_cons, step, ih behind, List.reverse_cons, List.append_assoc]
    rfl

theorem toList_pathOf (segments : List (List Char)) :
    (pathOf segments).toList = '/' :: Text.joinWith '/' segments :=
  String.toList_ofList

/-- An absolute path has its own segments. -/
theorem segmentsOf_pathOf (all : ∀ segment ∈ segments, IsSegment segment) :
    segmentsOf (pathOf segments).toList = segments := by
  unfold segmentsOf
  rw [toList_pathOf, Text.splitOn_separator]
  cases segments with
  | nil => rfl
  | cons first rest =>
    rw [Text.splitOn_joinWith (List.cons_ne_nil first rest) fun part member =>
      (all part member).noSlash]
    have step : stepInto [] [] = [] := rfl
    rw [List.foldl_cons, step, foldl_stepInto_eq all, List.append_nil, List.reverse_reverse]

theorem normalize_isAbsolute (path : List Char) : IsAbsolute (normalize path) :=
  ⟨segmentsOf path, rfl, segmentsOf_isSegment path⟩

theorem normalize_of_isAbsolute (absolute : IsAbsolute path) : normalize path.toList = path := by
  obtain ⟨segments, rfl, all⟩ := absolute
  unfold normalize
  rw [segmentsOf_pathOf all]

end Normalizing

namespace FileTable

variable {files : List (String × String)} {path : String}

/-! ### Resolving -/

theorem resolve_isAbsolute (current path : String) : IsAbsolute (resolve current path) := by
  unfold resolve
  split <;> exact normalize_isAbsolute _

/-- The empty path is the file itself. -/
theorem resolve_empty (current : String) : resolve current "" = normalize current.toList :=
  rfl

/-- An absolute path does not depend on the file that asks. -/
theorem resolve_of_isAbsolute (absolute : IsAbsolute path) (current : String) :
    resolve current path = path := by
  have same := normalize_of_isAbsolute absolute
  obtain ⟨segments, rfl, _⟩ := absolute
  rw [toList_pathOf] at same
  unfold resolve
  rw [toList_pathOf]
  exact same

/-! ### Files -/

/-- Of some files, the last one at an absolute path has a content. -/
def LastAt (files : List (String × String)) (absolute content : String) : Prop :=
  ∃ before spelt after, files = before ++ (spelt, content) :: after ∧
    normalize spelt.toList = absolute ∧ ∀ later ∈ after, normalize later.1.toList ≠ absolute

/-- A file is found from the end. -/
theorem get?_ofList (files : List (String × String)) (absolute : String) :
    (ofList files).files.get? absolute =
      (files.reverse.find? fun file => normalize file.1.toList == absolute).map Prod.snd := by
  unfold ofList
  rw [← List.foldr_reverse]
  induction files.reverse with
  | nil => rfl
  | cons file rest ih =>
    rw [List.foldr_cons, get?_insert, ih, List.find?_cons]
    by_cases here : normalize file.1.toList = absolute
    · rw [if_pos here.symm, beq_iff_eq.2 here]
      rfl
    · rw [if_neg (Ne.symm here), beq_false_of_ne here]

/-- At an absolute path there is the last file put there. -/
theorem get?_ofList_eq_some_iff {absolute content : String} :
    (ofList files).files.get? absolute = some content ↔ LastAt files absolute content := by
  rw [get?_ofList, Option.map_eq_some_iff]
  constructor
  · rintro ⟨⟨spelt, _⟩, found, rfl⟩
    obtain ⟨here, after, before, split, others⟩ := List.find?_eq_some_iff_append.1 found
    refine ⟨before.reverse, spelt, after.reverse, ?_, beq_iff_eq.1 here, fun later member => ?_⟩
    · simpa using List.reverse_eq_append_iff.1 split
    · simpa using others later (List.mem_reverse.1 member)
  · rintro ⟨before, spelt, after, rfl, here, others⟩
    refine ⟨(spelt, content), List.find?_eq_some_iff_append.2 ⟨beq_iff_eq.2 here, after.reverse,
      before.reverse, by simp, fun later member => ?_⟩, rfl⟩
    simpa using others later (List.mem_reverse.1 member)

/-- At an absolute path there is a file if one was put there. -/
theorem get?_ofList_eq_none_iff {absolute : String} :
    (ofList files).files.get? absolute = none ↔
      ∀ file ∈ files, normalize file.1.toList ≠ absolute := by
  rw [get?_ofList, Option.map_eq_none_iff, List.find?_eq_none]
  simp only [List.mem_reverse, beq_iff_eq, ne_eq]

/-! ### Reading -/

/-- A table gives the file that it has at the resolved path. -/
theorem read_eq_ok_iff {table : FileTable} {current : String} {text : FileText} :
    table.read current path = .ok text ↔
      text.path = resolve current path ∧
        table.files.get? (resolve current path) = some text.content := by
  obtain ⟨absolute, content⟩ := text
  unfold read
  dsimp only
  cases table.files.get? (resolve current path) with
  | none => simp
  | some found => simp [eq_comm]

/-- It names the resolved path if it has none. -/
theorem read_eq_error_iff {table : FileTable} {current : String} {error : ReadError} :
    table.read current path = .error error ↔
      error = ⟨resolve current path, "no such file"⟩ ∧
        table.files.get? (resolve current path) = none := by
  unfold read
  dsimp only
  cases table.files.get? (resolve current path) with
  | none => simp [eq_comm]
  | some found => simp

/-- What is read depends on the resolved path alone. -/
theorem read_congr {current asker asked : String}
    (same : resolve asker asked = resolve current path) (table : FileTable) :
    table.read asker asked = table.read current path := by
  unfold read
  rw [same]

/-- **A table is consistent.** Resolving a path gives an absolute path, which normalizing leaves
alone; one that has this form resolves to itself. Reading has a result just if a file was put at the
resolved path, under whatever spelling, and it is then the last such file, under the resolved path;
otherwise the error names the resolved path. The path that a result carries leads to it again, as
the file that asks and as the path that any file asks for. -/
theorem read_consistent (files : List (String × String)) (current path : String) :
    (IsAbsolute (resolve current path) ∧
      normalize (resolve current path).toList = resolve current path ∧
      (IsAbsolute path → resolve current path = path)) ∧
    ((∃ text, (ofList files).read current path = .ok text) ↔
      ∃ file ∈ files, normalize file.1.toList = resolve current path) ∧
    (∀ text, (ofList files).read current path = .ok text ↔
      text.path = resolve current path ∧ LastAt files (resolve current path) text.content) ∧
    (∀ error, (ofList files).read current path = .error error ↔
      error = ⟨resolve current path, "no such file"⟩ ∧
        ∀ file ∈ files, normalize file.1.toList ≠ resolve current path) ∧
    ∀ text, (ofList files).read current path = .ok text →
      (ofList files).read text.path "" = .ok text ∧
        ∀ other, (ofList files).read other text.path = .ok text := by
  have form := resolve_isAbsolute current path
  refine ⟨⟨form, normalize_of_isAbsolute form, fun given => resolve_of_isAbsolute given current⟩,
    ?_, fun text => ?_, fun error => ?_, fun text found => ?_⟩
  · constructor
    · rintro ⟨text, found⟩
      obtain ⟨before, spelt, after, rfl, here, _⟩ :=
        get?_ofList_eq_some_iff.1 (read_eq_ok_iff.1 found).2
      exact ⟨(spelt, text.content), List.mem_append_right _ List.mem_cons_self, here⟩
    · rintro ⟨file, member, here⟩
      cases held : (ofList files).files.get? (resolve current path) with
      | none => exact absurd here (get?_ofList_eq_none_iff.1 held file member)
      | some content => exact ⟨⟨_, content⟩, read_eq_ok_iff.2 ⟨rfl, held⟩⟩
  · rw [read_eq_ok_iff, get?_ofList_eq_some_iff]
  · rw [read_eq_error_iff, get?_ofList_eq_none_iff]
  · rw [← found, (read_eq_ok_iff.1 found).1]
    have itself : resolve (resolve current path) "" = resolve current path :=
      (resolve_empty _).trans (normalize_of_isAbsolute form)
    exact ⟨read_congr itself _, fun other => read_congr (resolve_of_isAbsolute form other) _⟩

/-- Two spellings of one path are one file, whose last content counts; it is found from another
folder, and again under its own path. -/
theorem read_consistent_respelt :
    let files := [("/docs/./note", "old"), ("other", "text"), ("docs//sub/../note", "new")]
    let table := ofList files
    table.read "/docs/sub/main" "../../../docs/note" = .ok ⟨"/docs/note", "new"⟩ ∧
      table.read "/docs/note" "" = .ok ⟨"/docs/note", "new"⟩ ∧
      table.read "elsewhere" "/docs/note" = .ok ⟨"/docs/note", "new"⟩ ∧
      table.read "/docs/sub/main" "note" = .error ⟨"/docs/sub/note", "no such file"⟩ := by
  intro files table
  obtain ⟨-, -, gives, -, again⟩ := read_consistent files "/docs/sub/main" "../../../docs/note"
  have found : table.read "/docs/sub/main" "../../../docs/note" = .ok ⟨"/docs/note", "new"⟩ :=
    (gives _).2 ⟨by decide, [("/docs/./note", "old"), ("other", "text")], "docs//sub/../note", [],
      rfl, by decide, List.forall_mem_nil _⟩
  obtain ⟨-, -, -, names, -⟩ := read_consistent files "/docs/sub/main" "note"
  exact ⟨found, (again _ found).1, (again _ found).2 "elsewhere",
    (names _).2 ⟨by decide, by decide⟩⟩

end FileTable

end TypedMarkup
