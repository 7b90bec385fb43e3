/-
**Splitting texts.** Texts cut at every occurrence of one character, and put together again.

* `splitOn` gives one part more than there are separators (`length_splitOn`), which are in none of
  them (`notMem_of_mem_splitOn`), and `joinWith_splitOn` says that joining the parts gives the text
  back.
* `splitOn_joinWith`: splitting gives back the parts of a joined text, if no separator is in them.
-/

namespace TypedMarkup.Text

/-- The parts of a text between its separators. -/
def splitOn (separator : Char) : List Char → List (List Char)
  | [] => [[]]
  | c :: rest =>
    if c = separator then [] :: splitOn separator rest
    else
      match splitOn separator rest with
      | [] => [[c]]
      | part :: more => (c :: part) :: more

/-- Parts with a separator between each two of them. -/
def joinWith (separator : Char) : List (List Char) → List Char
  | [] => []
  | [part] => part
  | part :: more => part ++ separator :: joinWith separator more

/-- There is always a part. -/
theorem splitOn_ne_nil (separator : Char) (text : List Char) : splitOn separator text ≠ [] := by
  cases text with
  | nil => simp [splitOn]
  | cons c rest =>
    simp only [splitOn]
    split
    · simp
    · split <;> simp

/-- Joining the parts of a text gives the text. -/
theorem joinWith_splitOn (separator : Char) (text : List Char) :
    joinWith separator (splitOn separator text) = text := by
  induction text with
  | nil => simp [splitOn, joinWith]
  | cons c rest ih =>
    simp only [splitOn]
    split
    · next same =>
      cases parts : splitOn separator rest with
      | nil => exact absurd parts (splitOn_ne_nil separator rest)
      | cons part more => simp [joinWith, ← parts, ih, same]
    · cases parts : splitOn separator rest with
      | nil => exact absurd parts (splitOn_ne_nil separator rest)
      | cons part more =>
        rw [parts] at ih
        cases more with
        | nil => simpa [joinWith] using ih
        | cons next others => simpa [joinWith] using ih

theorem splitOn_separator (separator : Char) (text : List Char) :
    splitOn separator (separator :: text) = [] :: splitOn separator text :=
  if_pos rfl

/-- Another character belongs to the first part. -/
theorem splitOn_cons_of_ne {separator c : Char} (other : c ≠ separator) (text : List Char) :
    ∃ part more, splitOn separator text = part :: more ∧
      splitOn separator (c :: text) = (c :: part) :: more := by
  obtain ⟨part, more, parts⟩ := List.exists_cons_of_ne_nil (splitOn_ne_nil separator text)
  exact ⟨part, more, parts, by simp [splitOn, other, parts]⟩

/-- There is one part more than there are separators. -/
theorem length_splitOn (separator : Char) (text : List Char) :
    (splitOn separator text).length = text.count separator + 1 := by
  induction text with
  | nil => rfl
  | cons c text ih =>
    by_cases same : c = separator
    · subst same
      rw [splitOn_separator, List.length_cons, ih, List.count_cons_self]
    · obtain ⟨part, more, parts, split⟩ := splitOn_cons_of_ne same text
      rw [split, List.count_cons_of_ne same, ← ih, parts, List.length_cons, List.length_cons]

/-- No separator is in a part. -/
theorem notMem_of_mem_splitOn {separator : Char} {text : List Char} :
    ∀ part ∈ splitOn separator text, separator ∉ part := by
  induction text with
  | nil => simp [splitOn]
  | cons c text ih =>
    by_cases same : c = separator
    · subst same
      rw [splitOn_separator]
      exact List.forall_mem_cons.2 ⟨List.not_mem_nil, ih⟩
    · obtain ⟨part, more, parts, split⟩ := splitOn_cons_of_ne same text
      rw [parts] at ih
      obtain ⟨first, others⟩ := List.forall_mem_cons.1 ih
      rw [split]
      exact List.forall_mem_cons.2 ⟨List.not_mem_cons_of_ne_of_not_mem (Ne.symm same) first, others⟩

/-- A text without separators is its only part. -/
theorem splitOn_of_notMem {separator : Char} {text : List Char} (free : separator ∉ text) :
    splitOn separator text = [text] := by
  induction text with
  | nil => rfl
  | cons c text ih =>
    obtain ⟨differs, free⟩ := List.ne_and_not_mem_of_not_mem_cons free
    rw [splitOn, if_neg (Ne.symm differs), ih free]

/-- The first part ends at the first separator. -/
theorem splitOn_append_cons {separator : Char} {part : List Char} (free : separator ∉ part)
    (rest : List Char) :
    splitOn separator (part ++ separator :: rest) = part :: splitOn separator rest := by
  induction part with
  | nil => exact splitOn_separator separator rest
  | cons c part ih =>
    obtain ⟨differs, free⟩ := List.ne_and_not_mem_of_not_mem_cons free
    rw [List.cons_append, splitOn, if_neg (Ne.symm differs), ih free]

/-- Splitting joined parts gives the parts. -/
theorem splitOn_joinWith {separator : Char} {parts : List (List Char)} (some : parts ≠ [])
    (free : ∀ part ∈ parts, separator ∉ part) :
    splitOn separator (joinWith separator parts) = parts := by
  induction parts with
  | nil => exact absurd rfl some
  | cons part more ih =>
    obtain ⟨first, others⟩ := List.forall_mem_cons.1 free
    cases more with
    | nil => exact splitOn_of_notMem first
    | cons next rest =>
      have step : joinWith separator (part :: next :: rest) =
          part ++ separator :: joinWith separator (next :: rest) := rfl
      rw [step, splitOn_append_cons first, ih (List.cons_ne_nil next rest) others]

end TypedMarkup.Text
