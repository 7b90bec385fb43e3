/-
**Tables.** Finite maps from texts, kept as lists of entries in strictly increasing order of their
keys, so that two tables with the same entries are equal.

* `get?_insert` says what a table holds after an insertion.
* `get?_insertAll`: of several insertions the last one for a key counts; `get?_overlay` says so of
  whole tables.
* `ext_get?`: a table is determined by what it holds; `mem_entries_iff` and `mem_keys_iff` say so of
  its entries and its keys.
-/

namespace TypedMarkup

/-- A finite map from texts. -/
structure Table (α : Type) where
  /-- The entries in increasing order of their keys. -/
  entries : List (String × α)
  /-- No key occurs twice, and the order is strict. -/
  increasing : entries.Pairwise fun a b => a.1 < b.1

namespace Table

variable {α : Type}

/-! ### Operations -/

/-- The table without entries. -/
def empty : Table α := ⟨[], List.Pairwise.nil⟩

instance : Inhabited (Table α) := ⟨empty⟩

/-- What a table holds for a key. -/
def get? (table : Table α) (key : String) : Option α :=
  table.entries.lookup key

/-- Whether a table has no entries. -/
def isEmpty (table : Table α) : Bool :=
  table.entries.isEmpty

/-- The keys of a table in increasing order. -/
def keys (table : Table α) : List String :=
  table.entries.map Prod.fst

/-- Puts an entry at its place, instead of the one with its key. -/
def insertEntry (key : String) (value : α) : List (String × α) → List (String × α)
  | [] => [(key, value)]
  | entry :: rest =>
    if key < entry.1 then (key, value) :: entry :: rest
    else if entry.1 < key then entry :: insertEntry key value rest
    else (key, value) :: rest

/-- Neither before nor behind each other, two keys are the same. -/
theorem eq_of_not_lt {a b : String} (left : ¬ a < b) (right : ¬ b < a) : a = b :=
  String.le_antisymm (String.not_lt.1 right) (String.not_lt.1 left)

/-- The entries after an insertion are the new one and old ones. -/
theorem mem_insertEntry {key : String} {value : α} {entry : String × α}
    {entries : List (String × α)} (mem : entry ∈ insertEntry key value entries) :
    entry = (key, value) ∨ entry ∈ entries := by
  induction entries with
  | nil => simpa [insertEntry] using mem
  | cons first rest ih =>
    simp only [insertEntry] at mem
    split at mem
    · simpa using mem
    · split at mem
      · rcases List.mem_cons.1 mem with rfl | mem
        · simp
        · rcases ih mem with same | old
          · exact .inl same
          · exact .inr (List.mem_cons_of_mem _ old)
      · rcases List.mem_cons.1 mem with same | old
        · exact .inl same
        · exact .inr (List.mem_cons_of_mem _ old)

/-- An insertion keeps the order. -/
theorem insertEntry_increasing (key : String) (value : α) {entries : List (String × α)}
    (increasing : entries.Pairwise fun a b => a.1 < b.1) :
    (insertEntry key value entries).Pairwise fun a b => a.1 < b.1 := by
  induction entries with
  | nil => simp [insertEntry]
  | cons first rest ih =>
    obtain ⟨before, tail⟩ := List.pairwise_cons.1 increasing
    simp only [insertEntry]
    split
    · next less =>
      refine List.pairwise_cons.2 ⟨fun entry mem => ?_, increasing⟩
      rcases List.mem_cons.1 mem with rfl | mem
      · exact less
      · exact String.lt_trans less (before entry mem)
    · next notLess =>
      split
      · next greater =>
        refine List.pairwise_cons.2 ⟨fun entry mem => ?_, ih tail⟩
        rcases mem_insertEntry mem with rfl | old
        · exact greater
        · exact before entry old
      · next notGreater =>
        refine List.pairwise_cons.2 ⟨fun entry mem => ?_, tail⟩
        have same : key = first.1 := eq_of_not_lt notLess notGreater
        exact same ▸ before entry mem

/-- Sets the entry of a key. -/
def insert (table : Table α) (key : String) (value : α) : Table α :=
  ⟨insertEntry key value table.entries, insertEntry_increasing key value table.increasing⟩

/-- Sets entries one after the other. -/
def insertAll (table : Table α) (entries : List (String × α)) : Table α :=
  entries.foldl (fun table entry => table.insert entry.1 entry.2) table

/-- Lays one table over another. -/
def overlay (lower upper : Table α) : Table α :=
  lower.insertAll upper.entries

/-! ### What a table holds -/

@[simp] theorem get?_empty (key : String) : (empty : Table α).get? key = none := rfl

/-- The first entry counts for its key. -/
theorem lookup_entry (key name : String) (value : α) (rest : List (String × α)) :
    ((name, value) :: rest).lookup key = if key = name then some value else rest.lookup key := by
  rw [List.lookup_cons]
  by_cases same : key = name
  · rw [if_pos same, beq_iff_eq.2 same]
  · rw [if_neg same, beq_false_of_ne same]

/-- What a list of entries holds after an insertion. -/
theorem lookup_insertEntry (key other : String) (value : α) (entries : List (String × α)) :
    (insertEntry key value entries).lookup other =
      if other = key then some value else entries.lookup other := by
  induction entries with
  | nil => simp [insertEntry, lookup_entry]
  | cons first rest ih =>
    obtain ⟨name, old⟩ := first
    simp only [insertEntry]
    split
    · simp only [lookup_entry]
    · next notLess =>
      split
      · next greater =>
        simp only [lookup_entry, ih]
        by_cases same : other = name
        · subst same
          have : other ≠ key := by rintro rfl; exact String.lt_irrefl _ greater
          simp [this]
        · simp [same]
      · next notGreater =>
        obtain rfl : key = name := eq_of_not_lt notLess notGreater
        by_cases hit : other = key <;> simp [lookup_entry, hit]

/-- A table holds the inserted entry and, for other keys, what it held. -/
theorem get?_insert (table : Table α) (key other : String) (value : α) :
    (table.insert key value).get? other = if other = key then some value else table.get? other :=
  lookup_insertEntry key other value table.entries

/-- After several insertions the last one for a key counts. -/
theorem get?_insertAll (table : Table α) (entries : List (String × α)) (key : String) :
    (table.insertAll entries).get? key = (entries.reverse.lookup key).or (table.get? key) := by
  induction entries generalizing table with
  | nil => simp [insertAll]
  | cons first rest ih =>
    obtain ⟨name, value⟩ := first
    have step : table.insertAll ((name, value) :: rest) =
        (table.insert name value).insertAll rest := rfl
    rw [step, ih, get?_insert, List.reverse_cons, List.lookup_append]
    by_cases same : key = name <;> cases rest.reverse.lookup key <;> simp [lookup_entry, same]

/-- Where no key occurs twice, the last entry for a key is the first one. -/
theorem lookup_reverse {entries : List (String × α)} (distinct : (entries.map Prod.fst).Nodup)
    (key : String) : entries.reverse.lookup key = entries.lookup key := by
  induction entries with
  | nil => rfl
  | cons first rest ih =>
    obtain ⟨name, value⟩ := first
    obtain ⟨new, distinct⟩ := List.nodup_cons.1 distinct
    rw [List.reverse_cons, List.lookup_append, ih distinct, lookup_entry, lookup_entry]
    by_cases same : key = name
    · subst same
      have missing : rest.lookup key = none := by
        rw [List.lookup_eq_none_iff]
        intro entry member
        have differs : key ≠ entry.1 := fun same => new (List.mem_map.2 ⟨entry, member, same.symm⟩)
        simpa using differs
      simp [missing]
    · simp [same]

/-- Of two tables laid over each other the upper one counts, and the lower one where it holds
nothing. -/
theorem get?_overlay (lower upper : Table α) (key : String) :
    (lower.overlay upper).get? key = (upper.get? key).or (lower.get? key) := by
  have distinct : (upper.entries.map Prod.fst).Nodup := by
    refine List.pairwise_map.2 (upper.increasing.imp fun less same => ?_)
    exact String.lt_irrefl _ (same ▸ less)
  unfold overlay
  rw [get?_insertAll, lookup_reverse distinct]
  rfl

/-- A key before all keys of a list has no entry in it. -/
theorem lookup_eq_none_of_lt {key : String} {entries : List (String × α)}
    (before : ∀ entry ∈ entries, key < entry.1) : entries.lookup key = none := by
  rw [List.lookup_eq_none_iff]
  intro entry mem
  have less := before entry mem
  have : key ≠ entry.1 := by rintro rfl; exact String.lt_irrefl _ less
  simpa using this

/-- Two increasing lists that hold the same are the same list. -/
theorem entries_ext : ∀ {first second : List (String × α)},
    first.Pairwise (fun a b => a.1 < b.1) → second.Pairwise (fun a b => a.1 < b.1) →
    (∀ key, first.lookup key = second.lookup key) → first = second
  | [], [], _, _, _ => rfl
  | [], (name, _) :: _, _, _, same => by simpa [lookup_entry] using same name
  | (name, _) :: _, [], _, _, same => by simpa [lookup_entry] using same name
  | (a, x) :: left, (b, y) :: right, increasing, increasing', same => by
    obtain ⟨before, tail⟩ := List.pairwise_cons.1 increasing
    obtain ⟨before', tail'⟩ := List.pairwise_cons.1 increasing'
    have keys : a = b := by
      refine eq_of_not_lt (fun less => ?_) (fun less => ?_)
      · have none : ((b, y) :: right).lookup a = none := lookup_eq_none_of_lt fun entry mem => by
          rcases List.mem_cons.1 mem with rfl | mem
          · exact less
          · exact String.lt_trans less (before' entry mem)
        have held := same a
        rw [none, lookup_entry] at held
        simp at held
      · have none : ((a, x) :: left).lookup b = none := lookup_eq_none_of_lt fun entry mem => by
          rcases List.mem_cons.1 mem with rfl | mem
          · exact less
          · exact String.lt_trans less (before entry mem)
        have held := same b
        rw [none, lookup_entry] at held
        simp at held
    subst keys
    have values : x = y := by simpa [lookup_entry] using same a
    subst values
    have rests : left = right := entries_ext tail tail' fun key => by
      by_cases hit : key = a
      · subst hit
        rw [lookup_eq_none_of_lt before, lookup_eq_none_of_lt before']
      · simpa [lookup_entry, hit] using same key
    rw [rests]

/-- A table is determined by what it holds. -/
theorem ext_get? {first second : Table α} (same : ∀ key, first.get? key = second.get? key) :
    first = second := by
  obtain ⟨entries, increasing⟩ := first
  obtain ⟨entries', increasing'⟩ := second
  obtain rfl : entries = entries' := entries_ext increasing increasing' same
  rfl

/-- The entries of a table are what it holds. -/
theorem mem_entries_iff {table : Table α} {key : String} {value : α} :
    (key, value) ∈ table.entries ↔ table.get? key = some value := by
  unfold get?
  rw [List.lookup_eq_some_iff]
  constructor
  · intro member
    obtain ⟨before, after, split⟩ := List.append_of_mem member
    refine ⟨before, after, split, fun entry earlier => ?_⟩
    have increasing := split ▸ table.increasing
    have less := (List.pairwise_append.1 increasing).2.2 entry earlier _ List.mem_cons_self
    have differs : key ≠ entry.1 := fun same => String.lt_irrefl _ (same ▸ less)
    exact bne_iff_ne.2 differs
  · rintro ⟨before, after, split, _⟩
    rw [split]
    exact List.mem_append_right _ List.mem_cons_self

/-- The keys of a table are those for which it holds something. -/
theorem mem_keys_iff {table : Table α} {key : String} :
    key ∈ table.keys ↔ (table.get? key).isSome = true := by
  unfold keys
  rw [List.mem_map, Option.isSome_iff_exists]
  constructor
  · rintro ⟨⟨_, value⟩, member, rfl⟩
    exact ⟨value, mem_entries_iff.1 member⟩
  · rintro ⟨value, held⟩
    exact ⟨(key, value), mem_entries_iff.2 held, rfl⟩

theorem keys_increasing (table : Table α) : table.keys.Pairwise (· < ·) :=
  List.pairwise_map.2 table.increasing

end Table

/-- Properties of a node: texts by name. -/
abbrev Properties := Table String

end TypedMarkup
