/-
**Limits from settings texts.** What a settings text says, and that limits can be written down.

* `Settings.readLine?_setting`: a line with a name, a value and maybe a comment sets that name.
* `Settings.count?_toDigits`: a number in decimal digits is read.
* `Limits.exists_ofSettings?_iff`: limits are read if all lines can be and nothing is set twice, and
  `Limits.ofSettings?_says`: they are what the text sets, and the standard ones elsewhere.
  `Limits.ofSettings?_perm`: the order of the lines is of no account.
* `Limits.ofSettings?_written`: limits that are written down are read back.
-/

import TypedMarkup.Limits

namespace TypedMarkup

namespace Settings

variable {name value rest trailer : List Char} {entries : List Entry}

/-! ### Lines -/

/-- A character that stands in a value. -/
def isValueChar (c : Char) : Bool :=
  !isBlank c && c != '#'

/-- The front of a text up to the first character that ends it. -/
theorem span_of_ends {allowed : Char → Bool} {front other : List Char}
    (all : ∀ c ∈ front, allowed c = true) (ends : other.head?.any allowed = false) :
    (front ++ other).takeWhile allowed = front ∧ (front ++ other).dropWhile allowed = other := by
  have stops : other.takeWhile allowed = [] ∧ other.dropWhile allowed = other := by
    cases other with
    | nil => exact ⟨rfl, rfl⟩
    | cons c rest =>
      have ended : ¬ allowed c = true := Bool.not_eq_true _ ▸ ends
      exact ⟨List.takeWhile_cons_of_neg ended, List.dropWhile_cons_of_neg ended⟩
  rw [List.takeWhile_append_of_pos all, List.dropWhile_append_of_pos all, stops.1, stops.2,
    List.append_nil]
  exact ⟨rfl, rfl⟩

/-- What may end a line does not go on with a value. -/
theorem head_of_isTrailer (ends : isTrailer trailer = true) :
    trailer.head?.any isValueChar = false := by
  cases trailer with
  | nil => rfl
  | cons c rest =>
    show (!isBlank c && c != '#') = false
    cases blank : isBlank c with
    | true => rfl
    | false =>
      unfold isTrailer at ends
      rw [List.dropWhile_cons_of_neg (by rw [blank]; exact Bool.false_ne_true)] at ends
      split at ends
      · next none => cases none
      · next same =>
        cases same
        rfl
      · cases ends

theorem isBlank_of_isBareChar {c : Char} (bare : isBareChar c = true) : isBlank c = false := by
  rw [isBlank, Bool.or_eq_false_iff, beq_eq_false_iff_ne, beq_eq_false_iff_ne]
  constructor <;> (rintro rfl; cases bare)

/-- A name without quotes goes up to the first character of another class. -/
theorem name?_bare (bare : ∀ c ∈ name, isBareChar c = true) (named : name ≠ [])
    (ends : rest.head?.any isBareChar = false) : name? (name ++ rest) = some (name, rest) := by
  obtain ⟨first, more, rfl⟩ := List.exists_cons_of_ne_nil named
  have head := bare first List.mem_cons_self
  obtain ⟨taken, dropped⟩ := span_of_ends bare ends
  unfold name?
  split
  · next same =>
    cases same
    cases head
  · next same =>
    cases same
    cases head
  · rw [taken, dropped]
    rfl

/-- A name and a value, with the sign between them and what ends the line. -/
theorem setting?_eq {before after : List Char} (blankBefore : ∀ c ∈ before, isBlank c = true)
    (blankAfter : ∀ c ∈ after, isBlank c = true) (bare : ∀ c ∈ name, isBareChar c = true)
    (named : name ≠ []) (spelt : ∀ c ∈ value, isValueChar c = true) (valued : value ≠ [])
    (ends : isTrailer trailer = true) :
    setting? (name ++ (before ++ '=' :: (after ++ (value ++ trailer)))) = Entry.of? name value := by
  have nameEnds :
      (before ++ '=' :: (after ++ (value ++ trailer))).head?.any isBareChar = false := by
    cases before with
    | nil => rfl
    | cons c rest =>
      have blank := blankBefore c List.mem_cons_self
      rw [List.cons_append, List.head?_cons, Option.any_some]
      by_cases barred : isBareChar c = true
      · rw [isBlank_of_isBareChar barred] at blank
        cases blank
      · exact Bool.eq_false_iff.2 barred
  have valueStarts : (value ++ trailer).head?.any isBlank = false := by
    obtain ⟨c, others, rfl⟩ := List.exists_cons_of_ne_nil valued
    have own := spelt c List.mem_cons_self
    rw [isValueChar, Bool.and_eq_true, Bool.not_eq_true'] at own
    exact own.1
  have sign : (before ++ '=' :: (after ++ (value ++ trailer))).dropWhile isBlank =
      '=' :: (after ++ (value ++ trailer)) := (span_of_ends blankBefore rfl).2
  have behind : (after ++ (value ++ trailer)).dropWhile isBlank = value ++ trailer :=
    (span_of_ends blankAfter valueStarts).2
  obtain ⟨taken, left⟩ := span_of_ends spelt (head_of_isTrailer ends)
  unfold setting?
  rw [name?_bare bare named nameEnds, Option.bind_eq_bind, Option.bind_some]
  dsimp only
  rw [sign]
  show (if isTrailer (((after ++ (value ++ trailer)).dropWhile isBlank).dropWhile isValueChar) then
    Entry.of? name (((after ++ (value ++ trailer)).dropWhile isBlank).takeWhile isValueChar)
    else none) = _
  rw [behind, taken, left, if_pos ends]

/-- **A line that sets a name.** White space may stand around the name and the value, and a comment
behind them. -/
theorem readLine?_setting {indent before after : List Char}
    (blankIndent : ∀ c ∈ indent, isBlank c = true) (blankBefore : ∀ c ∈ before, isBlank c = true)
    (blankAfter : ∀ c ∈ after, isBlank c = true) (bare : ∀ c ∈ name, isBareChar c = true)
    (named : name ≠ []) (spelt : ∀ c ∈ value, isValueChar c = true) (valued : value ≠ [])
    (ends : isTrailer trailer = true) :
    readLine? (indent ++ (name ++ (before ++ '=' :: (after ++ (value ++ trailer))))) =
      (Entry.of? name value).map fun entry => [entry] := by
  have set := setting?_eq blankBefore blankAfter bare named spelt valued ends
  obtain ⟨first, more, rfl⟩ := List.exists_cons_of_ne_nil named
  have head := bare first List.mem_cons_self
  have front : (first :: more ++ (before ++ '=' :: (after ++ (value ++ trailer)))).head?.any
      isBlank = false := isBlank_of_isBareChar head
  obtain ⟨_, inside⟩ := span_of_ends blankIndent front
  have other : first ≠ '#' := by
    rintro rfl
    cases head
  have goesOn : isTrailer (indent ++ (first :: more ++ (before ++ '=' :: (after ++
      (value ++ trailer))))) = false := by
    unfold isTrailer
    rw [inside]
    split
    · next same => cases same
    · next same => exact absurd (List.cons.inj same).1 other
    · rfl
  unfold readLine?
  rw [goesOn, inside, set]
  rfl

/-! ### Numbers -/

/-- One digit more at the end. -/
theorem digitsValue?_append_one (base : Nat) (digits : List Char) (digit : Char) :
    digitsValue? base (digits ++ [digit]) = (digitsValue? base digits).bind fun value =>
      (hexValue? digit).bind fun next =>
        if next < base then some (value * base + next) else none := by
  unfold digitsValue?
  rw [List.foldlM_append]
  simp only [List.foldlM_cons, List.foldlM_nil, bind_pure]
  rfl

theorem hexValue?_digitChar {digit : Nat} (small : digit < 10) :
    hexValue? digit.digitChar = some digit := by
  revert digit
  decide

/-- The digits of a number have its value. -/
theorem digitsValue?_toDigits (n : Nat) : digitsValue? 10 (Nat.toDigits 10 n) = some n := by
  induction n using Nat.strongRecOn with
  | ind n ih =>
    rcases Nat.lt_or_ge n 10 with small | large
    · rw [Nat.toDigits_of_lt_base small]
      show digitsValue? 10 ([] ++ [n.digitChar]) = some n
      rw [digitsValue?_append_one, hexValue?_digitChar small]
      show (if n < 10 then some (0 * 10 + n) else none) = some n
      rw [if_pos small, Nat.zero_mul, Nat.zero_add]
    · have digit : n % 10 < 10 := Nat.mod_lt n (by decide)
      rw [Nat.toDigits_of_base_le (by decide) large, digitsValue?_append_one,
        ih (n / 10) (Nat.div_lt_self (by omega) (by decide)), hexValue?_digitChar digit]
      show (if n % 10 < 10 then some (n / 10 * 10 + n % 10) else none) = some n
      rw [if_pos digit, Nat.div_add_mod']

/-- The digits of a number that is not zero do not start with zero. -/
theorem head_toDigits {n : Nat} (positive : 0 < n) : (Nat.toDigits 10 n).head? ≠ some '0' := by
  induction n using Nat.strongRecOn with
  | ind n ih =>
    rcases Nat.lt_or_ge n 10 with small | large
    · rw [Nat.toDigits_of_lt_base small, List.head?_cons]
      intro zero
      have none := Nat.digitChar_eq_zero.1 (Option.some.inj zero)
      omega
    · have shorter := ih (n / 10) (Nat.div_lt_self positive (by decide))
        (Nat.div_pos large (by decide))
      obtain ⟨c, rest, digits⟩ := List.exists_cons_of_ne_nil
        (Nat.toDigits_ne_nil : Nat.toDigits 10 (n / 10) ≠ [])
      rw [Nat.toDigits_of_base_le (by decide) large, digits]
      rwa [digits] at shorter

theorem isDigit_of_mem {n : Nat} {c : Char} (member : c ∈ Nat.toDigits 10 n) : c.isDigit = true :=
  Nat.isDigit_of_mem_toDigits (by decide) (by decide) member

theorem decimal?_toDigits (n : Nat) : decimal? (Nat.toDigits 10 n) = some n := by
  have together : spacedDigits? 10 (Nat.toDigits 10 n) = some n := by
    have free : '_' ∉ Nat.toDigits 10 n := by
      intro member
      cases isDigit_of_mem member
    have some : (Nat.toDigits 10 n).isEmpty = false := by
      rw [List.isEmpty_eq_false_iff]
      exact Nat.toDigits_ne_nil
    unfold spacedDigits?
    rw [Text.splitOn_of_notMem free]
    show (if [Nat.toDigits 10 n].any List.isEmpty then none
      else digitsValue? 10 [Nat.toDigits 10 n].flatten) = _
    rw [List.any_cons, some, List.flatten_singleton, digitsValue?_toDigits]
    rfl
  rcases Nat.eq_zero_or_pos n with rfl | positive
  · rfl
  · have head := head_toDigits positive
    unfold decimal?
    split
    · next same => exact absurd (by rw [same]; rfl) head
    · next same => exact absurd (by rw [same]; rfl) head
    · exact together

/-- A number that is written in decimal digits is read. -/
theorem count?_toDigits {n : Nat} (bounded : n ≤ largest) :
    count? (Nat.toDigits 10 n) = some n := by
  have zero : ∀ {c : Char} {rest : List Char}, Nat.toDigits 10 n ≠ '0' :: c :: rest := by
    intro c rest same
    rcases Nat.eq_zero_or_pos n with rfl | positive
    · cases same
    · exact head_toDigits positive (by rw [same]; rfl)
  have unsigned : ∀ {c : Char} {rest : List Char}, c.isDigit = false →
      Nat.toDigits 10 n ≠ c :: rest := by
    intro c rest other same
    rw [isDigit_of_mem (same ▸ List.mem_cons_self)] at other
    cases other
  unfold count?
  split
  · next same => exact absurd same zero
  · next same => exact absurd same zero
  · next same => exact absurd same zero
  · next same => exact absurd same (unsigned rfl)
  · next same => exact absurd same (unsigned rfl)
  · rw [decimal?_toDigits]
    exact if_pos bounded

/-! ### Texts -/

/-- A text sets something on one of its lines. -/
def Says (text : String) (entry : Entry) : Prop :=
  ∃ line ∈ linesOf text, readLine? line = some [entry]

/-- Lines are read if each of them is. -/
theorem mapM_eq_some_iff {α β : Type} {f : α → Option β} {items : List α} {results : List β} :
    items.mapM f = some results ↔
      (∀ item ∈ items, (f item).isSome = true) ∧ items.filterMap f = results := by
  induction items generalizing results with
  | nil =>
    rw [List.mapM_nil]
    constructor
    · intro same
      exact ⟨List.forall_mem_nil _, Option.some.inj same⟩
    · rintro ⟨_, rfl⟩
      rfl
  | cons item rest ih =>
    rw [List.mapM_cons, List.forall_mem_cons, List.filterMap_cons]
    cases here : f item with
    | none => simp
    | some result =>
      simp only [Option.bind_eq_bind, Option.bind_some, Option.isSome_some, true_and]
      constructor
      · intro read
        obtain ⟨later, behind, same⟩ := Option.bind_eq_some_iff.1 read
        obtain ⟨all, rfl⟩ := ih.1 behind
        exact ⟨all, Option.some.inj same⟩
      · rintro ⟨all, rfl⟩
        rw [ih.2 ⟨all, rfl⟩]
        rfl

/-- A line sets one thing at most. -/
theorem readLine?_cases {line : List Char} (read : readLine? line = some entries) :
    entries = [] ∨ ∃ entry, entries = [entry] := by
  unfold readLine? at read
  split at read
  · exact .inl (Option.some.inj read).symm
  · obtain ⟨entry, _, same⟩ := Option.map_eq_some_iff.1 read
    exact .inr ⟨entry, same.symm⟩

theorem mem_entries_iff {text : String} {entry : Entry} :
    entry ∈ ((linesOf text).filterMap readLine?).flatten ↔ Says text entry := by
  rw [List.mem_flatten]
  constructor
  · rintro ⟨set, member, inside⟩
    obtain ⟨line, listed, read⟩ := List.mem_filterMap.1 member
    rcases readLine?_cases read with rfl | ⟨only, rfl⟩
    · cases inside
    · obtain rfl := List.mem_singleton.1 inside
      exact ⟨line, listed, read⟩
  · rintro ⟨line, listed, read⟩
    exact ⟨[entry], List.mem_filterMap.2 ⟨line, listed, read⟩, List.mem_singleton_self entry⟩

/-- Two lines, with a line feed between them. -/
theorem linesOf_two {first second : List Char} (unmarked : first.head? ≠ some '\uFEFF')
    (some : first ≠ []) (oneLine : '\n' ∉ first) (oneLine' : '\n' ∉ second)
    (noReturn : '\r' ∉ first) :
    linesOf (String.ofList (first ++ '\n' :: second)) = [first, second] := by
  have own : withoutReturn first = first := by
    unfold withoutReturn
    rw [if_neg fun last => noReturn (List.mem_of_getLast? last)]
  unfold linesOf
  rw [String.toList_ofList]
  obtain ⟨c, rest, rfl⟩ := List.exists_cons_of_ne_nil some
  dsimp only
  split
  · next same =>
    cases same
    exact absurd rfl unmarked
  · rw [Text.splitOn_append_cons oneLine, Text.splitOn_of_notMem oneLine']
    show [withoutReturn (c :: rest)] ++ [second] = _
    rw [own]
    rfl

end Settings

namespace Limits

open Settings

variable {text text' : String} {limits : Limits} {entries entries' : List Entry}

/-- What is set once is what counts. -/
theorem head_of_once {β : Type} {pick : Entry → Option β} {wrap : β → Entry}
    (picks : ∀ entry b, pick entry = some b ↔ entry = wrap b) (usual : β)
    (once : (entries.filterMap pick).length ≤ 1) :
    (∀ b, wrap b ∈ entries → (entries.filterMap pick).head?.getD usual = b) ∧
      ((∀ b, wrap b ∉ entries) → (entries.filterMap pick).head?.getD usual = usual) := by
  constructor
  · intro b member
    have picked : b ∈ entries.filterMap pick :=
      List.mem_filterMap.2 ⟨wrap b, member, (picks _ _).2 rfl⟩
    obtain ⟨only, same⟩ := List.length_eq_one_iff.1
      (Nat.le_antisymm once (List.length_pos_of_mem picked))
    rw [same, List.mem_singleton] at picked
    rw [same, picked]
    rfl
  · intro none
    have empty : entries.filterMap pick = [] := by
      rw [List.filterMap_eq_nil_iff]
      intro entry member
      rw [Option.eq_none_iff_forall_ne_some]
      intro b same
      exact none b ((picks entry b).1 same ▸ member)
    rw [empty]
    rfl

theorem limit?_eq_some_iff (entry : Entry) (limit : Nat) :
    entry.limit? = some limit ↔ entry = .maxIncludeDepth limit := by
  cases entry <;> simp [Entry.limit?]

theorem detect?_eq_some_iff (entry : Entry) (detect : Bool) :
    entry.detect? = some detect ↔ entry = .detectIncludeCycles detect := by
  cases entry <;> simp [Entry.detect?]

/-- Limits are made if nothing is set twice. -/
theorem ofEntries?_eq_some_iff : ofEntries? entries = some limits ↔
    (entries.filterMap Entry.limit?).length ≤ 1 ∧ (entries.filterMap Entry.detect?).length ≤ 1 ∧
    limits = ⟨(entries.filterMap Entry.limit?).head?.getD standard.maxIncludeDepth,
      (entries.filterMap Entry.detect?).head?.getD standard.detectIncludeCycles⟩ := by
  unfold ofEntries?
  dsimp only
  split
  · next once =>
    rw [Bool.and_eq_true, decide_eq_true_eq, decide_eq_true_eq] at once
    rw [Option.some_inj]
    exact ⟨fun same => ⟨once.1, once.2, same.symm⟩, fun known => known.2.2.symm⟩
  · next twice =>
    rw [Bool.and_eq_true, decide_eq_true_eq, decide_eq_true_eq] at twice
    exact ⟨fun same => (nomatch same), fun known => absurd ⟨known.1, known.2.1⟩ twice⟩

/-- Lists of one item at most cannot be reordered. -/
theorem eq_of_perm_of_once {β : Type} {items items' : List β} (reordered : items.Perm items')
    (once : items.length ≤ 1) : items = items' := by
  match items, once with
  | [], _ => exact reordered.nil_eq
  | [item], _ => exact List.singleton_perm.1 reordered

theorem ofEntries?_perm (reordered : entries.Perm entries') :
    ofEntries? entries = ofEntries? entries' := by
  have depths := reordered.filterMap Entry.limit?
  have cycles := reordered.filterMap Entry.detect?
  unfold ofEntries?
  dsimp only
  rw [← depths.length_eq, ← cycles.length_eq]
  split
  · next once =>
    rw [Bool.and_eq_true, decide_eq_true_eq, decide_eq_true_eq] at once
    rw [eq_of_perm_of_once depths once.1, eq_of_perm_of_once cycles once.2]
  · rfl

/-- **Limits are read** from a text if all its lines can be read and nothing is set twice. -/
theorem exists_ofSettings?_iff : (∃ limits, ofSettings? text = some limits) ↔
    (∀ line ∈ linesOf text, (readLine? line).isSome = true) ∧
    (((linesOf text).filterMap readLine?).flatten.filterMap Entry.limit?).length ≤ 1 ∧
    (((linesOf text).filterMap readLine?).flatten.filterMap Entry.detect?).length ≤ 1 := by
  unfold ofSettings?
  simp only [Option.bind_eq_bind, Option.bind_eq_some_iff, mapM_eq_some_iff,
    ofEntries?_eq_some_iff]
  constructor
  · rintro ⟨_, _, ⟨all, rfl⟩, onceLimit, onceDetect, _⟩
    exact ⟨all, onceLimit, onceDetect⟩
  · rintro ⟨all, onceLimit, onceDetect⟩
    exact ⟨_, _, ⟨all, rfl⟩, onceLimit, onceDetect, rfl⟩

/-- **What a text sets** counts, and what it does not set keeps its standard value. -/
theorem ofSettings?_says (read : ofSettings? text = some limits) :
    (∀ line ∈ linesOf text, (readLine? line).isSome = true) ∧
    (∀ limit, Says text (.maxIncludeDepth limit) → limits.maxIncludeDepth = limit) ∧
    ((∀ limit, ¬ Says text (.maxIncludeDepth limit)) →
      limits.maxIncludeDepth = standard.maxIncludeDepth) ∧
    (∀ detect, Says text (.detectIncludeCycles detect) → limits.detectIncludeCycles = detect) ∧
    ((∀ detect, ¬ Says text (.detectIncludeCycles detect)) →
      limits.detectIncludeCycles = standard.detectIncludeCycles) := by
  obtain ⟨sets, lines, made⟩ := Option.bind_eq_some_iff.1 read
  obtain ⟨all, rfl⟩ := mapM_eq_some_iff.1 lines
  obtain ⟨onceLimit, onceDetect, rfl⟩ := ofEntries?_eq_some_iff.1 made
  obtain ⟨limit, noLimit⟩ := head_of_once limit?_eq_some_iff standard.maxIncludeDepth onceLimit
  obtain ⟨detect, noDetect⟩ :=
    head_of_once detect?_eq_some_iff standard.detectIncludeCycles onceDetect
  simp only [mem_entries_iff] at limit noLimit detect noDetect
  exact ⟨all, limit, noLimit, detect, noDetect⟩

/-- What is read of lines is read of them in any other order. -/
theorem ofSettings?_of_perm (reordered : (linesOf text).Perm (linesOf text'))
    (read : ofSettings? text = some limits) : ofSettings? text' = some limits := by
  obtain ⟨sets, lines, made⟩ := Option.bind_eq_some_iff.1 read
  obtain ⟨all, rfl⟩ := mapM_eq_some_iff.1 lines
  have all' : ∀ line ∈ linesOf text', (readLine? line).isSome = true := fun line member =>
    all line (reordered.mem_iff.2 member)
  refine Option.bind_eq_some_iff.2 ⟨_, mapM_eq_some_iff.2 ⟨all', rfl⟩, ?_⟩
  rwa [← ofEntries?_perm (reordered.filterMap readLine?).flatten]

/-- **The order of the lines** is of no account. -/
theorem ofSettings?_perm (reordered : (linesOf text).Perm (linesOf text')) :
    ofSettings? text = ofSettings? text' := by
  refine Option.ext fun limits => ?_
  constructor
  · exact ofSettings?_of_perm reordered
  · exact ofSettings?_of_perm reordered.symm

/-! ### Writing limits -/

/-- The line that sets the include depth. -/
def writtenDepth (limit : Nat) : List Char :=
  "max_include_depth = ".toList ++ Nat.toDigits 10 limit

/-- The line that sets whether cycles are watched for. -/
def writtenCycles (detect : Bool) : List Char :=
  "detect_include_cycles = ".toList ++ (toString detect).toList

/-- The settings text of limits. -/
def written (limits : Limits) : String :=
  String.ofList (writtenDepth limits.maxIncludeDepth ++
    '\n' :: writtenCycles limits.detectIncludeCycles)

/-- The line of an include depth has no other characters than its name, its sign and digits. -/
theorem notMem_writtenDepth {c : Char} (limit : Nat) (other : c.isDigit = false)
    (outside : c ∉ "max_include_depth = ".toList) : c ∉ writtenDepth limit := by
  intro member
  rcases List.mem_append.1 member with inside | inside
  · exact outside inside
  · rw [isDigit_of_mem inside] at other
    cases other

theorem readLine?_writtenDepth {limit : Nat} (bounded : limit ≤ largest) :
    readLine? (writtenDepth limit) = some [.maxIncludeDepth limit] := by
  have plain : ∀ c ∈ Nat.toDigits 10 limit, Settings.isValueChar c = true := by
    intro c member
    have digit := isDigit_of_mem member
    unfold Settings.isValueChar Settings.isBlank
    simp only [Bool.and_eq_true, Bool.not_eq_true', Bool.or_eq_false_iff, beq_eq_false_iff_ne,
      bne_iff_ne]
    refine ⟨⟨?_, ?_⟩, ?_⟩ <;> (rintro rfl; cases digit)
  have line : readLine? ([] ++ ("max_include_depth".toList ++ ([' '] ++ '=' :: ([' '] ++
      (Nat.toDigits 10 limit ++ []))))) =
      (Entry.of? "max_include_depth".toList (Nat.toDigits 10 limit)).map fun entry => [entry] :=
    readLine?_setting (List.forall_mem_nil _) (List.forall_mem_singleton.2 rfl)
      (List.forall_mem_singleton.2 rfl) (List.all_eq_true.1 (by decide)) (by decide) plain
      Nat.toDigits_ne_nil rfl
  rw [Entry.of?, if_pos rfl, count?_toDigits bounded, List.append_nil] at line
  exact line

theorem readLine?_writtenCycles (detect : Bool) :
    readLine? (writtenCycles detect) = some [.detectIncludeCycles detect] := by
  cases detect <;> decide

theorem linesOf_written (limits : Limits) : linesOf limits.written =
    [writtenDepth limits.maxIncludeDepth, writtenCycles limits.detectIncludeCycles] := by
  have oneLine : '\n' ∉ writtenDepth limits.maxIncludeDepth :=
    notMem_writtenDepth _ rfl (by decide)
  have noReturn : '\r' ∉ writtenDepth limits.maxIncludeDepth :=
    notMem_writtenDepth _ rfl (by decide)
  have oneLine' : '\n' ∉ writtenCycles limits.detectIncludeCycles := by
    cases limits.detectIncludeCycles <;> decide
  refine linesOf_two ?_ ?_ oneLine oneLine' noReturn
  · exact fun same => nomatch same
  · exact fun same => nomatch same

/-- **Limits that are written down are read back**, if the depth can be written. -/
theorem ofSettings?_written (bounded : limits.maxIncludeDepth ≤ largest) :
    ofSettings? limits.written = some limits := by
  unfold ofSettings?
  rw [linesOf_written, List.mapM_cons, readLine?_writtenDepth bounded, List.mapM_cons,
    readLine?_writtenCycles]
  rfl

end Limits

end TypedMarkup
