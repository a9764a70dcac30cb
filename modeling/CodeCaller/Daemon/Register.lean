import CodeCaller.Library.Lines

/-!
# `register.js`: the settings file

`upsertEnv` sets keys of an `.env` file and keeps the rest of it.  `upsertEnv_frame` says what is
kept, for every file whose carriage returns stand before line feeds.

The function works on lines: it splits the file at line breaks, drops empty lines, sets the lines
whose key is among the updates, and appends the keys that no line had.  So the results are about
lines first (`newLines`), and `Library.Lines` takes them to the text that is written and to what is
read from it again: a line without a break is one line when it is read back.

* `entryLine_mem_newLines`, `newLines_set`: every updated key has its line, and every line of such
  a key carries the new value, however many the file had.
* `newLines_untouched`: the other lines are kept in their order.
* `newLines_again`: nothing changes the second time.
-/

namespace CodeCaller

open Async JsString

/-! ## `upsertEnv` -/

/-- `[A-Z0-9_]`. -/
def isKeyUnit (c : UInt16) : Bool :=
  decide (65 ≤ c.toNat ∧ c.toNat ≤ 90 ∨ 48 ≤ c.toNat ∧ c.toNat ≤ 57 ∨ c.toNat = 95)

/-- The group of `/^([A-Z0-9_]+)=/.exec(line)`. -/
def envKey (line : JsString) : Option JsString :=
  let key := line.takeWhile isKeyUnit
  if key ≠ [] ∧ (line.drop key.length).head? = some 61 then some key else none

/-- `${key}=${value}`. -/
def entryLine (entry : JsString × JsString) : JsString := entry.1 ++ 61 :: entry.2

/-- The update a line is for: `match[1] in updates`. -/
def updateOf (updates : List (JsString × JsString)) (line : JsString) :
    Option (JsString × JsString) :=
  (envKey line).bind fun key => updates.find? fun entry => entry.1 == key

/-- A line of an updated key is set, any other line stays. -/
def setLine (updates : List (JsString × JsString)) (line : JsString) : JsString :=
  match updateOf updates line with
  | some entry => entryLine entry
  | none => line

/-- The lines of the file, if there is one. -/
def existingLines : Option JsString → List JsString
  | some text => splitLines text
  | none => []

/-- The keys that were seen. -/
def seenKeys (updates : List (JsString × JsString)) (existing : List JsString) : List JsString :=
  existing.filterMap fun line => (updateOf updates line).map Prod.fst

/-- The lines of the new file. -/
def newLines (updates : List (JsString × JsString)) (existing : List JsString) : List JsString :=
  (existing.map (setLine updates) ++
    (updates.filter fun entry =>
      !(seenKeys updates existing).contains entry.1).map entryLine).filter
      fun line => !line.isEmpty

/-- **`upsertEnv`**: the text that is written, from the one that was there and the entries of
`updates`. -/
def upsertEnv (file : Option JsString) (updates : List (JsString × JsString)) : JsString :=
  join (newLines updates (existingLines file)) [LF] ++ [LF]

/-! ## Updates -/

/-- **Updates as they are meant**: the keys of an object, in `[A-Z0-9_]+`, with values of one
line. -/
structure EnvUpdates where
  entries : List (JsString × JsString)
  nonempty : entries ≠ []
  nodup : (entries.map Prod.fst).Nodup
  keys : ∀ entry ∈ entries, entry.1 ≠ [] ∧ ∀ c ∈ entry.1, isKeyUnit c = true
  values : ∀ entry ∈ entries, Unbroken entry.2

/-- Whether a line is of the form `KEY=...`. -/
def setsKey (key line : JsString) : Bool := (key ++ [61]).isPrefixOf line

/-- A line that is not empty and sets no key of the updates. -/
def untouched (updates : List (JsString × JsString)) (line : JsString) : Bool :=
  !line.isEmpty && !updates.any fun entry => setsKey entry.1 line

section Updates

variable {updates : EnvUpdates} {entry : JsString × JsString} {line : JsString}

/-- **The key of a line**, for the keys of updates. -/
theorem envKey_iff (hentry : entry ∈ updates.entries) :
    envKey line = some entry.1 ↔ setsKey entry.1 line = true := by
  unfold setsKey
  rw [List.isPrefixOf_iff_prefix]
  constructor
  · intro hkey
    unfold envKey at hkey
    dsimp only at hkey
    split_ifs at hkey with hmatch
    rw [Option.some.injEq] at hkey
    obtain ⟨rest, hrest⟩ := List.head?_eq_some_iff.mp hmatch.2
    refine ⟨rest, ?_⟩
    rw [hkey] at hrest
    have hline : entry.1 ++ line.drop entry.1.length = line :=
      List.prefix_iff_eq_append.mp (hkey ▸ List.takeWhile_prefix isKeyUnit)
    rw [List.append_assoc, List.singleton_append, ← hrest]
    exact hline
  · rintro ⟨rest, rfl⟩
    obtain ⟨hne, hunits⟩ := updates.keys entry hentry
    have htake : (entry.1 ++ [61] ++ rest).takeWhile isKeyUnit = entry.1 := by
      rw [List.append_assoc, List.takeWhile_append_of_pos hunits, List.singleton_append,
        List.takeWhile_cons_of_neg (by decide), List.append_nil]
    unfold envKey
    rw [htake]
    refine if_pos ⟨hne, ?_⟩
    rw [List.append_assoc, List.drop_left]
    rfl

/-- The line of an entry sets its key. -/
theorem setsKey_entryLine (entry : JsString × JsString) :
    setsKey entry.1 (entryLine entry) = true := by
  unfold setsKey entryLine
  rw [List.isPrefixOf_iff_prefix]
  exact ⟨entry.2, by rw [List.append_assoc]; rfl⟩

/-- The key of the line of an entry. -/
theorem envKey_entryLine (hentry : entry ∈ updates.entries) :
    envKey (entryLine entry) = some entry.1 :=
  (envKey_iff hentry).mpr (setsKey_entryLine entry)

/-- An object has one value for a key. -/
theorem entry_unique {other : JsString × JsString} (hentry : entry ∈ updates.entries)
    (hother : other ∈ updates.entries) (hkey : entry.1 = other.1) : entry = other :=
  List.inj_on_of_nodup_map updates.nodup hentry hother hkey

/-- An update is found by the key of its line. -/
theorem updateOf_some (h : updateOf updates.entries line = some entry) :
    entry ∈ updates.entries ∧ envKey line = some entry.1 := by
  obtain ⟨key, hkey, hfind⟩ := Option.bind_eq_some_iff.mp h
  have hsame := List.find?_some hfind
  rw [beq_iff_eq] at hsame
  exact ⟨List.mem_of_find?_eq_some hfind, by rw [hkey, hsame]⟩

/-- A line with the key of an entry is for that entry. -/
theorem updateOf_of_key (hentry : entry ∈ updates.entries) (hkey : envKey line = some entry.1) :
    updateOf updates.entries line = some entry := by
  have hfound : (updates.entries.find? fun other => other.1 == entry.1).isSome = true := by
    rw [List.find?_isSome]
    exact ⟨entry, hentry, beq_self_eq_true _⟩
  obtain ⟨other, hother⟩ := Option.isSome_iff_exists.mp hfound
  have hsame := List.find?_some hother
  rw [beq_iff_eq] at hsame
  have hupdate : updateOf updates.entries line = some other := by
    unfold updateOf
    rw [hkey]
    exact hother
  rw [hupdate, entry_unique (List.mem_of_find?_eq_some hother) hentry hsame]

/-- A line without an update sets no key. -/
theorem untouched_eq : untouched updates.entries line =
    (!line.isEmpty && (updateOf updates.entries line).isNone) := by
  unfold untouched
  congr 1
  cases hupdate : updateOf updates.entries line with
  | none =>
      have hany : (updates.entries.any fun entry => setsKey entry.1 line) = false := by
        rw [List.any_eq_false]
        intro entry hentry hsets
        rw [updateOf_of_key hentry ((envKey_iff hentry).mpr hsets)] at hupdate
        cases hupdate
      rw [hany]
      rfl
  | some entry =>
      obtain ⟨hentry, hkey⟩ := updateOf_some hupdate
      have hany : (updates.entries.any fun entry => setsKey entry.1 line) = true :=
        List.any_eq_true.mpr ⟨entry, hentry, (envKey_iff hentry).mp hkey⟩
      rw [hany]
      rfl

/-- A line that was written is found again, with its value. -/
theorem updateOf_entryLine (hentry : entry ∈ updates.entries) :
    updateOf updates.entries (entryLine entry) = some entry :=
  updateOf_of_key hentry (envKey_entryLine hentry)

/-- It has at least the equals sign, -/
theorem entryLine_ne_nil : entryLine entry ≠ [] := by
  unfold entryLine
  exact List.append_ne_nil_of_right_ne_nil _ (List.cons_ne_nil _ _)

/-- and it is one line. -/
theorem entryLine_unbroken (hentry : entry ∈ updates.entries) : Unbroken (entryLine entry) := by
  obtain ⟨-, hunits⟩ := updates.keys entry hentry
  obtain ⟨hfeed, hreturn⟩ := updates.values entry hentry
  have hkey : ∀ c, isKeyUnit c = false → c ∉ entry.1 := fun c hc hmem => by
    rw [hunits c hmem] at hc
    cases hc
  unfold entryLine
  constructor
  · rw [List.mem_append, List.mem_cons, not_or, not_or]
    exact ⟨hkey LF (by decide), by decide, hfeed⟩
  · rw [List.mem_append, List.mem_cons, not_or, not_or]
    exact ⟨hkey CR (by decide), by decide, hreturn⟩

/-- What a line becomes: the line of its update, or itself. -/
theorem setLine_cases :
    (∃ entry ∈ updates.entries, updateOf updates.entries line = some entry ∧
      setLine updates.entries line = entryLine entry) ∨
    (updateOf updates.entries line = none ∧ setLine updates.entries line = line) := by
  cases hupdate : updateOf updates.entries line with
  | none =>
      right
      unfold setLine
      rw [hupdate]
      exact ⟨rfl, rfl⟩
  | some entry =>
      left
      refine ⟨entry, (updateOf_some hupdate).1, rfl, ?_⟩
      unfold setLine
      rw [hupdate]

/-! ## The new lines -/

variable {existing : List JsString}

/-- A new line is an old one or the line of an update. -/
theorem mem_newLines (hline : line ∈ newLines updates.entries existing) : line ≠ [] ∧
    ((line ∈ existing ∧ updateOf updates.entries line = none) ∨
      ∃ entry ∈ updates.entries, line = entryLine entry) := by
  obtain ⟨hmem, hne⟩ := List.mem_filter.mp hline
  refine ⟨by simpa using hne, ?_⟩
  rcases List.mem_append.mp hmem with hold | hnew
  · obtain ⟨old, hmemOld, rfl⟩ := List.mem_map.mp hold
    rcases @setLine_cases updates old with ⟨entry, hentry, -, heq⟩ | ⟨hnone, heq⟩
    · exact .inr ⟨entry, hentry, heq⟩
    · rw [heq]
      exact .inl ⟨hmemOld, hnone⟩
  · obtain ⟨entry, hentry, rfl⟩ := List.mem_map.mp hnew
    exact .inr ⟨entry, (List.mem_filter.mp hentry).1, rfl⟩

/-- **Every updated key has its line.** -/
theorem entryLine_mem_newLines (hentry : entry ∈ updates.entries) :
    entryLine entry ∈ newLines updates.entries existing := by
  refine List.mem_filter.mpr ⟨?_, by simpa using entryLine_ne_nil⟩
  by_cases hseen : entry.1 ∈ seenKeys updates.entries existing
  · obtain ⟨old, hold, hkey⟩ := List.mem_filterMap.mp hseen
    obtain ⟨other, hupdate, hsame⟩ := Option.map_eq_some_iff.mp hkey
    obtain rfl := entry_unique (updateOf_some hupdate).1 hentry hsame
    refine List.mem_append_left _ (List.mem_map.mpr ⟨old, hold, ?_⟩)
    unfold setLine
    rw [hupdate]
  · exact List.mem_append_right _
      (List.mem_map.mpr ⟨entry, List.mem_filter.mpr ⟨hentry, by simpa using hseen⟩, rfl⟩)

/-- Every line of an updated key carries the new value. -/
theorem newLines_set (hline : line ∈ newLines updates.entries existing)
    (hentry : entry ∈ updates.entries) (hkey : envKey line = some entry.1) :
    line = entryLine entry := by
  rcases (mem_newLines hline).2 with ⟨-, hnone⟩ | ⟨other, hother, rfl⟩
  · rw [updateOf_of_key hentry hkey] at hnone
    cases hnone
  · rw [envKey_entryLine hother, Option.some.injEq] at hkey
    rw [entry_unique hother hentry hkey]

/-- **The other lines are kept**, in their order. -/
theorem newLines_untouched :
    (newLines updates.entries existing).filter (untouched updates.entries) =
      existing.filter (untouched updates.entries) := by
  have hset : ∀ entry ∈ updates.entries, untouched updates.entries (entryLine entry) = false := by
    intro entry hentry
    rw [untouched_eq, updateOf_entryLine hentry, Option.isNone_some, Bool.and_false]
  have hmapped : (existing.map (setLine updates.entries)).filter (untouched updates.entries) =
      existing.filter (untouched updates.entries) := by
    induction existing with
    | nil => rfl
    | cons old existing ih =>
        rw [List.map_cons, List.filter_cons, List.filter_cons, ih]
        rcases @setLine_cases updates old with ⟨entry, hentry, hupdate, heq⟩ | ⟨-, heq⟩
        · have hold : untouched updates.entries old = false := by
            rw [untouched_eq, hupdate, Option.isNone_some, Bool.and_false]
          rw [heq, hset entry hentry, hold]
          rfl
        · rw [heq]
  have hadded : ((updates.entries.filter fun entry =>
      !(seenKeys updates.entries existing).contains entry.1).map entryLine).filter
        (untouched updates.entries) = [] := by
    refine List.filter_eq_nil_iff.mpr fun line hline => ?_
    obtain ⟨entry, hentry, rfl⟩ := List.mem_map.mp hline
    rw [hset entry (List.mem_filter.mp hentry).1]
    exact Bool.false_ne_true
  unfold newLines
  rw [List.filter_filter]
  have hsame : (fun line : JsString => untouched updates.entries line && !line.isEmpty) =
      untouched updates.entries := by
    funext line
    unfold untouched
    rw [Bool.and_right_comm, Bool.and_self]
  rw [hsame, List.filter_append, hmapped, hadded, List.append_nil]

/-- Something is written, since there are updates. -/
theorem newLines_ne_nil : newLines updates.entries existing ≠ [] := by
  obtain ⟨entry, hentry⟩ := List.exists_mem_of_ne_nil _ updates.nonempty
  exact List.ne_nil_of_mem (entryLine_mem_newLines hentry)

/-- No line has a break in it, so each is read back as one. -/
theorem newLines_unbroken (hexisting : ∀ line ∈ existing, Unbroken line) :
    ∀ line ∈ newLines updates.entries existing, Unbroken line := by
  intro line hline
  rcases (mem_newLines hline).2 with ⟨hold, -⟩ | ⟨entry, hentry, rfl⟩
  · exact hexisting line hold
  · exact entryLine_unbroken hentry

/-- A new line is what it would be set to. -/
theorem setLine_newLines (hline : line ∈ newLines updates.entries existing) :
    setLine updates.entries line = line := by
  rcases @setLine_cases updates line with ⟨entry, hentry, hupdate, heq⟩ | ⟨-, heq⟩
  · rw [heq, newLines_set hline hentry (updateOf_some hupdate).2]
  · exact heq

/-- **Nothing changes the second time.** -/
theorem newLines_again :
    newLines updates.entries (newLines updates.entries existing ++ [[]]) =
      newLines updates.entries existing := by
  have hset : (newLines updates.entries existing ++ [[]]).map (setLine updates.entries) =
      newLines updates.entries existing ++ [[]] := by
    refine (List.map_congr_left fun line hline => ?_).trans (List.map_id _)
    rcases List.mem_append.mp hline with hline | hline
    · exact setLine_newLines hline
    · rw [List.mem_singleton.mp hline]
      rfl
  have hseen : (updates.entries.filter fun entry =>
      !(seenKeys updates.entries (newLines updates.entries existing ++ [[]])).contains entry.1) =
        [] := by
    refine List.filter_eq_nil_iff.mpr fun entry hentry => ?_
    have hmem : entry.1 ∈ seenKeys updates.entries (newLines updates.entries existing ++ [[]]) :=
      List.mem_filterMap.mpr ⟨entryLine entry,
        List.mem_append_left _ (entryLine_mem_newLines hentry),
        by rw [updateOf_entryLine hentry]; rfl⟩
    simpa using hmem
  have hfilter : (newLines updates.entries existing).filter (fun line => !line.isEmpty) =
      newLines updates.entries existing := by
    refine List.filter_eq_self.mpr fun line hline => ?_
    simpa using (mem_newLines hline).1
  change List.filter _ ((newLines updates.entries existing ++ [[]]).map (setLine updates.entries) ++
    (updates.entries.filter fun entry => !(seenKeys updates.entries
      (newLines updates.entries existing ++ [[]])).contains entry.1).map entryLine) = _
  rw [hset, hseen, List.map_nil, List.append_nil, List.filter_append, hfilter]
  exact List.append_nil _

end Updates

/-- The lines of the file hold no line break. -/
theorem existingLines_unbroken {file : Option JsString}
    (hfile : ∀ text ∈ file, ReturnsBeforeFeeds text) :
    ∀ line ∈ existingLines file, Unbroken line := by
  cases file with
  | none => exact fun _ hline => absurd hline List.not_mem_nil
  | some text => exact unbroken_of_mem (hfile text rfl)

/-- The lines that are read back. -/
theorem splitLines_upsertEnv {updates : EnvUpdates} {file : Option JsString}
    (hfile : ∀ text ∈ file, ReturnsBeforeFeeds text) :
    splitLines (upsertEnv file updates.entries) =
      newLines updates.entries (existingLines file) ++ [[]] := by
  unfold upsertEnv
  rw [join_LF newLines_ne_nil,
    splitLines_joined (newLines_unbroken (existingLines_unbroken hfile))]

/-- The text ends with one line feed. -/
theorem upsertEnv_end {updates : EnvUpdates} {file : Option JsString}
    (hfile : ∀ text ∈ file, ReturnsBeforeFeeds text) :
    ∃ front c, upsertEnv file updates.entries = front ++ [c, LF] ∧ c ≠ LF := by
  have hne : newLines updates.entries (existingLines file) ≠ [] := newLines_ne_nil
  have hmem := List.getLast_mem hne
  have hlast := (mem_newLines hmem).1
  have hunbroken := newLines_unbroken (existingLines_unbroken hfile) _ hmem
  refine ⟨((newLines updates.entries (existingLines file)).dropLast.flatMap fun line =>
      line ++ [LF]) ++ ((newLines updates.entries (existingLines file)).getLast hne).dropLast,
    ((newLines updates.entries (existingLines file)).getLast hne).getLast hlast, ?_,
    fun heq => hunbroken.1 (heq ▸ List.getLast_mem hlast)⟩
  unfold upsertEnv
  rw [join_LF hne]
  conv_lhs => rw [← List.dropLast_append_getLast hne, List.flatMap_append, List.flatMap_singleton,
    ← List.dropLast_append_getLast hlast]
  simp only [List.append_assoc, List.cons_append, List.nil_append]

/-- **`upsertEnv` updates only what it should.** -/
theorem upsertEnv_frame (updates : EnvUpdates) {file : Option JsString}
    (hfile : ∀ text ∈ file, ReturnsBeforeFeeds text) :
    (∀ entry ∈ updates.entries,
      ∃ line ∈ splitLines (upsertEnv file updates.entries), setsKey entry.1 line = true) ∧
    (∀ line ∈ splitLines (upsertEnv file updates.entries), ∀ entry ∈ updates.entries,
      setsKey entry.1 line = true → line = entryLine entry) ∧
    (splitLines (upsertEnv file updates.entries)).filter (untouched updates.entries) =
      (existingLines file).filter (untouched updates.entries) ∧
    (∃ front c, upsertEnv file updates.entries = front ++ [c, LF] ∧ c ≠ LF) ∧
    upsertEnv (some (upsertEnv file updates.entries)) updates.entries =
      upsertEnv file updates.entries := by
  have hlines := @splitLines_upsertEnv updates file hfile
  refine ⟨fun entry hentry => ?_, fun line hline entry hentry hkey => ?_, ?_,
    upsertEnv_end hfile, ?_⟩
  · rw [hlines]
    exact ⟨entryLine entry, List.mem_append_left _ (entryLine_mem_newLines hentry),
      setsKey_entryLine entry⟩
  · rw [hlines] at hline
    have hkey := (envKey_iff hentry).mpr hkey
    rcases List.mem_append.mp hline with hline | hline
    · exact newLines_set hline hentry hkey
    · rw [List.mem_singleton.mp hline] at hkey
      cases hkey
  · rw [hlines, List.filter_append, newLines_untouched]
    exact List.append_nil _
  · change join (newLines updates.entries (splitLines (upsertEnv file updates.entries))) [LF] ++
      [LF] = _
    rw [hlines, newLines_again]
    rfl

/-- Two keys, of which a file sets one twice, with a comment. -/
def EnvUpdates.sample : EnvUpdates where
  entries := [(js "HUB_URL", js "http://hub"), (js "API_KEY", js "k=1")]
  nonempty := List.cons_ne_nil _ _
  nodup := by
    have hne : js "HUB_URL" ≠ js "API_KEY" := by decide
    exact List.nodup_cons.mpr ⟨fun hmem => hne (List.mem_singleton.mp hmem), List.nodup_singleton _⟩
  keys := by
    rw [List.forall_mem_cons, List.forall_mem_singleton]
    exact ⟨⟨List.cons_ne_nil _ _, List.all_eq_true.mp (by decide)⟩,
      List.cons_ne_nil _ _, List.all_eq_true.mp (by decide)⟩
  values := by
    unfold Unbroken
    decide

/-- A file with a comment, an empty line and a key that stands twice. -/
theorem upsertEnv_frame_sample :
    upsertEnv (some (js "API_KEY=old\n# note\n\nAPI_KEY=")) EnvUpdates.sample.entries =
        js "API_KEY=k=1\n# note\nAPI_KEY=k=1\nHUB_URL=http://hub\n" ∧
      upsertEnv (some (js "API_KEY=k=1\n# note\nAPI_KEY=k=1\nHUB_URL=http://hub\n"))
        EnvUpdates.sample.entries =
        js "API_KEY=k=1\n# note\nAPI_KEY=k=1\nHUB_URL=http://hub\n" := by
  have hfirst : upsertEnv (some (js "API_KEY=old\n# note\n\nAPI_KEY=")) EnvUpdates.sample.entries =
      js "API_KEY=k=1\n# note\nAPI_KEY=k=1\nHUB_URL=http://hub\n" := by decide
  have hagain := (@upsertEnv_frame EnvUpdates.sample (some (js "API_KEY=old\n# note\n\nAPI_KEY="))
    (fun text htext => by
      rw [← Option.some.inj htext]
      decide)).2.2.2.2
  rw [hfirst] at hagain
  exact ⟨hfirst, hagain⟩

end CodeCaller
