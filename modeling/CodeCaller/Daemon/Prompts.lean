import CodeCaller.Daemon.Detector
import CodeCaller.Daemon.Runner
import Mathlib.Data.List.TakeWhile

/-!
# Prompts in chunks of output

A runner looks for a prompt in the tail of its child's output, which is cut at an arbitrary unit,
and anew with every chunk.  If the output ends in lines with a prompt that fit into the tail, it is
found however the output is cut into chunks (`prompt_detected`): what stands before a line feed
changes neither the lines after it nor the escape sequences in them.

### The pieces

* `Plain`: a unit that no escape sequence holds.  `stripFrom_append` says that sequences are
  removed before and after it independently, and a line feed is one.
* `exists_strippedLine`: removing the sequences and cutting into lines, in either order.
* `detect_suffix`: lines with a prompt at the end of a text are detected, whatever stands before.
* `sliceBack_suffix`: a tail holds a short enough end of a text, from a line boundary on.
* `Heard`: what a runner that listens has heard, as an invariant over chunks.

The proof does not look at the markers.  All it uses is that a marker is not found in an empty
line.
-/

namespace CodeCaller

open Async JsString

/-! ## Escape sequences and line breaks -/

/-- A unit that no escape sequence holds. -/
def Plain (c : UInt16) : Prop :=
  c ≠ 27 ∧ c ≠ 91 ∧ isAnsiParameter c = false ∧ isAnsiLetter c = false

/-- A line feed is plain. -/
theorem plain_LF : Plain LF := by
  unfold Plain
  decide

/-- So is a carriage return. -/
theorem plain_CR : Plain CR := by
  unfold Plain
  decide

section Strip

variable {c : UInt16} (hc : Plain c)

include hc

/-- A plain unit ends the parameters of a sequence, so what comes after it does not matter, -/
theorem takeWhile_plain (front back : JsString) :
    (front ++ c :: back).takeWhile isAnsiParameter = front.takeWhile isAnsiParameter := by
  induction front with
  | nil => simp [hc.2.2.1]
  | cons d front ih => simp only [List.cons_append, List.takeWhile_cons, ih]

/-- nor for the letter that must follow. -/
theorem dropWhile_plain (front back : JsString) :
    ((front ++ c :: back).dropWhile isAnsiParameter).head?.any isAnsiLetter =
      (front.dropWhile isAnsiParameter).head?.any isAnsiLetter := by
  induction front with
  | nil => simp [hc.2.2.1, hc.2.2.2]
  | cons d front ih =>
      simp only [List.cons_append, List.dropWhile_cons]
      split
      · exact ih
      · rfl

/-- A sequence does not reach a plain unit. -/
theorem ansiLength_plain (front back : JsString) :
    ansiLength (front ++ c :: back) = ansiLength front := by
  match front with
  | [] =>
      cases back with
      | nil => rfl
      | cons d back => exact if_neg fun h => hc.1 h.1
  | [escape] => exact if_neg fun h => hc.2.1 h.2
  | escape :: bracket :: rest =>
      simp only [List.cons_append, ansiLength, takeWhile_plain hc, dropWhile_plain hc]

omit hc in
/-- A sequence has a length, and lies within the text. -/
theorem ansiLength_le {front : JsString} {length : ℕ} (h : ansiLength front = some length) :
    1 ≤ length ∧ length ≤ front.length := by
  unfold ansiLength at h
  split at h
  · next escape bracket rest =>
    split_ifs at h with hstart hletter
    · rw [Option.some.injEq] at h
      have hsplit := congrArg List.length (List.takeWhile_append_dropWhile (p := isAnsiParameter)
        (l := rest))
      have hmore : rest.dropWhile isAnsiParameter ≠ [] := by
        intro hnil
        rw [hnil] at hletter
        cases hletter
      have hpos := List.length_pos_iff.mpr hmore
      simp only [List.length_append, List.length_cons] at hsplit ⊢
      omega
  · cases h

/-- **Sequences are removed before a plain unit and after it.** -/
theorem stripFrom_append : ∀ {front : JsString} {skip : ℕ}, skip ≤ front.length → ∀ back,
    stripFrom skip (front ++ c :: back) = stripFrom skip front ++ c :: stripAnsi back
  | [], skip, hskip, back => by
      obtain rfl : skip = 0 := Nat.le_zero.mp hskip
      have hnone : ansiLength (c :: back) = none := ansiLength_plain hc [] back
      rw [List.nil_append]
      conv_lhs => rw [stripFrom, hnone]
      rfl
  | d :: front, 0, _, back => by
      have hsame : ansiLength (d :: (front ++ c :: back)) = ansiLength (d :: front) :=
        ansiLength_plain hc (d :: front) back
      rw [List.cons_append, stripFrom, stripFrom, hsame]
      cases hlength : ansiLength (d :: front) with
      | none =>
          dsimp only
          rw [stripFrom_append (Nat.zero_le _) back]
          rfl
      | some length =>
          have hle := ansiLength_le hlength
          rw [List.length_cons] at hle
          exact stripFrom_append (by omega) back
  | d :: front, skip + 1, hskip, back => by
      rw [List.cons_append, stripFrom, stripFrom]
      exact stripFrom_append (Nat.le_of_succ_le_succ hskip) back

/-- **Sequences are removed on both sides of a plain unit by themselves.** -/
theorem stripAnsi_append (front back : JsString) :
    stripAnsi (front ++ c :: back) = stripAnsi front ++ c :: stripAnsi back :=
  stripFrom_append hc (Nat.zero_le _) back

omit hc in
/-- What is left was there. -/
theorem mem_stripFrom {d : UInt16} : ∀ {text : JsString} {skip : ℕ}, d ∈ stripFrom skip text →
    d ∈ text
  | [], _, hmem => by simp [stripFrom] at hmem
  | e :: rest, 0, hmem => by
      rw [stripFrom] at hmem
      split at hmem
      · exact List.mem_cons_of_mem _ (mem_stripFrom hmem)
      · rcases List.mem_cons.mp hmem with rfl | hmem
        · exact List.mem_cons_self
        · exact List.mem_cons_of_mem _ (mem_stripFrom hmem)
  | e :: rest, skip + 1, hmem => by
      rw [stripFrom] at hmem
      exact List.mem_cons_of_mem _ (mem_stripFrom hmem)

end Strip

/-! ## Lines -/

/-- A line of which the break is known to have been the last unit. -/
def dropReturn (line : JsString) : JsString :=
  if line.getLast? = some CR then line.dropLast else line

/-- The first line of a text. -/
theorem splitLines_segment : ∀ {segment : JsString}, LF ∉ segment → ∀ back,
    splitLines (segment ++ LF :: back) = dropReturn segment :: splitLines back
  | [], _, back => splitLines_LF back
  | [c], hnone, back => by
      have hc : c ≠ LF := fun heq => hnone (heq ▸ List.mem_cons_self)
      rw [List.singleton_append, splitLines, if_neg hc]
      by_cases hreturn : c = CR
      · rw [if_pos ⟨hreturn, rfl⟩, splitLines_LF, hreturn]
        rfl
      · have hlast : ¬[c].getLast? = some CR := fun h => hreturn (Option.some.inj h)
        rw [if_neg fun h => hreturn h.1, splitLines_LF, dropReturn, if_neg hlast]
        rfl
  | c :: d :: segment, hnone, back => by
      have hc : c ≠ LF := fun heq => hnone (heq ▸ List.mem_cons_self)
      have hd : d ≠ LF := fun heq =>
        hnone (heq ▸ List.mem_cons_of_mem _ List.mem_cons_self)
      have hrest := @splitLines_segment (d :: segment)
        (fun h => hnone (List.mem_cons_of_mem _ h)) back
      have hnot : ¬(c = CR ∧ (d :: segment ++ LF :: back).head? = some LF) :=
        fun h => hd (Option.some.inj h.2)
      rw [List.cons_append, splitLines, if_neg hc, if_neg hnot, hrest]
      unfold dropReturn
      rw [List.getLast?_cons_cons]
      split
      · rfl
      · rfl

/-- A text without a line feed is one line. -/
theorem splitLines_last : ∀ {segment : JsString}, LF ∉ segment → splitLines segment = [segment]
  | [], _ => rfl
  | c :: segment, hnone => by
      have hc : c ≠ LF := fun heq => hnone (heq ▸ List.mem_cons_self)
      have hrest := splitLines_last fun h => hnone (List.mem_cons_of_mem _ h)
      have hnot : ¬(c = CR ∧ segment.head? = some LF) := fun h =>
        hnone (List.mem_cons_of_mem _ (List.mem_of_mem_head? h.2))
      rw [splitLines, if_neg hc, if_neg hnot, hrest]
      rfl

/-- A carriage return at the end of a line does not count. -/
theorem trim_dropReturn (line : JsString) :
    JsString.trim (dropReturn line) = JsString.trim line := by
  unfold dropReturn
  split
  · next hlast =>
    obtain ⟨front, rfl⟩ := List.getLast?_eq_some_iff.mp hlast
    rw [List.dropLast_concat, trim_append_blank (by decide)]
  · rfl

/-- Nor does it count before the sequences are removed. -/
theorem trim_strip_dropReturn (line : JsString) :
    JsString.trim (stripAnsi (dropReturn line)) = JsString.trim (stripAnsi line) := by
  unfold dropReturn
  split
  · next hlast =>
    obtain ⟨front, rfl⟩ := List.getLast?_eq_some_iff.mp hlast
    have happend := stripAnsi_append plain_CR front []
    rw [List.dropLast_concat, happend]
    exact (trim_append_blank (by decide) _).symm
  · rfl

/-- **A line of a text, without its escape sequences, is a line of the text without
them**, up to blanks at its ends. -/
theorem exists_strippedLine (text : JsString) {line : JsString} (hline : line ∈ splitLines text) :
    ∃ stripped ∈ splitLines (stripAnsi text),
      JsString.trim stripped = JsString.trim (stripAnsi line) := by
  by_cases hfeed : LF ∈ text
  · obtain ⟨segment, back, htext, hnone⟩ := List.eq_append_cons_of_mem hfeed
    have hshorter : back.length < text.length := by
      rw [htext, List.length_append, List.length_cons]
      omega
    have hnone' : LF ∉ stripAnsi segment := fun hmem => hnone (mem_stripFrom hmem)
    rw [htext, stripAnsi_append plain_LF, splitLines_segment hnone']
    rw [htext, splitLines_segment hnone] at hline
    rcases List.mem_cons.mp hline with rfl | hline
    · refine ⟨_, List.mem_cons_self, ?_⟩
      rw [trim_dropReturn, trim_strip_dropReturn]
    · obtain ⟨stripped, hmem, htrim⟩ := exists_strippedLine back hline
      exact ⟨stripped, List.mem_cons_of_mem _ hmem, htrim⟩
  · have hfeed' : LF ∉ stripAnsi text := fun hmem => hfeed (mem_stripFrom hmem)
    rw [splitLines_last hfeed] at hline
    rw [splitLines_last hfeed', List.mem_singleton.mp hline]
    exact ⟨_, List.mem_singleton_self _, rfl⟩
termination_by text.length

/-! ## Detection -/

/-- A line satisfies one of the markers, without its escape sequences and trimmed. -/
def Prompts (line : JsString) : Prop := hasMarker (JsString.trim (stripAnsi line)) = true

instance : DecidablePred Prompts := fun line =>
  inferInstanceAs (Decidable (hasMarker (JsString.trim (stripAnsi line)) = true))

/-- An empty line has no marker. -/
theorem not_hasMarker_nil : hasMarker [] = false := by decide

/-- A unit of a line is one of the text. -/
theorem mem_of_mem_splitLines {c : UInt16} : ∀ {text : JsString} {line : JsString},
    line ∈ splitLines text → c ∈ line → c ∈ text
  | [], line, hline, hc => by
      rw [List.mem_singleton.mp hline] at hc
      cases hc
  | d :: text, line, hline, hc => by
      unfold splitLines at hline
      split_ifs at hline with hfeed hreturn
      · rcases List.mem_cons.mp hline with rfl | hline
        · cases hc
        · exact List.mem_cons_of_mem _ (mem_of_mem_splitLines hline hc)
      · exact List.mem_cons_of_mem _ (mem_of_mem_splitLines hline hc)
      · unfold consLine at hline
        split at hline
        · rw [List.mem_singleton.mp hline] at hc
          rw [List.mem_singleton.mp hc]
          exact List.mem_cons_self
        · next first lines heq =>
          rcases List.mem_cons.mp hline with rfl | hline
          · rcases List.mem_cons.mp hc with rfl | hc
            · exact List.mem_cons_self
            · exact List.mem_cons_of_mem _
                (mem_of_mem_splitLines (heq ▸ List.mem_cons_self) hc)
          · exact List.mem_cons_of_mem _
              (mem_of_mem_splitLines (heq ▸ List.mem_cons_of_mem _ hline) hc)

/-- Nothing is no prompt. -/
theorem detect_nil : detect [] = none := rfl

/-- **A line with a marker is detected.** -/
theorem detect_isSome {chunk line : JsString} (hline : line ∈ splitLines (stripAnsi chunk))
    (hmarker : hasMarker (JsString.trim line) = true) : (detect chunk).isSome := by
  have hne : JsString.trim line ≠ [] := by
    intro hnil
    rw [hnil, not_hasMarker_nil] at hmarker
    cases hmarker
  have hclean : JsString.trim (stripAnsi chunk) ≠ [] := fun hnil =>
    hne (trim_eq_nil_iff.mpr fun c hc =>
      trim_eq_nil_iff.mp hnil c (mem_of_mem_splitLines hline hc))
  have hstops : stopsAt line = true := by
    unfold stopsAt
    simp [hne, hmarker]
  obtain ⟨place, hplace, hget⟩ := List.mem_iff_getElem.mp hline
  unfold detect
  dsimp only
  rw [if_neg (by simpa using hclean), Option.isSome_map, List.find?_isSome]
  refine ⟨(line, place), ?_, hstops⟩
  rw [List.mk_mem_zipIdx_iff_getElem?, ← hget]
  exact List.getElem?_eq_getElem hplace

/-- **Lines with a prompt at the end of a text are detected**, whatever stands before. -/
theorem detect_suffix {front suffix : JsString} (hfront : front = [] ∨ front.getLast? = some LF)
    (hprompt : ∃ line ∈ splitLines suffix, Prompts line) : (detect (front ++ suffix)).isSome := by
  obtain ⟨line, hline, hmarker⟩ := hprompt
  obtain ⟨stripped, hmem, htrim⟩ := exists_strippedLine suffix hline
  have hmarker' : hasMarker (JsString.trim stripped) = true := by
    rw [htrim]
    exact hmarker
  rcases hfront with rfl | hlast
  · exact detect_isSome hmem hmarker'
  · obtain ⟨before, rfl⟩ := List.getLast?_eq_some_iff.mp hlast
    obtain ⟨lines, -, hlines⟩ := exists_splitLines_append (stripAnsi before)
    refine detect_isSome ?_ hmarker'
    rw [List.append_assoc, List.singleton_append, stripAnsi_append plain_LF, hlines]
    exact List.mem_append_right _ hmem

/-! ## The tail -/

/-- A short text is its own tail. -/
theorem sliceBack_eq_self {s : JsString} {n : ℕ} (h : s.length ≤ n) : sliceBack s n = s := by
  unfold sliceBack
  rw [Nat.sub_eq_zero_of_le h, List.drop_zero]

/-- A tail of a tail is one of the text. -/
theorem sliceBack_append (s chunk : JsString) (n : ℕ) :
    sliceBack (sliceBack s n ++ chunk) n = sliceBack (s ++ chunk) n := by
  by_cases hshort : s.length ≤ n
  · rw [sliceBack_eq_self hshort]
  · have hcut : (s ++ chunk).length - n = s.length - n + chunk.length := by
      rw [List.length_append]
      omega
    have hcut' : (s.drop (s.length - n) ++ chunk).length - n = chunk.length := by
      rw [List.length_append, List.length_drop]
      omega
    have happend : (s ++ chunk).drop (s.length - n) = s.drop (s.length - n) ++ chunk :=
      List.drop_append_of_le_length (Nat.sub_le _ _)
    unfold sliceBack
    rw [hcut', hcut, ← List.drop_drop, happend]

/-- A tail holds a short enough end of a text, from a line boundary on. -/
theorem sliceBack_suffix {front suffix : JsString} {n : ℕ} (hlength : suffix.length ≤ n)
    (hfront : front = [] ∨ front.getLast? = some LF) :
    ∃ front', sliceBack (front ++ suffix) n = front' ++ suffix ∧
      (front' = [] ∨ front'.getLast? = some LF) := by
  have hcut : (front ++ suffix).length - n ≤ front.length := by
    rw [List.length_append]
    omega
  refine ⟨front.drop ((front ++ suffix).length - n), List.drop_append_of_le_length hcut, ?_⟩
  rw [List.getLast?_drop, List.drop_eq_nil_iff]
  rcases hfront with rfl | hlast
  · exact .inl (Nat.zero_le _)
  · by_cases hall : front.length ≤ (front ++ suffix).length - n
    · exact .inl hall
    · exact .inr ((if_neg hall).trans hlast)

/-! ## Runners -/

/-- The detector of the daemon, with any detection of failures. -/
def approvalDetectors
    (detectStructuredFailure : Option ℤ → Option JsString → JsString →
      Option DaemonTaskFailurePayload) : Detectors :=
  ⟨detect, detectStructuredFailure⟩

namespace TaskRunner

/-- **What a runner that is not awaiting approval has heard** of its child since it was made
or resumed. -/
inductive Heard (detectors : Detectors) : TaskRunner → JsString → Prop
  | fresh {runner : TaskRunner} (htail : runner.tail = [])
      (hidle : runner.awaitingApproval = false) : Heard detectors runner []
  | data {runner : TaskRunner} {output : JsString} (h : Heard detectors runner output)
      (chunk : JsString)
      (hidle : (runner.onData detectors chunk).1.awaitingApproval = false) :
      Heard detectors (runner.onData detectors chunk).1 (output ++ chunk)
  /-- Whatever leaves the tail and the flag as they are, such as the end of the child. -/
  | other {runner runner' : TaskRunner} {output : JsString} (h : Heard detectors runner output)
      (htail : runner'.tail = runner.tail)
      (hidle : runner'.awaitingApproval = runner.awaitingApproval) :
      Heard detectors runner' output

/-- Chunks of output one after the other, and all that is done about them. -/
def feed (detectors : Detectors) : List JsString → TaskRunner → Reaction
  | [], runner => (runner, [])
  | chunk :: chunks, runner =>
    let first := runner.onData detectors chunk
    let rest := feed detectors chunks first.1
    (rest.1, first.2 ++ rest.2)

/-- Whether an effect is an `approval:request`. -/
def isRequest : RunnerEffect → Bool
  | .emit (.APPROVAL_REQUEST _) => true
  | _ => false

section Heard

variable {runner : TaskRunner} {output chunk : JsString}

/-- A new runner has heard nothing. -/
theorem create_heard (detectors : Detectors) (taskId : TaskId) (input : Json) :
    Heard detectors (create taskId input) [] :=
  .fresh rfl rfl

/-- What a chunk does to a runner that awaits approval: nothing but a log. -/
theorem onData_awaiting (detectors : Detectors) (hwaits : runner.awaitingApproval = true) :
    (runner.onData detectors chunk).1.awaitingApproval = true ∧
      (runner.onData detectors chunk).2.countP isRequest = 0 := by
  unfold onData
  dsimp only
  rw [if_pos hwaits]
  exact ⟨hwaits, rfl⟩

/-- What it does to one that does not. -/
theorem onData_idle (detectors : Detectors) (hidle : runner.awaitingApproval = false) :
    (runner.onData detectors chunk).1.tail = sliceBack (runner.tail ++ chunk) TAIL_LIMIT ∧
      (runner.onData detectors chunk).1.awaitingApproval =
        (detectors.detect (sliceBack (runner.tail ++ chunk) TAIL_LIMIT)).isSome ∧
      (runner.onData detectors chunk).2.countP isRequest =
        if (detectors.detect (sliceBack (runner.tail ++ chunk) TAIL_LIMIT)).isSome then 1
        else 0 := by
  have hnot : ¬runner.awaitingApproval = true := by
    rw [hidle]
    exact Bool.false_ne_true
  unfold onData
  dsimp only
  generalize sliceBack (runner.tail ++ chunk) TAIL_LIMIT = tail
  rw [if_neg hnot]
  cases detectors.detect tail with
  | none => exact ⟨rfl, hidle, rfl⟩
  | some reason => exact ⟨rfl, rfl, rfl⟩

/-- **A runner that is not awaiting approval keeps the end of what it has heard, and there is
no prompt in it.** -/
theorem Heard.tail_eq {detectors : Detectors} (hempty : detectors.detect [] = none)
    (h : Heard detectors runner output) :
    runner.awaitingApproval = false ∧ runner.tail = sliceBack output TAIL_LIMIT ∧
      detectors.detect runner.tail = none := by
  induction h with
  | fresh htail hidle => exact ⟨hidle, htail, by rw [htail, hempty]⟩
  | @data runner output h chunk hidle ih =>
      obtain ⟨hidle', htail, -⟩ := ih
      obtain ⟨hnext, hwaits, -⟩ := @onData_idle runner chunk detectors hidle'
      rw [hnext]
      refine ⟨hidle, ?_, ?_⟩
      · rw [htail, sliceBack_append]
      · rw [hidle] at hwaits
        exact Option.isNone_iff_eq_none.mp (by simpa using hwaits.symm)
  | other h htail hidle ih => rwa [htail, hidle]

/-- While it awaits approval a runner asks for none. -/
theorem feed_awaiting (detectors : Detectors) (hwaits : runner.awaitingApproval = true)
    (chunks : List JsString) : (feed detectors chunks runner).2.countP isRequest = 0 := by
  induction chunks generalizing runner with
  | nil => rfl
  | cons chunk chunks ih =>
      obtain ⟨hnext, hnone⟩ := @onData_awaiting runner chunk detectors hwaits
      unfold feed
      dsimp only
      rw [List.countP_append, hnone, ih hnext]

end Heard

end TaskRunner

open TaskRunner in
/-- **A prompt at the end of the output is reported once, however the output is cut into
chunks.** -/
theorem prompt_detected
    {failures : Option ℤ → Option JsString → JsString → Option DaemonTaskFailurePayload}
    {runner : TaskRunner} {output : JsString}
    (hheard : Heard (approvalDetectors failures) runner output) (chunks : List JsString)
    {front suffix : JsString} (houtput : output ++ chunks.flatten = front ++ suffix)
    (hboundary : front = [] ∨ front.getLast? = some LF) (hlength : suffix.length ≤ TAIL_LIMIT)
    (hprompt : ∃ line ∈ splitLines suffix, Prompts line) :
    (feed (approvalDetectors failures) chunks runner).2.countP isRequest = 1 := by
  induction chunks generalizing runner output with
  | nil =>
      obtain ⟨-, htail, hnone⟩ := hheard.tail_eq detect_nil
      rw [List.flatten_nil, List.append_nil] at houtput
      obtain ⟨front', hslice, hfront'⟩ := sliceBack_suffix hlength hboundary
      have hfound := detect_suffix hfront' hprompt
      have hnone : detect runner.tail = none := hnone
      rw [← hslice, ← houtput, ← htail, hnone] at hfound
      cases hfound
  | cons chunk chunks ih =>
      obtain ⟨hidle, -, -⟩ := hheard.tail_eq detect_nil
      obtain ⟨-, hwaits, hcount⟩ := @onData_idle runner chunk (approvalDetectors failures) hidle
      unfold feed
      dsimp only
      rw [List.countP_append, hcount]
      cases hfound : ((approvalDetectors failures).detect
          (sliceBack (runner.tail ++ chunk) TAIL_LIMIT)).isSome with
      | true =>
          rw [feed_awaiting _ (hwaits.trans hfound) chunks]
          rfl
      | false =>
          have hrest := ih (hheard.data chunk (hwaits.trans hfound)) (by
            rw [List.append_assoc, ← List.flatten_cons, houtput])
          rw [hrest]
          rfl

/-- A prompt that is cut within its line and within an escape sequence. -/
def splitPrompt : List JsString := [js "done\nrm a? (y", [47, 27, 91], js "0mn)"]

/-- A prompt that comes in two chunks. -/
theorem prompt_detected_split :
    (TaskRunner.feed (approvalDetectors fun _ _ _ => none) splitPrompt
      (TaskRunner.create 0 sampleInput)).2.countP TaskRunner.isRequest = 1 := by
  have houtput : [] ++ splitPrompt.flatten =
    js "done\n" ++ (js "rm a? (y/" ++ 27 :: js "[0mn)") := by
    decide
  refine prompt_detected (TaskRunner.create_heard _ 0 sampleInput) splitPrompt houtput
    (.inr ?_) ?_ ?_
  · decide
  · decide
  · exact ⟨js "rm a? (y/" ++ 27 :: js "[0mn)", by decide, by decide⟩

end CodeCaller
