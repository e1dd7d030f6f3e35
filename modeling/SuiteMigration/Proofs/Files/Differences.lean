import Mathlib.Tactic.Common
import Mathlib.Data.List.Basic
import SuiteMigration.Report

/-!
# Differences as edit scripts

The printed differences of a file hold both of its texts: its lines without those that are added
spell the text before, and its lines without those that are removed spell the text after.

The lines that the walk back picks are a common subsequence of both texts, whatever the table holds,
because a line is picked only where both texts have it and both are left behind. Along a common
subsequence the merge never stops short: once it has passed the lines before the next shared line in
both texts, all three go on with that line.

## Main definitions

* `LineDiff.MergesAlong` - the rounds of the merge, up to the end of both lists
* `LineDiff.linesWithout` - the lines of some chunks without those of one fate
* `unmarked` - the lines behind certain marks

## Main results

* `LineDiff.commonLines_sublist` - the walk back picks a common subsequence
* `LineDiff.mergesAlong_of_sublist` - along a common subsequence the merge ends
* `LineDiff.MergesAlong.linesWithout` - the merge gives both lists back
* `report_is_edit_script` - what is printed about a file that changed
-/

namespace SuiteMigration

/-! ### Lines of a text -/

namespace Text

/-- A line and the text after it are cut one after the other. -/
theorem lines_cons {line : String} (single : '\n' ∉ line.toList) (rest : String) :
    lines (line ++ "\n" ++ rest) = line :: lines rest := by
  rw [lines_append, lines_of_notMem single]
  rfl

/-- Lines that are joined are cut again. -/
theorem lines_joinLines {parts : List String} (nonempty : parts ≠ [])
    (single : ∀ line ∈ parts, '\n' ∉ line.toList) : lines (joinLines parts) = parts := by
  rw [joinLines]
  induction parts with
  | nil => exact absurd rfl nonempty
  | cons line later ih =>
    obtain ⟨here, single⟩ := List.forall_mem_cons.1 single
    cases later with
    | nil => simpa using lines_of_notMem here
    | cons next later =>
      rw [String.intercalate_cons_cons, lines_cons here, ih (List.cons_ne_nil _ _) single]

end Text

namespace LineDiff

/-! ### The walk back -/

theorem take_succ_eq {lines : Array String} {row : Nat} (inside : row < lines.size) :
    lines.toList.take (row + 1) = lines.toList.take row ++ [lines.getD row ""] := by
  rw [List.take_add_one]
  simp [inside]

/-- The lines picked from some place on are a common subsequence of what comes before that place. -/
theorem walkBack_sublist (first second : Array String) (cells : Array Nat) (rows columns : Nat)
    (found : List String) (enough : rows ≤ first.size) (enough' : columns ≤ second.size) :
    ∃ picked, walkBack first second cells rows columns found = picked ++ found ∧
      picked.Sublist (first.toList.take rows) ∧ picked.Sublist (second.toList.take columns) := by
  fun_induction walkBack first second cells rows columns found with
  | case1 => exact ⟨[], rfl, List.nil_sublist _, List.nil_sublist _⟩
  | case2 => exact ⟨[], rfl, List.nil_sublist _, List.nil_sublist _⟩
  | case3 row column found line same ih =>
    obtain ⟨picked, answer, inFirst, inSecond⟩ := ih (by omega) (by omega)
    refine ⟨picked ++ [line], ?_, ?_, ?_⟩
    · rw [answer, List.append_assoc]
      rfl
    · rw [take_succ_eq (by omega)]
      exact inFirst.append_right _
    · rw [take_succ_eq (by omega), ← same]
      exact inSecond.append_right _
  | case4 => exact ⟨[], rfl, List.nil_sublist _, List.nil_sublist _⟩
  | case5 row column found line differ inside left ih =>
    obtain ⟨picked, answer, inFirst, inSecond⟩ := ih (by omega) (by omega)
    refine ⟨picked, answer, inFirst, inSecond.trans ?_⟩
    exact List.take_sublist_take_left (by omega)
  | case6 row column found line differ inside up ih =>
    obtain ⟨picked, answer, inFirst, inSecond⟩ := ih (by omega) (by omega)
    refine ⟨picked, answer, inFirst.trans ?_, inSecond⟩
    exact List.take_sublist_take_left (by omega)

/-- The walk back picks a common subsequence. -/
theorem commonLines_sublist (first second : List String) :
    (commonLines first second).Sublist first ∧ (commonLines first second).Sublist second := by
  obtain ⟨picked, answer, inFirst, inSecond⟩ := walkBack_sublist first.toArray second.toArray
    (lengthTable first.toArray second.toArray) first.toArray.size second.toArray.size []
    (Nat.le_refl _) (Nat.le_refl _)
  rw [List.append_nil] at answer
  rw [commonLines, answer]
  simpa using And.intro inFirst inSecond

/-! ### Rounds of the merge -/

/-- What a round leaves of a list behind the lines that all three start with. -/
def afterRound (shared lines : List String) : List String :=
  lines.drop (runBefore shared lines).length

/-- All three lists start with the shared run. -/
theorem sharedRun_isPrefix (first second shared : List String) :
    sharedRun first second shared <+: first ∧ sharedRun first second shared <+: second ∧
      sharedRun first second shared <+: shared := by
  fun_induction sharedRun first second shared with
  | case1 a first b second c shared same ih =>
    obtain ⟨rfl, rfl⟩ := same
    simpa only [List.prefix_cons_inj] using ih
  | case2 | case3 => simp

theorem sharedRun_ne_nil (line : String) (first second shared : List String) :
    sharedRun (line :: first) (line :: second) (line :: shared) ≠ [] := by
  simp [sharedRun]

theorem append_drop_of_isPrefix {run lines : List String} (start : run <+: lines) :
    run ++ lines.drop run.length = lines := by
  obtain ⟨rest, rfl⟩ := start
  rw [List.drop_left]

theorem runBefore_append_afterRound (shared lines : List String) :
    runBefore shared lines ++ afterRound shared lines = lines :=
  append_drop_of_isPrefix <| List.takeWhile_prefix _

@[simp] theorem runBefore_nil_left (lines : List String) : runBefore [] lines = lines := by
  induction lines with
  | nil => rfl
  | cons line lines ih => exact congrArg (line :: ·) ih

theorem runBefore_cons (next : String) (shared : List String) (line : String)
    (lines : List String) : runBefore (next :: shared) (line :: lines) =
      if line = next then [] else line :: runBefore (next :: shared) lines := by
  by_cases same : line = next <;> simp [runBefore, same]

/-- A common subsequence misses no line up to its first one. -/
theorem sublist_afterRound {shared lines : List String} (common : shared.Sublist lines) :
    shared.Sublist (afterRound shared lines) := by
  cases shared with
  | nil => exact List.nil_sublist _
  | cons next shared =>
    induction lines with
    | nil => cases common
    | cons line lines ih =>
      rw [afterRound, runBefore_cons]
      split
      · exact common
      · next differ =>
        rcases List.sublist_cons_iff.1 common with later | ⟨rest, here, -⟩
        · exact ih later
        · exact absurd (List.cons.inj here).1.symm differ

/-- A round takes a line, because a common subsequence cannot be left behind. -/
theorem takes_of_sublist {shared first second : List String} (inFirst : shared.Sublist first)
    (inSecond : shared.Sublist second) (more : first ≠ [] ∨ second ≠ [])
    (none : sharedRun first second shared = []) :
    runBefore shared first ≠ [] ∨ runBefore shared second ≠ [] := by
  cases shared with
  | nil => simpa using more
  | cons next shared =>
    -- Both lists hold the next shared line, and they do not both start with it.
    obtain ⟨a, first, rfl⟩ :=
      List.exists_cons_of_ne_nil (List.ne_nil_of_mem (inFirst.mem (.head _)))
    obtain ⟨b, second, rfl⟩ :=
      List.exists_cons_of_ne_nil (List.ne_nil_of_mem (inSecond.mem (.head _)))
    rw [runBefore_cons, runBefore_cons]
    by_cases same : a = next
    · by_cases same' : b = next
      · subst same same'
        exact absurd none (sharedRun_ne_nil _ _ _ _)
      · simp [same']
    · simp [same]

/-- The rounds of the merge along a shared list, up to the end of both lists, and the chunks they
give. The number of rounds is not bounded. -/
inductive MergesAlong : (shared first second : List String) → List Chunk → Prop
  | finished (shared : List String) : MergesAlong shared [] [] []
  | round {shared first second same : List String} {later : List Chunk}
      (more : first ≠ [] ∨ second ≠ []) (isRun : sharedRun first second shared = same)
      (rest : MergesAlong (shared.drop same.length)
        (afterRound (shared.drop same.length) (first.drop same.length))
        (afterRound (shared.drop same.length) (second.drop same.length)) later) :
    MergesAlong shared first second
      (chunkOf .same same ++
        chunkOf .removed (runBefore (shared.drop same.length) (first.drop same.length)) ++
        chunkOf .added (runBefore (shared.drop same.length) (second.drop same.length)) ++ later)

theorem drop_sublist {run shared lines : List String} (inShared : run <+: shared)
    (inLines : run <+: lines) (common : shared.Sublist lines) :
    (shared.drop run.length).Sublist (lines.drop run.length) := by
  obtain ⟨shared, rfl⟩ := inShared
  obtain ⟨lines, rfl⟩ := inLines
  rw [List.drop_left, List.drop_left]
  exact (List.append_sublist_append_left run).1 common

/-- Along a common subsequence the merge ends, after no more rounds than there are lines. -/
theorem mergesAlong_of_sublist {rounds : Nat} {shared first second : List String}
    (inFirst : shared.Sublist first) (inSecond : shared.Sublist second)
    (enough : first.length + second.length ≤ rounds) :
    MergesAlong shared first second (mergeAlong rounds shared first second) := by
  induction rounds generalizing shared first second with
  | zero =>
    obtain rfl : first = [] := List.length_eq_zero_iff.1 (by omega)
    obtain rfl : second = [] := List.length_eq_zero_iff.1 (by omega)
    exact .finished shared
  | succ rounds ih =>
    rw [mergeAlong]
    split
    · next none =>
      simp only [Bool.and_eq_true, List.isEmpty_iff] at none
      obtain ⟨rfl, rfl⟩ := none
      exact .finished shared
    · next some =>
      have more : first ≠ [] ∨ second ≠ [] := by
        rw [Bool.and_eq_true, List.isEmpty_iff, List.isEmpty_iff] at some
        exact Decidable.not_and_iff_or_not.1 some
      obtain ⟨startsFirst, startsSecond, startsShared⟩ := sharedRun_isPrefix first second shared
      generalize same_eq : sharedRun first second shared = same
        at startsFirst startsSecond startsShared
      have leftFirst := sublist_afterRound (drop_sublist startsShared startsFirst inFirst)
      have leftSecond := sublist_afterRound (drop_sublist startsShared startsSecond inSecond)
      refine .round more same_eq (ih leftFirst leftSecond ?_)
      have sizeFirst := congrArg List.length (append_drop_of_isPrefix startsFirst)
      have sizeSecond := congrArg List.length (append_drop_of_isPrefix startsSecond)
      have cutFirst := congrArg List.length
        (runBefore_append_afterRound (shared.drop same.length) (first.drop same.length))
      have cutSecond := congrArg List.length
        (runBefore_append_afterRound (shared.drop same.length) (second.drop same.length))
      -- The rounds that are left are enough, because each takes a line off one of the texts.
      rw [List.length_append] at sizeFirst sizeSecond cutFirst cutSecond
      by_cases some_same : same = []
      · subst some_same
        have takes := takes_of_sublist inFirst inSecond more same_eq
        rw [← List.length_pos_iff, ← List.length_pos_iff] at takes
        simp only [List.length_nil, List.drop_zero] at *
        omega
      · have := List.length_pos_iff.2 some_same
        omega

/-! ### The lines of chunks -/

/-- The lines of some chunks without those of one fate. -/
def linesWithout (fate : Change) (chunks : List Chunk) : List String :=
  (chunks.filter (·.change ≠ fate)).flatMap (·.lines)

theorem linesWithout_append (fate : Change) (first second : List Chunk) :
    linesWithout fate (first ++ second) = linesWithout fate first ++ linesWithout fate second := by
  simp [linesWithout]

theorem linesWithout_chunkOf (fate change : Change) (lines : List String) :
    linesWithout fate (chunkOf change lines) = if change = fate then [] else lines := by
  cases lines with
  | nil => simp [linesWithout, chunkOf]
  | cons => by_cases same : change = fate <;> simp [linesWithout, chunkOf, same]

/-- The chunks of a merge hold both lists. -/
theorem MergesAlong.linesWithout {shared first second : List String} {chunks : List Chunk}
    (merges : MergesAlong shared first second chunks) :
    linesWithout .added chunks = first ∧ linesWithout .removed chunks = second := by
  induction merges with
  | finished => exact ⟨rfl, rfl⟩
  | @round shared first second same later more isRun rest ih =>
    subst isRun
    obtain ⟨startsFirst, startsSecond, -⟩ := sharedRun_isPrefix first second shared
    simp only [linesWithout_append, linesWithout_chunkOf, ih, reduceCtorEq, if_false, if_true,
      List.nil_append, List.append_assoc, runBefore_append_afterRound,
      append_drop_of_isPrefix startsFirst, append_drop_of_isPrefix startsSecond, and_self]

theorem ne_nil_of_mem_chunkOf {change : Change} {lines : List String} {chunk : Chunk}
    (member : chunk ∈ chunkOf change lines) : chunk.lines ≠ [] := by
  cases lines with
  | nil => cases member
  | cons line lines =>
    obtain rfl := List.mem_singleton.1 member
    exact List.cons_ne_nil line lines

/-- No chunk of a merge is empty. -/
theorem MergesAlong.ne_nil {shared first second : List String} {chunks : List Chunk}
    (merges : MergesAlong shared first second chunks) : ∀ chunk ∈ chunks, chunk.lines ≠ [] := by
  induction merges with
  | finished => exact List.forall_mem_nil _
  | round more isRun rest ih =>
    simp only [List.mem_append]
    rintro chunk (((same | removed) | added) | later)
    · exact ne_nil_of_mem_chunkOf same
    · exact ne_nil_of_mem_chunkOf removed
    · exact ne_nil_of_mem_chunkOf added
    · exact ih chunk later

/-! ### The chunks of two texts -/

/-- The shared lines, taken as a text and cut again, are those lines, or none. -/
theorem linesOf_joinLines {lines : List String} (single : ∀ line ∈ lines, '\n' ∉ line.toList) :
    (linesOf (Text.joinLines lines)).Sublist lines := by
  rw [linesOf]
  split
  · exact List.nil_sublist _
  · by_cases none : lines = []
    · subst none
      contradiction
    · rw [Text.lines_joinLines none single]

theorem linesOf_of_ne {text : String} (some : text ≠ "") : linesOf text = Text.lines text := by
  rw [linesOf, if_neg (by simpa using some)]

end LineDiff

open LineDiff in
/-- The merge that gives the chunks of two texts ends. -/
theorem mergesAlong_lineDiff {before after : String} (some_before : before ≠ "")
    (some_after : after ≠ "") :
    MergesAlong (linesOf (Text.joinLines (commonLines (Text.lines before) (Text.lines after))))
      (Text.lines before) (Text.lines after) (lineDiff before after) := by
  obtain ⟨inBefore, inAfter⟩ := commonLines_sublist (Text.lines before) (Text.lines after)
  have joined := linesOf_joinLines fun line member =>
    Text.notMem_of_mem_lines (inBefore.subset member)
  rw [lineDiff, linesOf_of_ne some_before, linesOf_of_ne some_after]
  exact mergesAlong_of_sublist (joined.trans inBefore) (joined.trans inAfter) (Nat.le_refl _)

/-! ### The printed lines -/

/-- The lines that begin with one of the marks, without it. -/
def unmarked (marks : List Char) (lines : List String) : List String :=
  lines.filterMap fun line =>
    match line.toList with
    | mark :: rest => if mark ∈ marks then some (.ofList rest) else none
    | [] => none

/-- The lines of a chunk behind its mark. -/
def Chunk.marked (chunk : Chunk) : List String :=
  chunk.lines.map (chunk.change.mark ++ ·)

theorem unmarked_append (marks : List Char) (first second : List String) :
    unmarked marks (first ++ second) = unmarked marks first ++ unmarked marks second :=
  List.filterMap_append

/-- Each change has its own mark. -/
theorem exists_mark (change : Change) : ∃ mark ∈ [' ', '-', '+'],
    (∀ line : String, (change.mark ++ line).toList = mark :: line.toList) ∧
      (mark ∈ [' ', '-'] ↔ change ≠ .added) ∧ (mark ∈ [' ', '+'] ↔ change ≠ .removed) := by
  cases change with
  | same => exact ⟨' ', by simp, by simp [Change.mark], by decide, by decide⟩
  | removed => exact ⟨'-', by simp, by simp [Change.mark], by decide, by decide⟩
  | added => exact ⟨'+', by simp, by simp [Change.mark], by decide, by decide⟩

theorem unmarked_marked {marks : List Char} {mark : Char} {chunk : Chunk}
    (isMark : ∀ line : String, (chunk.change.mark ++ line).toList = mark :: line.toList) :
    unmarked marks chunk.marked = if mark ∈ marks then chunk.lines else [] := by
  rw [Chunk.marked, unmarked, List.filterMap_map]
  by_cases member : mark ∈ marks <;> simp [isMark, member]

/-- Without the lines behind other marks the lines of chunks are those of the text before, or of the
text after. -/
theorem unmarked_flatMap_marked (chunks : List Chunk) :
    unmarked [' ', '-'] (chunks.flatMap Chunk.marked) = LineDiff.linesWithout .added chunks ∧
      unmarked [' ', '+'] (chunks.flatMap Chunk.marked) =
        LineDiff.linesWithout .removed chunks := by
  induction chunks with
  | nil => exact ⟨rfl, rfl⟩
  | cons chunk later ih =>
    obtain ⟨mark, -, isMark, notAdded, notRemoved⟩ := exists_mark chunk.change
    rw [List.flatMap_cons, unmarked_append, unmarked_append, ih.1, ih.2, unmarked_marked isMark,
      unmarked_marked isMark]
    simp only [notAdded, notRemoved, LineDiff.linesWithout, List.filter_cons, decide_eq_true_eq]
    constructor <;> split <;> rfl

theorem plainText_append (first second : List Span) :
    plainText (first ++ second) = plainText first ++ plainText second := by
  rw [← String.toList_inj]
  simp [plainText, String.toList_join]

/-- Chunks are printed line by line. -/
theorem plainText_map_span (chunks : List Chunk) :
    plainText (chunks.map Chunk.span) =
      String.join ((chunks.flatMap Chunk.marked).map (· ++ "\n")) := by
  rw [← String.toList_inj]
  induction chunks with
  | nil => rfl
  | cons chunk later ih =>
    rw [List.map_cons, plainText, List.map_cons, String.join_cons, ← plainText,
      String.toList_append, ih]
    simp [Chunk.span, Chunk.marked, String.toList_join, List.flatMap_map]

/-- What is printed about a file that changed. The merge behind it ends, and the text of each chunk
is cut into the lines of the chunk. After the headers come lines with one of three marks: those kept
or removed are the lines of the text before, and those kept or added the lines of the text after. -/
theorem report_is_edit_script {file : MigratedFile} (changed : file.before ≠ file.after)
    (some_before : file.before ≠ "") (some_after : file.after ≠ "") :
    LineDiff.MergesAlong
      (LineDiff.linesOf (Text.joinLines
        (LineDiff.commonLines (Text.lines file.before) (Text.lines file.after))))
      (Text.lines file.before) (Text.lines file.after) (lineDiff file.before file.after) ∧
    (∀ chunk ∈ lineDiff file.before file.after,
      Text.lines (Text.joinLines chunk.lines) = chunk.lines) ∧
    ∃ printed : List String,
      plainText (diffReport file) = "--- " ++ file.path.text ++ "\n" ++
        ("+++ " ++ file.path.text ++ "\n") ++ String.join (printed.map (· ++ "\n")) ∧
      (∀ line ∈ printed, '\n' ∉ line.toList ∧
        ∃ mark ∈ [' ', '-', '+'], line.toList.head? = some mark) ∧
      unmarked [' ', '-'] printed = Text.lines file.before ∧
      unmarked [' ', '+'] printed = Text.lines file.after := by
  have merges := mergesAlong_lineDiff some_before some_after
  obtain ⟨isBefore, isAfter⟩ := merges.linesWithout
  have single : ∀ chunk ∈ lineDiff file.before file.after, ∀ line ∈ chunk.lines,
      '\n' ∉ line.toList := by
    intro chunk isChunk line isLine
    -- Every line comes from one of the texts, and a line of a text has no line feed in it.
    by_cases added : chunk.change = .added
    · have kept : line ∈ LineDiff.linesWithout .removed (lineDiff file.before file.after) :=
        List.mem_flatMap.2 ⟨chunk, List.mem_filter.2 ⟨isChunk, by simp [added]⟩, isLine⟩
      exact Text.notMem_of_mem_lines (isAfter ▸ kept)
    · have kept : line ∈ LineDiff.linesWithout .added (lineDiff file.before file.after) :=
        List.mem_flatMap.2 ⟨chunk, List.mem_filter.2 ⟨isChunk, by simp [added]⟩, isLine⟩
      exact Text.notMem_of_mem_lines (isBefore ▸ kept)
  obtain ⟨printedBefore, printedAfter⟩ := unmarked_flatMap_marked (lineDiff file.before file.after)
  refine ⟨merges, fun chunk isChunk => ?_, (lineDiff file.before file.after).flatMap Chunk.marked,
    ?_, ?_, printedBefore.trans isBefore, printedAfter.trans isAfter⟩
  · exact Text.lines_joinLines (merges.ne_nil chunk isChunk) (single chunk isChunk)
  · have isChanged : file.changed = true := by simpa [MigratedFile.changed] using changed
    rw [diffReport, if_pos isChanged, plainText_append, plainText_map_span]
    simp [plainText, header]
  · intro line isLine
    obtain ⟨chunk, isChunk, isLine⟩ := List.mem_flatMap.1 isLine
    obtain ⟨plain, isPlain, rfl⟩ := List.mem_map.1 isLine
    obtain ⟨mark, isMark, spelled, -⟩ := exists_mark chunk.change
    rw [spelled]
    refine ⟨?_, mark, isMark, rfl⟩
    rw [List.mem_cons, not_or]
    refine ⟨?_, single chunk isChunk plain isPlain⟩
    rintro rfl
    revert isMark
    decide

/-- Two texts that share an empty line, which the merge does not follow. -/
theorem report_is_edit_script_emptyLine :
    let file : MigratedFile := { path := ⟨"A.swift"⟩, before := "a\n", after := "b\n" }
    file.before ≠ file.after ∧ file.before ≠ "" ∧ file.after ≠ "" ∧
      LineDiff.commonLines (Text.lines file.before) (Text.lines file.after) = [""] ∧
      ∃ printed : List String,
        plainText (diffReport file) = "--- " ++ file.path.text ++ "\n" ++
          ("+++ " ++ file.path.text ++ "\n") ++ String.join (printed.map (· ++ "\n")) ∧
        unmarked [' ', '-'] printed = ["a", ""] ∧ unmarked [' ', '+'] printed = ["b", ""] := by
  intro file
  have changed : file.before ≠ file.after := by decide
  obtain ⟨-, -, printed, text_eq, -, before, after⟩ :=
    report_is_edit_script changed (by decide) (by decide)
  exact ⟨changed, by decide, by decide, by decide +kernel, printed, text_eq,
    before.trans (by decide +kernel), after.trans (by decide +kernel)⟩

end SuiteMigration
