import Mathlib.Algebra.Order.BigOperators.Group.List
import Mathlib.Algebra.Order.Group.Nat
import Mathlib.Data.List.Forall2
import Mathlib.Data.List.DropRight
import Mathlib.Data.List.Flatten
import Metamodel.Report.Markdown

/-!
# Tables of a Markdown page

A reader of Markdown takes the lines up to the first blank one as the rows of a table, and cuts a row
into its cells at the pipes that no backslash escapes; a backslash before another backslash escapes
that one and not the pipe behind it. Blanks around a cell do not belong to it, and an escaped pipe is
read as a pipe (`readTable`).

What is written as rows of padded cells is read back as these cells if and only if each cell is read
back by itself (`readTable_eq_iff`). For a cell that is written as it is, this means that it holds no
pipe (`Cell.reads_plain_iff`), and for one with its pipes escaped, that none of them stood behind an
unescaped backslash (`Cell.reads_escaped_iff`); either holds no line end and has no blanks around it.
-/

namespace Metamodel.Markdown

/-! ## Marks -/

/-- A character that stands by itself, or one with a backslash before it. -/
inductive Mark where
  | single (c : Char)
  | behindBackslash (c : Char)
  deriving DecidableEq

namespace Mark

/-- The pipe that ends a cell. -/
abbrev bar : Mark := single '|'

/-- The pipe that does not. -/
abbrev escapedBar : Mark := behindBackslash '|'

/-- The characters of a mark. -/
def written : Mark → List Char
  | single c => [c]
  | behindBackslash c => ['\\', c]

/-- What a mark in a cell stands for: only pipes lose their backslash. -/
def text : Mark → List Char
  | single c => [c]
  | behindBackslash c => if c = '|' then ['|'] else ['\\', c]

end Mark

/-- The marks of a text. A backslash goes with the character after it, if there is one. -/
def marks : List Char → List Mark
  | '\\' :: c :: cs => .behindBackslash c :: marks cs
  | c :: cs => .single c :: marks cs
  | [] => []

/-- What a text in a cell stands for. -/
def unescape (cs : List Char) : List Char :=
  (marks cs).flatMap Mark.text

theorem marks_cons {c : Char} (h : c ≠ '\\') (cs : List Char) :
    marks (c :: cs) = .single c :: marks cs := by
  rw [marks]
  rintro d ds rfl
  exact absurd rfl h

/-- The marks are those of the text up to a character that is no backslash, and those of the rest. -/
theorem marks_append_cons {c : Char} (h : c ≠ '\\') (cs rest : List Char) :
    marks (cs ++ c :: rest) = marks (cs ++ [c]) ++ marks rest := by
  fun_induction marks cs with
  | case1 d cs ih => simp only [List.cons_append, marks, ih]
  | case2 d cs hpair ih =>
    cases cs with
    | nil =>
      by_cases hd : d = '\\'
      · subst hd
        rfl
      · simp [marks_cons hd, marks_cons h, marks]
    | cons e cs =>
      have hd : d ≠ '\\' := by
        rintro rfl
        exact hpair e cs rfl rfl
      simp only [List.cons_append] at ih ⊢
      rw [marks_cons hd, ih, marks_cons hd, List.cons_append]
  | case3 => simp [marks_cons h, marks]

theorem flatMap_written_marks (cs : List Char) : (marks cs).flatMap Mark.written = cs := by
  fun_induction marks cs <;> simp_all [Mark.written]

/-- A mark in a cell stands for characters of the cell. -/
theorem mem_of_mem_text {cs : List Char} {m : Mark} (hm : m ∈ marks cs) {c : Char}
    (hc : c ∈ m.text) : c ∈ cs := by
  rw [← flatMap_written_marks cs, List.mem_flatMap]
  refine ⟨m, hm, ?_⟩
  cases m with
  | single d => exact hc
  | behindBackslash d =>
    by_cases hd : d = '|'
    · simp_all [Mark.text, Mark.written]
    · simpa [Mark.text, Mark.written, hd] using hc

/-- One more character is one more mark, or goes with the backslash before it. -/
theorem marks_concat (cs : List Char) (c : Char) :
    marks (cs ++ [c]) = marks cs ++ marks [c] ∨
      ∃ ms, marks cs = ms ++ [.single '\\'] ∧ marks (cs ++ [c]) = ms ++ [.behindBackslash c] := by
  fun_induction marks cs with
  | case1 d cs ih =>
    rw [List.cons_append, List.cons_append, marks]
    obtain h | ⟨ms, hcs, happend⟩ := ih
    · exact .inl (by rw [h, List.cons_append])
    · exact .inr ⟨.behindBackslash d :: ms, by rw [hcs, List.cons_append],
        by rw [happend, List.cons_append]⟩
  | case2 d cs hpair ih =>
    by_cases hd : d = '\\'
    · cases cs with
      | nil => exact .inr ⟨[], by simp [hd, marks], by simp [hd, marks]⟩
      | cons e cs => exact absurd rfl (hpair e cs hd)
    · rw [List.cons_append, marks_cons hd]
      obtain h | ⟨ms, hcs, happend⟩ := ih
      · exact .inl (by rw [h, List.cons_append])
      · exact .inr ⟨.single d :: ms, by rw [hcs, List.cons_append],
          by rw [happend, List.cons_append]⟩
  | case3 => exact .inl rfl

theorem unescape_concat {c : Char} (hpipe : c ≠ '|') (hslash : c ≠ '\\') (cs : List Char) :
    unescape (cs ++ [c]) = unescape cs ++ [c] := by
  unfold unescape
  obtain h | ⟨ms, hcs, happend⟩ := marks_concat cs c
  · simp [h, marks_cons hslash, marks, Mark.text]
  · simp [hcs, happend, Mark.text, hpipe]

theorem bar_mem_marks_concat {c : Char} (hpipe : c ≠ '|') (hslash : c ≠ '\\') (cs : List Char) :
    .bar ∈ marks (cs ++ [c]) ↔ .bar ∈ marks cs := by
  obtain h | ⟨ms, hcs, happend⟩ := marks_concat cs c
  · simp [h, marks_cons hslash, marks, hpipe.symm]
  · simp [hcs, happend]

/-! ## Reading -/

/-- The characters that end a line. -/
def isLineEnd (c : Char) : Bool :=
  c = '\n' || c = '\r'

/-- The characters around a cell that do not belong to it. -/
def isPad (c : Char) : Bool :=
  c = ' ' || c = '\t' || c = '\x0b' || c = '\x0c'

/-- A text without the blanks around it. -/
def trim (cs : List Char) : List Char :=
  (cs.dropWhile isPad).rdropWhile isPad

/-- The lines of a text. -/
def lines : List Char → List (List Char)
  | [] => [[]]
  | '\r' :: '\n' :: cs => [] :: lines cs
  | c :: cs =>
    if isLineEnd c then [] :: lines cs
    else
      match lines cs with
      | [] => [[c]]
      | line :: rest => (c :: line) :: rest

/-- The marks between the pipes that end a cell. -/
def cut : List Mark → List (List Mark)
  | [] => [[]]
  | m :: ms =>
    if m = .bar then [] :: cut ms
    else
      match cut ms with
      | [] => [[m]]
      | part :: parts => (m :: part) :: parts

/-- The parts of a row that are cells: the first pipe of a line and the last one only bound it. -/
def inner (parts : List (List Mark)) : List (List Mark) :=
  let parts := if parts.head? = some [] then parts.tail else parts
  if parts.getLast? = some [] then parts.dropLast else parts

/-- What a cell holds. -/
def cellText (ms : List Mark) : String :=
  String.ofList (trim (ms.flatMap Mark.text))

/-- The cells of a row. -/
def readRow (line : List Char) : List String :=
  (inner (cut (marks (trim line)))).map cellText

/-- The rows of the table at the start of a text, which ends with the first blank line. -/
def readTable (cs : List Char) : List (List String) :=
  ((lines cs).takeWhile fun line => !line.all isPad).map readRow

/-! ## Lines -/

/-- No character of the text ends a line. -/
def IsOneLine (cs : List Char) : Prop :=
  ∀ c ∈ cs, isLineEnd c = false

instance (cs : List Char) : Decidable (IsOneLine cs) :=
  List.decidableBAll _ cs

theorem lines_ne_nil (cs : List Char) : lines cs ≠ [] := by
  fun_cases lines cs <;> simp_all

theorem lines_append_newline {line : List Char} (h : IsOneLine line) (rest : List Char) :
    lines (line ++ '\n' :: rest) = line :: lines rest := by
  induction line with
  | nil => simp [lines, isLineEnd]
  | cons c line ih =>
    obtain ⟨hc, hline⟩ := List.forall_mem_cons.1 h
    have hreturn : c ≠ '\r' := by
      rintro rfl
      exact absurd hc (by decide)
    rw [List.cons_append, lines, ih hline]
    · simp [hc]
    · rintro cs rfl
      exact absurd rfl hreturn

theorem isOneLine_of_mem_lines {cs line : List Char} (h : line ∈ lines cs) : IsOneLine line := by
  fun_induction lines cs generalizing line with
  | case1 =>
    rw [List.mem_singleton] at h
    simp [h, IsOneLine]
  | case2 cs ih =>
    rcases List.mem_cons.1 h with rfl | h
    · simp [IsOneLine]
    · exact ih h
  | case3 c cs _ hc ih =>
    rcases List.mem_cons.1 h with rfl | h
    · simp [IsOneLine]
    · exact ih h
  | case4 c cs _ _ hnil => exact absurd hnil (lines_ne_nil cs)
  | case5 c cs _ hc first rest hlines ih =>
    rw [hlines] at ih
    rcases List.mem_cons.1 h with rfl | h
    · exact List.forall_mem_cons.2 ⟨Bool.eq_false_iff.2 hc, ih List.mem_cons_self⟩
    · exact ih (List.mem_cons_of_mem first h)

/-! ## Trimming -/

theorem trim_sublist (cs : List Char) : (trim cs).Sublist cs :=
  (List.rdropWhile_prefix isPad _).sublist.trans (List.dropWhile_sublist isPad)

theorem trim_cons {c : Char} (h : isPad c) (cs : List Char) : trim (c :: cs) = trim cs := by
  rw [trim, List.dropWhile_cons_of_pos h, trim]

theorem trim_append_singleton {c : Char} (h : isPad c) (cs : List Char) :
    trim (cs ++ [c]) = trim cs := by
  unfold trim
  by_cases hall : ∀ d ∈ cs, isPad d
  · rw [List.dropWhile_eq_nil_iff.2 hall, List.dropWhile_eq_nil_iff.2 ?_]
    intro d hd
    rcases List.mem_append.1 hd with hd | hd
    · exact hall d hd
    · rwa [List.mem_singleton.1 hd]
  · have hne : cs.dropWhile isPad ≠ [] := by
      rwa [Ne, List.dropWhile_eq_nil_iff]
    rw [List.dropWhile_append, if_neg (by simpa using hne), List.rdropWhile_concat_pos _ _ _ h]

/-- What begins and ends with a character that is no blank has no blanks around it. -/
theorem trim_eq_self {c d : Char} (hc : isPad c = false) (hd : isPad d = false) (cs : List Char) :
    trim (c :: cs ++ [d]) = c :: cs ++ [d] := by
  rw [trim, List.cons_append, List.dropWhile_cons_of_neg (by simp [hc]), ← List.cons_append,
    List.rdropWhile_concat_neg _ _ _ (by simp [hd])]

/-! ## Cutting -/

theorem cut_ne_nil (ms : List Mark) : cut ms ≠ [] := by
  fun_cases cut ms <;> simp_all

theorem cut_append_bar (ms rest : List Mark) : cut (ms ++ .bar :: rest) = cut ms ++ cut rest := by
  induction ms with
  | nil => simp [cut]
  | cons m ms ih =>
    obtain ⟨part, parts, hparts⟩ := List.exists_cons_of_ne_nil (cut_ne_nil ms)
    by_cases hm : m = .bar
    · simp [cut, hm, ih]
    · simp [cut, hm, ih, hparts]

theorem length_cut (ms : List Mark) : (cut ms).length = ms.count .bar + 1 := by
  induction ms with
  | nil => rfl
  | cons m ms ih =>
    obtain ⟨part, parts, hparts⟩ := List.exists_cons_of_ne_nil (cut_ne_nil ms)
    by_cases hm : m = .bar
    · simp [cut, hm, ih]
    · rw [List.count_cons_of_ne hm, ← ih, cut, if_neg hm, hparts]
      rfl

theorem cut_of_notMem {ms : List Mark} (h : .bar ∉ ms) : cut ms = [ms] := by
  induction ms with
  | nil => rfl
  | cons m ms ih =>
    rw [List.mem_cons, not_or] at h
    rw [cut, if_neg (Ne.symm h.1), ih h.2]

theorem cut_eq_singleton_iff {ms part : List Mark} : cut ms = [part] ↔ .bar ∉ ms ∧ ms = part := by
  constructor
  · intro h
    have hlength : ms.count .bar = 0 := by
      simpa [h] using length_cut ms
    have hbar : .bar ∉ ms := List.count_eq_zero.1 hlength
    exact ⟨hbar, List.singleton_inj.1 ((cut_of_notMem hbar).symm.trans h)⟩
  · rintro ⟨hbar, rfl⟩
    exact cut_of_notMem hbar

theorem subset_of_mem_cut {ms part : List Mark} (h : part ∈ cut ms) : part ⊆ ms := by
  induction ms generalizing part with
  | nil => simp_all [cut]
  | cons m ms ih =>
    obtain ⟨first, parts, hparts⟩ := List.exists_cons_of_ne_nil (cut_ne_nil ms)
    rw [hparts] at ih
    by_cases hm : m = .bar
    · rw [cut, if_pos hm, hparts] at h
      rcases List.mem_cons.1 h with rfl | h
      · exact List.nil_subset _
      · exact List.subset_cons_of_subset m (ih h)
    · rw [cut, if_neg hm, hparts] at h
      rcases List.mem_cons.1 h with rfl | h
      · exact List.cons_subset_cons m (ih List.mem_cons_self)
      · exact List.subset_cons_of_subset m (ih (List.mem_cons_of_mem first h))

theorem inner_sublist (parts : List (List Mark)) : (inner parts).Sublist parts := by
  have hfront : (if parts.head? = some [] then parts.tail else parts).Sublist parts := by
    split
    · exact List.tail_sublist parts
    · exact List.Sublist.refl parts
  have hback (ps : List (List Mark)) :
      (if ps.getLast? = some [] then ps.dropLast else ps).Sublist ps := by
    split
    · exact List.dropLast_sublist ps
    · exact List.Sublist.refl ps
  exact (hback _).trans hfront

/-! ## Rows of padded cells -/

/-- A cell with a blank on either side. -/
def padded (cell : List Char) : List Char :=
  ' ' :: cell ++ [' ']

/-- A row of padded cells between pipes. -/
def rowText (cells : List (List Char)) : List Char :=
  '|' :: cells.flatMap fun cell => padded cell ++ ['|']

/-- Lines, each with the character that ends it. -/
def linesText (ls : List (List Char)) : List Char :=
  ls.flatMap (· ++ ['\n'])

theorem marks_padded (cell : List Char) :
    marks (padded cell) = .single ' ' :: marks (cell ++ [' ']) :=
  marks_cons (by decide) _

theorem cut_marks_cells (cells : List (List Char)) :
    cut (marks (cells.flatMap fun cell => padded cell ++ ['|'])) =
      (cells.flatMap fun cell => cut (marks (padded cell))) ++ [[]] := by
  induction cells with
  | nil => rfl
  | cons cell cells ih =>
    have hstep (rest : List Char) :
        marks (padded cell ++ '|' :: rest) = marks (padded cell) ++ .bar :: marks rest := by
      have hpad : (' ' :: cell) ++ ' ' :: '|' :: rest = padded cell ++ '|' :: rest := by
        simp [padded]
      rw [← hpad, marks_append_cons (by decide), marks_cons (c := '|') (by decide)]
      rfl
    rw [List.flatMap_cons, List.append_assoc, List.singleton_append, hstep, cut_append_bar, ih,
      List.flatMap_cons, List.append_assoc]

theorem trim_rowText (cells : List (List Char)) : trim (rowText cells) = rowText cells := by
  obtain rfl | ⟨front, last, rfl⟩ := cells.eq_nil_or_concat
  · decide
  · have hends : rowText (front ++ [last]) =
        '|' :: ((front.flatMap fun cell => padded cell ++ ['|']) ++ padded last) ++ ['|'] := by
      simp [rowText]
    rw [List.concat_eq_append, hends, trim_eq_self (by decide) (by decide)]

/-- The cells that are read in a row are those that are read in each of the written cells. -/
theorem readRow_rowText (cells : List (List Char)) :
    readRow (rowText cells) =
      cells.flatMap fun cell => (cut (marks (padded cell))).map cellText := by
  have hcut : cut (marks (rowText cells)) =
      [] :: ((cells.flatMap fun cell => cut (marks (padded cell))) ++ [[]]) := by
    rw [rowText, marks_cons (by decide), cut, if_pos rfl, cut_marks_cells]
  rw [readRow, trim_rowText, hcut, inner]
  simp [List.map_flatMap]

theorem cellText_padded (cell : List Char) :
    cellText (marks (padded cell)) = String.ofList (trim (unescape cell)) := by
  have hfront : unescape (padded cell) = ' ' :: unescape (cell ++ [' ']) := by
    rw [unescape, marks_padded, List.flatMap_cons]
    rfl
  rw [cellText, ← unescape, hfront, unescape_concat (by decide) (by decide), trim_cons rfl,
    trim_append_singleton rfl]

/-- A written cell is read as a single one unless a pipe ends it. -/
theorem readCell_eq_singleton_iff (cell : List Char) (text : String) :
    (cut (marks (padded cell))).map cellText = [text] ↔
      .bar ∉ marks cell ∧ trim (unescape cell) = text.toList := by
  have hbar : .bar ∉ marks (padded cell) ↔ .bar ∉ marks cell := by
    rw [marks_padded, List.mem_cons, bar_mem_marks_concat (by decide) (by decide)]
    simp
  rw [List.map_eq_singleton_iff]
  constructor
  · rintro ⟨part, hcut, htext⟩
    obtain ⟨hnot, rfl⟩ := cut_eq_singleton_iff.1 hcut
    rw [cellText_padded] at htext
    exact ⟨hbar.1 hnot, by rw [← htext, String.toList_ofList]⟩
  · rintro ⟨hnot, htext⟩
    refine ⟨marks (padded cell), cut_of_notMem (hbar.2 hnot), ?_⟩
    rw [cellText_padded, htext, String.ofList_toList]

/-! ## Tables of cells -/

/-- A cell, by the text it is to hold. -/
inductive Cell where
  /-- a text that is written as it is -/
  | plain (text : String)
  /-- a text that is written with its pipes escaped -/
  | escaped (text : String)

namespace Cell

/-- What the cell is to hold. -/
def text : Cell → String
  | plain s => s
  | escaped s => s

/-- What is written in the cell. -/
def written : Cell → List Char
  | plain s => s.toList
  | escaped s => (Report.escapeCell s).toList

/-- The cell is read back: it ends neither its line nor itself, and holds its text. -/
structure Reads (c : Cell) : Prop where
  oneLine : IsOneLine c.text.toList
  whole : .bar ∉ marks c.written
  text : trim (unescape c.written) = c.text.toList

/-- Escaping adds no line end and takes none away. -/
theorem isOneLine_written (c : Cell) : IsOneLine c.written ↔ IsOneLine c.text.toList := by
  cases c with
  | plain s => rfl
  | escaped s =>
    simp only [written, text, Report.escapeCell, String.toList_ofList, IsOneLine,
      List.forall_mem_flatMap]
    refine forall₂_congr fun c _ => ?_
    by_cases hc : c = '|'
    · subst hc
      simp [isLineEnd]
    · simp [hc]

end Cell

/-- A row of cells as it is written. -/
def writtenRow (row : List Cell) : List Char :=
  rowText (row.map Cell.written)

theorem length_le_length_flatMap {α β : Type} {f : α → List β} (hf : ∀ a, f a ≠ [])
    (as : List α) : as.length ≤ (as.flatMap f).length := by
  induction as with
  | nil => exact Nat.le_refl 0
  | cons a as ih =>
    have ha : 0 < (f a).length := List.length_pos_iff.2 (hf a)
    rw [List.flatMap_cons, List.length_append, List.length_cons]
    omega

/-- As many results as items, and at least one for each: then each item has one. -/
theorem flatMap_eq_map_iff {α β : Type} {f : α → List β} (hf : ∀ a, f a ≠ []) (g : α → β)
    (as : List α) : as.flatMap f = as.map g ↔ ∀ a ∈ as, f a = [g a] := by
  induction as with
  | nil => simp
  | cons a as ih =>
    rw [List.flatMap_cons, List.map_cons, List.forall_mem_cons, ← ih]
    constructor
    · intro h
      obtain ⟨b, bs, hb⟩ := List.exists_cons_of_ne_nil (hf a)
      rw [hb, List.cons_append, List.cons.injEq] at h
      have hbs : bs = [] := by
        have hlength := congrArg List.length h.2
        have hle := length_le_length_flatMap hf as
        rw [List.length_append, List.length_map] at hlength
        exact List.length_eq_zero_iff.1 (by omega)
      subst hbs
      exact ⟨by rw [hb, h.1], h.2⟩
    · rintro ⟨ha, has⟩
      rw [ha, has, List.singleton_append]

/-- A row is read back as its cells when none of them is cut and each holds its text. -/
theorem readRow_writtenRow_iff (row : List Cell) :
    readRow (writtenRow row) = row.map Cell.text ↔
      ∀ c ∈ row, .bar ∉ marks c.written ∧ trim (unescape c.written) = c.text.toList := by
  rw [writtenRow, readRow_rowText, List.flatMap_map, flatMap_eq_map_iff]
  · exact forall₂_congr fun c _ => readCell_eq_singleton_iff c.written c.text
  · intro c
    simpa using cut_ne_nil _

theorem isOneLine_writtenRow {row : List Cell} (h : ∀ c ∈ row, IsOneLine c.text.toList) :
    IsOneLine (writtenRow row) := by
  intro c hc
  rw [writtenRow, rowText, List.mem_cons, List.mem_flatMap] at hc
  obtain rfl | ⟨cell, hcell, hc⟩ := hc
  · decide
  · obtain ⟨source, hsource, rfl⟩ := List.mem_map.1 hcell
    have hchar : c ∈ source.written ∨ c = ' ' ∨ c = '|' := by
      simp only [padded, List.cons_append, List.append_assoc, List.mem_cons, List.mem_append,
        List.not_mem_nil] at hc
      tauto
    rcases hchar with hc | rfl | rfl
    · exact (Cell.isOneLine_written source).2 (h source hsource) c hc
    · decide
    · decide

/-- No text that is read from a table holds a line end. -/
theorem isOneLine_of_mem_readTable {cs : List Char} {row : List String} (hrow : row ∈ readTable cs)
    {s : String} (hs : s ∈ row) : IsOneLine s.toList := by
  obtain ⟨line, hline, rfl⟩ := List.mem_map.1 hrow
  have honeLine : IsOneLine line :=
    isOneLine_of_mem_lines ((List.takeWhile_sublist _).subset hline)
  obtain ⟨part, hpart, rfl⟩ := List.mem_map.1 hs
  intro c hc
  rw [cellText, String.toList_ofList] at hc
  obtain ⟨m, hm, hc⟩ := List.mem_flatMap.1 ((trim_sublist _).subset hc)
  have hmem : m ∈ marks (trim line) := subset_of_mem_cut (inner_sublist _ |>.subset hpart) hm
  exact honeLine c ((trim_sublist line).subset (mem_of_mem_text hmem hc))

/-- Rows of one line each are read one by one, up to where the table ends. -/
theorem readTable_linesText {table : List (List Cell)}
    (h : ∀ row ∈ table, IsOneLine (writtenRow row)) (rest : List Char) :
    readTable (linesText (table.map writtenRow) ++ rest) =
      (table.map fun row => readRow (writtenRow row)) ++ readTable rest := by
  induction table with
  | nil => rfl
  | cons row table ih =>
    obtain ⟨hrow, htable⟩ := List.forall_mem_cons.1 h
    have hstep : linesText ((row :: table).map writtenRow) ++ rest =
        writtenRow row ++ '\n' :: (linesText (table.map writtenRow) ++ rest) := by
      simp [linesText]
    have hbar : (writtenRow row).all isPad = false := by
      rw [writtenRow, rowText, List.all_cons]
      rfl
    rw [hstep, readTable, lines_append_newline hrow, List.takeWhile_cons_of_pos (by simp [hbar]),
      List.map_cons, ← readTable, ih htable, List.map_cons, List.cons_append]

/-- A table is read back as its cells if and only if each of them is. -/
theorem readTable_eq_iff {rest : List Char} (hrest : readTable rest = [])
    (table : List (List Cell)) :
    readTable (linesText (table.map writtenRow) ++ rest) = table.map (·.map Cell.text) ↔
      ∀ row ∈ table, ∀ c ∈ row, c.Reads := by
  have hrows (h : ∀ row ∈ table, ∀ c ∈ row, IsOneLine c.text.toList) :
      readTable (linesText (table.map writtenRow) ++ rest) =
        table.map fun row => readRow (writtenRow row) := by
    rw [readTable_linesText fun row hrow => isOneLine_writtenRow (h row hrow), hrest,
      List.append_nil]
  constructor
  · intro h
    have honeLine : ∀ row ∈ table, ∀ c ∈ row, IsOneLine c.text.toList := by
      intro row hrow c hc
      have hread : row.map Cell.text ∈ readTable (linesText (table.map writtenRow) ++ rest) := by
        rw [h]
        exact List.mem_map_of_mem hrow
      exact isOneLine_of_mem_readTable hread (List.mem_map_of_mem hc)
    rw [hrows honeLine, List.map_inj_left] at h
    intro row hrow c hc
    obtain ⟨hbar, htext⟩ := (readRow_writtenRow_iff row).1 (h row hrow) c hc
    exact ⟨honeLine row hrow c hc, hbar, htext⟩
  · intro h
    rw [hrows fun row hrow c hc => (h row hrow c hc).oneLine, List.map_inj_left]
    exact fun row hrow => (readRow_writtenRow_iff row).2 fun c hc =>
      ⟨(h row hrow c hc).whole, (h row hrow c hc).text⟩

/-! ## What a cell must not hold -/

theorem mem_of_single_mem_marks {cs : List Char} {c : Char} (h : .single c ∈ marks cs) : c ∈ cs :=
  mem_of_mem_text h (by simp [Mark.text])

/-- A pipe stands by itself or behind a backslash. -/
theorem pipe_mem_iff (cs : List Char) : '|' ∈ cs ↔ .bar ∈ marks cs ∨ .escapedBar ∈ marks cs := by
  constructor
  · intro h
    rw [← flatMap_written_marks cs, List.mem_flatMap] at h
    obtain ⟨m, hm, h⟩ := h
    cases m with
    | single c =>
      rw [Mark.written, List.mem_singleton] at h
      subst h
      exact .inl hm
    | behindBackslash c =>
      have hc : '|' = c := by
        simpa [Mark.written] using h
      subst hc
      exact .inr hm
  · rintro (h | h)
    · exact mem_of_single_mem_marks h
    · exact mem_of_mem_text h (by simp [Mark.text])

/-- A text without an escaped pipe stands for itself; any other one is shorter than it is written. -/
theorem unescape_eq_self {cs : List Char} (h : .escapedBar ∉ marks cs) : unescape cs = cs := by
  conv_rhs => rw [← flatMap_written_marks cs]
  refine List.flatMap_congr fun m hm => ?_
  cases m with
  | single c => rfl
  | behindBackslash c =>
    have hc : c ≠ '|' := by
      rintro rfl
      exact h hm
    simp [Mark.text, Mark.written, hc]

theorem length_text_le (m : Mark) : m.text.length ≤ m.written.length := by
  cases m with
  | single c => exact Nat.le_refl 1
  | behindBackslash c =>
    rw [Mark.text, Mark.written]
    split <;> simp

theorem length_unescape_lt {cs : List Char} (h : .escapedBar ∈ marks cs) :
    (unescape cs).length < cs.length := by
  conv_rhs => rw [← flatMap_written_marks cs]
  rw [unescape, List.length_flatMap, List.length_flatMap]
  exact List.sum_lt_sum _ _ (fun m _ => length_text_le m) ⟨_, h, by decide⟩

/-- What becomes of a mark when each pipe of a text is escaped: a backslash before a pipe escapes the
new backslash from then on. -/
def Mark.protect : Mark → List Mark
  | single c => if c = '|' then [escapedBar] else [single c]
  | behindBackslash c => if c = '|' then [behindBackslash '\\', bar] else [behindBackslash c]

theorem marks_escape (cs : List Char) :
    marks (cs.flatMap fun c => if c = '|' then ['\\', '|'] else [c]) =
      (marks cs).flatMap Mark.protect := by
  fun_induction marks cs with
  | case1 c cs ih =>
    rw [List.flatMap_cons, List.flatMap_cons, List.flatMap_cons, ← ih]
    by_cases hc : c = '|'
    · subst hc
      rfl
    · simp [hc, marks, Mark.protect]
  | case2 c cs hpair ih =>
    rw [List.flatMap_cons, List.flatMap_cons, ← ih]
    by_cases hpipe : c = '|'
    · subst hpipe
      rfl
    by_cases hslash : c = '\\'
    · cases cs with
      | nil =>
        subst hslash
        rfl
      | cons d ds => exact absurd rfl (hpair d ds hslash)
    · rw [if_neg hpipe, List.singleton_append, marks_cons hslash, Mark.protect, if_neg hpipe,
        List.singleton_append]
  | case3 => rfl

/-- An escaped text has no pipe of its own unless one stood behind an unescaped backslash. -/
theorem bar_mem_marks_escape {cs : List Char} :
    .bar ∈ (marks cs).flatMap Mark.protect ↔ .escapedBar ∈ marks cs := by
  rw [List.mem_flatMap]
  constructor
  · rintro ⟨m, hm, hbar⟩
    cases m with
    | single c =>
      rw [Mark.protect] at hbar
      split at hbar
      · simp at hbar
      · rename_i hc
        simp [Ne.symm hc] at hbar
    | behindBackslash c =>
      rw [Mark.protect] at hbar
      split at hbar
      · rename_i hc
        rwa [hc] at hm
      · simp at hbar
  · exact fun h => ⟨_, h, by decide⟩

theorem flatMap_text_protect {m : Mark} (h : m ≠ .escapedBar) :
    m.protect.flatMap Mark.text = m.written := by
  cases m with
  | single c =>
    by_cases hc : c = '|'
    · subst hc
      rfl
    · simp [Mark.protect, Mark.text, Mark.written, hc]
  | behindBackslash c =>
    have hc : c ≠ '|' := by
      rintro rfl
      exact h rfl
    simp [Mark.protect, Mark.text, Mark.written, hc]

/-- A text without a pipe behind an unescaped backslash comes back from being escaped. -/
theorem flatMap_text_escape {cs : List Char} (h : .escapedBar ∉ marks cs) :
    ((marks cs).flatMap Mark.protect).flatMap Mark.text = cs := by
  conv_rhs => rw [← flatMap_written_marks cs]
  rw [List.flatMap_assoc]
  refine List.flatMap_congr fun m hm => flatMap_text_protect ?_
  rintro rfl
  exact h hm

/-! ## Texts that fit a cell -/

/-- A text that is read back from a cell in which it is written as it is. -/
structure IsPlain (s : String) : Prop where
  oneLine : IsOneLine s.toList
  trimmed : trim s.toList = s.toList
  noPipe : '|' ∉ s.toList

/-- A text that is read back from a cell in which it is written with its pipes escaped: none of them
stands behind a backslash that is not itself escaped. -/
structure IsEscapable (s : String) : Prop where
  oneLine : IsOneLine s.toList
  trimmed : trim s.toList = s.toList
  noEscapedPipe : .escapedBar ∉ marks s.toList

theorem isPlain_iff (s : String) :
    IsPlain s ↔ IsOneLine s.toList ∧ trim s.toList = s.toList ∧ '|' ∉ s.toList :=
  ⟨fun ⟨h₁, h₂, h₃⟩ => ⟨h₁, h₂, h₃⟩, fun ⟨h₁, h₂, h₃⟩ => ⟨h₁, h₂, h₃⟩⟩

theorem isEscapable_iff (s : String) :
    IsEscapable s ↔
      IsOneLine s.toList ∧ trim s.toList = s.toList ∧ .escapedBar ∉ marks s.toList :=
  ⟨fun ⟨h₁, h₂, h₃⟩ => ⟨h₁, h₂, h₃⟩, fun ⟨h₁, h₂, h₃⟩ => ⟨h₁, h₂, h₃⟩⟩

instance (s : String) : Decidable (IsPlain s) :=
  decidable_of_iff _ (isPlain_iff s).symm

instance (s : String) : Decidable (IsEscapable s) :=
  decidable_of_iff _ (isEscapable_iff s).symm

/-- A pipe of the text, as well as one for a written pipe, would change what the cell holds. -/
theorem Cell.reads_plain_iff (s : String) : (Cell.plain s).Reads ↔ IsPlain s := by
  constructor
  · rintro ⟨honeLine, hbar, htext⟩
    have hescaped : .escapedBar ∉ marks s.toList := by
      intro hmem
      have hlength := length_unescape_lt hmem
      have hle := (trim_sublist (unescape s.toList)).length_le
      rw [show trim (unescape s.toList) = s.toList from htext] at hle
      omega
    refine ⟨honeLine, ?_, ?_⟩
    · rwa [Cell.written, unescape_eq_self hescaped] at htext
    · rw [pipe_mem_iff, not_or]
      exact ⟨hbar, hescaped⟩
  · rintro ⟨honeLine, htrimmed, hpipe⟩
    rw [pipe_mem_iff, not_or] at hpipe
    refine ⟨honeLine, hpipe.1, ?_⟩
    rw [Cell.written, unescape_eq_self hpipe.2]
    exact htrimmed

theorem Cell.reads_escaped_iff (s : String) : (Cell.escaped s).Reads ↔ IsEscapable s := by
  have hmarks : marks (Cell.escaped s).written = (marks s.toList).flatMap Mark.protect := by
    rw [Cell.written, Report.escapeCell, String.toList_ofList, marks_escape]
  constructor
  · rintro ⟨honeLine, hbar, htext⟩
    rw [hmarks, bar_mem_marks_escape] at hbar
    rw [unescape, hmarks, flatMap_text_escape hbar] at htext
    exact ⟨honeLine, htext, hbar⟩
  · rintro ⟨honeLine, htrimmed, hescaped⟩
    refine ⟨honeLine, ?_, ?_⟩
    · rwa [hmarks, bar_mem_marks_escape]
    · rw [unescape, hmarks, flatMap_text_escape hescaped]
      exact htrimmed

end Metamodel.Markdown
