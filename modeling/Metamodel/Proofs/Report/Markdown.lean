import Metamodel.Proofs.Decimal.Text
import Metamodel.Proofs.Report.Counts
import Metamodel.Proofs.Report.Table
import Metamodel.Proofs.Text.Collation

/-!
# The tables of a report's page

The table of findings is read back as one row of four cells for each finding, with its severity, its
code, its location and its message, if and only if each finding fits: code and location hold no pipe,
and no pipe of the message stands behind an unescaped backslash; none of them holds a line end or has
blanks around it. The tables of counts are read back as one row of two cells for each name when the
names fit, which those that a run counts do (`tables_of_markdown`). A table of nothing has one row that
says so.
-/

namespace Metamodel

open Decimal Markdown

namespace Report

/-! ## What the tables are to show -/

/-- The cells of a finding. -/
def findingCells (d : Diagnostic) : List Cell :=
  [.plain d.severity.text, .plain d.code.text, .plain d.locationText, .escaped d.message]

/-- The cells of a counted name. -/
def countCells (e : String × Binary64) : List Cell :=
  [.plain e.1, .plain e.2.text]

/-- The rows of the table of findings; one that says so when there are none. -/
def findingTable (ds : List Diagnostic) : List (List Cell) :=
  if ds.isEmpty then [[.plain "(none)", .plain "(none)", .plain "", .plain ""]]
  else ds.map findingCells

/-- The rows of a table of counts, in dictionary order of the names. -/
def countCellTable (c : Counts) : List (List Cell) :=
  if c.isEmpty then [[.plain "(none)", .plain "0"]]
  else (Text.collatedBy Prod.fst c).map countCells

/-- The texts of the rows of findings. -/
def shownFindings (ds : List Diagnostic) : List (List String) :=
  if ds.isEmpty then [["(none)", "(none)", "", ""]]
  else ds.map fun d => [d.severity.text, d.code.text, d.locationText, d.message]

/-- The texts of the rows of counts. -/
def shownCounts (c : Counts) : List (List String) :=
  if c.isEmpty then [["(none)", "0"]]
  else (Text.collatedBy Prod.fst c).map fun e => [e.1, e.2.text]

/-- The lines of the page before the rows of nodes by kind. -/
def kindFront (r : Report) : List String :=
  r.introLines ++ countHead "Entities by kind"

/-- The lines of the page before the rows of edges by cardinality. -/
def cardinalityFront (r : Report) : List String :=
  r.introLines ++ countTable "Entities by kind" r.entitiesByKind ++
    countHead "Relationships by cardinality"

/-- The lines of the page before the rows of findings. -/
def findingFront (r : Report) : List String :=
  r.introLines ++ countTable "Entities by kind" r.entitiesByKind ++
    countTable "Relationships by cardinality" r.relationshipsByCardinality ++ r.invalidLines ++
    diagnosticHead

/-- Behind the given lines of a page stands a table that a reader takes as the given rows. -/
def Shows (page : String) (front : List String) (rows : List (List String)) : Prop :=
  ∃ rest, page.toList = linesText (front.map String.toList) ++ rest ∧ readTable rest = rows

/-- The code, the location and the message of a finding are read back from its row. -/
structure Fits (d : Diagnostic) : Prop where
  code : IsPlain d.code.text
  location : IsPlain d.locationText
  message : IsEscapable d.message

/-- Each counted name is read back from its row. -/
def CountsFit (c : Counts) : Prop :=
  ∀ e ∈ c, IsPlain e.1

/-! ## Texts that fit -/

/-- The characters that a cell can lose, or end with. -/
def cellMarks : List Char :=
  ['\n', '\r', ' ', '\t', '\x0b', '\x0c', '|']

theorem isPlain_of_forall {s : String} (h : ∀ c ∈ s.toList, c ∉ cellMarks) : IsPlain s where
  oneLine c hc := by
    have hmark : isLineEnd c = true → c ∈ cellMarks := by
      simp only [isLineEnd, cellMarks, List.mem_cons, Bool.or_eq_true, decide_eq_true_eq]
      tauto
    exact Bool.eq_false_iff.2 fun hend => h c hc (hmark hend)
  trimmed := by
    have hpad (c : Char) (hc : c ∈ s.toList) : ¬ isPad c = true := by
      have hmark : isPad c = true → c ∈ cellMarks := by
        simp only [isPad, cellMarks, List.mem_cons, Bool.or_eq_true, decide_eq_true_eq]
        tauto
      exact fun hpad => h c hc (hmark hpad)
    have hdrop : s.toList.dropWhile isPad = s.toList :=
      List.dropWhile_eq_self_iff.2 fun _ => hpad _ (List.getElem_mem _)
    rw [trim, hdrop, List.rdropWhile_eq_self_iff]
    exact fun hne => hpad _ (List.getLast_mem hne)
  noPipe hc := h _ hc (by decide)

theorem isPlain_severity (s : Severity) : IsPlain s.text := by
  cases s <;> decide

theorem isPlain_known : ∀ code ∈ DiagnosticCode.known, IsPlain code.text := by
  decide

theorem isPlain_number (n : Binary64) : IsPlain n.text := by
  cases n with
  | nan => decide
  | infinite negative => cases negative <;> decide
  | finite s m =>
    refine isPlain_of_forall fun c hc => ?_
    have hmarks : ∀ c ∈ cellMarks, ¬ (c.isDigit = true ∨ c ∈ ['-', '+', '.', 'e']) := by
      simp [cellMarks, Char.isDigit]
    exact fun hmark => hmarks c hmark (Binary64.isWrittenBy_of_mem_text hc)

theorem isPlain_kind (k : EntityKind) : IsPlain k.text := by
  cases k <;> decide

theorem isPlain_cardinalityName (e : Edge) : IsPlain (cardinalityName e) := by
  unfold cardinalityName
  cases e.property.cardinality with
  | none => decide
  | some c => cases c <;> decide

/-! ## Rows -/

theorem toList_diagnosticRow (d : Diagnostic) :
    (diagnosticRow d).toList = writtenRow (findingCells d) := by
  simp [diagnosticRow, findingCells, writtenRow, rowText, padded, Cell.written]

theorem toList_countRow (e : String × Binary64) :
    ("| " ++ e.1 ++ " | " ++ e.2.text ++ " |").toList = writtenRow (countCells e) := by
  simp [countCells, writtenRow, rowText, padded, Cell.written]

theorem toList_diagnosticRows (ds : List Diagnostic) :
    (diagnosticRows ds).map String.toList = (findingTable ds).map writtenRow := by
  unfold diagnosticRows findingTable
  split
  · decide
  · rw [List.map_map, List.map_map]
    exact List.map_congr_left fun d _ => toList_diagnosticRow d

theorem toList_countRows (c : Counts) :
    (countRows c).map String.toList = (countCellTable c).map writtenRow := by
  unfold countRows countCellTable
  split
  · decide
  · rw [List.map_map, List.map_map]
    exact List.map_congr_left fun e _ => toList_countRow e

theorem text_findingTable (ds : List Diagnostic) :
    (findingTable ds).map (·.map Cell.text) = shownFindings ds := by
  unfold findingTable shownFindings
  split
  · rfl
  · rw [List.map_map]
    rfl

theorem text_countCellTable (c : Counts) :
    (countCellTable c).map (·.map Cell.text) = shownCounts c := by
  unfold countCellTable shownCounts
  split
  · rfl
  · rw [List.map_map]
    rfl

theorem reads_findingTable_iff (ds : List Diagnostic) :
    (∀ row ∈ findingTable ds, ∀ c ∈ row, c.Reads) ↔ ∀ d ∈ ds, Fits d := by
  unfold findingTable
  split
  · rename_i hempty
    rw [List.isEmpty_iff.1 hempty]
    simp only [List.forall_mem_singleton, List.forall_mem_cons, Cell.reads_plain_iff]
    exact iff_of_true (by decide) fun _ h => absurd h List.not_mem_nil
  · rw [List.forall_mem_map]
    refine forall₂_congr fun d _ => ?_
    simp only [findingCells, List.forall_mem_cons, Cell.reads_plain_iff, Cell.reads_escaped_iff]
    exact ⟨fun ⟨_, hcode, hlocation, hmessage, _⟩ => ⟨hcode, hlocation, hmessage⟩,
      fun ⟨hcode, hlocation, hmessage⟩ => ⟨isPlain_severity _, hcode, hlocation, hmessage, by simp⟩⟩

theorem reads_countCellTable_iff (c : Counts) :
    (∀ row ∈ countCellTable c, ∀ cell ∈ row, cell.Reads) ↔ CountsFit c := by
  unfold countCellTable CountsFit
  split
  · rename_i hempty
    rw [List.isEmpty_iff.1 hempty]
    simp only [List.forall_mem_singleton, List.forall_mem_cons, Cell.reads_plain_iff]
    exact iff_of_true (by decide) fun _ h => absurd h List.not_mem_nil
  · rw [List.forall_mem_map]
    have hmem (e : String × Binary64) : e ∈ Text.collatedBy Prod.fst c ↔ e ∈ c :=
      (List.mergeSort_perm _ _).mem_iff
    simp only [hmem]
    refine forall₂_congr fun e _ => ?_
    simp only [countCells, List.forall_mem_cons, Cell.reads_plain_iff]
    exact ⟨fun h => h.1, fun h => ⟨h, isPlain_number _, by simp⟩⟩

/-! ## The page -/

theorem linesText_append (ls ms : List (List Char)) :
    linesText (ls ++ ms) = linesText ls ++ linesText ms :=
  List.flatMap_append

/-- The page of lines of which the last is empty. -/
theorem toList_intercalate_newline (ls : List String) :
    ("\n".intercalate (ls ++ [""])).toList = linesText (ls.map String.toList) := by
  rw [String.toList_intercalate, List.map_append]
  induction ls with
  | nil => rfl
  | cons l ls ih =>
    obtain ⟨next, rest, hrest⟩ :=
      List.exists_cons_of_ne_nil (List.append_ne_nil_of_right_ne_nil
        (ls.map String.toList) (List.cons_ne_nil "".toList []))
    rw [List.map_cons, List.cons_append]
    rw [List.map_singleton] at ih ⊢
    rw [hrest, List.intercalate_cons_cons, ← hrest, ih]
    simp [linesText]

/-- A page shows the rows of cells behind its lines when each cell is read back. -/
theorem shows_iff {page : String} {front rows : List String} {table : List (List Cell)}
    (rest : List Char)
    (hpage : page.toList = linesText ((front ++ rows).map String.toList) ++ rest)
    (hrows : rows.map String.toList = table.map writtenRow) (hrest : readTable rest = []) :
    Shows page front (table.map (·.map Cell.text)) ↔ ∀ row ∈ table, ∀ c ∈ row, c.Reads := by
  rw [List.map_append, hrows, linesText_append, List.append_assoc] at hpage
  rw [← readTable_eq_iff hrest]
  constructor
  · rintro ⟨body, hbody, hread⟩
    rw [hpage] at hbody
    rw [List.append_cancel_left hbody]
    exact hread
  · exact fun hread => ⟨_, hpage, hread⟩

/-- The page is the lines before the findings and the rows of the findings. -/
theorem toList_markdown (r : Report) :
    r.markdown.toList =
      linesText ((r.findingFront ++ diagnosticRows r.diagnostics).map String.toList) :=
  toList_intercalate_newline _

/-- A page with a table of counts behind some lines shows the counts when they fit. -/
theorem shows_counts_iff {page title : String} {lines : List String} {c : Counts}
    (back : List String)
    (hpage : page.toList = linesText ((lines ++ countTable title c ++ back).map String.toList)) :
    Shows page (lines ++ countHead title) (shownCounts c) ↔ CountsFit c := by
  rw [← text_countCellTable, ← reads_countCellTable_iff]
  refine shows_iff (linesText (("" :: back).map String.toList)) ?_ (toList_countRows c) rfl
  rw [hpage, ← linesText_append, ← List.map_append]
  simp only [countTable, List.append_assoc, List.singleton_append]

theorem shows_kinds_iff (r : Report) :
    Shows r.markdown r.kindFront (shownCounts r.entitiesByKind) ↔
      CountsFit r.entitiesByKind := by
  refine shows_counts_iff (countTable "Relationships by cardinality" r.relationshipsByCardinality ++
    r.invalidLines ++ diagnosticHead ++ diagnosticRows r.diagnostics) ?_
  rw [toList_markdown]
  simp only [findingFront, List.append_assoc]

theorem shows_cardinalities_iff (r : Report) :
    Shows r.markdown r.cardinalityFront (shownCounts r.relationshipsByCardinality) ↔
      CountsFit r.relationshipsByCardinality := by
  refine shows_counts_iff (r.invalidLines ++ diagnosticHead ++ diagnosticRows r.diagnostics) ?_
  rw [toList_markdown]
  simp only [findingFront, List.append_assoc]

theorem shows_findings_iff (r : Report) :
    Shows r.markdown r.findingFront (shownFindings r.diagnostics) ↔
      ∀ d ∈ r.diagnostics, Fits d := by
  rw [← text_findingTable, ← reads_findingTable_iff]
  refine shows_iff [] ?_ (toList_diagnosticRows _) rfl
  rw [toList_markdown, List.append_nil]

/-! ## Pages of runs -/

theorem countsFit_increase {c : Counts} (hc : CountsFit c) {name : String} (hname : IsPlain name)
    (amount : Binary64) : CountsFit (c.increase name amount) := by
  unfold Counts.increase Json.setMember
  split
  · exact hc
  split
  · intro e he
    obtain ⟨old, hold, rfl⟩ := List.mem_map.1 he
    split
    · exact hname
    · exact hc old hold
  · exact List.forall_mem_append.2 ⟨hc, List.forall_mem_singleton.2 hname⟩

theorem countsFit_foldl {α : Type} {name : α → String} (hname : ∀ a, IsPlain (name a))
    (as : List α) {c : Counts} (hc : CountsFit c) :
    CountsFit (as.foldl (fun c a => c.increase (name a) (.ofNat 1)) c) := by
  induction as generalizing c with
  | nil => exact hc
  | cons a as ih => exact ih (countsFit_increase hc (hname a) _)

theorem fits_iff_of_known {d : Diagnostic} (h : d.code ∈ DiagnosticCode.known) :
    Fits d ↔ IsPlain d.locationText ∧ IsEscapable d.message :=
  ⟨fun ⟨_, hlocation, hmessage⟩ => ⟨hlocation, hmessage⟩,
    fun ⟨hlocation, hmessage⟩ => ⟨isPlain_known d.code h, hlocation, hmessage⟩⟩

/-- What a reader takes from the tables of a page is what the report has, if and only if each finding
and each counted name fits. For the report of a run on fresh counts this is left to the locations and
the messages of its findings. -/
theorem tables_of_markdown (r : Report) :
    (Shows r.markdown r.findingFront (shownFindings r.diagnostics) ↔ ∀ d ∈ r.diagnostics, Fits d) ∧
    (Shows r.markdown r.kindFront (shownCounts r.entitiesByKind) ↔ CountsFit r.entitiesByKind) ∧
    (Shows r.markdown r.cardinalityFront (shownCounts r.relationshipsByCardinality) ↔
      CountsFit r.relationshipsByCardinality) ∧
    ∀ graph ds invalid emitted,
      let run := { r with entitiesByKind := [], relationshipsByCardinality := [] }.record graph ds
        invalid emitted
      Shows run.markdown run.kindFront (shownCounts run.entitiesByKind) ∧
      Shows run.markdown run.cardinalityFront (shownCounts run.relationshipsByCardinality) ∧
      ((∀ d ∈ ds, d.code ∈ DiagnosticCode.known) →
        (Shows run.markdown run.findingFront (shownFindings (Diagnostic.sorted ds)) ↔
          ∀ d ∈ ds, IsPlain d.locationText ∧ IsEscapable d.message)) := by
  refine ⟨shows_findings_iff r, shows_kinds_iff r, shows_cardinalities_iff r,
    fun graph ds invalid emitted => ?_⟩
  intro run
  refine ⟨(shows_kinds_iff run).2 ?_, (shows_cardinalities_iff run).2 ?_, fun hknown => ?_⟩
  · exact countsFit_foldl (fun e : Entity => isPlain_kind e.kind) graph.nodes
      fun _ h => absurd h List.not_mem_nil
  · exact countsFit_foldl isPlain_cardinalityName graph.edges fun _ h => absurd h List.not_mem_nil
  · refine (shows_findings_iff run).trans ?_
    have hmem (d : Diagnostic) : d ∈ run.diagnostics ↔ d ∈ ds := (List.mergeSort_perm _ _).mem_iff
    simp only [hmem]
    exact forall₂_congr fun d hd => fits_iff_of_known (hknown d hd)

/-- A count, and a finding whose message holds a pipe. -/
def Sample.page : Report :=
  { empty "tool" "1" "/p" "S" with
    entitiesByKind := [("ENTITY", .ofNat 2)]
    diagnostics := [⟨.missingKey, .error, "Entity a|b has no key", none, none,
      some ⟨"model/A.ts", some 3, some 1⟩⟩] }

theorem tables_of_sample :
    Shows Sample.page.markdown Sample.page.findingFront
        [["error", "missingKey", "model/A.ts:3:1", "Entity a|b has no key"]] ∧
      Shows Sample.page.markdown Sample.page.kindFront [["ENTITY", "2"]] ∧
      Shows Sample.page.markdown Sample.page.cardinalityFront [["(none)", "0"]] := by
  obtain ⟨hfindings, hkinds, hcardinalities, -⟩ := tables_of_markdown Sample.page
  have hfits : ∀ d ∈ Sample.page.diagnostics, Fits d :=
    List.forall_mem_singleton.2 ⟨by decide +kernel, by decide +kernel, by decide +kernel⟩
  have hcounts : CountsFit Sample.page.entitiesByKind :=
    List.forall_mem_singleton.2 (by decide +kernel)
  have hfound : shownFindings Sample.page.diagnostics =
      [["error", "missingKey", "model/A.ts:3:1", "Entity a|b has no key"]] := by decide +kernel
  have hshown : shownCounts Sample.page.entitiesByKind = [["ENTITY", "2"]] := by decide +kernel
  exact ⟨hfound ▸ hfindings.2 hfits, hshown ▸ hkinds.2 hcounts,
    hcardinalities.2 fun _ h => by cases h⟩

/-- The report of a run with one finding, in a file whose name holds a pipe. -/
def Sample.piped : Report :=
  (empty "tool" "1" "/p" "S").record ⟨[], [], []⟩
    [⟨.missingKey, .error, "Entity shop.Order must have at least one key property",
      some "shop.Order", none, some ⟨"shop/a|b.ts", some 3, some 1⟩⟩] [] true

/-- The pipe of a location is not escaped: the row has five cells, and the third is not the
location. -/
theorem piped_location_is_cut :
    Shows Sample.piped.markdown Sample.piped.findingFront
        [["error", "missingKey", "shop/a", "b.ts:3:1",
          "Entity shop.Order must have at least one key property"]] ∧
      ¬ Shows Sample.piped.markdown Sample.piped.findingFront
        (shownFindings Sample.piped.diagnostics) := by
  refine ⟨⟨linesText ((diagnosticRows Sample.piped.diagnostics).map String.toList), ?_,
    by decide +kernel⟩, ?_⟩
  · rw [toList_markdown, List.map_append, linesText_append]
  · rw [shows_findings_iff]
    intro h
    have hfits := h Sample.piped.diagnostics.head! (by decide +kernel)
    exact absurd hfits.location (by decide +kernel)

end Report

end Metamodel
