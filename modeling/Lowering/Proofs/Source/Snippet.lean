import Lowering.Diagnostic.Report
import Lowering.Proofs.Source.LineTable
import Mathlib.Order.Interval.Finset.Nat

/-!
# Underlined lines

Where a report for a terminal puts the marks under the line of a span. The line is indented by the bytes
in front of the span, and there is one mark for each byte of the span that is shown, but at least one
(`Report.markCount_eq`). A span may start behind the text, end before it starts or in a later line, or
lie in what is not shown of its line: then only those of its bytes count that are on the line, and the
marks never start to the left of it.
-/

namespace Lowering

theorem Shown.byteLength_le {line rest shown : List Char} (h : Shown line rest shown) :
    byteLength shown ≤ byteLength line := by
  by_cases hrest : rest = []
  · rw [h.whole hrest]
  · obtain ⟨-, n, hline⟩ := h.trimmed hrest
    rw [hline, byteLength_append]
    exact Nat.le_add_right _ _

theorem OnLine.stop_le {text front line rest : List Char} {o : Nat} (h : OnLine text o front line rest) :
    byteLength front + byteLength line ≤ byteLength text := by
  rw [h.split, byteLength_append, byteLength_append]
  exact Nat.le_add_right _ _

namespace Report

/-! ## Marks -/

/-- The bytes of a span that are among the `width` bytes from `start` on. -/
def shownBytes (span : Span) (start width : Nat) : Finset Nat :=
  Finset.Ico span.start.toNat span.stop.toNat ∩ Finset.Ico start (start + width)

/-- **One mark for each byte that is shown**, but at least one. -/
theorem markCount_eq {span : Span} {start width size : Nat} (hstart : start ≤ min span.start.toNat size)
    (hwidth : start + width ≤ size) :
    markCount span (min span.start.toNat size - start + 1) width =
      max 1 (shownBytes span start width).card := by
  rw [markCount, shownBytes, Finset.Ico_inter_Ico, Nat.card_Ico, Span.length]
  -- a span that starts behind the text has no byte in it, and behind the last line there is no room
  omega

/-! ## The text of a report -/

/-- The first line of a report. -/
def heading (colored : Bool) (d : Diagnostic) : String :=
  Text.Style.bold.codeIf colored ++ (severityStyle d.severity).codeIf colored ++ d.severity.render ++
    "[" ++ d.code.render ++ "]" ++ Text.Style.reset.codeIf colored ++ ": " ++ d.message ++ "\n"

/-- A place in a source, and its line with `marks` marks under it behind `indent` blanks. -/
def underlined (colored : Bool) (severity : Severity) (loc : Location) (line : String)
    (indent marks : Nat) : String :=
  let cyan := Text.Style.cyan.codeIf colored
  let reset := Text.Style.reset.codeIf colored
  let margin := blanks (toString loc.line).length
  "  " ++ cyan ++ "-->" ++ reset ++ " " ++ loc.render ++ "\n" ++
  (margin ++ " " ++ cyan ++ "|" ++ reset ++ "\n" ++
  cyan ++ toString loc.line ++ " |" ++ reset ++ " " ++ line ++ "\n" ++
  margin ++ " " ++ cyan ++ "|" ++ reset ++ " " ++ blanks indent ++
    (severityStyle severity).codeIf colored ++ String.ofList (List.replicate marks '^') ++ reset ++ "\n")

theorem exists_tail (head place notes help stop : String) : ∃ tail,
    head ++ "" ++ notes ++ help ++ stop = head ++ tail ∧
      head ++ place ++ notes ++ help ++ stop = head ++ place ++ tail :=
  ⟨notes ++ (help ++ stop), by simp only [String.append_assoc, String.empty_append],
    by simp only [String.append_assoc]⟩

/-- What a span adds to a report is the place where it starts, with the line underlined. -/
theorem terminalOne_eq {colored : Bool} {sources : SourceCache} {d : Diagnostic} {loc : Location}
    {line : String} (hloc : sources.location? d.span = some loc)
    (hline : sources.lineText? d.span = some line) : ∃ tail,
    terminalOne colored sources { d with span := .dummy } = heading colored d ++ tail ∧
      terminalOne colored sources d =
        heading colored d ++
          underlined colored d.severity loc line (loc.column - 1)
            (markCount d.span loc.column line.utf8ByteSize) ++ tail := by
  have hdummy : sources.location? .dummy = none := rfl
  unfold terminalOne
  simp only [hloc, hline, hdummy]
  exact exists_tail (heading colored d) (underlined colored d.severity loc line (loc.column - 1)
    (markCount d.span loc.column line.utf8ByteSize)) _ _ "\n"

end Report

/-! ## Spans of known texts -/

theorem SourceCache.location?_eq {sources : SourceCache} {span : Span} {s : SourceText}
    (hspan : span.isDummy = false) (hfile : sources.file? span.file.toNat = some s) :
    sources.location? span =
      some ⟨s.path, (s.lineColumn span.start.toNat).1, (s.lineColumn span.start.toNat).2⟩ := by
  rw [location?, fileOf?, hspan, if_neg Bool.false_ne_true, hfile]
  rfl

theorem SourceCache.lineText?_eq {sources : SourceCache} {span : Span} {s : SourceText}
    (hspan : span.isDummy = false) (hfile : sources.file? span.file.toNat = some s) :
    sources.lineText? span = s.lineText? (s.lineColumn span.start.toNat).1 := by
  rw [lineText?, fileOf?, hspan, if_neg Bool.false_ne_true, hfile]
  rfl

/-- **Locations and underlined lines are exact.** An offset counts as the end of the text if it is behind
it. Its line number is one more than the number of newline bytes before it, its column one more than its
distance from the start of its line, and the text of the line is what is shown of it. A look-up in a table
of 32-bit words gives the same line and column, with no step out of range, and a slice of the text that is
the line with its newline. For a span of a known text that starts at the offset, a report for a terminal
shows this place and under the line, behind one blank less than the column, a mark for each byte of the
span that is shown, but at least one. -/
theorem SourceText.location_exact (s : SourceText) (hsize : s.text.utf8ByteSize < UInt32.size - 1)
    (offset : UInt32) : ∃ front line rest shown,
    OnLine s.text.toList (min offset.toNat s.text.utf8ByteSize) front line rest ∧
      Shown line rest shown ∧
      s.lineColumn offset.toNat =
        (1 + (s.bytes.take (min offset.toNat s.text.utf8ByteSize)).count newline,
          1 + (min offset.toNat s.text.utf8ByteSize - byteLength front)) ∧
      s.lineText? (s.lineColumn offset.toNat).1 = some (String.ofList shown) ∧
      s.tableLineColumn? offset.toNat = some (s.lineColumn offset.toNat) ∧
      s.tableLine? (s.lineColumn offset.toNat).1 = some (utf8 (line ++ rest.take 1)) ∧
      ∀ (colored : Bool) (sources : SourceCache) (d : Diagnostic), d.span.isDummy = false →
        sources.file? d.span.file.toNat = some s → d.span.start = offset → ∃ tail,
          Report.terminalOne colored sources { d with span := .dummy } =
              Report.heading colored d ++ tail ∧
            Report.terminalOne colored sources d =
              Report.heading colored d ++
                Report.underlined colored d.severity
                  ⟨s.path, (s.lineColumn offset.toNat).1, (s.lineColumn offset.toNat).2⟩
                  (String.ofList shown) ((s.lineColumn offset.toNat).2 - 1)
                  (max 1 (Report.shownBytes d.span (byteLength front) (byteLength shown)).card) ++
                tail := by
  obtain ⟨front, line, rest, shown, hon, hshown, hlc, htext⟩ := s.lineColumn_onLine offset.toNat
  refine ⟨front, line, rest, shown, hon, hshown, ?_, ?_, ?_, ?_, ?_⟩
  · rw [hlc, bytes_eq, hon.count_newline_take, Nat.add_comm _ 1]
  · rw [hlc]
    exact htext
  · rw [hlc]
    exact tableLineColumn?_eq hsize hon
  · rw [hlc]
    exact tableLine?_eq hsize hon
  · rintro colored sources d hspan hfile rfl
    have hline : sources.lineText? d.span = some (String.ofList shown) := by
      rw [SourceCache.lineText?_eq hspan hfile, hlc]
      exact htext
    -- The line ends within the text, so a start behind the text leaves one mark and no byte.
    have hmarks : Report.markCount d.span (s.lineColumn d.span.start.toNat).2
        (String.ofList shown).utf8ByteSize =
        max 1 (Report.shownBytes d.span (byteLength front) (byteLength shown)).card := by
      have hwidth : byteLength front + byteLength shown ≤ s.text.utf8ByteSize := by
        have hstop := hon.stop_le
        have hle := hshown.byteLength_le
        rw [utf8ByteSize_eq]
        omega
      rw [hlc, utf8ByteSize_eq (String.ofList shown), String.toList_ofList]
      exact Report.markCount_eq hon.start_le hwidth
    rw [← hmarks]
    exact Report.terminalOne_eq (SourceCache.location?_eq hspan hfile) hline

/-- A line of five bytes, the first character in two of them, that ends with two carriage returns and a
newline. -/
def SourceText.accented : SourceText := ⟨"a.tern", "é();\r\r\ny"⟩

/-- An error at the bytes 2 to 8, which go on into the next line. -/
def Diagnostic.accented : Diagnostic := .ofCode .suspensionInFinally ⟨0, 2, 9⟩ "no"

/-- Three bytes of the span are shown, and they are marked behind two blanks. -/
theorem SourceText.location_exact_accented :
    accented.text.utf8ByteSize < UInt32.size - 1 ∧ Diagnostic.accented.span.isDummy = false ∧
      accented.lineColumn 2 = (1, 3) ∧ accented.tableLineColumn? 2 = some (1, 3) ∧
      accented.lineText? 1 = some "é();" ∧
      ∃ tail, Report.terminalOne false ⟨[accented]⟩ .accented =
        Report.heading false .accented ++
          Report.underlined false .error ⟨"a.tern", 1, 3⟩ "é();" 2 3 ++ tail := by
  have hsize : accented.text.utf8ByteSize < UInt32.size - 1 := by decide +kernel
  have hlc : accented.lineColumn 2 = (1, 3) := by decide +kernel
  have htext : accented.lineText? 1 = some "é();" := by decide +kernel
  obtain ⟨front, line, rest, shown, hon, -, hcolumn, hshown, htable, -, hreport⟩ :=
    location_exact accented hsize 2
  obtain ⟨tail, -, hout⟩ := hreport false ⟨[accented]⟩ .accented rfl rfl rfl
  rw [show UInt32.toNat 2 = 2 from rfl, hlc] at hcolumn hshown htable hout
  -- nothing stands in front of the line, and five bytes of it are shown
  have hfront : byteLength front = 0 := by
    have hthree : 3 = 1 + (min 2 accented.text.utf8ByteSize - byteLength front) :=
      congrArg Prod.snd hcolumn
    omega
  have htext' : String.ofList shown = "é();" := Option.some.inj (hshown.symm.trans htext)
  have hwidth : byteLength shown = 5 := by
    rw [← String.toList_ofList (l := shown), htext']
    decide +kernel
  rw [htext', hfront, hwidth] at hout
  exact ⟨hsize, rfl, hlc, htable, htext, tail, hout⟩

end Lowering
