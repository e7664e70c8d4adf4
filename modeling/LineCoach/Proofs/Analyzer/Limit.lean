import LineCoach.Proofs.Analyzer.Scope

/-!
# Raising the limit on the length of lines

A scan with a higher limit looks at fewer lines, and a file that is left without a long line is not
parsed any more. Nothing else changes: a file that could be parsed before still can, it gives the
same tree, and each line that is still long is classified as before. So the events are those of the
lines that are still long. A file may only come off better, since what was refused may now not be
looked at.
-/

namespace LineCoach

/-- The lines that are long for a higher limit are among those that are long for a lower one. -/
theorem Text.filter_longLines {low high : Nat} (h : low ≤ high) (content : String) :
    (longLines content low).filter (Line.exceeds high) = longLines content high := by
  unfold longLines
  rw [List.filter_filter]
  apply List.filter_congr
  intro line _
  simp only [Line.exceeds, Bool.and_eq_left_iff_imp, decide_eq_true_eq]
  omega

namespace Verdict

/-- What can become of a file when fewer of its lines are long. Either the verdict stays, with the
lines that are kept, or a file that was refused is not looked at. -/
inductive Narrows (keep : LongLine → Bool) : Verdict → Verdict → Prop
  | unreadable (failure : FileTree.Failure) : Narrows keep (.unreadable failure) (.unreadable failure)
  | refused (error : ParseError) : Narrows keep (.refused error) (.refused error)
  | spared (error : ParseError) : Narrows keep (.refused error) (.examined [])
  | examined (lines : List LongLine) : Narrows keep (.examined lines) (.examined (lines.filter keep))

namespace Narrows

variable {keep : LongLine → Bool} {before after : Verdict}

/-- The lines that are left are those that are kept. -/
theorem lines_eq (h : Narrows keep before after) : after.lines = before.lines.filter keep := by
  cases h with
  | unreadable failure => rfl
  | refused error => rfl
  | spared error => rfl
  | examined lines => rfl

/-- No file is refused that was not. -/
theorem isRefused (h : Narrows keep before after) (hafter : after.isRefused) :
    before.isRefused := by
  cases h with
  | unreadable failure => exact hafter
  | refused error => rfl
  | spared error => rfl
  | examined lines => exact hafter

/-- A scan that gets through the file still does. -/
theorem passes (h : Narrows keep before after) {classifiers : List Classifier} {strict : Bool}
    (hbefore : before.Passes classifiers strict) : after.Passes classifiers strict := by
  cases h with
  | unreadable failure => exact hbefore
  | refused error => exact hbefore
  | spared error =>
    intro long hlong
    cases hlong
  | examined lines =>
    intro long hlong
    exact hbefore long (List.mem_of_mem_filter hlong)

end Narrows

end Verdict

namespace Analyzer

/-- The analyzer with another limit on the length of lines. -/
def limitedTo (analyzer : Analyzer) (limit : Nat) : Analyzer :=
  { analyzer with maxLineLength := limit }

/-- A text that can be parsed is examined, with as many long lines as it has. -/
theorem judge_of_parsed {analyzer : Analyzer} {content : String} {tree : Tree}
    (h : analyzer.parser.run analyzer.parseTimeout content = .ok tree) (limit : Nat) (path : Path) :
    (analyzer.limitedTo limit).judge path (.ok content) =
      .examined ((Text.longLines content limit).map (LongLine.mk path tree)) := by
  simp only [judge, limitedTo]
  cases Text.longLines content limit with
  | nil => rfl
  | cons first rest => simp only [h]

/-- A text that cannot be parsed is refused if it has a long line. -/
theorem judge_of_unparsed {analyzer : Analyzer} {content : String} {error : ParseError}
    (h : analyzer.parser.run analyzer.parseTimeout content = .error error) (limit : Nat)
    (path : Path) :
    (analyzer.limitedTo limit).judge path (.ok content) =
      if Text.longLines content limit = [] then .examined [] else .refused error := by
  simp only [judge, limitedTo]
  cases Text.longLines content limit with
  | nil => rfl
  | cons first rest => simp only [h, reduceCtorEq, if_false]

section Limits

variable (analyzer : Analyzer) (workspace : Workspace) {low high : Nat} (hlimit : low ≤ high)

include hlimit

/-- What becomes of a file at a higher limit, by what was read from it. -/
theorem narrows_judge (path : Path) (content : Except FileTree.Failure String) :
    Verdict.Narrows (fun long => long.line.exceeds high)
      ((analyzer.limitedTo low).judge path content)
      ((analyzer.limitedTo high).judge path content) := by
  cases content with
  | error failure =>
    cases failure with
    | notText => exact .refused _
    | _ => exact .unreadable _
  | ok content =>
    have hlines := Text.filter_longLines hlimit content
    cases hparsed : analyzer.parser.run analyzer.parseTimeout content with
    | ok tree =>
      rw [judge_of_parsed hparsed, judge_of_parsed hparsed]
      have hkept : (Text.longLines content high).map (LongLine.mk path tree) =
          ((Text.longLines content low).map (LongLine.mk path tree)).filter
            fun long => long.line.exceeds high := by
        rw [List.filter_map, ← hlines]
        rfl
      rw [hkept]
      exact .examined _
    | error error =>
      rw [judge_of_unparsed hparsed, judge_of_unparsed hparsed]
      by_cases hlow : Text.longLines content low = []
      · rw [← hlines, hlow]
        exact .examined []
      · rw [if_neg hlow]
        split
        · exact .spared error
        · exact .refused error

/-- What becomes of a file at a higher limit. -/
theorem narrows_verdict (path : Path) :
    Verdict.Narrows (fun long => long.line.exceeds high)
      ((analyzer.limitedTo low).verdict workspace path)
      ((analyzer.limitedTo high).verdict workspace path) :=
  analyzer.narrows_judge hlimit _ _

/-- The long lines of a file at a higher limit are those that are still long. -/
theorem longLines_limitedTo (path : Path) :
    (analyzer.limitedTo high).longLines workspace path =
      ((analyzer.limitedTo low).longLines workspace path).filter fun long => long.line.exceeds high :=
  (analyzer.narrows_verdict workspace hlimit path).lines_eq

/-- The events of a file at a higher limit are those of the lines that are still long. -/
theorem events_limitedTo (path : Path) :
    (analyzer.limitedTo high).events workspace path =
      ((analyzer.limitedTo low).events workspace path).filter
        fun event => high < event.location.length := by
  unfold events
  rw [analyzer.longLines_limitedTo workspace hlimit path]
  symm
  apply filter_flatMap_of_uniform
  intro long _ event hevent
  rw [LongLine.location_of_mem_events hevent]
  rfl

/-- At a higher limit files have fewer long lines, and fewer of them are refused. -/
theorem total_limitedTo (files : List Path) :
    ((analyzer.limitedTo high).total workspace files).linesFlagged ≤
        ((analyzer.limitedTo low).total workspace files).linesFlagged ∧
      ((analyzer.limitedTo high).total workspace files).filesSkipped ≤
        ((analyzer.limitedTo low).total workspace files).filesSkipped := by
  constructor
  · have hlines : files.flatMap ((analyzer.limitedTo high).longLines workspace) =
        (files.flatMap ((analyzer.limitedTo low).longLines workspace)).filter
          fun long => long.line.exceeds high := by
      rw [List.filter_flatMap]
      exact List.flatMap_congr fun path _ => analyzer.longLines_limitedTo workspace hlimit path
    change (files.flatMap ((analyzer.limitedTo high).longLines workspace)).length ≤ _
    rw [hlines]
    exact List.length_filter_le _ _
  · apply List.countP_mono_left
    intro path _ hrefused
    exact (analyzer.narrows_verdict workspace hlimit path).isRefused hrefused

end Limits

/-- Raising the limit of a scan that ends well lets it end well again. Its events are then those of
the lines that exceed the new limit, in the same order, and neither the long lines nor the files
that are passed over become more. -/
theorem scanScope_raised_limit {analyzer : Analyzer} {workspace : Workspace} {scope : Scope}
    {low high : Nat} {summary : Summary} (hlimit : low ≤ high)
    (h : ((analyzer.limitedTo low).scanScope workspace scope).outcome = .ok summary) :
    ∃ summary', ((analyzer.limitedTo high).scanScope workspace scope).outcome = .ok summary' ∧
      ((analyzer.limitedTo high).scanScope workspace scope).events =
        ((analyzer.limitedTo low).scanScope workspace scope).events.filter
          (fun event => high < event.location.length) ∧
      summary'.linesFlagged ≤ summary.linesFlagged ∧
      summary'.filesSkipped ≤ summary.filesSkipped := by
  have hpasses (path : Path) (hpassed : (analyzer.limitedTo low).Passes workspace path) :
      (analyzer.limitedTo high).Passes workspace path :=
    (analyzer.narrows_verdict workspace hlimit path).passes hpassed
  obtain ⟨files, rfl, houtcome, hevents⟩ :=
    scanScope_of_each_file hpasses (analyzer.events_limitedTo workspace hlimit) rfl rfl h
  exact ⟨_, houtcome, hevents, analyzer.total_limitedTo workspace hlimit files⟩

/-- The scan of the sample course with a limit. -/
def Sample.courseScan (limit : Nat) : Run AnalyzerError Summary :=
  ((commenting [marking]).limitedTo limit).scanScope course (.directory ⟨"/w"⟩)

/-- From the limit three to the limit five a line of four characters is no longer long, and the file
that cannot be parsed is no longer skipped. -/
theorem scanScope_raised_limit_sample :
    3 ≤ 5 ∧ (Sample.courseScan 3).outcome = .ok ⟨2, 1, 3, 0, 3⟩ ∧
      (Sample.courseScan 5).outcome = .ok ⟨3, 0, 2, 0, 2⟩ ∧
      (Sample.courseScan 5).events =
        (Sample.courseScan 3).events.filter (fun event => 5 < event.location.length) := by
  have hlow : (Sample.courseScan 3).outcome = .ok ⟨2, 1, 3, 0, 3⟩ :=
    (Sample.outcome_course _).trans (by decide +kernel)
  have hhigh : (Sample.courseScan 5).outcome = .ok ⟨3, 0, 2, 0, 2⟩ :=
    (Sample.outcome_course _).trans (by decide +kernel)
  obtain ⟨summary, -, hevents, -⟩ := scanScope_raised_limit (by decide : 3 ≤ 5) hlow
  exact ⟨by decide, hlow, hhigh, hevents⟩

end Analyzer

end LineCoach
