import Adventure.Check
import Adventure.Proofs.Rendering
import Adventure.Proofs.Resolution
import Adventure.Proofs.SourceOrder

/-!
Checking. What is listed of a file is its own diagnostics and the warnings about its unresolved names, in one
order, and all that the files it includes can do is to take such warnings away. So whether a file fails, and
what else is said about it, its own text alone decides.
-/

namespace Adventure

namespace Position

theorem le_total (first second : Position) : (first.le second || second.le first) = true := by
  rw [Bool.or_eq_true, le_iff, le_iff]
  omega

theorem le_antisymm {first second : Position} (before : first.le second = true)
    (after : second.le first = true) : first = second := by
  rw [le_iff] at before after
  have line : first.line = second.line := by omega
  have character : first.character = second.character := by omega
  cases first
  cases second
  simp_all

end Position

namespace Text

theorem lines_of_run {run : List Char} (single : '\n' ∉ run) (rest : List Char) :
    ∃ line others, lines (run ++ rest) = (run ++ line) :: others := by
  induction run with
  | nil =>
      obtain ⟨line, others, split⟩ := List.exists_cons_of_ne_nil (lines_ne_nil rest)
      exact ⟨line, others, split⟩
  | cons c more ih =>
      rw [List.mem_cons, not_or] at single
      obtain ⟨line, others, split⟩ := ih single.2
      refine ⟨line, others, ?_⟩
      rw [List.cons_append, lines, if_neg (Ne.symm single.1), split]
      rfl

theorem exists_line {text before : List Char} (inside : before <+: text) :
    ∃ line ∈ lines text, (Position.ofText before).character ≤ line.length := by
  obtain ⟨rest, rfl⟩ := inside
  -- The place is as far to the right as what follows the last line feed before it is long.
  obtain ⟨run, same⟩ : ∃ run, before.reverse.takeWhile (· != '\n') = List.reverse run :=
    ⟨_, (List.reverse_reverse _).symm⟩
  have single : '\n' ∉ run := by
    intro member
    have kept := List.mem_takeWhile_imp (same ▸ List.mem_reverse.mpr member)
    simp at kept
  have whole : before = (before.reverse.dropWhile (· != '\n')).reverse ++ run := by
    rw [← List.reverse_reverse run, ← same, ← List.reverse_append, List.takeWhile_append_dropWhile,
      List.reverse_reverse]
  obtain ⟨line, others, split⟩ := lines_of_run single rest
  have long : (Position.ofText before).character ≤ (run ++ line).length := by
    simp [Position.ofText, same]
  cases earlier : before.reverse.dropWhile (· != '\n') with
  | nil =>
      rw [earlier, List.reverse_nil, List.nil_append] at whole
      exact ⟨run ++ line, by simp [whole, split], long⟩
  | cons c front =>
      have feed := List.head?_dropWhile_not (· != '\n') before.reverse
      simp only [earlier, List.head?_cons, bne_eq_false_iff_eq] at feed
      rw [earlier, List.reverse_cons, feed] at whole
      refine ⟨run ++ line, ?_, long⟩
      rw [whole, List.append_assoc, List.append_assoc, List.singleton_append, lines_append, split]
      simp

end Text

namespace Check

open Document

section Order

variable {position : Position} {first second found : Diagnostics} {diagnostic head : Diagnostic}

def precedes (first second : Diagnostic) : Bool := first.span.start.le second.span.start

def Sorted (diagnostics : Diagnostics) : Prop := diagnostics.Pairwise (precedes · ·)

def startingAt (position : Position) (diagnostics : Diagnostics) : Diagnostics :=
  diagnostics.filter (·.span.start == position)

theorem precedes_trans (first second third : Diagnostic) (before : precedes first second = true)
    (after : precedes second third = true) : precedes first third = true :=
  Position.le_trans before after

theorem precedes_total (first second : Diagnostic) :
    (precedes first second || precedes second first) = true :=
  Position.le_total first.span.start second.span.start

theorem ordered_perm (diagnostics : Diagnostics) : (ordered diagnostics).Perm diagnostics :=
  List.mergeSort_perm diagnostics precedes

theorem ordered_sorted (diagnostics : Diagnostics) : Sorted (ordered diagnostics) :=
  List.pairwise_mergeSort precedes_trans precedes_total diagnostics

theorem mem_startingAt :
    diagnostic ∈ startingAt position found ↔ diagnostic ∈ found ∧ diagnostic.span.start = position := by
  simp [startingAt]

theorem startingAt_cons : startingAt position (head :: found) =
    if head.span.start = position then head :: startingAt position found
    else startingAt position found := by
  simp [startingAt, List.filter_cons]

theorem startingAt_append (position : Position) (first second : Diagnostics) :
    startingAt position (first ++ second) = startingAt position first ++ startingAt position second :=
  List.filter_append ..

theorem startingAt_filter (position : Position) (keep : Diagnostic → Bool) (diagnostics : Diagnostics) :
    startingAt position (diagnostics.filter keep) = (startingAt position diagnostics).filter keep := by
  rw [startingAt, startingAt, List.filter_comm]

theorem startingAt_sorted (position : Position) (diagnostics : Diagnostics) :
    Sorted (startingAt position diagnostics) := by
  refine List.Pairwise.imp_of_mem ?_ (List.pairwise_of_forall fun _ _ => trivial)
  intro earlier later here there _
  rw [precedes, (mem_startingAt.mp here).2, (mem_startingAt.mp there).2]
  exact Position.le_refl position

theorem startingAt_ordered (position : Position) (diagnostics : Diagnostics) :
    startingAt position (ordered diagnostics) = startingAt position diagnostics := by
  have kept : (startingAt position diagnostics).Sublist (ordered diagnostics) :=
    List.sublist_mergeSort precedes_trans precedes_total (startingAt_sorted position diagnostics)
      List.filter_sublist
  have inside : (startingAt position diagnostics).Sublist (startingAt position (ordered diagnostics)) := by
    simpa [startingAt, List.filter_filter] using kept.filter (·.span.start == position)
  have lengths := ((ordered_perm diagnostics).filter (·.span.start == position)).length_eq
  exact (inside.eq_of_length lengths.symm).symm

theorem Sorted.head_precedes (sorted : Sorted (head :: found)) (member : diagnostic ∈ head :: found) :
    precedes head diagnostic = true := by
  rcases List.mem_cons.mp member with rfl | later
  · exact Position.le_refl _
  · exact (List.pairwise_cons.mp sorted).1 diagnostic later

theorem mem_iff_of_startingAt (same : ∀ position, startingAt position first = startingAt position second) :
    diagnostic ∈ first ↔ diagnostic ∈ second := by
  have here := same diagnostic.span.start
  have inside (list : Diagnostics) :
      diagnostic ∈ list ↔ diagnostic ∈ startingAt diagnostic.span.start list := by
    simp [mem_startingAt]
  rw [inside first, inside second, here]

/-- A sorted list is known once it is known what starts where and in which order. -/
theorem Sorted.eq_of_startingAt (sorted : Sorted first) (others : Sorted second)
    (same : ∀ position, startingAt position first = startingAt position second) : first = second := by
  induction first generalizing second with
  | nil =>
      refine (List.eq_nil_iff_forall_not_mem.mpr fun diagnostic member => ?_).symm
      exact List.not_mem_nil ((mem_iff_of_startingAt same).mpr member)
  | cons head rest ih =>
      cases second with
      | nil => exact absurd ((mem_iff_of_startingAt same).mp List.mem_cons_self) List.not_mem_nil
      | cons front more =>
          have starts : head.span.start = front.span.start :=
            Position.le_antisymm
              (sorted.head_precedes ((mem_iff_of_startingAt same).mpr List.mem_cons_self))
              (others.head_precedes ((mem_iff_of_startingAt same).mp List.mem_cons_self))
          have heads := same head.span.start
          rw [startingAt_cons, startingAt_cons, if_pos rfl, if_pos starts.symm] at heads
          obtain ⟨rfl, -⟩ := List.cons.inj heads
          congr 1
          refine ih (List.pairwise_cons.mp sorted).2 (List.pairwise_cons.mp others).2 fun position => ?_
          have whole := same position
          rw [startingAt_cons, startingAt_cons] at whole
          split at whole
          · exact (List.cons.inj whole).2
          · exact whole

theorem filter_ordered (keep : Diagnostic → Bool) (diagnostics : Diagnostics) :
    (ordered diagnostics).filter keep = ordered (diagnostics.filter keep) := by
  have sorted := (ordered_sorted diagnostics).filter keep
  refine Sorted.eq_of_startingAt sorted (ordered_sorted _) fun position => ?_
  rw [startingAt_filter, startingAt_ordered, startingAt_ordered, startingAt_filter]

end Order

section Findings

variable (source : String) (document : Document) (imports others : List Document)

theorem undefined_of_mem_resolveAcross {diagnostic : Diagnostic}
    (member : diagnostic ∈ document.resolveAcross imports options) :
    diagnostic.problem.isUndefined = true ∧ diagnostic.severity = .warning := by
  obtain ⟨occurrence, _, rfl⟩ := List.mem_map.mp member
  exact ⟨rfl, rfl⟩

theorem isUndefined_of_mem_parse {diagnostic : Diagnostic}
    (member : diagnostic ∈ (parse source).diagnostics) : diagnostic.problem.isUndefined = false := by
  have own := filter_isUndefined options source Grammar.standard
  have unanalyzed : options.analyze = false := rfl
  rw [unanalyzed, if_neg (by decide), List.filter_eq_nil_iff] at own
  simpa using own diagnostic member

theorem diagnostics_known :
    (diagnostics (parse source) imports).filter (!·.problem.isUndefined) =
      ordered (parse source).diagnostics := by
  have own : (parse source).diagnostics.filter (!·.problem.isUndefined) = (parse source).diagnostics := by
    rw [List.filter_eq_self]
    intro diagnostic member
    simp [isUndefined_of_mem_parse source member]
  have names : ((parse source).resolveAcross imports options).filter (!·.problem.isUndefined) = [] := by
    rw [List.filter_eq_nil_iff]
    intro diagnostic member
    simp [undefined_of_mem_resolveAcross (parse source) imports member]
  rw [diagnostics, filter_ordered, List.filter_append, own, names, List.append_nil]

theorem hasErrors_diagnostics :
    (diagnostics document imports).hasErrors = document.hasErrors := by
  have names : (document.resolveAcross imports options).any (·.severity == .error) = false := by
    rw [List.any_eq_false]
    intro diagnostic member
    simp [undefined_of_mem_resolveAcross document imports member]
  rw [Document.hasErrors, Diagnostics.hasErrors, Diagnostics.hasErrors, diagnostics,
    (ordered_perm _).any_eq, List.any_append, names, Bool.or_false]

/-- More included documents take away what they settle, and nothing else. -/
theorem diagnostics_append :
    diagnostics (parse source) (imports ++ others) =
      (diagnostics (parse source) imports).filter (!·.settledBy others) := by
  have own : (parse source).diagnostics.filter (!·.settledBy others) = (parse source).diagnostics := by
    rw [List.filter_eq_self]
    intro diagnostic member
    have known := isUndefined_of_mem_parse source member
    cases problem : diagnostic.problem <;>
      simp_all [Diagnostic.settledBy, Problem.isUndefined]
  rw [diagnostics, resolveAcross_append, diagnostics, filter_ordered, List.filter_append, own]

/-- Two lists in one order: what starts at one position stands as before, the first list's part first. -/
structure Merges (first second found : Diagnostics) : Prop where
  perm : found.Perm (first ++ second)
  sorted : Sorted found
  stable : ∀ position, startingAt position found = startingAt position first ++ startingAt position second

theorem ordered_merges (first second : Diagnostics) : Merges first second (ordered (first ++ second)) := by
  refine ⟨ordered_perm _, ordered_sorted _, fun position => ?_⟩
  rw [startingAt_ordered, startingAt_append]

end Findings

section Listing

variable {source : String}

def fits (source : String) (diagnostic : Diagnostic) : Bool :=
  decide (diagnostic.caretOffset source < Diagnostic.fieldLimit)

def shown (source file : String) (found : Diagnostics) : String :=
  String.join ((found.takeWhile (fits source)).map (·.render source file))

theorem listing_eq (source file : String) (found : Diagnostics) :
    listing source file found =
      (shown source file found,
        if found.all (fits source) then .ok () else .error (.unshowable .fieldTooWide)) := by
  induction found with
  | nil => rfl
  | cons diagnostic others ih =>
      by_cases near : diagnostic.caretOffset source < Diagnostic.fieldLimit
      · simp [listing, Diagnostic.display, shown, fits, near, ih]
      · simp [listing, Diagnostic.display, shown, fits, near]

theorem span_mem_spans {document : Document} {imports : List Document} {diagnostic : Diagnostic}
    (member : diagnostic ∈ diagnostics document imports) : diagnostic.span ∈ document.spans := by
  rw [diagnostics, (ordered_perm _).mem_iff, List.mem_append] at member
  simp only [Document.spans, List.mem_append]
  rcases member with own | name
  · exact .inr (.inr (.inr (List.mem_map_of_mem own)))
  · obtain ⟨occurrence, kept, rfl⟩ := List.mem_map.mp name
    exact .inr (.inr (.inl (List.mem_map_of_mem (List.mem_filter.mp kept).1)))

theorem all_fits {imports : List Document}
    (short : ∀ line ∈ Text.lines source.toList, line.length < Diagnostic.fieldLimit) :
    (diagnostics (parse source) imports).all (fits source) = true := by
  rw [List.all_eq_true]
  intro diagnostic member
  have place := parse_spans Grammar.standard options source _ (span_mem_spans member)
  obtain ⟨before, inside, after, whole, span⟩ := inside_of_mem_places place
  obtain ⟨line, found, within⟩ := Text.exists_line (whole ▸ List.prefix_append before (inside ++ after))
  have near := short line found
  rw [fits, decide_eq_true_eq, Diagnostic.caretOffset, span]
  simp only
  omega

end Listing

section Runs

variable (contents : String → Except ReadFailure String) {file source : String} {files : List String}

/-- Reading of files whose contents, or absence, stay as they are. -/
def stored : String → Id (Except ReadFailure String) := fun path => pure (contents path)

def included (file source : String) : List Document :=
  (parse source).imports.filterMap fun target => (contents (includePath file target)).toOption.map parse

def found (file source : String) : Diagnostics :=
  diagnostics (parse source) (included contents file source)

def failing (file : String) : Bool :=
  (contents file).toOption.any fun source => (parse source).hasErrors

def showable (file : String) : Bool :=
  (contents file).toOption.all fun source => (found contents file source).all (fits source)

theorem failing_eq (readable : contents file = .ok source) :
    failing contents file = (parse source).hasErrors := by
  simp only [failing, readable, Except.toOption, Option.any]

theorem showable_eq (readable : contents file = .ok source) :
    showable contents file = (found contents file source).all (fits source) := by
  simp only [showable, readable, Except.toOption, Option.all]

theorem readImports_run (file : String) (targets : List String) :
    (readImports (stored contents) file targets).run =
      targets.filterMap fun target => (contents (includePath file target)).toOption.map parse := by
  induction targets with
  | nil => rfl
  | cons target others ih =>
      rw [readImports, List.filterMap_cons, ← ih]
      simp only [stored, Id.run_bind, Id.run_pure]
      cases contents (includePath file target) <;> rfl

theorem checkFile_run (readable : contents file = .ok source) :
    (checkFile (stored contents) file).run =
      (shown source file (found contents file source),
        if showable contents file then .ok (failing contents file)
        else .error (.unshowable .fieldTooWide)) := by
  have errors : (found contents file source).hasErrors = failing contents file := by
    rw [found, hasErrors_diagnostics, failing_eq contents readable]
  have whole : (checkFile (stored contents) file).run =
      ((listing source file (found contents file source)).1,
        (listing source file (found contents file source)).2.map fun _ =>
          (found contents file source).hasErrors) := by
    have here : (stored contents file).run = .ok source := readable
    rw [checkFile, Id.run_bind, here]
    simp only [Id.run_bind, Id.run_pure, readImports_run, found, included]
  rw [whole, listing_eq, errors, showable_eq contents readable]
  cases (found contents file source).all (fits source) <;> rfl

theorem eq_hasErrors {failed : Bool} (readable : contents file = .ok source)
    (returned : (checkFile (stored contents) file).run.2 = .ok failed) :
    failed = (parse source).hasErrors := by
  rw [checkFile_run contents readable, ← failing_eq contents readable] at *
  split at returned
  · exact (Except.ok.inj returned).symm
  · simp at returned

theorem checkFiles_run_snd (readable : ∀ file ∈ files, ∃ source, contents file = .ok source) :
    (checkFiles (stored contents) files).run.2 =
      if files.all (showable contents) then .ok (files.any (failing contents))
      else .error (.unshowable .fieldTooWide) := by
  induction files with
  | nil => rfl
  | cons file others ih =>
      obtain ⟨source, here⟩ := readable file List.mem_cons_self
      have later := ih fun other member => readable other (List.mem_cons_of_mem file member)
      rw [checkFiles, Id.run_bind, checkFile_run contents here, List.all_cons, List.any_cons]
      cases showable contents file with
      | false => rfl
      | true =>
          simp only [if_true, Bool.true_and, Id.run_bind, Id.run_pure, later]
          split <;> rfl

theorem run_status (nonempty : files ≠ [])
    (readable : ∀ file ∈ files, ∃ source, contents file = .ok source) :
    (run (stored contents) files).run.status =
      if files.all (showable contents) then if files.any (failing contents) then 1 else 0 else 101 := by
  have some : files.isEmpty = false := by simpa using nonempty
  simp only [run, some, Bool.false_eq_true, if_false, Id.run_bind, Id.run_pure]
  rw [checkFiles_run_snd contents readable]
  cases files.all (showable contents) <;> rfl

end Runs

/-- Whatever the files that a file includes hold, and whether or not they are there, all that they can do is
to silence warnings about undefined names. What is found in the file is in order, and what is found at one
position stands as in the file's own diagnostics followed by the warnings about its names. Everything else
that is found, and whether the file fails, depends on its own text alone, and a run fails exactly if one of
its files does. Only a caret 65535 columns in breaks a run off, which takes a line as long as that. -/
theorem includes_silence :
    (∀ contents file source, contents file = .ok source →
      let own := (parse source).diagnostics
      let imports := included contents file source
      let names := (parse source).resolveAcross imports options
      Merges own names (found contents file source) ∧
        (∀ diagnostic ∈ names, diagnostic.problem.isUndefined = true ∧ diagnostic.severity = .warning) ∧
        (found contents file source).filter (!·.problem.isUndefined) = ordered own ∧
        found contents file source = (diagnostics (parse source) []).filter (!·.settledBy imports) ∧
        (checkFile (stored contents) file).run =
          (shown source file (found contents file source),
            if showable contents file then .ok own.hasErrors else .error (.unshowable .fieldTooWide)) ∧
        ((∀ line ∈ Text.lines source.toList, line.length < Diagnostic.fieldLimit) →
          showable contents file = true ∧
            shown source file (found contents file source) =
              String.join ((found contents file source).map (·.render source file)))) ∧
      (∀ contents others file source, contents file = .ok source → others file = .ok source →
        (found contents file source).filter (!·.problem.isUndefined) =
            (found others file source).filter (!·.problem.isUndefined) ∧
          ∀ failed failed', (checkFile (stored contents) file).run.2 = .ok failed →
            (checkFile (stored others) file).run.2 = .ok failed' → failed = failed') ∧
      ∀ contents files, files ≠ [] → (∀ file ∈ files, ∃ source, contents file = .ok source) →
        (run (stored contents) files).run.status =
          if files.all (showable contents) then if files.any (failing contents) then 1 else 0 else 101 := by
  refine ⟨fun contents file source readable => ?_, fun contents others file source here there => ?_,
    fun contents files nonempty readable => run_status contents nonempty readable⟩
  · intro own imports names
    refine ⟨ordered_merges own names, fun diagnostic => undefined_of_mem_resolveAcross (parse source) imports,
      ?_, ?_, ?_, fun short => ?_⟩
    · rw [found, diagnostics_known]
    · rw [found, ← diagnostics_append, List.nil_append]
    · rw [checkFile_run contents readable, failing_eq contents readable, Document.hasErrors]
    · have all : (found contents file source).all (fits source) = true := all_fits short
      refine ⟨(showable_eq contents readable).trans all, ?_⟩
      rw [shown, List.takeWhile_eq_self_iff.mpr (List.all_eq_true.mp all)]
  · refine ⟨?_, fun failed failed' => ?_⟩
    · rw [found, found, diagnostics_known, diagnostics_known]
    · intro first second
      exact (eq_hasErrors contents here first).trans (eq_hasErrors others there second).symm

theorem includes_silence_undefined :
    let source := "#include <lib.fl>\n#include <gone.fl>\nscore(lost);\nint ;\n"
    let contents : String → Except ReadFailure String := fun path =>
      if path = "room.fl" then .ok source else if path = "lib.fl" then .ok "int score; \x7d"
      else .error .missing
    (parse source).resolveAcross (included contents "room.fl" source) options =
        [⟨.undefined "lost", ⟨⟨2, 6⟩, ⟨2, 10⟩⟩, .warning⟩] ∧
      (found contents "room.fl" source).filter (!·.problem.isUndefined) =
        ordered (parse source).diagnostics ∧
      (run (stored contents) ["room.fl"]).run.status = 1 := by
  intro source contents
  have readable : contents "room.fl" = .ok source := rfl
  have short : ∀ line ∈ Text.lines source.toList, line.length < Diagnostic.fieldLimit := by
    simp [source, Text.lines, Diagnostic.fieldLimit]
  have unresolved : (parse source).resolveAcross (included contents "room.fl" source) options =
      [⟨.undefined "lost", ⟨⟨2, 6⟩, ⟨2, 10⟩⟩, .warning⟩] := by decide +kernel
  have failed : failing contents "room.fl" = true := by decide +kernel
  obtain ⟨single, _, several⟩ := includes_silence
  obtain ⟨_, _, known, _, _, shows⟩ := single contents "room.fl" source readable
  have status := several contents ["room.fl"] (by simp) (by simp [readable])
  rw [List.all_cons, (shows short).1, List.any_cons, failed] at status
  exact ⟨unresolved, known, status⟩

end Check

end Adventure
