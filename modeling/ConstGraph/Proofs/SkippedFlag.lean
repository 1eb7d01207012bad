import ConstGraph.Analysis
import Mathlib.Data.List.Induction

/-!
# When an analysis says that its file is skipped

An analysis may be used again and again: the file is read, or a tree is
handed over, and any such call may fail. What the analysis holds then is
two notes, each made by the last call that touches it
(`calls_eq_lastNotes`): the result by the last call that returned, and
whether the file is skipped by the last reading of the file that did.

A tree that is handed over leaves a result and does not touch the other
note. So the file may be noted as skipped beside a result that is not
empty, and `skipped_by_last_reading` says exactly when it is.
-/

namespace ConstGraph

namespace FileAnalysis

/-! ## Calls -/

/-- A use of an analysis. -/
inductive Call where
  /-- The file is read, and this is what is found. -/
  | parse (found : Source)
  /-- A tree is handed over. -/
  | parseSource (root : ConcreteNode)

/-- The analysis after a call, be it that the call fails. -/
def call (a : FileAnalysis) : Call → FileAnalysis
  | .parse found => (a.parse found).1
  | .parseSource root => (a.parseSource root).1

/-- The analysis after calls one after the other. -/
def calls (a : FileAnalysis) (cs : List Call) : FileAnalysis := cs.foldl call a

/-- An analysis that has not been used. -/
def unused (file : String) (infer : Inference) : FileAnalysis := { file, infer }

namespace Call

variable (file : String) (infer : Inference)

/-- The result a call leaves, if it returns. -/
def result? : Call → Option WalkResult
  | parse found =>
    match (unused file infer).parse found with
    | (a, .ok _) => some a.result
    | (_, .error _) => none
  | parseSource root =>
    match (unused file infer).parseSource root with
    | (a, .ok _) => some a.result
    | (_, .error _) => none

/-- Whether a call notes that the file is skipped, if it notes anything: a
reading of the file does if it returns. -/
def skipped? : Call → Option Bool
  | parse found =>
    match ((unused file infer).parse found).2 with
    | .ok reason => some reason.isSome
    | .error _ => none
  | parseSource _ => none

end Call

/-! ## One call -/

/-- The three ends of a reading of the file. Which one it comes to does not
depend on what has been noted before. -/
theorem parse_cases (file : String) (infer : Inference) (found : Source) :
    (∃ reason, ∀ a : FileAnalysis, a.file = file → a.infer = infer →
        a.parse found = (a.skip, .ok (some reason))) ∨
      (∃ result, ∀ a : FileAnalysis, a.file = file → a.infer = infer →
        a.parse found = (a.keep result, .ok none)) ∨
      ∃ e, ∀ a : FileAnalysis, a.file = file → a.infer = infer →
        a.parse found = (a, .error e) := by
  cases found with
  | inadmissible => exact Or.inl ⟨.inadmissible, fun a _ _ => rfl⟩
  | tree root =>
    cases hroot : root.checked file with
    | error e =>
      by_cases he : e.isUnwritable
      · refine Or.inr (Or.inr ⟨.parse e, ?_⟩)
        rintro a rfl -
        simp [parse, hroot, he]
      · refine Or.inl ⟨.unparsable e, ?_⟩
        rintro a rfl -
        simp [parse, hroot, he]
    | ok root' =>
      cases hwalk : (unused file infer).walkTree root' with
      | ok result =>
        refine Or.inr (Or.inl ⟨result, ?_⟩)
        rintro a rfl rfl
        have hsame : a.walkTree root' = .ok result := hwalk
        simp [parse, hroot, hsame]
      | error e =>
        cases e with
        | tooDeep =>
          refine Or.inl ⟨.tooDeep, ?_⟩
          rintro a rfl rfl
          have hsame : a.walkTree root' = .error .tooDeep := hwalk
          simp [parse, hroot, hsame]
        | span e =>
          refine Or.inr (Or.inr ⟨.conversion (.span e), ?_⟩)
          rintro a rfl rfl
          have hsame : a.walkTree root' = .error (.span e) := hwalk
          simp [parse, hroot, hsame]

/-- The two ends of handing over a tree. -/
theorem parseSource_cases (file : String) (infer : Inference) (root : ConcreteNode) :
    (∃ result, ∀ a : FileAnalysis, a.file = file → a.infer = infer →
        a.parseSource root = ({ a with result := result }, .ok ())) ∨
      ∃ e, ∀ a : FileAnalysis, a.file = file → a.infer = infer →
        a.parseSource root = (a, .error e) := by
  cases hroot : root.checked file with
  | error e =>
    refine Or.inr ⟨.parse e, ?_⟩
    rintro a rfl -
    simp [parseSource, hroot]
  | ok root' =>
    cases hwalk : (unused file infer).walkTree root' with
    | ok result =>
      refine Or.inl ⟨result, ?_⟩
      rintro a rfl rfl
      have hsame : a.walkTree root' = .ok result := hwalk
      simp [parseSource, hroot, hsame]
    | error e =>
      refine Or.inr ⟨.conversion e, ?_⟩
      rintro a rfl rfl
      have hsame : a.walkTree root' = .error e := hwalk
      simp [parseSource, hroot, hsame]

/-- **A call touches the two notes and nothing else**, and what it puts there
does not depend on them. -/
theorem call_eq (a : FileAnalysis) (c : Call) :
    a.call c = { a with
      result := (c.result? a.file a.infer).getD a.result,
      skipped := (c.skipped? a.file a.infer).getD a.skipped } := by
  cases c with
  | parse found =>
    obtain ⟨reason, h⟩ | ⟨result, h⟩ | ⟨e, h⟩ := parse_cases a.file a.infer found <;>
      simp [call, Call.result?, Call.skipped?, h a rfl rfl, h (unused _ _) rfl rfl, skip, keep]
  | parseSource root =>
    obtain ⟨result, h⟩ | ⟨e, h⟩ := parseSource_cases a.file a.infer root <;>
      simp [call, Call.result?, Call.skipped?, h a rfl rfl, h (unused _ _) rfl rfl]

/-- A reading that returns notes whether it skipped the file. -/
theorem skipped_parse {a : FileAnalysis} {found : Source} {reason : Option SkipReason}
    (h : (a.parse found).2 = .ok reason) : (a.parse found).1.skipped = reason.isSome := by
  obtain ⟨_, hparse⟩ | ⟨_, hparse⟩ | ⟨e, hparse⟩ := parse_cases a.file a.infer found
  all_goals
    rw [hparse a rfl rfl] at h ⊢
    cases h
  · rfl
  · rfl

section

variable {file : String} {infer : Inference} {c : Call}

/-- A reading that skips the file leaves an empty result. -/
theorem Call.result?_of_skipped (h : c.skipped? file infer = some true) :
    c.result? file infer = some .empty := by
  cases c with
  | parseSource root => cases h
  | parse found =>
    obtain ⟨_, hparse⟩ | ⟨_, hparse⟩ | ⟨_, hparse⟩ := parse_cases file infer found
    · simp [result?, hparse (unused file infer) rfl rfl, skip]
    · simp [skipped?, hparse (unused file infer) rfl rfl] at h
    · simp [skipped?, hparse (unused file infer) rfl rfl] at h

/-- A call that leaves a result and notes nothing else was handed a tree. -/
theorem Call.exists_parseSource {result : WalkResult} (hskipped : c.skipped? file infer = none)
    (hresult : c.result? file infer = some result) : ∃ root, c = .parseSource root := by
  cases c with
  | parseSource root => exact ⟨root, rfl⟩
  | parse found =>
    obtain ⟨_, hparse⟩ | ⟨_, hparse⟩ | ⟨_, hparse⟩ := parse_cases file infer found
    · simp [skipped?, hparse (unused file infer) rfl rfl] at hskipped
    · simp [skipped?, hparse (unused file infer) rfl rfl] at hskipped
    · simp [result?, hparse (unused file infer) rfl rfl] at hresult

end

/-! ## Many calls -/

/-- The last note that some calls make. -/
def lastNote {α : Type} (note : Call → Option α) (cs : List Call) : Option α :=
  cs.reverse.findSome? note

theorem lastNote_concat {α : Type} (note : Call → Option α) (cs : List Call) (c : Call) :
    lastNote note (cs ++ [c]) = (note c).or (lastNote note cs) := by
  rw [lastNote, List.reverse_append, List.reverse_singleton, List.singleton_append,
    List.findSome?_cons]
  cases note c <;> rfl

/-- The last note is that of a call after which none makes a note. -/
theorem lastNote_eq_some_iff {α : Type} {note : Call → Option α} {cs : List Call} {x : α} :
    lastNote note cs = some x ↔
      ∃ before c after, cs = before ++ c :: after ∧ note c = some x ∧ ∀ d ∈ after, note d = none := by
  rw [lastNote, List.findSome?_eq_some_iff]
  constructor
  · rintro ⟨after, c, before, hsplit, hc, hafter⟩
    refine ⟨before.reverse, c, after.reverse, ?_, hc, by simpa using hafter⟩
    have hcs := congrArg List.reverse hsplit
    simpa using hcs
  · rintro ⟨before, c, after, rfl, hc, hafter⟩
    exact ⟨after.reverse, c, before.reverse, by simp, hc, by simpa using hafter⟩

theorem calls_append (a : FileAnalysis) (cs ds : List Call) :
    a.calls (cs ++ ds) = (a.calls cs).calls ds := List.foldl_append

/-- **After any calls the two notes are the last ones made.** -/
theorem calls_eq_lastNotes (a : FileAnalysis) (cs : List Call) :
    a.calls cs = { a with
      result := (lastNote (·.result? a.file a.infer) cs).getD a.result,
      skipped := (lastNote (·.skipped? a.file a.infer) cs).getD a.skipped } := by
  induction cs using List.reverseRecOn with
  | nil => rfl
  | append_singleton cs c ih =>
    have hlast : a.calls (cs ++ [c]) = (a.calls cs).call c := a.calls_append cs [c]
    rw [hlast, ih, call_eq, lastNote_concat, lastNote_concat]
    cases c.result? a.file a.infer <;> cases c.skipped? a.file a.infer <;> rfl

section

variable {file : String} {infer : Inference}

/-- What a reading that skips the file leaves is the result of the trees
handed over since, if no reading has returned. -/
theorem result_after_skip (before after : List Call) {c : Call}
    (hc : c.skipped? file infer = some true) :
    ((unused file infer).calls (before ++ c :: after)).result =
      (lastNote (·.result? file infer) after).getD .empty := by
  have hsplit : before ++ c :: after = (before ++ [c]) ++ after := by simp
  have hbefore := calls_eq_lastNotes (unused file infer) (before ++ [c])
  have hresult : ((unused file infer).calls (before ++ [c])).result = .empty := by
    rw [hbefore, lastNote_concat]
    change ((c.result? file infer).or _).getD _ = _
    rw [Call.result?_of_skipped hc]
    rfl
  rw [hsplit, calls_append, calls_eq_lastNotes, hresult, hbefore]
  rfl

theorem skipped_eq_true_iff (cs : List Call) : ((unused file infer).calls cs).skipped = true ↔
    lastNote (·.skipped? file infer) cs = some true := by
  rw [calls_eq_lastNotes]
  change (lastNote (·.skipped? file infer) cs).getD false = true ↔ _
  cases lastNote (·.skipped? file infer) cs <;> simp

/-- Handing over a tree says nothing of the file. -/
theorem forall_skipped?_eq_none_iff {middle after : List Call} {root : ConcreteNode} :
    (∀ c ∈ middle ++ .parseSource root :: after, c.skipped? file infer = none) ↔
      ∀ c ∈ middle ++ after, c.skipped? file infer = none := by
  have hroot : (Call.parseSource root).skipped? file infer = none := rfl
  simp only [List.forall_mem_append, List.forall_mem_cons, hroot, true_and]

/-- **The file is noted as skipped beside a result that is not empty**
exactly if a reading skipped it, no reading has returned since, and of the
trees handed over since the last that was analysed gives that result. -/
theorem skipped_beside_result_iff (cs : List Call) :
    ((unused file infer).calls cs).skipped = true ∧
        ((unused file infer).calls cs).result ≠ .empty ↔
      ∃ before found middle root after result,
        cs = before ++ .parse found :: (middle ++ .parseSource root :: after) ∧
        (Call.parse found).skipped? file infer = some true ∧
        (∀ c ∈ middle ++ after, c.skipped? file infer = none) ∧
        (Call.parseSource root).result? file infer = some result ∧ result ≠ .empty ∧
        ∀ c ∈ after, c.result? file infer = none := by
  constructor
  · rintro ⟨hskipped, hresult⟩
    obtain ⟨before, c, since, rfl, hc, hsince⟩ :=
      lastNote_eq_some_iff.1 ((skipped_eq_true_iff cs).1 hskipped)
    rw [result_after_skip before since hc] at hresult
    cases hnote : lastNote (·.result? file infer) since with
    | none => rw [hnote] at hresult; exact absurd rfl hresult
    | some result =>
      rw [hnote] at hresult
      obtain ⟨middle, d, after, rfl, hd, hafter⟩ := lastNote_eq_some_iff.1 hnote
      obtain ⟨root, rfl⟩ := Call.exists_parseSource (hsince d (by simp)) hd
      cases c with
      | parseSource root => cases hc
      | parse found =>
        exact ⟨before, found, middle, root, after, result, rfl, hc,
          forall_skipped?_eq_none_iff.1 hsince, hd, hresult, hafter⟩
  · rintro ⟨before, found, middle, root, after, result, rfl, hc, hbetween, hd, hresult, hafter⟩
    have hsince : ∀ c ∈ middle ++ .parseSource root :: after, c.skipped? file infer = none :=
      forall_skipped?_eq_none_iff.2 hbetween
    have hleft : lastNote (·.result? file infer) (middle ++ .parseSource root :: after) =
        some result := lastNote_eq_some_iff.2 ⟨_, _, _, rfl, hd, hafter⟩
    constructor
    · rw [skipped_eq_true_iff]
      exact lastNote_eq_some_iff.2 ⟨_, _, _, rfl, hc, hsince⟩
    · rw [result_after_skip before _ hc, hleft]
      exact hresult

end

/-- **What an analysis notes after any calls.** The result is the one left by
the last call that returned, and the file is noted as skipped if the last
reading of it that returned skipped it. A reading that returns makes both
notes, and a file it does not skip is no longer noted as skipped; a tree
that is handed over leaves the note of the file as it was. So the file is
noted as skipped beside a result that is not empty exactly if a reading
skipped it, no reading has returned since, and of the trees handed over
since the last that was analysed gives that result. -/
theorem skipped_by_last_reading (file : String) (infer : Inference) (cs : List Call) :
    ((unused file infer).calls cs).result =
        (lastNote (·.result? file infer) cs).getD .empty ∧
      ((unused file infer).calls cs).skipped =
        (lastNote (·.skipped? file infer) cs).getD false ∧
      (∀ (a : FileAnalysis) found reason, (a.parse found).2 = .ok reason →
        (a.parse found).1.skipped = reason.isSome) ∧
      (∀ (a : FileAnalysis) root, (a.parseSource root).1.skipped = a.skipped) ∧
      (((unused file infer).calls cs).skipped = true ∧
          ((unused file infer).calls cs).result ≠ .empty ↔
        ∃ before found middle root after result,
          cs = before ++ .parse found :: (middle ++ .parseSource root :: after) ∧
          (Call.parse found).skipped? file infer = some true ∧
          (∀ c ∈ middle ++ after, c.skipped? file infer = none) ∧
          (Call.parseSource root).result? file infer = some result ∧ result ≠ .empty ∧
          ∀ c ∈ after, c.result? file infer = none) := by
  have hnotes := calls_eq_lastNotes (unused file infer) cs
  refine ⟨by rw [hnotes]; rfl, by rw [hnotes]; rfl, fun a found reason => skipped_parse,
    fun a root => ?_, skipped_beside_result_iff cs⟩
  have hcall : (a.parseSource root).1 = _ := a.call_eq (.parseSource root)
  rw [hcall]
  rfl

/-- A program that opens the class `A`. -/
def openingClass : ConcreteNode :=
  { type := "program", children := [
    { type := "class", children := [
      { type := "constant", field := some "name", bytes := [0x41] }] }] }

/-- The reading of a file that is not admitted notes that it is skipped, and
so it stays when a tree is handed over. -/
theorem inadmissible_noted :
    ((unused "a.rb" .none).parse .inadmissible).2 = .ok (some .inadmissible) ∧
      ((unused "a.rb" .none).parse .inadmissible).1.skipped = true ∧
      ((unused "a.rb" .none).calls [.parse .inadmissible, .parseSource openingClass]).skipped =
        true := by
  obtain ⟨-, hskipped, hparse, -⟩ :=
    skipped_by_last_reading "a.rb" .none [.parse .inadmissible, .parseSource openingClass]
  have hreading := hparse (unused "a.rb" .none) .inadmissible (some .inadmissible) rfl
  exact ⟨rfl, hreading, hskipped.trans rfl⟩

/-- The tree that was handed over is analysed and a class is found in it. So
the file is noted as skipped beside a result that is not empty. -/
theorem openingClass_beside_skipped :
    (((unused "a.rb" .none).call (.parse .inadmissible)).parseSource openingClass).2 = .ok () ∧
      ((unused "a.rb" .none).calls [.parse .inadmissible, .parseSource openingClass]).skipped =
        true ∧
      ((unused "a.rb" .none).calls
        [.parse .inadmissible, .parseSource openingClass]).result.definitions.length = 1 := by
  decide +kernel

end FileAnalysis

end ConstGraph
