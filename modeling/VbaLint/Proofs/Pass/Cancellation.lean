import VbaLint.Proofs.Inspection.Course
import VbaLint.Proofs.Pass.Execution
import VbaLint.Proofs.Rules.Filtering

/-!
# Cancelled passes

A pass comes to the whole result set of its rules, or to nothing. Which of the two it is depends on one
number only: how often the signal is looked at from the first to the last look of the pass, if all looks
are clear. It does not depend on the order in which the rules run, nor on whether they run one after
another or in turns.
-/

namespace VbaLint

variable {σ : Type}

open Race

/-! ## The verdict of a pass -/

/-- There is no result set exactly if some rule was cancelled. -/
theorem ResultSet.ofContributions?_eq_none_iff {version : Nat}
    {contributions : List Contribution} :
    ofContributions? version contributions = none ↔ .cancelled ∈ contributions := by
  induction contributions with
  | nil => simp [ofContributions?]
  | cons contribution rest ih =>
    rw [ofContributions?, List.mem_cons]
    cases hrest : ofContributions? version rest with
    | none => simp [ih.1 hrest]
    | some set =>
      have hwhole : .cancelled ∉ rest := fun h ↦ by cases (ih.2 h).symm.trans hrest
      cases contribution <;> simp [add, hwhole]

namespace Runner

@[simp]
theorem verdict_cancelled (version : Nat) (contributions : List Contribution) :
    verdict version contributions .cancelled = .error .cancelled := by
  unfold verdict
  cases ResultSet.ofContributions? version contributions <;> rfl

/-- If some rule was cancelled, so is the pass. -/
theorem verdict_of_mem {version : Nat} {contributions : List Contribution}
    (h : .cancelled ∈ contributions) (signal : Signal) :
    verdict version contributions signal = .error .cancelled := by
  rw [verdict, ResultSet.ofContributions?_eq_none_iff.2 h]

theorem of_verdict_eq_ok {version : Nat} {contributions : List Contribution} {signal : Signal}
    {set : ResultSet} (h : verdict version contributions signal = .ok set) :
    signal.isCancelled = false ∧ .cancelled ∉ contributions := by
  constructor
  · rw [← Bool.not_eq_true]
    intro hset
    rw [Signal.isCancelled_iff.1 hset, verdict_cancelled] at h
    cases h
  · intro hmem
    rw [verdict_of_mem hmem] at h
    cases h

end Runner

/-! ## The course of a rule in a pass -/

namespace RuleInstance

/-- Whatever the rule does when its turn comes in a pass, it does on the course. -/
def Takes (context : PassContext) (rule : RuleInstance σ)
    (course : Course (Contribution × RuleInstance σ)) : Prop :=
  ∀ signal,
    rule.reset.run context signal =
      ((course.run signal).1.1, (course.run signal).1.2, (course.run signal).2)

variable {context : PassContext} {rule : RuleInstance σ}
  {course : Course (Contribution × RuleInstance σ)}

theorem exists_takes (h : rule.inspection.Cooperates) (context : PassContext) :
    ∃ course, rule.Takes context course := by
  obtain ⟨inspected, hinspected⟩ := h
  refine ⟨.look fun isSet ↦
    if isSet then .done (.cancelled, rule.reset)
    else (inspected context rule.reset.state).map fun (outcome, state) ↦
      (.ofOutcome rule.name outcome, { rule.reset with state }), ?_⟩
  intro signal
  rw [RuleInstance.run, Course.run]
  split
  · next hset =>
    rw [Signal.isCancelled_iff.1 hset]
    rfl
  · have hrun := hinspected context ⟨rule.reset.state, signal.next⟩
    have hsame : rule.reset.inspection = rule.inspection := rfl
    rw [Course.run_map, hsame, hrun]
    rfl

theorem Takes.run_clear (h : rule.Takes context course) :
    (course.run .clear).1.1 = .ofOutcome rule.name (rule.outcome context) := by
  rw [← run_reset_clear, h .clear]

theorem Takes.keepsClear_iff (h : rule.Takes context course) :
    rule.KeepsClear context ↔ (course.run .clear).2 = .clear := by
  have hsignal : (course.run .clear).2 = (rule.reset.run context .clear).2.2 := by rw [h .clear]
  rw [hsignal]
  rfl

/-- A rule keeps the signal of a pass clear if its course is quiet. -/
theorem Takes.exists_quiet (h : rule.Takes context course) (hclear : rule.KeepsClear context) :
    ∃ value looks, course.quiet? = some (value, looks) := by
  cases hquiet : course.quiet? with
  | some quiet => exact ⟨quiet.1, quiet.2, rfl⟩
  | none =>
    have hset : (course.run .clear).2 = .cancelled := Course.run_of_not_quiet hquiet
    cases hset.symm.trans (h.keepsClear_iff.1 hclear)

theorem Takes.of_quiet (h : rule.Takes context course)
    {value : Contribution × RuleInstance σ} {looks : Nat}
    (hquiet : course.quiet? = some (value, looks)) :
    rule.KeepsClear context ∧ value.1 = .ofOutcome rule.name (rule.outcome context) := by
  have hrun : course.run .clear = (value, .clear) :=
    Course.run_of_quiet hquiet (Signal.outlasts_clear looks)
  refine ⟨h.keepsClear_iff.2 ?_, ?_⟩
  · rw [hrun]
  · rw [← h.run_clear, hrun]

end RuleInstance

section Courses

variable {context : PassContext} {rules : List (RuleInstance σ)}
  {courses : List (Course (Contribution × RuleInstance σ))}

/-- Rules that cooperate take courses, one each. -/
theorem exists_forall₂_takes (hrules : ∀ rule ∈ rules, rule.inspection.Cooperates)
    (context : PassContext) : ∃ courses, List.Forall₂ (RuleInstance.Takes context) rules courses := by
  induction rules with
  | nil => exact ⟨[], .nil⟩
  | cons rule rest ih =>
    obtain ⟨course, hcourse⟩ := RuleInstance.exists_takes (hrules rule List.mem_cons_self) context
    obtain ⟨courses, hcourses⟩ := ih fun other h ↦ hrules other (List.mem_cons_of_mem rule h)
    exact ⟨course :: courses, .cons hcourse hcourses⟩

theorem exists_quiet (hcourses : List.Forall₂ (RuleInstance.Takes context) rules courses)
    (hclear : ∀ rule ∈ rules, rule.KeepsClear context) :
    ∃ values looks, Quiet courses values looks := by
  induction hcourses with
  | nil => exact ⟨[], 0, .nil⟩
  | @cons rule course rules courses htakes _ ih =>
    obtain ⟨value, looks, hquiet⟩ := htakes.exists_quiet (hclear rule List.mem_cons_self)
    obtain ⟨values, more, hothers⟩ := ih fun other h ↦ hclear other (List.mem_cons_of_mem rule h)
    exact ⟨value :: values, looks + more, .cons hquiet hothers⟩

theorem of_quiet (hcourses : List.Forall₂ (RuleInstance.Takes context) rules courses)
    {values : List (Contribution × RuleInstance σ)} {looks : Nat}
    (hquiet : Quiet courses values looks) :
    (∀ rule ∈ rules, rule.KeepsClear context) ∧
      values.map (·.1) = rules.map fun rule ↦ .ofOutcome rule.name (rule.outcome context) := by
  induction hcourses generalizing values looks with
  | nil =>
    cases hquiet
    exact ⟨by simp, rfl⟩
  | cons htakes _ ih =>
    cases hquiet with
    | cons first others =>
      obtain ⟨hclear, hvalue⟩ := htakes.of_quiet first
      obtain ⟨hothers, hvalues⟩ := ih others
      refine ⟨List.forall_mem_cons.2 ⟨hclear, hothers⟩, ?_⟩
      rw [List.map_cons, List.map_cons, hvalue, hvalues]

end Courses

/-! ## The rules of a pass as a race -/

namespace Execution

/-- The rules at the places `done` have followed their courses to the end, one after another; the
others wait at the beginning. -/
structure Raced (context : PassContext) (rules : List (RuleInstance σ))
    (start : Race (Contribution × RuleInstance σ)) (done : List Nat)
    (courses : List (Course (Contribution × RuleInstance σ))) (execution : Execution σ) : Prop where
  moves : Moves start ⟨courses, execution.signal⟩
  length_contributions : execution.contributions.length = rules.length
  length_rules : execution.rules.length = rules.length
  length_courses : courses.length = rules.length
  waiting {place : Nat} : place ∉ done →
    execution.rules[place]? = rules[place]?.map (·.reset) ∧
      courses[place]? = start.courses[place]?
  ran {place : Nat} : place ∈ done →
    ∃ contribution rule, execution.contributions[place]? = some contribution ∧
      execution.rules[place]? = some rule ∧ courses[place]? = some (.done (contribution, rule))

variable {context : PassContext} {rules : List (RuleInstance σ)}
  {start : Race (Contribution × RuleInstance σ)}

/-- A rule that is run makes the moves of its course. -/
theorem Raced.step (hcourses : List.Forall₂ (RuleInstance.Takes context) rules start.courses)
    {done : List Nat} {courses : List (Course (Contribution × RuleInstance σ))}
    {execution : Execution σ} (h : execution.Raced context rules start done courses) {place : Nat}
    (hlt : place < rules.length) (hplace : place ∉ done) :
    ∃ courses', (execution.step context place).Raced context rules start (place :: done)
      courses' := by
  have hstart : place < start.courses.length := hcourses.length_eq ▸ hlt
  obtain ⟨hrule, hcourse⟩ := h.waiting hplace
  rw [List.getElem?_eq_getElem hlt, Option.map_some] at hrule
  rw [List.getElem?_eq_getElem hstart] at hcourse
  have htakes : RuleInstance.Takes context rules[place] start.courses[place] :=
    hcourses.get hlt hstart
  have hlater {other : Nat} (hother : other ∉ place :: done) : place ≠ other ∧ other ∉ done :=
    ⟨fun heq ↦ hother (heq ▸ List.mem_cons_self), fun hdone ↦
      hother (List.mem_cons_of_mem place hdone)⟩
  rw [Execution.step, hrule]
  dsimp only
  rw [htakes execution.signal]
  refine ⟨courses.set place (.done (start.courses[place].run execution.signal).1), ?_⟩
  constructor
  · exact h.moves.trans (moves_set hcourse execution.signal)
  · rw [List.length_set, h.length_contributions]
  · rw [List.length_set, h.length_rules]
  · rw [List.length_set, h.length_courses]
  · intro other hother
    obtain ⟨hne, hwaits⟩ := hlater hother
    rw [List.getElem?_set_ne hne, List.getElem?_set_ne hne]
    exact h.waiting hwaits
  · intro other hother
    by_cases heq : place = other
    · subst heq
      refine ⟨_, _, List.getElem?_set_self ?_, List.getElem?_set_self ?_,
        List.getElem?_set_self ?_⟩
      · rw [h.length_contributions]
        exact hlt
      · rw [h.length_rules]
        exact hlt
      · rw [h.length_courses]
        exact hlt
    · rw [List.getElem?_set_ne heq, List.getElem?_set_ne heq, List.getElem?_set_ne heq]
      exact h.ran ((List.mem_cons.1 hother).resolve_left (Ne.symm heq))

/-- Rules run one after another are a race in which each is followed to its end. -/
theorem Raced.foldl (hcourses : List.Forall₂ (RuleInstance.Takes context) rules start.courses)
    {done : List Nat} {courses : List (Course (Contribution × RuleInstance σ))}
    {execution : Execution σ} (h : execution.Raced context rules start done courses)
    {places : List Nat} (hlt : ∀ place ∈ places, place < rules.length) (hnodup : places.Nodup)
    (hnew : ∀ place ∈ places, place ∉ done) :
    ∃ courses', (places.foldl (Execution.step context) execution).Raced context rules start
      (places.reverse ++ done) courses' := by
  induction places generalizing done courses execution with
  | nil => exact ⟨courses, h⟩
  | cons place rest ih =>
    obtain ⟨hplace, hrest⟩ := List.nodup_cons.1 hnodup
    obtain ⟨hplacelt, hrestlt⟩ := List.forall_mem_cons.1 hlt
    obtain ⟨hplacenew, hrestnew⟩ := List.forall_mem_cons.1 hnew
    obtain ⟨stepped, hstep⟩ := h.step hcourses hplacelt hplacenew
    have hnew' : ∀ other ∈ rest, other ∉ place :: done := by
      intro other hother hdone
      rcases List.mem_cons.1 hdone with rfl | hdone
      · exact hplace hother
      · exact hrestnew other hother hdone
    rw [List.reverse_cons, List.append_assoc]
    exact ih hstep hrestlt hrest hnew'

/-- Once all rules have run the race has ended. -/
theorem Raced.ended {done : List Nat} {courses : List (Course (Contribution × RuleInstance σ))}
    {execution : Execution σ} (h : execution.Raced context rules start done courses)
    (hall : ∀ place < rules.length, place ∈ done) :
    ∃ values, Moves start (.ended values execution.signal) ∧
      values.map (·.1) = execution.contributions := by
  refine ⟨execution.contributions.zip execution.rules, ?_, ?_⟩
  · have hcourses : courses = (execution.contributions.zip execution.rules).map .done := by
      apply List.ext_getElem?
      intro place
      by_cases hlt : place < rules.length
      · obtain ⟨contribution, rule, hcontribution, hrule, hcourse⟩ := h.ran (hall place hlt)
        have hzip : (execution.contributions.zip execution.rules)[place]? =
            some (contribution, rule) := List.getElem?_zip_eq_some.2 ⟨hcontribution, hrule⟩
        rw [hcourse, List.getElem?_map, hzip, Option.map_some]
      · have hle : rules.length ≤ place := Nat.le_of_not_lt hlt
        rw [List.getElem?_eq_none_iff.2 (by rw [h.length_courses]; exact hle), eq_comm,
          List.getElem?_eq_none_iff, List.length_map, List.length_zip, h.length_contributions,
          h.length_rules, Nat.min_self]
        exact hle
    have hmoves := h.moves
    rw [hcourses] at hmoves
    exact hmoves
  · apply List.map_fst_zip
    exact Nat.le_of_eq (h.length_contributions.trans h.length_rules.symm)

end Execution

namespace Runner

variable {runner : Runner σ} {snapshot : Snapshot}
  {courses : List (Course (Contribution × RuleInstance σ))}

/-- The rules of a pass that have run at some places, as a race. -/
theorem raced_executionOf
    (hcourses : List.Forall₂ (RuleInstance.Takes ⟨snapshot, runner.severities⟩) runner.rules courses)
    {places : List Nat} (hlt : ∀ place ∈ places, place < runner.rules.length)
    (hnodup : places.Nodup) (signal : Signal) :
    ∃ courses', (runner.executionOf places snapshot signal).Raced ⟨snapshot, runner.severities⟩
      runner.rules ⟨courses, signal.next⟩ (places.reverse ++ []) courses' := by
  have hstart : (runner.executionOf [] snapshot signal).Raced ⟨snapshot, runner.severities⟩
      runner.rules ⟨courses, signal.next⟩ [] courses := by
    refine ⟨.refl, by simp [executionOf], by simp [executionOf], hcourses.length_eq.symm, ?_, ?_⟩
    · intro place _
      simp [executionOf]
    · intro place hplace
      cases hplace
  exact hstart.foldl hcourses hlt hnodup fun _ _ ↦ List.not_mem_nil

/-- A pass makes the moves of its rules, with one look at the signal before them. -/
theorem moves_execution
    (hcourses : List.Forall₂ (RuleInstance.Takes ⟨snapshot, runner.severities⟩) runner.rules courses)
    (order : List Nat) (signal : Signal) :
    ∃ values, Moves ⟨courses, signal.next⟩
        (.ended values (runner.execution order snapshot signal).signal) ∧
      values.map (·.1) = (runner.execution order snapshot signal).contributions := by
  have hlt (place : Nat) (hplace : place ∈ schedule order runner.rules.length) :
      place < runner.rules.length := mem_schedule.1 hplace
  obtain ⟨courses', hraced⟩ := raced_executionOf hcourses hlt (nodup_schedule order _) signal
  refine hraced.ended ?_
  intro place hlt
  simpa using mem_schedule.2 hlt

/-- There is a number of looks by which every race of the rules of a pass comes to its verdict, unless
one of the rules cancels the pass. -/
theorem exists_looks
    (hcourses : List.Forall₂ (RuleInstance.Takes ⟨snapshot, runner.severities⟩) runner.rules courses) :
    ∃ looks? : Option Nat,
      (looks? = none ↔ ∃ rule ∈ runner.rules,
        ¬rule.KeepsClear ⟨snapshot, runner.severities⟩ ∨
          rule.outcome ⟨snapshot, runner.severities⟩ = .failed .cancelled) ∧
      ∀ signal values after, Moves ⟨courses, signal⟩ (.ended values after) →
        verdict snapshot.version (values.map (·.1)) after =
            (if looks?.any signal.outlasts then
              .ok (.ofOutcomes ⟨snapshot, runner.severities⟩ runner.rules)
            else .error .cancelled) ∧
          (looks?.any signal.outlasts = true → values.map (·.1) = runner.rules.map fun rule ↦
            .ofOutcome rule.name (rule.outcome ⟨snapshot, runner.severities⟩)) := by
  set context : PassContext := ⟨snapshot, runner.severities⟩
  have herror {signal after : Signal} {values : List (Contribution × RuleInstance σ)}
      (hmoves : Moves ⟨courses, signal⟩ (.ended values after)) (hlost : Race.Lost ⟨courses, signal⟩) :
      verdict snapshot.version (values.map (·.1)) after = .error .cancelled := by
    rw [hmoves.lost hlost, verdict_cancelled]
  by_cases hclear : ∀ rule ∈ runner.rules, rule.KeepsClear context
  · obtain ⟨expected, looks, hquiet⟩ := exists_quiet hcourses hclear
    have hcontributions := (of_quiet hcourses hquiet).2
    by_cases hended : ∀ rule ∈ runner.rules, rule.outcome context ≠ .failed .cancelled
    · refine ⟨some (looks + 1), ?_, ?_⟩
      · simp only [reduceCtorEq, false_iff, not_exists, not_and, not_or, not_not]
        exact fun rule hrule ↦ ⟨hclear rule hrule, hended rule hrule⟩
      · intro signal values after hmoves
        rw [Option.any_some, Signal.outlasts_succ_last]
        cases hsignal : signal.outlasts looks with
        | false => exact ⟨herror hmoves (hquiet.lost hsignal), fun h ↦ by cases h⟩
        | true =>
          obtain ⟨rfl, rfl⟩ := hmoves.settled hquiet hsignal
          refine ⟨?_, fun _ ↦ hcontributions⟩
          rw [verdict, hcontributions, ResultSet.ofContributions?_map hended]
          cases (signal.after looks).isCancelled <;> rfl
    · simp only [not_forall, exists_prop, not_not] at hended
      obtain ⟨rule, hrule, hcancelled⟩ := hended
      refine ⟨none, iff_of_true rfl ⟨rule, hrule, .inr hcancelled⟩, ?_⟩
      intro signal values after hmoves
      refine ⟨?_, fun h ↦ by cases h⟩
      cases hsignal : signal.outlasts looks with
      | false => exact herror hmoves (hquiet.lost hsignal)
      | true =>
        obtain ⟨rfl, -⟩ := hmoves.settled hquiet hsignal
        have hmem : .cancelled ∈ values.map (·.1) := by
          rw [hcontributions]
          exact List.mem_map.2 ⟨rule, hrule, by rw [hcancelled]; rfl⟩
        exact verdict_of_mem hmem after
  · have hnever (values : List (Contribution × RuleInstance σ)) (looks : Nat) :
        ¬Quiet courses values looks := fun hquiet ↦ hclear (of_quiet hcourses hquiet).1
    simp only [not_forall, exists_prop] at hclear
    obtain ⟨rule, hrule, hcancels⟩ := hclear
    refine ⟨none, iff_of_true rfl ⟨rule, hrule, .inl hcancels⟩, ?_⟩
    intro signal values after hmoves
    refine ⟨herror hmoves (.inr ?_), fun h ↦ by cases h⟩
    exact fun values looks hquiet ↦ absurd hquiet (hnever values looks)

end Runner

/-! ## Moments of cancellation -/

namespace Execution

theorem isCancelled_step {context : PassContext} {execution : Execution σ}
    (h : execution.signal.isCancelled = true) (place : Nat) :
    (execution.step context place).signal.isCancelled = true := by
  unfold Execution.step
  split
  · exact h
  · rw [RuleInstance.run, if_pos h]
    exact h

theorem isCancelled_foldl {context : PassContext} {execution : Execution σ}
    (h : execution.signal.isCancelled = true) (places : List Nat) :
    (places.foldl (Execution.step context) execution).signal.isCancelled = true := by
  induction places generalizing execution with
  | nil => exact h
  | cons place rest ih => exact ih (isCancelled_step h place)

end Execution

namespace Runner

/-- What is set when some of the rules have run is set at the end. -/
theorem isCancelled_execution {runner : Runner σ} {snapshot : Snapshot} {order places : List Nat}
    {signal : Signal} (hplaces : places <+: schedule order runner.rules.length)
    (h : (runner.executionOf places snapshot signal).signal.isCancelled = true) :
    (runner.execution order snapshot signal).signal.isCancelled = true := by
  obtain ⟨rest, hrest⟩ := hplaces
  rw [execution, ← hrest, executionOf, List.foldl_append]
  exact Execution.isCancelled_foldl h rest

/-- What may become of a pass that takes `looks?` clear looks. -/
structure AllOrNothing (runner : Runner σ) (snapshot : Snapshot) (looks? : Option Nat)
    (order : List Nat) (signal : Signal) : Prop where
  /-- The pass has its whole result set if the signal outlasts it, in whatever order its rules run. -/
  decided : (runner.runPassIn order snapshot signal).1 =
    if looks?.any signal.outlasts then .ok (.ofOutcomes ⟨snapshot, runner.severities⟩ runner.rules)
    else .error .cancelled
  /-- It has none if it is cancelled before it begins, when some of the rules have run, or by the
  answer of a rule. -/
  nothing :
    signal.isCancelled = true ∨
        (∃ places, places <+: schedule order runner.rules.length ∧
          (runner.executionOf places snapshot signal).signal.isCancelled = true) ∨
        .cancelled ∈ (runner.execution order snapshot signal).contributions →
      (runner.runPassIn order snapshot signal).1 = .error .cancelled
  /-- If it has one, the signal is clear after the last rule, and every rule has ended as it does in
  a pass that nobody cancels. -/
  whole {set : ResultSet} : (runner.runPassIn order snapshot signal).1 = .ok set →
    (runner.execution order snapshot signal).signal.isCancelled = false ∧
      .cancelled ∉ (runner.execution order snapshot signal).contributions ∧
      (runner.execution order snapshot signal).contributions = runner.rules.map fun rule ↦
        .ofOutcome rule.name (rule.outcome ⟨snapshot, runner.severities⟩)
  /-- The rules may as well run in turns. -/
  raced {courses : List (Course (Contribution × RuleInstance σ))}
    {values : List (Contribution × RuleInstance σ)} {after : Signal} :
    List.Forall₂ (RuleInstance.Takes ⟨snapshot, runner.severities⟩) runner.rules courses →
      signal.isCancelled = false → Moves ⟨courses, signal.next⟩ (.ended values after) →
        verdict snapshot.version (values.map (·.1)) after =
          (runner.runPassIn order snapshot signal).1

/-- A pass is all or nothing, whoever cancels it and when. There is a number of looks for each pass,
unless one of its rules cancels it: a pass whose signal is set before that many looks fails and has no
result set, and every other one has the same whole set, in any order of its rules. -/
theorem passes_are_all_or_nothing (runner : Runner σ) (snapshot : Snapshot)
    (hrules : ∀ rule ∈ runner.rules, rule.inspection.Cooperates) :
    ∃ looks? : Option Nat,
      (looks? = none ↔ ∃ rule ∈ runner.rules,
        ¬rule.KeepsClear ⟨snapshot, runner.severities⟩ ∨
          rule.outcome ⟨snapshot, runner.severities⟩ = .failed .cancelled) ∧
      ∀ order signal, runner.AllOrNothing snapshot looks? order signal := by
  obtain ⟨courses, hcourses⟩ := exists_forall₂_takes hrules ⟨snapshot, runner.severities⟩
  obtain ⟨looks?, hnone, hraces⟩ := exists_looks hcourses
  refine ⟨looks?.map (· + 1), Option.map_eq_none_iff.trans hnone, ?_⟩
  intro order signal
  have houtlasts : (looks?.map (· + 1)).any signal.outlasts =
      (!signal.isCancelled && looks?.any signal.next.outlasts) := by
    cases looks? with
    | none => simp
    | some looks => exact signal.outlasts_succ looks
  obtain ⟨values, hmoves, hvalues⟩ := moves_execution hcourses order signal
  obtain ⟨hverdict, hwhole⟩ := hraces signal.next values _ hmoves
  rw [hvalues] at hverdict hwhole
  cases hset : signal.isCancelled with
  | true =>
    have herror : (runner.runPassIn order snapshot signal).1 = .error .cancelled := by
      rw [runPassIn_of_isCancelled hset]
    refine ⟨?_, fun _ ↦ herror, ?_, ?_⟩
    · rw [herror, houtlasts, hset]
      rfl
    · intro set hok
      cases herror.symm.trans hok
    · intro _ _ _ _ hclear
      cases hset.symm.trans hclear
  | false =>
    have hpass : (runner.runPassIn order snapshot signal).1 =
        verdict snapshot.version (runner.execution order snapshot signal).contributions
          (runner.execution order snapshot signal).signal := by
      rw [runPassIn_of_clear hset, close_outcome]
    have hdecided := hpass.trans hverdict
    refine ⟨?_, ?_, ?_, ?_⟩
    · rw [hdecided, houtlasts, hset, Bool.not_false, Bool.true_and]
    · rintro (h | ⟨places, hplaces, h⟩ | h)
      · cases hset.symm.trans h
      · rw [hpass, Signal.isCancelled_iff.1 (isCancelled_execution hplaces h), verdict_cancelled]
      · rw [hpass, verdict_of_mem h]
    · intro set hok
      obtain ⟨hclear, hended⟩ := of_verdict_eq_ok (hpass.symm.trans hok)
      refine ⟨hclear, hended, hwhole ?_⟩
      by_contra hshort
      rw [if_neg hshort] at hdecided
      cases hdecided.symm.trans hok
    · intro others values' after hothers _ hrace
      -- Other courses of the same rules come to the same as the rules in order.
      obtain ⟨looks', -, hraces'⟩ := exists_looks hothers
      obtain ⟨ordered, hordered, hvalues'⟩ := moves_execution hothers order signal
      rw [hpass, ← hvalues', (hraces' signal.next ordered _ hordered).1]
      exact (hraces' signal.next values' after hrace).1

end Runner

/-! ## The built-in rules, and rules that stop halfway -/

/-- All built-in rules cooperate. -/
theorem Catalog.cooperates_builtIn (config : Config) :
    ∀ rule ∈ builtIn.instantiateEnabled config, rule.Cooperates :=
  forall_mem_instantiateEnabled_builtIn (fun _ ↦ Inspection.cooperates_ofDeclarations _ _)
    (Inspection.cooperates_ofTrees _ _) (Inspection.cooperates_ofTrees _ _)
    (Inspection.cooperates_ofTrees _ _) (Inspection.cooperates_ofDeclarations _ _) config

/-- Look at a signal until it is set, at most `looks` times, and count the clear looks. -/
def watch : Nat → Nat → Course Nat
  | 0, seen => .done seen
  | looks + 1, seen => .look fun isSet ↦ if isSet then .done seen else watch looks (seen + 1)

/-- What a watching rule finds at each clear look. -/
def watchedFinding : Finding where
  inspection := "Watching"
  category := .codeQualityIssues
  severity := .hint
  message := "clear"
  target := .context ⟨"Book", "Module"⟩ 0 .unset
  snapshotVersion := 4

/-- A rule that stops where the signal is set, and reports what it has as if that were all. -/
def watchingRule (looks : Nat) : Inspection Nat where
  info := ⟨"Watching", .hint, .codeQualityIssues, "finds clear looks", .reference⟩
  initial := 0
  reset _ := 0
  run _ bench :=
    let (seen, signal) := (watch looks bench.state).run bench.signal
    (.found (List.replicate seen watchedFinding), ⟨seen, signal⟩)

theorem cooperates_watchingRule (looks : Nat) : (watchingRule looks).Cooperates := by
  refine ⟨fun _ state ↦ (watch looks state).map fun seen ↦
    (.found (List.replicate seen watchedFinding), seen), ?_⟩
  intro context bench
  simp only [watchingRule, Course.run_map]

/-- A rule that looks twice and one that looks once. -/
def watchingRunner : Runner Nat := .fresh [watchingRule 2, watchingRule 1] .empty

theorem passes_are_all_or_nothing_watching :
    (∀ rule ∈ watchingRunner.rules, rule.inspection.Cooperates) ∧
      (watchingRunner.runPassIn [1] ⟨4, "Book", [], #[]⟩ ⟨some 6⟩).1 = .error .cancelled ∧
      (watchingRunner.runPassIn [1] ⟨4, "Book", [], #[]⟩ ⟨some 7⟩).1 =
        .ok ⟨4, List.replicate 3 watchedFinding, []⟩ ∧
      (watchingRunner.runPassIn [0] ⟨4, "Book", [], #[]⟩ .clear).1 =
        .ok ⟨4, List.replicate 3 watchedFinding, []⟩ ∧
      ∃ looks?, ∀ order signal, (Runner.ofCatalog .builtIn .default).AllOrNothing
        ⟨4, "Book", [], #[]⟩ looks? order signal := by
  have hrules : ∀ rule ∈ watchingRunner.rules, rule.inspection.Cooperates := by
    simp [watchingRunner, Runner.fresh, RuleInstance.fresh, cooperates_watchingRule]
  obtain ⟨looks?, -, hpass⟩ :=
    Runner.passes_are_all_or_nothing watchingRunner ⟨4, "Book", [], #[]⟩ hrules
  have hlong : (watchingRunner.runPassIn [1] ⟨4, "Book", [], #[]⟩ ⟨some 7⟩).1 =
      .ok ⟨4, List.replicate 3 watchedFinding, []⟩ := by decide
  refine ⟨hrules, ?_, hlong, ?_, ?_⟩
  · exact (hpass [1] ⟨some 6⟩).nothing (.inr (.inl ⟨_, List.prefix_rfl, by decide⟩))
  · have hseven := (hpass [1] ⟨some 7⟩).decided
    have hclear := (hpass [0] .clear).decided
    rw [hlong] at hseven
    cases looks? with
    | none => cases hseven
    | some looks =>
      rw [hclear, Option.any_some, Signal.outlasts_clear, if_pos rfl]
      split at hseven
      · exact hseven.symm
      · cases hseven
  · obtain ⟨looks?, -, hbuiltIn⟩ := Runner.passes_are_all_or_nothing (.ofCatalog .builtIn .default)
      ⟨4, "Book", [], #[]⟩ (Runner.forall_mem_ofCatalog (Catalog.cooperates_builtIn .default))
    exact ⟨looks?, hbuiltIn⟩

end VbaLint
