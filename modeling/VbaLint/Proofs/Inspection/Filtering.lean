import VbaLint.Inspection.Basic
import VbaLint.Proofs.Inspection.Annotations
import VbaLint.Proofs.ListLemmas

/-!
# Rules for which annotations are a filter

To such a rule annotations do nothing but take findings away, and it takes away exactly those that are
silenced at their own place. Both ways of building a rule give one of this kind if the candidates do
not depend on annotations and each finding is tested where it lies.
-/

namespace VbaLint

open Text Tree

/-- No annotation of the snapshot silences the finding at its place. -/
def Snapshot.reports (snapshot : Snapshot) (finding : Finding) : Bool :=
  !snapshot.isIgnoring finding.module finding.target.node finding.inspection

namespace PassContext

/-- The context of the same pass over the snapshot without its annotations. -/
abbrev bare (context : PassContext) : PassContext :=
  { context with snapshot := context.snapshot.bare }

variable {context : PassContext} {info : RuleInfo} {message : String} {finding : Finding}

@[simp]
theorem contextFinding?_bare (place : Context) :
    context.bare.contextFinding? info place message = context.contextFinding? info place message := by
  rw [contextFinding?, Snapshot.node?_keepingNotes]
  rfl

@[simp]
theorem referenceFinding?_bare (reference : Reference) :
    context.bare.referenceFinding? info reference message =
      context.referenceFinding? info reference message := by
  rw [referenceFinding?, Snapshot.containsNode_keepingNotes]
  rfl

/-- A finding at a node is reported unless its rule is silenced there. -/
theorem reports_of_contextFinding? {place : Context}
    (h : context.contextFinding? info place message = some finding) :
    context.snapshot.reports finding =
      !context.snapshot.isIgnoring place.module place.node info.name := by
  obtain ⟨node, _, rfl⟩ := Option.map_eq_some_iff.1 h
  rfl

/-- A finding at a reference is reported unless its rule is silenced there. -/
theorem reports_of_referenceFinding? {reference : Reference}
    (h : context.referenceFinding? info reference message = some finding) :
    context.snapshot.reports finding =
      !context.snapshot.isIgnoring reference.module reference.node info.name := by
  unfold referenceFinding? at h
  split at h
  · cases h
    rfl
  · cases h

end PassContext

namespace RunOutcome

def keeping (p : Finding → Bool) : RunOutcome → RunOutcome
  | .found findings => .found (findings.filter p)
  | .failed failure => .failed failure
  | .panicked text => .panicked text

end RunOutcome

variable {σ : Type}

/-- All that annotations do to the rule is to take away what they silence. In particular they leave no
trace at its bench. -/
def Inspection.FiltersOnly (rule : Inspection σ) : Prop :=
  ∀ (context : PassContext) (bench : Bench σ),
    rule.run context bench =
      ((rule.run context.bare bench).1.keeping context.snapshot.reports,
        (rule.run context.bare bench).2)

/-- In a pass that nobody cancels the rule ends well, and leaves the signal clear. -/
def Inspection.EndsWell (rule : Inspection σ) : Prop :=
  ∀ (context : PassContext) (state : σ), ∃ findings after,
    rule.run context ⟨rule.reset state, .clear⟩ = (.found findings, ⟨after, .clear⟩)

namespace Collector

theorem collectModules_keepingNotes (visit : SyntaxTree → List Nat) (keep : Annotation → Bool)
    (collector : Collector) (signal : Signal) (modules : List ModuleSource) :
    collector.collectModules visit signal (modules.map (·.keepingNotes keep)) =
      collector.collectModules visit signal modules := by
  induction modules generalizing collector signal with
  | nil => rfl
  | cons module rest ih =>
    rw [List.map_cons, collectModules, collectModules]
    split
    · rfl
    · exact ih _ _

theorem collect_keepingNotes (visit : SyntaxTree → List Nat) (keep : Annotation → Bool)
    (collector : Collector) (signal : Signal) (snapshot : Snapshot) :
    collector.collect visit signal (snapshot.keepingNotes keep) =
      collector.collect visit signal snapshot := by
  unfold collect
  cases collector.beginPass? with
  | none => rfl
  | some begun => exact collectModules_keepingNotes visit keep begun signal snapshot.modules

/-- Nothing stops a collector while nobody cancels the pass. -/
theorem collectModules_clear (visit : SyntaxTree → List Nat) (collector : Collector)
    (modules : List ModuleSource) :
    ∃ after, collector.collectModules visit .clear modules = (none, after, .clear) := by
  induction modules generalizing collector with
  | nil => exact ⟨_, rfl⟩
  | cons module rest ih =>
    rw [collectModules]
    exact ih _

end Collector

namespace Inspection

variable {info : RuleInfo}

/-- Annotations only take findings away from a rule that reads trees. -/
theorem filtersOnly_ofTrees (select : SyntaxTree → List Nat) (message : ModuleName → String) :
    (ofTrees info select message).FiltersOnly := by
  intro context bench
  have hcollect : bench.state.collect select bench.signal context.bare.snapshot =
      bench.state.collect select bench.signal context.snapshot :=
    Collector.collect_keepingNotes select _ bench.state bench.signal context.snapshot
  simp only [ofTrees, hcollect]
  obtain ⟨stop, collector, signal⟩ := bench.state.collect select bench.signal context.snapshot
  cases stop with
  | some reason => cases reason <;> rfl
  | none =>
    have hall (places : List Context) : places.filter (fun _ ↦ true) = places :=
      List.filter_eq_self.2 fun _ _ ↦ rfl
    simp only [RunOutcome.keeping, Snapshot.isIgnoring_bare, Bool.not_false, hall,
      PassContext.contextFinding?_bare]
    rw [filter_filterMap_of_agree]
    intro place finding hfinding
    exact PassContext.reports_of_contextFinding? hfinding

/-- A rule that reads trees ends with findings if nobody cancels it. -/
theorem endsWell_ofTrees (select : SyntaxTree → List Nat) (message : ModuleName → String) :
    (ofTrees info select message).EndsWell := by
  intro context state
  obtain ⟨collector, hcollector⟩ :=
    Collector.collectModules_clear select .empty context.snapshot.modules
  have hcollect : state.clear.collect select .clear context.snapshot =
      (none, collector, .clear) := hcollector
  simp only [ofTrees, hcollect]
  exact ⟨_, _, rfl⟩

/-- Without a look at the findings a search goes on in the same way. -/
theorem searchDeclarations_filter {find bareFind : Declaration → List Finding}
    {p : Finding → Bool}
    (h : ∀ declaration, find declaration = (bareFind declaration).filter p)
    (declarations : List Declaration) (signal : Signal) :
    searchDeclarations find declarations signal =
      ((searchDeclarations bareFind declarations signal).1.map (·.filter p),
        (searchDeclarations bareFind declarations signal).2) := by
  induction declarations generalizing signal with
  | nil => rfl
  | cons declaration rest ih =>
    rw [searchDeclarations, searchDeclarations]
    split
    · rfl
    · rw [ih, h]
      obtain ⟨found?, after⟩ := searchDeclarations bareFind rest signal.next
      cases found? with
      | none => rfl
      | some found =>
        simp only [Option.map_some]
        rw [List.filter_append]

/-- Nobody cancels the search, so all declarations are searched in order. -/
theorem searchDeclarations_clear (find : Declaration → List Finding)
    (declarations : List Declaration) :
    searchDeclarations find declarations .clear = (some (declarations.flatMap find), .clear) := by
  induction declarations with
  | nil => rfl
  | cons declaration rest ih =>
    have hnext : Signal.clear.next = .clear := rfl
    rw [searchDeclarations, hnext, ih]
    rfl

/-- Annotations only take findings away from a rule that reads declarations, if they do not tell it what to
look at. -/
theorem filtersOnly_ofDeclarations {candidates : Snapshot → List Declaration}
    {find : PassContext → Declaration → List Finding}
    (hcandidates : ∀ snapshot, candidates snapshot.bare = candidates snapshot)
    (hfind : ∀ context declaration,
      find context declaration =
        (find context.bare declaration).filter context.snapshot.reports) :
    (ofDeclarations info candidates find).FiltersOnly := by
  intro context bench
  simp only [ofDeclarations, hcandidates]
  rw [searchDeclarations_filter (hfind context)]
  cases (searchDeclarations (find context.bare) (candidates context.snapshot) bench.signal).1 with
  | none => rfl
  | some found => rfl

/-- A rule that reads declarations ends with findings if nobody cancels it. -/
theorem endsWell_ofDeclarations (candidates : Snapshot → List Declaration)
    (find : PassContext → Declaration → List Finding) :
    (ofDeclarations info candidates find).EndsWell := by
  intro context state
  simp only [ofDeclarations, searchDeclarations_clear]
  exact ⟨_, _, rfl⟩

end Inspection

end VbaLint
