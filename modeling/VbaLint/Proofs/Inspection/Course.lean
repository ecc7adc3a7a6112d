import Mathlib.Logic.Relation
import VbaLint.Inspection.Basic

/-!
# Courses

With the signal of its pass a rule can do two things: look at it, and cancel the pass. A course tells
what a rule does next, in view of what it saw, and what it comes to in the end. Courses that share a
signal may be followed in turns, one move of one of them at a time. If every look is clear, there is
only one thing that each course can come to, after a fixed number of looks. If one of them is not, or
one of the courses cancels the pass, then the signal is set in the end, since what is set stays set.
-/

namespace VbaLint

variable {α β : Type}

/-! ## Looking at a signal -/

namespace Signal

/-- The signal will look clear at least `looks` more times. -/
def outlasts (signal : Signal) (looks : Nat) : Bool := signal.remaining.all (looks ≤ ·)

/-- The signal once it was looked at `looks` more times. -/
def after (signal : Signal) (looks : Nat) : Signal := ⟨signal.remaining.map (· - looks)⟩

variable (signal : Signal)

@[simp]
theorem isCancelled_cancelled : Signal.cancelled.isCancelled = true := rfl

@[simp]
theorem next_cancelled : Signal.cancelled.next = .cancelled := rfl

@[simp]
theorem next_clear : Signal.clear.next = .clear := rfl

@[simp]
theorem isCancelled_clear : Signal.clear.isCancelled = false := rfl

theorem isCancelled_iff {signal : Signal} : signal.isCancelled = true ↔ signal = .cancelled := by
  obtain ⟨remaining⟩ := signal
  simp [isCancelled, cancelled]

@[simp]
theorem outlasts_clear (looks : Nat) : Signal.clear.outlasts looks = true := rfl

@[simp]
theorem after_clear (looks : Nat) : Signal.clear.after looks = .clear := rfl

@[simp]
theorem outlasts_zero : signal.outlasts 0 = true := by
  obtain ⟨_ | remaining⟩ := signal <;> simp [outlasts]

@[simp]
theorem after_zero : signal.after 0 = signal := by
  obtain ⟨_ | remaining⟩ := signal <;> simp [after]

/-- The first of some looks is clear, and then the others are. -/
theorem outlasts_succ (looks : Nat) :
    signal.outlasts (looks + 1) = (!signal.isCancelled && signal.next.outlasts looks) := by
  obtain ⟨_ | _ | remaining⟩ := signal <;> simp [outlasts, isCancelled, next]

theorem after_succ (looks : Nat) : signal.after (looks + 1) = signal.next.after looks := by
  obtain ⟨_ | remaining⟩ := signal
  · rfl
  · simp only [after, next, Option.map_some, mk.injEq, Option.some.injEq]
    omega

/-- The last of some looks is clear, and so were the others. -/
theorem outlasts_succ_last (looks : Nat) :
    signal.outlasts (looks + 1) =
      (signal.outlasts looks && !(signal.after looks).isCancelled) := by
  induction looks generalizing signal with
  | zero => rw [outlasts_succ, outlasts_zero, outlasts_zero, after_zero, Bool.and_comm]
  | succ looks ih => rw [outlasts_succ, ih, outlasts_succ, after_succ, Bool.and_assoc]

end Signal

/-! ## Courses -/

/-- What is still to be done with a signal, and what it comes to. -/
inductive Course (α : Type) where
  | done (value : α)
  /-- Look at the signal, and go on in view of whether it is set. -/
  | look (next : Bool → Course α)
  /-- Set the signal. -/
  | cancel (rest : Course α)

namespace Course

def run : Course α → Signal → α × Signal
  | done value, signal => (value, signal)
  | look next, signal => (next signal.isCancelled).run signal.next
  | cancel rest, _ => rest.run .cancelled

/-- What a course comes to if every look is clear, and the number of its looks; nothing if it cancels
the pass on this way. -/
def quiet? : Course α → Option (α × Nat)
  | done value => some (value, 0)
  | look next => (next false).quiet?.map fun (value, looks) ↦ (value, looks + 1)
  | cancel _ => none

def map (f : α → β) : Course α → Course β
  | done value => done (f value)
  | look next => look fun isSet ↦ (next isSet).map f
  | cancel rest => cancel (rest.map f)

/-- A change of the value changes nothing of the course. -/
theorem run_map (f : α → β) (course : Course α) (signal : Signal) :
    (course.map f).run signal = (f (course.run signal).1, (course.run signal).2) := by
  induction course generalizing signal with
  | done value => rfl
  | look next ih => exact ih signal.isCancelled signal.next
  | cancel rest ih => exact ih .cancelled

end Course

/-! ## Races -/

/-- Some courses that share a signal. -/
structure Race (α : Type) where
  courses : List (Course α)
  signal : Signal

namespace Race

/-- One of the courses does what is next on it. -/
inductive Move : Race α → Race α → Prop
  | look (next : Bool → Course α) (others : List (Course α)) (signal : Signal) :
    Move ⟨.look next :: others, signal⟩ ⟨next signal.isCancelled :: others, signal.next⟩
  | cancel (rest : Course α) (others : List (Course α)) (signal : Signal) :
    Move ⟨.cancel rest :: others, signal⟩ ⟨rest :: others, .cancelled⟩
  | later (course : Course α) {others others' : List (Course α)} {signal signal' : Signal}
    (move : Move ⟨others, signal⟩ ⟨others', signal'⟩) :
    Move ⟨course :: others, signal⟩ ⟨course :: others', signal'⟩

/-- The courses do what is next on them, in any turns. -/
abbrev Moves : Race α → Race α → Prop := Relation.ReflTransGen Move

/-- Every course has come to a value. -/
def ended (values : List α) (signal : Signal) : Race α := ⟨values.map .done, signal⟩

theorem Moves.later (course : Course α) {others others' : List (Course α)}
    {signal signal' : Signal} (h : Moves ⟨others, signal⟩ ⟨others', signal'⟩) :
    Moves ⟨course :: others, signal⟩ ⟨course :: others', signal'⟩ := by
  let behind (race : Race α) : Race α := ⟨course :: race.courses, race.signal⟩
  have hbehind (race race' : Race α) (hmove : Move race race') :
      Move (behind race) (behind race') := hmove.later course
  exact h.lift behind hbehind

/-- One course may be followed to its end while the others wait. -/
theorem moves_set {courses : List (Course α)} {place : Nat} {course : Course α}
    (h : courses[place]? = some course) (signal : Signal) :
    Moves ⟨courses, signal⟩ ⟨courses.set place (.done (course.run signal).1),
      (course.run signal).2⟩ := by
  induction courses generalizing place with
  | nil => cases h
  | cons first others ih =>
    cases place with
    | succ place => exact (ih h).later first
    | zero =>
      cases h
      clear ih
      induction course generalizing signal with
      | done value => exact .refl
      | look next ih => exact .head (.look next others signal) (ih signal.isCancelled signal.next)
      | cancel rest ih => exact .head (.cancel rest others signal) (ih .cancelled)

/-! ### Looks that are all clear -/

/-- What some courses come to if every look is clear, and the number of all looks. -/
inductive Quiet : List (Course α) → List α → Nat → Prop
  | nil : Quiet [] [] 0
  | cons {course : Course α} {value : α} {looks : Nat} {courses : List (Course α)}
    {values : List α} {more : Nat} (first : course.quiet? = some (value, looks))
    (others : Quiet courses values more) :
    Quiet (course :: courses) (value :: values) (looks + more)

theorem Quiet.of_done (values : List α) : Quiet (values.map Course.done) values 0 := by
  induction values with
  | nil => exact .nil
  | cons value values ih => exact .cons rfl ih

theorem Quiet.eq_of_done {values expected : List α} {looks : Nat}
    (h : Quiet (values.map Course.done) expected looks) : values = expected ∧ looks = 0 := by
  induction values generalizing expected looks with
  | nil =>
    cases h
    exact ⟨rfl, rfl⟩
  | cons value values ih =>
    cases h with
    | cons first others =>
      obtain ⟨rfl, rfl⟩ := ih others
      cases first
      exact ⟨rfl, rfl⟩

theorem Quiet.unique {courses : List (Course α)} {values values' : List α} {looks looks' : Nat}
    (h : Quiet courses values looks) (h' : Quiet courses values' looks') :
    values = values' ∧ looks = looks' := by
  induction h generalizing values' looks' with
  | nil =>
    cases h'
    exact ⟨rfl, rfl⟩
  | cons first _ ih =>
    cases h' with
    | cons first' others' =>
      obtain ⟨rfl, rfl⟩ := ih others'
      cases first.symm.trans first'
      exact ⟨rfl, rfl⟩

/-- While the looks are clear every move is one of them. -/
theorem Move.quiet {race race' : Race α} (h : Move race race') {values : List α} {looks : Nat}
    (hquiet : Quiet race.courses values looks) (hsignal : race.signal.outlasts looks = true) :
    ∃ fewer, looks = fewer + 1 ∧ Quiet race'.courses values fewer ∧
      race'.signal = race.signal.next := by
  induction h generalizing values looks with
  | look next others signal =>
    cases hquiet with
    | @cons _ value _ _ values more first hothers =>
      obtain ⟨⟨value, fewer⟩, hnext, heq⟩ := Option.map_eq_some_iff.1 first
      cases heq
      rw [Nat.add_right_comm, Signal.outlasts_succ, Bool.and_eq_true, Bool.not_eq_true']
        at hsignal
      refine ⟨fewer + more, Nat.add_right_comm fewer 1 more, ?_, rfl⟩
      rw [hsignal.1]
      exact .cons hnext hothers
  | cancel rest others signal =>
    cases hquiet with
    | cons first hothers => cases first
  | @later course others others' signal signal' move ih =>
    cases hquiet with
    | @cons _ value looks _ values more first hothers =>
      have hmore : signal.outlasts more = true := by
        obtain ⟨_ | remaining⟩ := signal
        · rfl
        · simp only [Signal.outlasts, Option.all_some, decide_eq_true_eq] at hsignal ⊢
          omega
      obtain ⟨fewer, rfl, hfewer, hnext⟩ := ih hothers hmore
      exact ⟨looks + fewer, rfl, .cons first hfewer, hnext⟩

/-- A move that leaves the signal clear is a look. -/
theorem Move.quiet_of_clear {race race' : Race α} (h : Move race race')
    (hclear : race.signal.isCancelled = false) (hclear' : race'.signal.isCancelled = false) :
    race'.signal = race.signal.next ∧
      ∀ values looks, Quiet race'.courses values looks → Quiet race.courses values (looks + 1) := by
  induction h with
  | look next others signal =>
    refine ⟨rfl, ?_⟩
    intro values looks hquiet
    rw [hclear] at hquiet
    cases hquiet with
    | @cons _ value fewer _ values more first hothers =>
      rw [Nat.add_right_comm]
      exact .cons (Option.map_eq_some_iff.2 ⟨_, first, rfl⟩) hothers
  | cancel rest others signal => cases hclear'
  | later course move ih =>
    obtain ⟨hnext, hback⟩ := ih hclear hclear'
    refine ⟨hnext, ?_⟩
    intro values looks hquiet
    cases hquiet with
    | @cons _ _ fewer _ _ more first hothers =>
      rw [Nat.add_assoc]
      exact .cons first (hback _ _ hothers)

theorem Move.signal_cancelled {race race' : Race α} (h : Move race race')
    (hset : race.signal.isCancelled = true) : race'.signal.isCancelled = true := by
  induction h with
  | look next others signal =>
    rw [Signal.isCancelled_iff] at hset
    cases hset
    rfl
  | cancel => rfl
  | later course move ih => exact ih hset

/-- Courses that were begun on a signal that outlasts them come to what they come to on clear looks. -/
theorem Moves.settled {race : Race α} {values expected : List α} {signal : Signal} {looks : Nat}
    (h : Moves race (ended values signal)) (hquiet : Quiet race.courses expected looks)
    (hsignal : race.signal.outlasts looks = true) :
    values = expected ∧ signal = race.signal.after looks := by
  induction h using Relation.ReflTransGen.head_induction_on generalizing looks with
  | refl =>
    obtain ⟨rfl, rfl⟩ := hquiet.eq_of_done
    exact ⟨rfl, (Signal.after_zero signal).symm⟩
  | head hmove _ ih =>
    obtain ⟨fewer, rfl, hfewer, hnext⟩ := hmove.quiet hquiet hsignal
    rw [Signal.outlasts_succ, Bool.and_eq_true, ← hnext] at hsignal
    rw [Signal.after_succ, ← hnext]
    exact ih hfewer hsignal.2

/-- The signal is set, or it will be: the courses cancel the pass, or the signal does not outlast
them. -/
def Lost (race : Race α) : Prop :=
  race.signal.isCancelled = true ∨
    ∀ values looks, Quiet race.courses values looks → race.signal.outlasts looks = false

/-- A race that is lost cannot be won by a further move. -/
theorem Lost.move {race race' : Race α} (hlost : race.Lost) (h : Move race race') :
    race'.Lost := by
  cases hset : race.signal.isCancelled with
  | true => exact .inl (h.signal_cancelled hset)
  | false =>
    cases hset' : race'.signal.isCancelled with
    | true => exact .inl hset'
    | false =>
      obtain ⟨hnext, hback⟩ := h.quiet_of_clear hset hset'
      refine .inr ?_
      intro values looks hquiet
      have hlooks := hlost.resolve_left (by simp [hset]) values (looks + 1) (hback _ _ hquiet)
      rw [Signal.outlasts_succ, hset, ← hnext] at hlooks
      exact hlooks

theorem Lost.moves {race race' : Race α} (hlost : race.Lost) (h : Moves race race') :
    race'.Lost := by
  induction h with
  | refl => exact hlost
  | tail _ hmove ih => exact ih.move hmove

/-- A race whose courses need more looks than the signal outlasts is lost. -/
theorem Quiet.lost {race : Race α} {values : List α} {looks : Nat}
    (h : Quiet race.courses values looks) (hsignal : race.signal.outlasts looks = false) :
    race.Lost := by
  refine .inr ?_
  intro values' looks' h'
  rw [← (h.unique h').2]
  exact hsignal

/-- In every other case the signal is set in the end. -/
theorem Moves.lost {race : Race α} {values : List α} {signal : Signal}
    (h : Moves race (ended values signal)) (hlost : race.Lost) : signal = .cancelled := by
  have hend := hlost.moves h
  refine Signal.isCancelled_iff.1 (hend.resolve_right fun hnever ↦ ?_)
  have hset := hnever values 0 (.of_done values)
  rw [Signal.outlasts_zero] at hset
  cases hset

end Race

namespace Course

variable {course : Course α} {signal : Signal}

theorem moves_run (course : Course α) (signal : Signal) :
    Race.Moves ⟨[course], signal⟩ (.ended [(course.run signal).1] (course.run signal).2) := by
  have hfirst : [course][0]? = some course := rfl
  exact Race.moves_set hfirst signal

/-- As long as the signal looks clear there is one way to go. -/
theorem run_of_quiet {value : α} {looks : Nat} (hquiet : course.quiet? = some (value, looks))
    (hsignal : signal.outlasts looks = true) : course.run signal = (value, signal.after looks) := by
  obtain ⟨hvalues, hafter⟩ := (course.moves_run signal).settled (.cons hquiet .nil) hsignal
  exact Prod.ext (List.singleton_inj.1 hvalues) hafter

/-- A course that cancels the pass on the quiet way leaves the signal set. -/
theorem run_of_not_quiet (hquiet : course.quiet? = none) :
    (course.run signal).2 = .cancelled := by
  refine (course.moves_run signal).lost (.inr ?_)
  intro values looks h
  cases h with
  | cons first => cases hquiet.symm.trans first

end Course

/-! ## Rules that follow courses -/

variable {σ : Type}

namespace Inspection

/-- Whatever the rule does, it does on the course that is told for its context and its state. -/
def Follows (rule : Inspection σ) (course : PassContext → σ → Course (RunOutcome × σ)) : Prop :=
  ∀ context bench,
    rule.run context bench =
      (((course context bench.state).run bench.signal).1.1,
        ⟨((course context bench.state).run bench.signal).1.2,
          ((course context bench.state).run bench.signal).2⟩)

/-- All that the rule does with the signal is to look at it and to set it. -/
def Cooperates (rule : Inspection σ) : Prop := ∃ course, rule.Follows course

end Inspection

namespace Collector

def courseThrough (visit : Tree.SyntaxTree → List Nat) :
    Collector → List ModuleSource → Course (Option CollectingStop × Collector)
  | collector, [] => .done (none, { collector with stage := .ready })
  | collector, module :: rest =>
    .look fun isSet ↦
      if isSet then .done (some .cancelled, collector)
      else
        let collected := (visit module.parsed.tree).foldl push (collector.beginModule module.name)
        courseThrough visit collected.endModule rest

theorem collectModules_eq_run (visit : Tree.SyntaxTree → List Nat) (collector : Collector)
    (signal : Signal) (modules : List ModuleSource) :
    collector.collectModules visit signal modules =
      (((collector.courseThrough visit modules).run signal).1.1,
        ((collector.courseThrough visit modules).run signal).1.2,
        ((collector.courseThrough visit modules).run signal).2) := by
  induction modules generalizing collector signal with
  | nil => rfl
  | cons module rest ih =>
    rw [collectModules, courseThrough, Course.run]
    split
    · next hset =>
      rw [Signal.isCancelled_iff.1 hset]
      rfl
    · exact ih _ signal.next

def course (visit : Tree.SyntaxTree → List Nat) (collector : Collector) (snapshot : Snapshot) :
    Course (Option CollectingStop × Collector) :=
  if collector.isEmpty then collector.courseThrough visit snapshot.modules
  else .done (some .reused, collector)

theorem collect_eq_run (visit : Tree.SyntaxTree → List Nat) (collector : Collector)
    (signal : Signal) (snapshot : Snapshot) :
    collector.collect visit signal snapshot =
      (((collector.course visit snapshot).run signal).1.1,
        ((collector.course visit snapshot).run signal).1.2,
        ((collector.course visit snapshot).run signal).2) := by
  unfold collect beginPass? course
  split
  · next hempty =>
    split at hempty
    · cases hempty
    · next hused =>
      rw [if_neg hused]
      rfl
  · next begun hbegun =>
    split at hbegun
    · next hempty =>
      cases hbegun
      rw [if_pos hempty]
      exact collectModules_eq_run visit collector signal snapshot.modules
    · cases hbegun

end Collector

namespace Inspection

def searchCourse (find : Declaration → List Finding) :
    List Declaration → Course (Option (List Finding))
  | [] => .done (some [])
  | declaration :: rest =>
    .look fun isSet ↦
      if isSet then .done none
      else (searchCourse find rest).map fun found ↦ found.map (find declaration ++ ·)

theorem searchDeclarations_eq_run (find : Declaration → List Finding)
    (declarations : List Declaration) (signal : Signal) :
    searchDeclarations find declarations signal = (searchCourse find declarations).run signal := by
  induction declarations generalizing signal with
  | nil => rfl
  | cons declaration rest ih =>
    rw [searchDeclarations, searchCourse, Course.run]
    split
    · next hset =>
      rw [Signal.isCancelled_iff.1 hset]
      rfl
    · rw [Course.run_map, ih]

/-- What a rule that looks at trees comes to once its collector has stopped. -/
def treesOutcome (info : RuleInfo) (message : ModuleName → String) (context : PassContext) :
    Option CollectingStop × Collector → RunOutcome
  | (some .reused, _) => .panicked (some Collector.reuseMessage)
  | (some .cancelled, _) => .failed .cancelled
  | (none, collector) =>
    .found <| (collector.contexts.toList.filter fun place ↦
      !context.snapshot.isIgnoring place.module place.node info.name).filterMap fun place ↦
        context.contextFinding? info place (message place.module)

variable {info : RuleInfo}

/-- A rule that reads trees looks at the signal between modules. -/
theorem cooperates_ofTrees (select : Tree.SyntaxTree → List Nat)
    (message : ModuleName → String) : (ofTrees info select message).Cooperates := by
  refine ⟨fun context state ↦ (state.course select context.snapshot).map fun stopped ↦
    (treesOutcome info message context stopped, stopped.2), ?_⟩
  intro context bench
  simp only [ofTrees, Collector.collect_eq_run, Course.run_map]
  obtain ⟨⟨stop, collector⟩, signal⟩ := (bench.state.course select context.snapshot).run bench.signal
  cases stop with
  | none => rfl
  | some reason => cases reason <;> rfl

/-- A rule that reads declarations looks at the signal between them. -/
theorem cooperates_ofDeclarations (candidates : Snapshot → List Declaration)
    (find : PassContext → Declaration → List Finding) :
    (ofDeclarations info candidates find).Cooperates := by
  refine ⟨fun context state ↦
    (searchCourse (find context) (candidates context.snapshot)).map fun found ↦
      (found.elim (.failed .cancelled) .found, state), ?_⟩
  intro context bench
  simp only [ofDeclarations, searchDeclarations_eq_run, Course.run_map]
  cases ((searchCourse (find context) (candidates context.snapshot)).run bench.signal).1 <;> rfl

end Inspection

end VbaLint
