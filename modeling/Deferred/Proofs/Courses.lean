import Deferred.Proofs.Handles
import Deferred.Proofs.Traversal

/-!
# Variables in the course of a session

A course of a session is any finite sequence of steps, taken from a session without names. Between
the steps, names may be given to graphs from outside, whose procedures do whatever they like with
the variables that there are. `Session.Takes` says what comes of a step, with one rule for each.

What a course has noted determines what its variables hold: every read gives what was put into the
cell last, by whatever handle, and a new variable gets a cell of its own
(`Session.Course.keepsCells`). In an evaluation the accesses are noted in the order in which what is
demanded stands in the graph.
-/

namespace Deferred

variable {kind : Kind} {tracing : Bool}

/-- An expression is a copy of what has a name, or one more handle on it. -/
def Expression.IsCopyOf (expression : Expression) (original : String) : Prop :=
  expression = .copy (.reference original) ∨ expression = .handle (.reference original)

theorem Expression.build_reference (scope : Scope) (name : String) (kind : Kind) :
    (reference name).build scope kind =
      liftM ((scope.find? name).bind fun binding => binding.calculation? kind) := by
  rw [build]
  cases scope.find? name <;> rfl

theorem Expression.build_of_isCopyOf {expression : Expression} {original : String}
    (isCopy : expression.IsCopyOf original) (scope : Scope) (kind : Kind) :
    expression.build scope kind = (reference original).build scope kind := by
  rcases isCopy with rfl | rfl <;> rfl

/-- Whether a step deals with names only. -/
def Step.isNaming : Step → Bool
  | .alias _ _ => true
  | .define _ _ _ => true
  | .defineFailing _ _ => true
  | .inspectFailing _ => true
  | .drop _ => true
  | _ => false

/-- What comes of a step: its report, and the session after it. There is one rule for each step. -/
inductive Session.Takes (tracing : Bool) (session : Session) : Step → Report → Session → Prop where
  | declare (name : String) {kind : Kind} {given : Option Scalar} {value : kind.Value}
      (holds : given.getD (.ofValue kind.zero) = .ofValue value) :
      Takes tracing session (.declare name kind given)
        ⟨.ok .done, [.created (session.store.create value).1 value]⟩
        ⟨(session.store.create value).2,
          session.scope.insert name (.cell (session.store.create value).1)⟩
  | share (name : String) {other : String} {kind : Kind} {source : Variable kind}
      (found : session.scope.find? other = some (.cell source)) :
      Takes tracing session (.alias name other) ⟨.ok .done, []⟩
        ⟨session.store, session.scope.insert name (.cell source)⟩
  | assign {name : String} {kind : Kind} {target : Variable kind}
      (found : session.scope.find? name = some (.cell target)) (value : kind.Value) :
      Takes tracing session (.assign name (.ofValue value))
        ⟨.ok .done, Event.entries tracing (.setVariable (.ofValue value)) ++
          [.wrote target value]⟩
        ⟨session.store.write target value, session.scope⟩
  | inspect {name : String} {kind : Kind} {source : Variable kind}
      (found : session.scope.find? name = some (.cell source)) :
      Takes tracing session (.inspect name)
        ⟨.ok (.value (.ofValue (session.store.read source))),
          [.read source (session.store.read source)]⟩
        session
  | define (name : String) {kind : Kind} {expression : Expression}
      {calculation : Calculation kind} {left : Store}
      (built : (expression.build session.scope kind).run session.store = some (calculation, left)) :
      Takes tracing session (.define name kind expression) ⟨.ok .done, []⟩
        ⟨left, session.scope.insert name (.node calculation
          (if expression.showsOperands session.scope then calculation.operands? else none))⟩
  | defineFailing (name : String) (failure : Failure) :
      Takes tracing session (.defineFailing name failure) ⟨.ok .done, []⟩
        ⟨session.store, session.scope.insert name (.failing failure)⟩
  | inspectFailing {name : String} {failure : Failure}
      (found : session.scope.find? name = some (.failing failure)) :
      Takes tracing session (.inspectFailing name) ⟨.ok (.failure failure), []⟩ session
  | evaluate {kind : Kind} {expression : Expression} {calculation : Calculation kind} {left : Store}
      (built : (expression.build session.scope kind).run session.store = some (calculation, left)) :
      Takes tracing session (.evaluate kind expression)
        ⟨(calculation.evaluate.run tracing left).outcome.map fun value => .value (.ofValue value),
          (calculation.evaluate.run tracing left).journal⟩
        ⟨(calculation.evaluate.run tracing left).store, session.scope⟩
  | evaluateOperands {name : String} {kind : Kind} {calculation : Calculation kind}
      {operands : Operands kind}
      (found : session.scope.find? name = some (.node calculation (some operands)))
      {run : Run (List (Outcome Scalar))}
      (ran : run = (Evaluation.outcomes (operands.toList.map fun operand =>
        Scalar.ofValue <$> operand.evaluate)).run tracing session.store) :
      Takes tracing session (.evaluateOperands name)
        ⟨run.outcome.map .outcomes, run.journal⟩ ⟨run.store, session.scope⟩
  | drop {name : String} {binding : Binding} (found : session.scope.find? name = some binding) :
      Takes tracing session (.drop name) ⟨.ok .done, []⟩
        ⟨session.store, session.scope.erase name⟩

namespace Session

theorem takes_of_step? {session after : Session} {step : Step} {report : Report}
    (accepted : session.step? tracing step = some (report, after)) :
    session.Takes tracing step report after := by
  rcases Option.bind_eq_some_iff.mp accepted with ⟨⟨plan, left⟩, planned, done⟩
  cases done
  cases step with
  | declare name kind given =>
      simp only [Step.plan] at planned
      rcases Option.bind_eq_some_iff.mp planned with ⟨⟨value, middle⟩, valued, rest⟩
      rcases Builder.run_lift_eq_some valued with ⟨holds, rfl⟩
      cases rest
      exact .declare name (Scalar.value?_eq_some_iff.mp holds)
  | «alias» name other =>
      simp only [Step.plan] at planned
      split at planned
      · next source found =>
        cases planned
        exact .share name found
      · cases planned
  | assign name scalar =>
      simp only [Step.plan] at planned
      split at planned
      · next kind target found =>
        rcases Option.bind_eq_some_iff.mp planned with ⟨⟨value, middle⟩, valued, rest⟩
        rcases Builder.run_lift_eq_some valued with ⟨holds, rfl⟩
        cases rest
        rw [Scalar.value?_eq_some_iff.mp holds]
        simp only [Evaluation.run_bind, Evaluation.run_write, Evaluation.run_pure, List.append_nil]
        exact .assign found value
      · cases planned
  | inspect name =>
      simp only [Step.plan] at planned
      split at planned
      · next source found =>
        cases planned
        exact .inspect found
      · cases planned
  | define name kind expression =>
      rcases Option.bind_eq_some_iff.mp planned with ⟨⟨calculation, middle⟩, built, rest⟩
      cases rest
      exact .define name built
  | defineFailing name failure =>
      cases planned
      exact .defineFailing name failure
  | inspectFailing name =>
      simp only [Step.plan] at planned
      split at planned
      · next failure found =>
        cases planned
        exact .inspectFailing found
      · cases planned
  | evaluate kind expression =>
      rcases Option.bind_eq_some_iff.mp planned with ⟨⟨calculation, middle⟩, built, rest⟩
      cases rest
      simp only [bind_pure_comp, Evaluation.run_map]
      exact .evaluate built
  | evaluateOperands name =>
      simp only [Step.plan] at planned
      split at planned
      · next found =>
        cases planned
        simp only [bind_pure_comp, Evaluation.run_map]
        exact .evaluateOperands found rfl
      · cases planned
  | drop name =>
      simp only [Step.plan] at planned
      split at planned
      · next found =>
        cases planned
        exact .drop found
      · cases planned

/-- The cells of the variables that were created in a session. -/
def Owns (session : Session) (cell : Cell) : Prop :=
  (session.store.contents cell).isSome

/-- All handles that names stand for are on cells of the session. -/
def IsClosed (session : Session) : Prop :=
  session.scope.IsOver session.Owns

/-- What a step notes leads from what the cells hold before it to what they hold after it, and no
handle is on a cell that does not exist. -/
theorem Takes.replays {session after : Session} {step : Step} {report : Report}
    (taken : session.Takes tracing step report after) (closed : session.IsClosed) :
    Replays session.store.contents report.journal after.store.contents ∧ after.IsClosed := by
  have stays : ∀ {journal : List Entry} {last : Contents},
      Replays session.store.contents journal last →
      session.scope.IsOver fun cell => (last cell).isSome :=
    fun replays => closed.mono fun _ existing => replays.isSome_last existing
  cases taken with
  | declare name holds =>
      next kind given value =>
      have created : Replays session.store.contents [.created (session.store.create value).1 value]
          (session.store.create value).2.contents := by
        rw [Store.contents_create]
        exact .singleton (Store.contents_create_fresh value)
      exact ⟨created, (stays created).insert name (Store.isSome_contents_create value)⟩
  | share name found => exact ⟨.nil _, closed.insert name (closed _ _ found)⟩
  | assign found value =>
      have replays := Evaluation.replay_write (closed _ _ found) value tracing session.store
        fun _ owned => owned
      exact ⟨replays, stays replays⟩
  | inspect found =>
      have replays := Evaluation.replay_read (closed _ _ found) tracing session.store
        fun _ owned => owned
      exact ⟨replays, closed⟩
  | define name built =>
      next kind expression calculation left =>
      rcases expression.build_gives closed kind _ _ _ built with ⟨within, same⟩
      unfold IsClosed Owns
      simp only [same]
      refine ⟨.nil _, closed.insert name ⟨within, ?_⟩⟩
      intro operands isShown
      split at isShown
      · exact calculation.isIn_of_operands? within isShown
      · cases isShown
  | defineFailing name failure => exact ⟨.nil _, closed.insert name trivial⟩
  | inspectFailing found => exact ⟨.nil _, closed⟩
  | evaluate built =>
      next kind expression calculation left =>
      rcases expression.build_gives closed kind _ _ _ built with ⟨within, same⟩
      have respects := calculation.respects (Fragment.replay_over session.Owns) within
      have replays := respects tracing left fun cell owned => by rwa [same]
      rw [same] at replays
      exact ⟨replays, stays replays⟩
  | evaluateOperands found ran =>
      next name kind calculation operands run =>
      subst ran
      have within := (closed _ _ found).2 operands rfl
      have each : ∀ evaluation ∈ operands.toList.map fun operand =>
          Scalar.ofValue <$> operand.evaluate,
          evaluation.Respects (.replay session.Owns) := by
        intro evaluation member
        rcases List.mem_map.mp member with ⟨operand, isOperand, rfl⟩
        have operandWithin := Operands.isIn_iff.mp within operand isOperand
        exact (operand.respects (Fragment.replay_over session.Owns) operandWithin).map _
      have replays := Evaluation.Respects.outcomes each tracing session.store fun _ owned => owned
      exact ⟨replays, stays replays⟩
  | drop found => exact ⟨.nil _, closed.erase _⟩

/-- Giving names, copying and dropping access no cell. -/
theorem Takes.leaves_cells {session after : Session} {step : Step} {report : Report}
    (taken : session.Takes tracing step report after) (closed : session.IsClosed)
    (isNaming : step.isNaming = true) :
    report.journal = [] ∧ after.store.contents = session.store.contents := by
  cases taken with
  | declare name holds => cases isNaming
  | share name found => exact ⟨rfl, rfl⟩
  | assign found value => cases isNaming
  | inspect found => cases isNaming
  | define name built =>
      next kind expression calculation left =>
      exact ⟨rfl, (expression.build_gives closed kind _ _ _ built).2⟩
  | defineFailing name failure => exact ⟨rfl, rfl⟩
  | inspectFailing found => exact ⟨rfl, rfl⟩
  | evaluate built => cases isNaming
  | evaluateOperands found ran => cases isNaming
  | drop found => exact ⟨rfl, rfl⟩

/-- The name of a copy stands for the same graph as the name of the original. -/
theorem Takes.calculation?_of_isCopyOf {session after : Session} {clone original : String}
    {expression : Expression} {report : Report}
    (taken : session.Takes tracing (.define clone kind expression) report after)
    (isCopy : expression.IsCopyOf original) :
    ((after.scope.find? clone).bind fun binding => binding.calculation? kind) =
      (after.scope.find? original).bind fun binding => binding.calculation? kind := by
  cases taken with
  | define _ built =>
      rw [Expression.build_of_isCopyOf isCopy, Expression.build_reference] at built
      have found := (Builder.run_lift_eq_some built).1
      by_cases same : original = clone
      · rw [same]
      · rw [Scope.find?_insert_self, Scope.find?_insert_of_ne _ _ same, found, Option.bind_some,
          Binding.calculation?_node]

/-- A finite sequence of steps, with what they noted and the session after them. -/
inductive Course (tracing : Bool) : List Entry → Session → Prop where
  | start : Course tracing [] .empty
  | take {journal : List Entry} {session : Session} (before : Course tracing journal session)
      (step : Option Step) :
      Course tracing (journal ++ (session.take tracing step).1.elim [] Report.journal)
        (session.take tracing step).2
  /-- Something from outside is given a name. It has no handles but those on existing cells. -/
  | supply {journal : List Entry} {session : Session} (before : Course tracing journal session)
      (name : String) {binding : Binding} (isOver : binding.IsOver session.Owns) :
      Course tracing journal ⟨session.store, session.scope.insert name binding⟩

/-- A run of a session is a course. -/
theorem Course.run {journal : List Entry} {session : Session}
    (before : Course tracing journal session) (steps : List (Option Step)) :
    Course tracing
      (journal ++ (session.run tracing steps).1.flatMap fun report => report.elim [] Report.journal)
      (session.run tracing steps).2 := by
  induction steps generalizing journal session with
  | nil => simpa using before
  | cons step steps ih =>
      have rest := ih (before.take step)
      simpa [run_cons] using rest

/-- What was noted in a course leads to what the cells hold after it. -/
theorem Course.replays {journal : List Entry} {session : Session}
    (course : Course tracing journal session) :
    Replays (fun _ => none) journal session.store.contents ∧ session.IsClosed := by
  induction course with
  | start =>
      have nothing : Session.empty.store.contents = fun _ => none := funext Store.contents_empty
      rw [nothing]
      refine ⟨.nil _, ?_⟩
      intro name binding found
      cases found
  | supply before name isOver ih => exact ⟨ih.1, ih.2.insert name isOver⟩
  | @take journal session before read ih =>
      rcases ih with ⟨replays, closed⟩
      cases read with
      | none =>
          rw [Session.take_none, Option.elim_none, List.append_nil]
          exact ⟨replays, closed⟩
      | some step =>
          cases taken : session.step? tracing step with
          | none =>
              rw [Session.take_of_rejected taken, Option.elim_none, List.append_nil]
              exact ⟨replays, closed⟩
          | some accepted =>
              rcases (takes_of_step? taken).replays closed with ⟨rest, stillClosed⟩
              rw [Session.take_of_accepted taken]
              exact ⟨replays.append rest, stillClosed⟩

/-- What a course of a session has noted, and what a further step would come to. -/
structure KeepsCells (tracing : Bool) (journal : List Entry) (session : Session) : Prop where
  /-- Every cell holds what was put into it last. -/
  held : ∀ cell, session.store.contents cell = lastPut? journal cell
  /-- Every read gives what was put into the cell last. -/
  read_eq : ∀ {before after : List Entry} {kind : Kind} {source : Variable kind}
    {value : kind.Value}, journal = before ++ .read source value :: after →
    lastPut? before source.cell = some (.ofValue value)
  /-- Nothing was put before into the cell of a new variable. -/
  created_fresh : ∀ {before after : List Entry} {kind : Kind} {source : Variable kind}
    {value : kind.Value}, journal = before ++ .created source value :: after →
    lastPut? before source.cell = none
  /-- A new variable is created with the given value, or with the zero value of its kind. -/
  declared : ∀ {name : String} {kind : Kind} {given : Option Scalar} {report : Report}
    {after : Session}, session.step? tracing (.declare name kind given) = some (report, after) →
    ∃ (source : Variable kind) (value : kind.Value),
      after.scope.find? name = some (.cell source) ∧
      given.getD (.ofValue kind.zero) = .ofValue value ∧ report.journal = [.created source value]
  /-- A further name of a variable stands for a handle on the same cell. -/
  aliased : ∀ {name other : String} {report : Report} {after : Session},
    session.step? tracing (.alias name other) = some (report, after) →
    after.scope.find? name = session.scope.find? other
  assigned : ∀ {name : String} {scalar : Scalar} {report : Report} {after : Session},
    session.step? tracing (.assign name scalar) = some (report, after) →
    ∃ (kind : Kind) (target : Variable kind) (value : kind.Value),
      session.scope.find? name = some (.cell target) ∧ scalar = .ofValue value ∧
      report.journal = Event.entries tracing (.setVariable scalar) ++ [.wrote target value]
  /-- The reply is what was put into the cell last. -/
  inspected : ∀ {name : String} {report : Report} {after : Session},
    session.step? tracing (.inspect name) = some (report, after) →
    ∃ (kind : Kind) (source : Variable kind) (value : kind.Value),
      session.scope.find? name = some (.cell source) ∧
      lastPut? journal source.cell = some (.ofValue value) ∧
      report.outcome = .ok (.value (.ofValue value)) ∧ report.journal = [.read source value]
  evaluated : ∀ {kind : Kind} {expression : Expression} {report : Report} {after : Session},
    session.step? tracing (.evaluate kind expression) = some (report, after) →
    ∃ (calculation : Calculation kind) (left : Store),
      (expression.build session.scope kind).run session.store = some (calculation, left) ∧
      left.contents = session.store.contents ∧
      report.journal = (calculation.evaluate.run tracing left).journal
  /-- The operands of a graph are evaluated one after the other. -/
  evaluatedEach : ∀ {name : String} {report : Report} {after : Session},
    session.step? tracing (.evaluateOperands name) = some (report, after) →
    ∃ (kind : Kind) (calculation : Calculation kind) (operands : Operands kind),
      session.scope.find? name = some (.node calculation (some operands)) ∧
      report.journal = (Evaluation.runs tracing session.store
        (operands.toList.map fun operand => Scalar.ofValue <$> operand.evaluate)).flatMap
          Run.journal
  ordered : ∀ {kind : Kind} (calculation : Calculation kind) (store : Store),
    calculation.AccessesInOrder tracing store
  /-- Giving names, copying and dropping access no cell. -/
  named : ∀ {step : Step} {report : Report} {after : Session}, step.isNaming = true →
    session.step? tracing step = some (report, after) →
    report.journal = [] ∧ after.store.contents = session.store.contents
  /-- A copy of a graph does in every later session what the original does. -/
  cloned : ∀ {clone original : String} {kind : Kind} {expression : Expression} {report : Report}
    {after later : Session}, expression.IsCopyOf original →
    session.step? tracing (.define clone kind expression) = some (report, after) →
    later.scope.find? clone = after.scope.find? clone →
    later.scope.find? original = after.scope.find? original →
    later.step? tracing (.evaluate kind (.reference clone)) =
      later.step? tracing (.evaluate kind (.reference original))

/-- Variables are cells: whatever steps a session has taken, what is read is what was put there
last. -/
theorem Course.keepsCells {journal : List Entry} {session : Session}
    (course : Course tracing journal session) : session.KeepsCells tracing journal := by
  rcases course.replays with ⟨replays, closed⟩
  constructor
  case held =>
      intro cell
      simpa using replays.last_eq cell
  case read_eq =>
      rintro before after kind source value rfl
      simpa [Contents.Allows] using replays.allows_at
  case created_fresh =>
      rintro before after kind source value rfl
      simpa [Contents.Allows] using replays.allows_at
  case declared =>
      intro name kind given report after accepted
      cases takes_of_step? accepted with
      | declare _ holds => exact ⟨_, _, Scope.find?_insert_self _ _ _, holds, rfl⟩
  case aliased =>
      intro name other report after accepted
      cases takes_of_step? accepted with
      | share _ found => rw [found, Scope.find?_insert_self]
  case assigned =>
      intro name scalar report after accepted
      cases takes_of_step? accepted with
      | assign found value => exact ⟨_, _, value, found, rfl, rfl⟩
  case inspected =>
      intro name report after accepted
      cases takes_of_step? accepted with
      | inspect found =>
          next kind source =>
          refine ⟨kind, source, _, found, ?_, rfl, rfl⟩
          have holds := Store.contents_cell (closed _ _ found)
          rw [replays.last_eq] at holds
          simpa using holds
  case evaluated =>
      intro kind expression report after accepted
      cases takes_of_step? accepted with
      | evaluate built =>
          exact ⟨_, _, built, (expression.build_gives closed kind _ _ _ built).2, rfl⟩
  case evaluatedEach =>
      intro name report after accepted
      cases takes_of_step? accepted with
      | evaluateOperands found ran =>
          refine ⟨_, _, _, found, ?_⟩
          rw [ran, Evaluation.run_outcomes]
  case ordered => exact fun calculation store => calculation.accessesInOrder tracing store
  case named =>
      intro step report after isNaming accepted
      exact (takes_of_step? accepted).leaves_cells closed isNaming
  case cloned =>
      intro clone original kind expression report after later isCopy accepted cloneStays
        originalStays
      have same := (takes_of_step? accepted).calculation?_of_isCopyOf isCopy
      simp only [step?, Step.plan, Expression.build_reference, cloneStays, originalStays, same]

/-- A variable with two names is set through one of them between two reads through the other. -/
theorem Course.keepsCells_of_setting :
    let steps : List (Option Step) := [
      some (.declare "x" .int (some (.int 3))),
      some (.alias "y" "x"),
      some (.evaluate .int
        (.difference (.reference "x") (.setting "y" (.int 8) (.reference "x"))))]
    let ran := Session.empty.run false steps
    let journal := ran.1.flatMap fun report => report.elim [] Report.journal
    let source : Variable .int := ⟨0⟩
    let before : List Entry :=
      [.created source (3 : Int64), .read source (3 : Int64), .wrote source (8 : Int64)]
    journal = before ++ [.read source (8 : Int64), .applied none (.int 3) (.int 8)] ∧
      lastPut? before source.cell = some (.int 8) := by
  intro steps ran journal source before
  have noted : journal =
      before ++ [.read source (8 : Int64), .applied none (.int 3) (.int 8)] := rfl
  have keeps : ran.2.KeepsCells false journal := (Course.start.run steps).keepsCells
  exact ⟨noted, keeps.read_eq noted⟩

end Session

end Deferred
