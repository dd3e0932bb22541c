import SqlMetrics.Query.Execution
import SqlMetrics.Export.Error

/-!
# The collector as a machine

A collector runs every query of a list against one data source and one exporter, with a bounded
number of queries at work at once.  A query is admitted when a permit is free; it holds the permit
until its task has ended.  A token stops the admission and makes the tasks give up.

A `State` is everything a run knows at one moment, and a `Move` is one thing that can happen next:
the admission loop takes a permit, hands it to a task or closes; a task is started, or resumed with
what it waited for, or woken because the token has fired; the token fires; the run looks at the next
ended task, and finally returns.  `State.step?` gives the state after a move, or `none` where the
move is not possible.  Nothing says in which order moves come, so what holds of every sequence of
moves holds of every interleaving of the tasks.
-/

namespace SqlMetrics

/-- The failure of a run. -/
inductive CollectorError where
  /-- The query with this position in the list failed. -/
  | query (index : Nat) (cause : QueryError)
  /-- The points of a query did not reach the service. -/
  | exporting (service : String) (cause : ExportError)
  /-- A task crashed; the report is what the run time says of the crash. -/
  | crashed (report : String)
  /-- The run was cancelled before every query was admitted. -/
  | cancelled
deriving DecidableEq, Repr

namespace CollectorError

/-- The text of the error. -/
def message : CollectorError → String
  | .query index cause => "query #" ++ toString index ++ ": " ++ cause.message
  | .exporting service cause =>
    "export to service " ++ Text.quoted service ++ ": " ++ cause.message
  | .crashed report => "query task failed: " ++ report
  | .cancelled => "collection cancelled"

/-- The texts of what caused the error, the nearest first. -/
def causes : CollectorError → List String
  | .query _ cause => cause.message :: cause.causes
  | .exporting _ cause => cause.message :: cause.causes
  | .crashed report => [report]
  | .cancelled => []

end CollectorError

/-- What a run notes on its way. -/
inductive Event where
  /-- A template did not expand. -/
  | skipped (skip : SkipEvent)
  /-- A query's points reached the service. -/
  | exported (index : Nat) (service : String) (count : Nat)
  /-- The run was cancelled with queries left over. -/
  | notStarted (started total : Nat)
  /-- A query failed after another one had. -/
  | queryFailed (e : CollectorError)
deriving DecidableEq, Repr

namespace Collector

/-- The settings of a run. -/
structure Settings where
  maxConcurrency : Nat
  defaultService : String
deriving DecidableEq, Repr

/-- The greatest number of permits there can be. -/
def maxPermits : Nat :=
  Number.twoTo 61 - 1

/-- How many queries may be at work at once. -/
def Settings.permits (s : Settings) : Nat :=
  max 1 (min s.maxConcurrency maxPermits)

/-- How far the task of a query has come. -/
inductive Phase where
  /-- It has a permit and has not run yet. -/
  | spawned
  /-- It executes the query. -/
  | executing (e : Execution)
  /-- It waits for the exporter. -/
  | exporting (points : List MetricPoint)
  /-- It is over. -/
  | ended (error : Option CollectorError)

/-- The task of an admitted query. -/
structure Task where
  query : Query
  phase : Phase

/-- Whether the task is over. -/
def Task.hasEnded (t : Task) : Bool :=
  match t.phase with
  | .ended _ => true
  | _ => false

/-- Whether the admission loop goes on. -/
inductive Admission where
  /-- It looks for a permit for the next query. -/
  | seeking
  /-- It has a permit for the next query. -/
  | holding
  /-- It is over. -/
  | closed
deriving DecidableEq, Repr

/-- What a run does outside itself, with the index of the query. -/
inductive External where
  | command (index : Nat) (command : String)
  | call (index : Nat) (call : SourceCall)
  | exportBegun (index : Nat) (service : String) (points : List MetricPoint)
  | delivered (index : Nat) (service : String) (points : List MetricPoint)
deriving DecidableEq, Repr

/-- What a run knows at one moment. -/
structure State where
  /-- The permits that nobody holds. -/
  free : Nat
  admission : Admission
  /-- The queries that are not admitted yet, in order. -/
  pending : List Query
  /-- The tasks of the admitted queries, in order. -/
  tasks : List Task
  /-- The indices of the ended tasks that the run has not looked at, in the order of their ends. -/
  unseen : List Nat
  /-- Whether the token has fired. -/
  fired : Bool
  /-- The first failure that the run has seen. -/
  firstError : Option CollectorError
  events : List Event
  externals : List External
  /-- What the run has returned. -/
  returned : Option (Except CollectorError Unit)

/-- The start of a run; `fired` says that the token has fired before. -/
def State.init (s : Settings) (queries : List Query) (fired : Bool) : State where
  free := s.permits
  admission := .seeking
  pending := queries
  tasks := []
  unseen := []
  fired := fired
  firstError := none
  events := []
  externals := []
  returned := none

/-- What an exporter answers. -/
abbrev ExportAnswer := Except ExportError Unit

/-- One thing that can happen in a run. -/
inductive Move where
  | acquire
  | spawn
  | close
  | fire
  /-- The task of a query runs for the first time and reads the clock. -/
  | start (index : Nat) (now : Int64)
  /-- The command that a task waits for ends. -/
  | commandEnds (index : Nat) (outcome : Shell.Outcome)
  /-- The call of the data source that a task waits for comes to something. -/
  | sourceReplies (index : Nat) (reply : Reply SourceAnswer)
  /-- The export that a task waits for comes to something. -/
  | exportReplies (index : Nat) (reply : Reply ExportAnswer)
  /-- A waiting task is resumed because the token has fired. -/
  | wake (index : Nat)
  | see
  | finish

namespace State

/-- The state with another phase for a task. -/
def setPhase (s : State) (index : Nat) (phase : Phase) : State :=
  { s with tasks := s.tasks.modify index fun t => { t with phase := phase } }

/-- The state with something more noted. -/
def note (s : State) (events : List Event) : State :=
  { s with events := s.events ++ events }

/-- The state with something more done outside. -/
def act (s : State) (e : External) : State :=
  { s with externals := s.externals ++ [e] }

/-- The state after a task has ended: its permit is free again. -/
def endTask (s : State) (index : Nat) (error : Option CollectorError) : State :=
  { s.setPhase index (.ended error) with free := s.free + 1, unseen := s.unseen ++ [index] }

/-- The state after the execution of a query has ended: with an error the task ends, and with points
it goes on to the exporter, unless the token has fired by now. -/
def settleExtraction (s : State) (cfg : Settings) (index : Nat) (q : Query) (x : Extraction) :
    State :=
  let s := s.note (x.skips.map .skipped)
  match x.result with
  | .error e => s.endTask index (some (.query index e))
  | .ok points =>
    -- The answer may have come together with the token, so the token is looked at once more.
    if s.fired then s.endTask index (some (.query index .cancelled))
    else
      (s.setPhase index (.exporting points)).act
        (.exportBegun index (q.serviceOr cfg.defaultService) points)

/-- The state after the execution of a query has come to the point where it waits again. -/
def settle (s : State) (cfg : Settings) (index : Nat) (q : Query) (e : Execution) : State :=
  match e with
  | .evaluating _ _ command _ => (s.setPhase index (.executing e)).act (.command index command)
  | .querying _ params => (s.setPhase index (.executing e)).act (.call index ⟨q.sql, params⟩)
  | .finished x => s.settleExtraction cfg index q x

/-- The error that a task has ended with. -/
def endError? (s : State) (index : Nat) : Option CollectorError :=
  match s.tasks[index]? with
  | some ⟨_, .ended error⟩ => error
  | _ => none

/-- The state after the run has looked at how a task ended: the first error is kept, and every other
one is noted. -/
def seeEnd (s : State) : Option CollectorError → State
  | none => s
  | some e =>
    match s.firstError with
    | none => { s with firstError := some e }
    | some _ => s.note [.queryFailed e]

/-- The state after a move, where the move is possible. -/
def step? (cfg : Settings) (s : State) : Move → Option State
  | .acquire =>
    if s.admission = .seeking ∧ s.pending ≠ [] ∧ s.fired = false ∧ 0 < s.free then
      some { s with admission := .holding, free := s.free - 1 }
    else none
  | .spawn =>
    match s.admission, s.pending with
    | .holding, q :: rest =>
      some { s with admission := .seeking, pending := rest, tasks := s.tasks ++ [⟨q, .spawned⟩] }
    | _, _ => none
  | .close =>
    if s.admission = .seeking ∧ (s.pending = [] ∨ s.fired) then
      -- Queries are left over only where the token has cut the admission short.
      let left := s.pending.length
      let s := { s with admission := .closed }
      some (if left = 0 then s
        else s.note [.notStarted s.tasks.length (s.tasks.length + left)])
    else none
  | .fire => if s.fired then none else some { s with fired := true }
  | .start index now =>
    match s.tasks[index]? with
    | some ⟨q, .spawned⟩ => some (s.settle cfg index q (Execution.start q now s.fired))
    | _ => none
  | .commandEnds index outcome =>
    match s.tasks[index]? with
    | some ⟨q, .executing (.evaluating now values command rest)⟩ =>
      -- Once the token has fired, a waiting task can only be woken.
      if s.fired then none
      else
        some (s.settle cfg index q (Execution.resumeCommand now values command rest outcome))
    | _ => none
  | .sourceReplies index reply =>
    match s.tasks[index]? with
    | some ⟨q, .executing (.querying now _)⟩ =>
      if s.fired then none
      else
        match reply with
        | .answered answer fires =>
          some ({ s with fired := fires }.settleExtraction cfg index q
            (Execution.resumeAnswer q now answer))
        -- The token fires and the call never answers: the task stays where it is until it is woken.
        | .interrupted => some { s with fired := true }
        | .crashed report fires =>
          some ({ s with fired := fires }.endTask index (some (.crashed report)))
    | _ => none
  | .exportReplies index reply =>
    match s.tasks[index]? with
    | some ⟨q, .exporting points⟩ =>
      if s.fired then none
      else
        let service := q.serviceOr cfg.defaultService
        match reply with
        | .answered (.ok ()) fires =>
          some ((({ s with fired := fires }.act (.delivered index service points)).note
            [.exported index service points.length]).endTask index none)
        | .answered (.error e) fires =>
          some ({ s with fired := fires }.endTask index (some (.exporting service e)))
        | .interrupted => some { s with fired := true }
        | .crashed report fires =>
          some ({ s with fired := fires }.endTask index (some (.crashed report)))
    | _ => none
  | .wake index =>
    if s.fired then
      match s.tasks[index]? with
      | some ⟨_, .executing _⟩ | some ⟨_, .exporting _⟩ =>
        some (s.endTask index (some (.query index .cancelled)))
      | _ => none
    else none
  | .see =>
    match s.admission, s.unseen with
    | .closed, index :: rest => some ({ s with unseen := rest }.seeEnd (s.endError? index))
    | _, _ => none
  | .finish =>
    if s.admission = .closed ∧ s.unseen = [] ∧ s.tasks.all Task.hasEnded ∧ s.returned.isNone then
      -- A failure counts for more than queries that were never started.
      some { s with returned := some (match s.firstError with
        | some e => .error e
        | none => if s.pending = [] then .ok () else .error .cancelled) }
    else none

end State

end Collector

end SqlMetrics
