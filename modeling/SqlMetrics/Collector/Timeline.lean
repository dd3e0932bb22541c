import SqlMetrics.Collector.Machine

/-!
# Runs in virtual time

One schedule of the collector's machine.  Time is counted in milliseconds from the start of a run
and moves only when everything waits.  The run itself (admission, and looking at ended tasks) goes
as far as it can when it has its turn; then the tasks that can go on do so, in the order in which
they became able to, each until it waits or has ended; then the run has its turn again.

A `World` says what the commands, the data source, the exporter and the clock do, and when the token
fires from outside.  A `Timeline` is the state of the machine together with the time and the calls
that are under way, and every step of it is a move of the machine or a step of time.
-/

namespace SqlMetrics.Collector

/-- Something that comes after so many milliseconds. -/
structure Timed (α : Type) where
  delay : Nat
  value : α

/-- What a run finds around itself. -/
structure World where
  /-- What a command comes to; `none` when the token fires before it ends. -/
  shell : String → Option Shell.Outcome
  source : SourceCall → Timed (Reply SourceAnswer)
  exporter : String → List MetricPoint → Timed (Reply ExportAnswer)
  /-- The reading of the clock at a time. -/
  clock : Nat → Int64
  /-- When the token fires from outside. -/
  fireAt : Option Nat

/-- A task that can go on.  `replied` says that the call it waits for has come to something. -/
structure Runnable where
  index : Nat
  replied : Bool

/-- A call under way, with the time at which it comes to something. -/
structure Waiting where
  index : Nat
  due : Nat

/-- Who goes on next. -/
inductive Turn where
  | run
  | tasks
deriving DecidableEq

/-- Something a run did outside itself, with its time. -/
structure Stamped where
  time : Nat
  external : External

/-- The state of a run in virtual time. -/
structure Timeline where
  state : State
  now : Nat
  turn : Turn
  ready : List Runnable
  waiting : List Waiting
  stamps : List Stamped
  /-- The greatest number of data source calls that were open at once. -/
  mostOpen : Nat
  /-- How much had been noted when the token fired during the run. -/
  notedBeforeFiring : Option Nat

namespace Timeline

/-- The start of a run. -/
def init (cfg : Settings) (queries : List Query) (fired : Bool) : Timeline where
  state := State.init cfg queries fired
  now := 0
  turn := .run
  ready := []
  waiting := []
  stamps := []
  mostOpen := 0
  notedBeforeFiring := none

/-- Whether a task waits for the data source. -/
def isQuerying (t : Task) : Bool :=
  match t.phase with
  | .executing (.querying _ _) => true
  | _ => false

/-- Whether a task waits for something outside. -/
def isWaiting (t : Task) : Bool :=
  match t.phase with
  | .executing _ | .exporting _ => true
  | _ => false

/-- The indices of the waiting tasks that are not yet among the runnable ones. -/
def toWake (t : Timeline) (tasks : List Task) : List Runnable :=
  (tasks.zipIdx.filter fun task =>
    isWaiting task.1 && !t.ready.any fun r => r.index == task.2).map fun task => ⟨task.2, false⟩

/-- The timeline after a move of the machine: what the move did outside is stamped, and if it fired
the token, every waiting task can go on. -/
def after (t : Timeline) (state : State) : Timeline :=
  let new := state.externals.drop t.state.externals.length
  let t' := { t with
    state := state
    stamps := t.stamps ++ new.map fun e => ⟨t.now, e⟩
    mostOpen := max t.mostOpen (state.tasks.countP isQuerying) }
  if state.fired && !t.state.fired then
    { t' with
      ready := t.ready ++ t.toWake state.tasks
      waiting := []
      notedBeforeFiring := some t.state.events.length }
  else t'

/-- The next move of the run itself. -/
def runMove? (cfg : Settings) (s : State) : Option (Move × State) :=
  [Move.spawn, .close, .acquire, .see, .finish].findSome? fun m => (s.step? cfg m).map (m, ·)

/-- The move of a task that can go on, at a time. -/
def taskMove (w : World) (s : State) (now : Nat) (r : Runnable) : Option Move :=
  match s.tasks[r.index]? with
  | some ⟨_, .spawned⟩ => some (.start r.index (w.clock now))
  | some ⟨q, phase⟩ =>
    if s.fired then some (.wake r.index)
    else
      match phase with
      | .executing (.evaluating _ _ command _) =>
        match w.shell command with
        | some outcome => some (.commandEnds r.index outcome)
        | none => some .fire
      | .executing (.querying _ params) =>
        some (.sourceReplies r.index (w.source ⟨q.sql, params⟩).value)
      | _ => none
  | none => none

/-- The move of a task that can go on and waits for the exporter. -/
def exportMove (cfg : Settings) (w : World) (s : State) (r : Runnable) : Option Move :=
  match s.tasks[r.index]? with
  | some ⟨q, .exporting points⟩ =>
    if s.fired then none
    else some (.exportReplies r.index (w.exporter (q.serviceOr cfg.defaultService) points).value)
  | _ => none

/-- How long the call that a task has just begun takes. -/
def callDelay (cfg : Settings) (w : World) (s : State) (index : Nat) : Nat :=
  match s.tasks[index]? with
  | some ⟨q, .executing (.querying _ params)⟩ => (w.source ⟨q.sql, params⟩).delay
  | some ⟨q, .exporting points⟩ => (w.exporter (q.serviceOr cfg.defaultService) points).delay
  | _ => 0

/-- Lets the first of the runnable tasks make one move.  A task whose new call takes time waits for
it; one whose call answers at once, or that is not waiting, stays first. -/
def stepTask (cfg : Settings) (w : World) (t : Timeline) (r : Runnable) (rest : List Runnable) :
    Timeline :=
  let delay := callDelay cfg w t.state r.index
  -- A call that takes time begins here; its task comes back as one whose call has replied.
  if !r.replied && !t.state.fired && 0 < delay then
    { t with ready := rest, waiting := t.waiting ++ [⟨r.index, t.now + delay⟩] }
  else
    match (exportMove cfg w t.state r).or (taskMove w t.state t.now r) with
    | none => { t with ready := rest }
    | some move =>
      match t.state.step? cfg move with
      | none => { t with ready := rest }
      | some state =>
        -- When the token fires, `after` makes every waiting task runnable, this one too.
        let goesOn := !state.fired && (state.tasks[r.index]?).any isWaiting
        let ready := if goesOn then ⟨r.index, false⟩ :: rest else rest
        { t with ready := ready }.after state

/-- The next time at which something comes to pass. -/
def nextTime? (w : World) (t : Timeline) : Option Nat :=
  let times := t.waiting.map Waiting.due ++
    (if t.state.fired then [] else w.fireAt.toList)
  times.min?

/-- Moves time on: the token fires first, and then the calls that are due come to something. -/
def advance (cfg : Settings) (w : World) (t : Timeline) (time : Nat) : Timeline :=
  let t := { t with now := time }
  let fired :=
    if !t.state.fired && w.fireAt == some time then
      match t.state.step? cfg .fire with
      | some state => t.after state
      | none => t
    else t
  let due := fired.waiting.filter fun c => c.due ≤ time
  { fired with
    ready := fired.ready ++ due.map fun c => ⟨c.index, true⟩
    waiting := fired.waiting.filter fun c => !(c.due ≤ time) }

/-- One step of a run: a move of the machine, a change of turn or a step of time.  There is none
when the run has returned, or when nothing will ever come to pass. -/
def next? (cfg : Settings) (w : World) (t : Timeline) : Option Timeline :=
  if t.state.returned.isSome then none
  else
    match t.turn with
    | .run =>
      match runMove? cfg t.state with
      | some (.spawn, state) =>
        some { t.after state with ready := t.ready ++ [⟨t.state.tasks.length, false⟩] }
      | some (_, state) => some (t.after state)
      | none => some { t with turn := .tasks }
    | .tasks =>
      match t.ready with
      | r :: rest => some (stepTask cfg w t r rest)
      | [] =>
        if (runMove? cfg t.state).isSome then some { t with turn := .run }
        else (nextTime? w t).map (advance cfg w t)

/-- Makes up to so many steps. -/
def runFor (cfg : Settings) (w : World) : Nat → Timeline → Timeline
  | 0, t => t
  | fuel + 1, t =>
    match next? cfg w t with
    | some t' => runFor cfg w fuel t'
    | none => t

/-- More steps than a run of these queries makes: each query has a bounded number of moves, changes
of turn and waits, and one more for each parameter. -/
def stepBound (queries : List Query) : Nat :=
  40 * (queries.length + 1) + 4 * (queries.flatMap fun q => q.params).length

/-- The whole run of a list of queries. -/
def run (cfg : Settings) (w : World) (queries : List Query) : Timeline :=
  runFor cfg w (stepBound queries) (init cfg queries (w.fireAt == some 0))

end Timeline

end SqlMetrics.Collector
