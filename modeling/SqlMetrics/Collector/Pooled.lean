import SqlMetrics.Collector.Machine
import SqlMetrics.Source.Sqlite.Pool

/-!
# Runs over a pool of connections

Where the data source of a run is a SQLite database, a call of the data source is a call of the pool.
It is made when the task of a query comes to it, its work gets on by itself, and it answers when its
work is over.  A task that gives up leaves its call to its work, which goes on.

A `PooledRun` is a run together with the pool, and a `Move` is a move of the run or a step of the
work of a call.  As in the machine of the run alone, nothing says in which order moves come.
-/

namespace SqlMetrics

/-- Whether a step is one of the work of a query, and not one of its caller. -/
def Sqlite.Pool.Step.isWork : Sqlite.Pool.Step → Bool
  | .call | .abandon _ => false
  | .checkOut _ | .connect _ | .failToConnect _ | .finish _ | .checkIn _ => true

namespace Collector

/-- The query that calls the data source. -/
def External.caller? : External → Option Nat
  | .call index _ => some index
  | .command _ _ | .exportBegun _ _ _ | .delivered _ _ _ => none

/-- The queries that have called the data source, in the order of their calls. -/
def State.callers (s : State) : List Nat :=
  s.externals.filterMap External.caller?

/-- A run and the pool of the database that it queries.  The calls of the pool are those of the run,
in the same order. -/
structure PooledRun where
  run : State
  pool : Sqlite.Pool

namespace PooledRun

/-- One thing that can happen in a run over a pool. -/
inductive Move where
  | run (m : Collector.Move)
  | work (s : Sqlite.Pool.Step)

/-- The start of a run over a database that was opened for it. -/
def init (cfg : Settings) (queries : List Query) (fired : Bool) : PooledRun where
  run := State.init cfg queries fired
  pool := Sqlite.Pool.initial

/-- The work of a query's call that goes on. -/
def worker? (p : PooledRun) (index : Nat) : Option Sqlite.Worker :=
  p.pool.workers.find? fun w => p.run.callers[w.call]? == some index

/-- Whether the data source allows a move of the run: a call that comes to something has no work that
goes on. -/
def allows (p : PooledRun) : Collector.Move → Bool
  | .sourceReplies index (.answered _ _) | .sourceReplies index (.crashed _ _) =>
    (p.worker? index).isNone
  | _ => true

/-- What a move of the run, with the state that it leads to, does to the pool: the calls that it makes
are called, and the call that its task gives up is abandoned where its work goes on. -/
def poolSteps (p : PooledRun) (m : Collector.Move) (run : State) : List Sqlite.Pool.Step :=
  let called := List.replicate (run.callers.length - p.run.callers.length) Sqlite.Pool.Step.call
  match m with
  | .wake index => called ++ (p.worker? index).toList.map fun w => .abandon w.call
  | _ => called

/-- What follows a move, where the move is possible. -/
def step? (cfg : Settings) (p : PooledRun) : Move → Option PooledRun
  | .run m =>
    if p.allows m then do
      let run ← p.run.step? cfg m
      let pool ← p.pool.run (p.poolSteps m run)
      pure { run, pool }
    else none
  | .work s =>
    if s.isWork then (p.pool.step s).map fun pool => { p with pool } else none

/-- Makes moves one after another, where each is possible. -/
def run? (cfg : Settings) (p : PooledRun) : List Move → Option PooledRun
  | [] => some p
  | m :: rest => (p.step? cfg m).bind fun q => q.run? cfg rest

end PooledRun

end Collector

end SqlMetrics
