/-!
# The pool of SQLite connections

A SQLite database is queried over connections, each of which serves one query at a time.  A query
takes an idle connection, or opens one if there is none, and puts it back when it is done, also when
it failed.  The work of a query goes on when its caller has stopped waiting for it.

The pool is a machine whose steps may come in any order.  `Pool.step` says what a step does where it
can be taken, and `Pool.Reachable` are the states that some order of steps leads to.
-/

namespace SqlMetrics.Sqlite

/-- A connection, by the number of those opened before it. -/
abbrev Connection := Nat

/-- Where the work of a query stands. -/
inductive Phase where
  /-- It has not looked for a connection yet. -/
  | waiting
  /-- It found none idle and opens one. -/
  | connecting
  /-- It has a connection and runs its statement. -/
  | querying (c : Connection)
  /-- Its statement is done, well or badly, and it still has the connection. -/
  | finished (c : Connection)
deriving DecidableEq, Repr

/-- The connection that the work of a query has. -/
def Phase.connection? : Phase → Option Connection
  | .waiting | .connecting => none
  | .querying c | .finished c => some c

/-- The work of a query. -/
structure Worker where
  /-- The number of the query, by those called before it. -/
  call : Nat
  phase : Phase
  /-- Whether the caller still waits for it. -/
  awaited : Bool
deriving DecidableEq, Repr

/-- A pool: the idle connections, the last one put back at the end, and the work that goes on. -/
structure Pool where
  idle : List Connection
  workers : List Worker
  /-- How many connections were opened. -/
  opened : Nat
  /-- How many queries were called. -/
  called : Nat
  /-- The most work that went on at a time. -/
  mostWorkers : Nat
deriving DecidableEq, Repr

namespace Pool

/-- A pool right after the database was opened: the connection that tried it is idle. -/
def initial : Pool := ⟨[0], [], 1, 0, 0⟩

/-- A step of the pool or of the work of a query. -/
inductive Step where
  /-- A query is called. -/
  | call
  /-- The work of a query looks for an idle connection. -/
  | checkOut (call : Nat)
  /-- A connection is opened for a query. -/
  | connect (call : Nat)
  /-- No connection can be opened for a query, which ends. -/
  | failToConnect (call : Nat)
  /-- A statement ends, well or badly. -/
  | finish (call : Nat)
  /-- A query puts its connection back and ends. -/
  | checkIn (call : Nat)
  /-- The caller of a query stops waiting. -/
  | abandon (call : Nat)
deriving DecidableEq, Repr

/-- The work of a query that goes on. -/
def worker? (p : Pool) (call : Nat) : Option Worker :=
  p.workers.find? fun w => w.call == call

/-- The pool with the work of a query in another phase. -/
def setPhase (p : Pool) (call : Nat) (phase : Phase) : Pool :=
  { p with workers := p.workers.map fun w => if w.call == call then { w with phase } else w }

/-- The pool without the work of a query. -/
def endWork (p : Pool) (call : Nat) : Pool :=
  { p with workers := p.workers.filter fun w => w.call != call }

/-- The phase of the work of a query. -/
def phase? (p : Pool) (call : Nat) : Option Phase :=
  (p.worker? call).map Worker.phase

/-- What a step does, where it can be taken. -/
def step (p : Pool) : Step → Option Pool
  | .call =>
    let workers := p.workers ++ [⟨p.called, .waiting, true⟩]
    some { p with
      workers
      called := p.called + 1
      mostWorkers := max p.mostWorkers workers.length }
  | .checkOut call =>
    if p.phase? call == some .waiting then
      match p.idle.getLast? with
      | some c => some { p.setPhase call (.querying c) with idle := p.idle.dropLast }
      | none => some (p.setPhase call .connecting)
    else none
  | .connect call =>
    if p.phase? call == some .connecting then
      some { p.setPhase call (.querying p.opened) with opened := p.opened + 1 }
    else none
  | .failToConnect call =>
    if p.phase? call == some .connecting then some (p.endWork call) else none
  | .finish call =>
    match p.phase? call with
    | some (.querying c) => some (p.setPhase call (.finished c))
    | _ => none
  | .checkIn call =>
    match p.phase? call with
    | some (.finished c) => some { p.endWork call with idle := p.idle ++ [c] }
    | _ => none
  | .abandon call =>
    if (p.worker? call).isSome then
      some { p with
        workers := p.workers.map fun w =>
          if w.call == call then { w with awaited := false } else w }
    else none

/-- The connections that queries have. -/
def held (p : Pool) : List Connection :=
  p.workers.filterMap fun w => w.phase.connection?

/-- The open connections. -/
def connections (p : Pool) : List Connection :=
  p.idle ++ p.held

/-- Takes steps one after another, where each can be taken. -/
def run (p : Pool) : List Step → Option Pool
  | [] => some p
  | s :: rest => (p.step s).bind fun q => run q rest

/-- The states that a pool can come to. -/
inductive Reachable : Pool → Prop where
  | initial : Reachable Pool.initial
  | step (p q : Pool) (s : Step) : Reachable p → p.step s = some q → Reachable q

end Pool

end SqlMetrics.Sqlite
