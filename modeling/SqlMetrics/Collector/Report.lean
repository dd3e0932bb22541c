import SqlMetrics.Collector.Timeline

/-!
# Reports of runs

What can be told of a run that has returned: its result, the calls and batches with their times, how
many calls were open at once, when it ended and what it noted.

The queries that one cancellation ends have no order among themselves.  A report lists their errors
by the index of the query, and leaves every other error in its place.
-/

namespace SqlMetrics.Collector

/-- A call of the data source with its time. -/
structure TimedCall where
  time : Nat
  call : SourceCall

/-- A batch that has reached its service, with its time. -/
structure TimedBatch where
  time : Nat
  service : String
  points : List MetricPoint

/-- What can be told of a run. -/
structure Report where
  result : Option (Except CollectorError Unit)
  calls : List TimedCall
  batches : List TimedBatch
  mostOpen : Nat
  finish : Nat
  events : List Event

/-- The index of a query that ended because it was cancelled. -/
def cancelledIndex? : CollectorError → Option Nat
  | .query index .cancelled => some index
  | _ => none

/-- Puts the given indices, one after another, in the places of the cancelled queries. -/
def placeCancelled : List Nat → List CollectorError → List CollectorError
  | _, [] => []
  | [], errors => errors
  | index :: rest, e :: errors =>
    match cancelledIndex? e with
    | some _ => .query index .cancelled :: placeCancelled rest errors
    | none => e :: placeCancelled (index :: rest) errors

/-- The errors with those of the cancelled queries in the order of the queries. -/
def orderCancelled (errors : List CollectorError) : List CollectorError :=
  placeCancelled ((errors.filterMap cancelledIndex?).mergeSort (· ≤ ·)) errors

/-- Puts the given errors, one after another, in the places of the noted ones. -/
def placeFailures : List CollectorError → List Event → List Event
  | _, [] => []
  | [], events => events
  | e :: errors, .queryFailed _ :: events => .queryFailed e :: placeFailures errors events
  | errors, event :: events => event :: placeFailures errors events

/-- The error of a noted failure. -/
def failure? : Event → Option CollectorError
  | .queryFailed e => some e
  | _ => none

/-- The calls among what a run did outside. -/
def timedCall? (s : Stamped) : Option TimedCall :=
  match s.external with
  | .call _ call => some ⟨s.time, call⟩
  | _ => none

/-- The batches among what a run did outside. -/
def timedBatch? (s : Stamped) : Option TimedBatch :=
  match s.external with
  | .delivered _ service points => some ⟨s.time, service, points⟩
  | _ => none

/-- What can be told of a run from its last state. -/
def Timeline.report (t : Timeline) : Report :=
  let later := t.state.events.filterMap failure?
  let told (result : Option (Except CollectorError Unit)) (events : List Event) : Report :=
    { result := result
      calls := t.stamps.filterMap timedCall?
      batches := t.stamps.filterMap timedBatch?
      mostOpen := t.mostOpen
      finish := t.now
      events := events }
  match t.state.returned with
  | some (.error first) =>
    match orderCancelled (first :: later) with
    | e :: rest => told (some (.error e)) (placeFailures rest t.state.events)
    | [] => told t.state.returned t.state.events
  | result => told result t.state.events

end SqlMetrics.Collector
