import SqlMetrics.Export.Stdout

/-!
# Concurrent exports

One line exporter serves many calls at a time, from different threads.  A call renders its block by
itself, and ends there if the block is refused.  Then it waits for the lock of the writer, offers
its block until the writer has taken all of it, flushes the writer and gives the lock back, also
when the writer has failed.

The calls are a machine whose moves may come in any order.  `Shared.step?` says what a move does
where it can be made, and `Shared.Reachable` are the states that some order of moves leads to.
-/

namespace SqlMetrics.Stdout

/-- What comes of one operation of the writer: bytes that are left to be written, or the end of the
call. -/
inductive Offered where
  | left (rest : Bytes)
  | ended (result : Except ExportError Unit)

/-- Offers the writer what is left, once, or flushes it where nothing is left. -/
def offer (w : Writer) (s : Stream) : Bytes → Stream × Offered
  | [] =>
    ({ s with flushes := s.flushes + 1 },
      .ended (match w.flush s.flushes with
        | some cause => .error (.write cause)
        | none => .ok ()))
  | b :: rest =>
    match w.write s.writes (rest.length + 1) with
    | .failed cause => ({ s with writes := s.writes + 1 }, .ended (.error (.write cause)))
    | .accepted 0 => ({ s with writes := s.writes + 1 }, .ended (.error (.write nothingTaken)))
    | .accepted (n + 1) =>
      ({ s with written := s.written ++ b :: rest.take n, writes := s.writes + 1 },
        .left (rest.drop n))

/-- Where a call stands. -/
inductive Phase where
  /-- Its block has not been rendered yet. -/
  | called
  /-- Its block is rendered, and it waits for the lock. -/
  | waiting (block : Bytes)
  /-- It has the lock. -/
  | writing
  /-- It has ended, and does not have the lock any more. -/
  | ended (result : Except ExportError Unit)

/-- A call of the exporter. -/
structure Call where
  points : List MetricPoint
  phase : Phase

/-- The call that has the lock, by the number of the calls before it, and the bytes of its block
that the writer has not taken yet. -/
structure Holder where
  call : Nat
  rest : Bytes

/-- An exporter in use. -/
structure Shared where
  stream : Stream := {}
  /-- The calls in the order in which they were made. -/
  calls : List Call := []
  holder : Option Holder := none
  /-- The calls that had the lock and gave it back, in the order in which they took it. -/
  settled : List Nat := []

namespace Shared

/-- A move of the exporter in use. -/
inductive Move where
  /-- A batch is exported. -/
  | call (points : List MetricPoint)
  /-- A call renders its block. -/
  | render (call : Nat)
  /-- A call takes the lock. -/
  | lock (call : Nat)
  /-- The call that has the lock goes on with the writer. -/
  | proceed
  /-- A write of the call that has the lock is interrupted. -/
  | interrupt

/-- The exporter with a call in another phase. -/
def setPhase (m : Shared) (call : Nat) (phase : Phase) : Shared :=
  { m with calls := m.calls.modify call fun c => { c with phase } }

/-- The exporter after the call that had the lock has ended. -/
def settle (m : Shared) (call : Nat) (stream : Stream) (result : Except ExportError Unit) :
    Shared :=
  { m.setPhase call (.ended result) with
    stream
    holder := none
    settled := m.settled ++ [call] }

/-- What a move does, where it can be made. -/
def step? (w : Writer) (m : Shared) : Move → Option Shared
  | .call points => some { m with calls := m.calls ++ [⟨points, .called⟩] }
  | .render i =>
    match m.calls[i]? with
    | some ⟨points, .called⟩ =>
      match block points with
      | .error e => some (m.setPhase i (.ended (.error e)))
      | .ok text => some (m.setPhase i (.waiting (Text.encode text)))
    | _ => none
  | .lock i =>
    match m.holder, m.calls[i]? with
    | none, some ⟨_, .waiting bytes⟩ =>
      some { m.setPhase i .writing with holder := some ⟨i, bytes⟩ }
    | _, _ => none
  | .proceed =>
    match m.holder with
    | none => none
    | some h =>
      match offer w m.stream h.rest with
      | (stream, .left rest) => some { m with stream, holder := some ⟨h.call, rest⟩ }
      | (stream, .ended result) => some (m.settle h.call stream result)
  | .interrupt =>
    match m.holder with
    | some ⟨_, _ :: _⟩ => some m
    | _ => none

/-- Makes moves one after another, where each can be made. -/
def run (w : Writer) (m : Shared) : List Move → Option Shared
  | [] => some m
  | move :: rest => (m.step? w move).bind fun next => run w next rest

/-- The states that an exporter can come to, from the first call on. -/
inductive Reachable (w : Writer) : Shared → Prop where
  | initial : Reachable w {}
  | step {m m' : Shared} (move : Move) : Reachable w m → m.step? w move = some m' →
      Reachable w m'

/-- The calls that took the lock, in the order in which they did. -/
def lockOrder (m : Shared) : List Nat :=
  m.settled ++ (m.holder.map Holder.call).toList

end Shared

end SqlMetrics.Stdout
