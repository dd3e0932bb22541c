import SqlMetrics.Query
import SqlMetrics.Export.Error

/-!
# The line exporter

A batch is written as one block of lines, one line for each point: the name, the value with six
decimals and the time, with tabs between.  A batch with a value that is no finite number is refused
as a whole, before anything is written.

The block goes to a writer that may take it in pieces.  The writer is a function of how many writes
came before and how many bytes are offered; a write that is interrupted is tried again and takes
nothing, so it does not appear.  A writer that fails or takes nothing ends the export.
-/

namespace SqlMetrics.Stdout

open Number (Double)

/-- The finite number that a value stands for. -/
def finite? (v : MetricValue) : Option Double :=
  v.toDouble?.filter Double.isFinite

/-- The line of a point whose value is the given number. -/
def line (p : MetricPoint) (x : Double) : String :=
  p.name ++ "\t" ++ x.fixed 6 ++ "\t" ++ Number.intText p.time.toInt ++ "\n"

/-- The block of a batch, or the error of its first point whose value is no finite number. -/
def block : List MetricPoint → Except ExportError String
  | [] => .ok ""
  | p :: rest =>
    match finite? p.value with
    | none => .error (.invalidValue p.name p.value.display)
    | some x => (block rest).map (line p x ++ ·)

/-- What a writer does with the bytes it is offered. -/
inductive WriteResult where
  /-- It takes so many of them. -/
  | accepted (count : Nat)
  /-- It fails. -/
  | failed (cause : String)
deriving DecidableEq, Repr

/-- A writer: what it does with so many bytes after so many writes, and how a flush after so many
flushes fails, if it does. -/
structure Writer where
  write : (writes offered : Nat) → WriteResult
  flush : (flushes : Nat) → Option String

/-- The writer that takes everything. -/
def Writer.unlimited : Writer :=
  ⟨fun _ offered => .accepted offered, fun _ => none⟩

/-- What has gone through a writer so far. -/
structure Stream where
  written : Bytes := []
  writes : Nat := 0
  flushes : Nat := 0
deriving DecidableEq, Repr

/-- The text of the failure of a writer that takes nothing. -/
def nothingTaken : String :=
  "failed to write whole buffer"

/-- Offers bytes to the writer until it has taken all of them. -/
def writeAll (w : Writer) (s : Stream) : Bytes → Stream × Option String
  | [] => (s, none)
  | b :: rest =>
    match w.write s.writes (rest.length + 1) with
    | .failed cause => ({ s with writes := s.writes + 1 }, some cause)
    | .accepted 0 => ({ s with writes := s.writes + 1 }, some nothingTaken)
    | .accepted (n + 1) =>
      let taken := b :: rest.take n
      writeAll w { s with written := s.written ++ taken, writes := s.writes + 1 } (rest.drop n)
termination_by bytes => bytes.length
decreasing_by simp only [List.length_drop, List.length_cons]; omega

/-- Exports a batch. -/
def exportBatch (w : Writer) (s : Stream) (points : List MetricPoint) :
    Stream × Except ExportError Unit :=
  match block points with
  | .error e => (s, .error e)
  | .ok text =>
    match writeAll w s (Text.encode text) with
    | (s, some cause) => (s, .error (.write cause))
    | (s, none) =>
      let flushed := { s with flushes := s.flushes + 1 }
      match w.flush s.flushes with
      | some cause => (flushed, .error (.write cause))
      | none => (flushed, .ok ())

end SqlMetrics.Stdout
