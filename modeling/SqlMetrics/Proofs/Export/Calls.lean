import SqlMetrics.Export.Stdout.Calls
import SqlMetrics.Proofs.Export.Stdout
import SqlMetrics.Proofs.Export.Values

/-!
# Whole batches

However the calls of a line exporter are interleaved, the bytes written are one block after another,
in the order in which the calls took the lock.

- **Blocks**: `IsBlock` says what the block of a batch is, line by line.
- **One call**: `finish` is what a call does once it has the lock, and it ends the same way whether
  it is looked at as a whole or operation by operation (`finish_offer`).
- **Moves**: `Step` lists what a move can do.
- **Invariant**: `Orderly` holds of every state; `InTurn` is its part about the calls that are done
  with the lock.
- **Results**: `batches_written_whole` puts together what follows, `WrittenWhole`.
-/

namespace SqlMetrics.Stdout

open Number (Double)

/-! ## Blocks -/

/-- The line of a point with a finite number: the name, the number with six decimals and the time,
with tabs between and a line feed at the end. -/
def IsLine (p : MetricPoint) (l : String) : Prop :=
  ∃ x : Double, p.value.toDouble? = some x ∧ x.isFinite = true ∧
    l = p.name ++ "\t" ++ x.fixed 6 ++ "\t" ++ Number.intText p.time.toInt ++ "\n"

/-- The block of a batch: a line for each point, in the order of the batch. -/
def IsBlock (points : List MetricPoint) (bytes : Bytes) : Prop :=
  ∃ lines, bytes = lines.flatMap Text.encode ∧ List.Forall₂ IsLine points lines

theorem isLine_iff {p : MetricPoint} {l : String} :
    IsLine p l ↔ ∃ x, finite? p.value = some x ∧ l = line p x := by
  simp [IsLine, finite?, Option.filter_eq_some_iff, line, and_assoc]

theorem encode_append (s t : String) : Text.encode (s ++ t) = Text.encode s ++ Text.encode t := by
  simp [Text.encode, Text.Utf8.encodeChars]

theorem isBlock_cons {p : MetricPoint} {rest : List MetricPoint} {bytes : Bytes} :
    IsBlock (p :: rest) bytes ↔ ∃ x more, finite? p.value = some x ∧ IsBlock rest more ∧
      bytes = Text.encode (line p x) ++ more := by
  constructor
  · rintro ⟨_, rfl, hLines⟩
    cases hLines with
    | cons hLine hRest =>
      obtain ⟨x, hFinite, rfl⟩ := isLine_iff.mp hLine
      exact ⟨x, _, hFinite, ⟨_, rfl, hRest⟩, List.flatMap_cons⟩
  · rintro ⟨x, _, hFinite, ⟨lines, rfl, hRest⟩, rfl⟩
    have hLine := isLine_iff.mpr ⟨x, hFinite, rfl⟩
    exact ⟨line p x :: lines, List.flatMap_cons.symm, .cons hLine hRest⟩

/-- The block of a batch is what is rendered. -/
theorem isBlock_iff {points : List MetricPoint} {bytes : Bytes} :
    IsBlock points bytes ↔ ∃ text, block points = .ok text ∧ bytes = Text.encode text := by
  induction points generalizing bytes with
  | nil =>
    constructor
    · rintro ⟨_, rfl, ⟨⟩⟩
      exact ⟨"", rfl, rfl⟩
    · rintro ⟨_, ⟨⟩, rfl⟩
      exact ⟨[], rfl, .nil⟩
  | cons p rest ih =>
    rw [isBlock_cons, block]
    cases hFinite : finite? p.value with
    | none => simp
    | some x =>
      cases hRest : block rest with
      | error e => simp [ih, hRest, Except.map]
      | ok more => simp [ih, hRest, Except.map, encode_append]

/-! ## One call -/

section

variable (w : Writer)

/-- What a call does once it has the lock: the writer is offered what is left, and then flushed. -/
def finish (s : Stream) (bytes : Bytes) : Stream × Except ExportError Unit :=
  match writeAll w s bytes with
  | (s, some cause) => (s, .error (.write cause))
  | (s, none) =>
    ({ s with flushes := s.flushes + 1 },
      match w.flush s.flushes with
      | some cause => .error (.write cause)
      | none => .ok ())

theorem exportBatch_eq_finish {points : List MetricPoint} {bytes : Bytes}
    (h : IsBlock points bytes) (s : Stream) : exportBatch w s points = finish w s bytes := by
  obtain ⟨text, hBlock, rfl⟩ := isBlock_iff.mp h
  rw [exportBatch, hBlock, finish]
  dsimp only
  generalize writeAll w s (Text.encode text) = p
  obtain ⟨s', _ | cause⟩ := p
  · dsimp only
    cases w.flush s'.flushes <;> rfl
  · rfl

/-- A call ends in the same way whether it is looked at as a whole or operation by operation. -/
theorem finish_offer (s : Stream) (bytes : Bytes) :
    finish w s bytes =
      match offer w s bytes with
      | (s', .left rest) => finish w s' rest
      | (s', .ended result) => (s', result) := by
  cases bytes with
  | nil => cases hFlush : w.flush s.flushes <;> simp [finish, writeAll, offer, hFlush]
  | cons b rest =>
    rw [finish, writeAll, offer]
    cases w.write s.writes (rest.length + 1) with
    | failed cause => rfl
    | accepted count => cases count <;> rfl

/-- The next operation of the writer fails: a write with an error or without taking anything, or the
flush at the end. -/
def Writer.Fails (s : Stream) (cause : String) : Bytes → Prop
  | [] => w.flush s.flushes = some cause
  | _ :: rest =>
    w.write s.writes (rest.length + 1) = .failed cause ∨
      w.write s.writes (rest.length + 1) = .accepted 0 ∧ cause = nothingTaken

/-- The writer takes something of every write, and no flush fails. -/
def Writer.Accepts : Prop :=
  (∀ writes offered, 0 < offered → ∃ n, w.write writes offered = .accepted (n + 1)) ∧
    ∀ flushes, w.flush flushes = none

theorem Writer.Accepts.not_fails {w : Writer} (h : w.Accepts) (s : Stream) (cause : String)
    (bytes : Bytes) : ¬w.Fails s cause bytes := by
  cases bytes with
  | nil => simp [Writer.Fails, h.2]
  | cons b rest =>
    obtain ⟨n, hTaken⟩ := h.1 s.writes (rest.length + 1) (Nat.succ_pos _)
    simp [Writer.Fails, hTaken]

/-- What one operation of the writer can come to. -/
inductive Operation (s : Stream) (bytes : Bytes) : Stream × Offered → Prop
  | taken {s' : Stream} {taken rest : Bytes} : taken ≠ [] → bytes = taken ++ rest →
      s'.written = s.written ++ taken → Operation s bytes (s', .left rest)
  | flushed {s' : Stream} : bytes = [] → s'.written = s.written →
      Operation s bytes (s', .ended (.ok ()))
  | failed {s' : Stream} {cause : String} : w.Fails s cause bytes → s'.written = s.written →
      Operation s bytes (s', .ended (.error (.write cause)))

theorem operation_offer (s : Stream) (bytes : Bytes) : Operation w s bytes (offer w s bytes) := by
  unfold offer
  split
  case h_1 =>
    cases hFlush : w.flush s.flushes with
    | none => exact .flushed rfl rfl
    | some cause => exact .failed hFlush rfl
  case h_2 b rest =>
    split
    case h_1 cause hWrite => exact .failed (.inl hWrite) rfl
    case h_2 hWrite => exact .failed (.inr ⟨hWrite, rfl⟩) rfl
    case h_3 n hWrite =>
      exact .taken (List.cons_ne_nil b _) (by simp) rfl

/-- What a call has written when it ends: its whole block, or a first part of it, where the writer
failed at what is left. -/
inductive Ending (bytes taken : Bytes) : Except ExportError Unit → Prop
  | whole : taken = bytes → Ending bytes taken (.ok ())
  | failed {s : Stream} {rest : Bytes} {cause : String} : bytes = taken ++ rest →
      w.Fails s cause rest → Ending bytes taken (.error (.write cause))

theorem ending_finish (s : Stream) (bytes : Bytes) : ∃ taken,
    (finish w s bytes).1.written = s.written ++ taken ∧
      Ending w bytes taken (finish w s bytes).2 := by
  -- By the number of bytes that are left.
  induction hLength : bytes.length using Nat.strongRecOn generalizing s bytes with
  | ind length ih =>
    have hOperation := operation_offer w s bytes
    rw [finish_offer]
    cases hOffer : offer w s bytes with
    | mk s' offered =>
      rw [hOffer] at hOperation
      cases hOperation with
      | @taken _ first rest hSome hSplit hWritten =>
        have hLess : rest.length < length := by
          have hPos := List.length_pos_of_ne_nil hSome
          rw [← hLength, hSplit, List.length_append]
          omega
        obtain ⟨more, hMore, hEnding⟩ := ih _ hLess s' rest rfl
        refine ⟨first ++ more, ?_, ?_⟩
        · rw [hMore, hWritten, List.append_assoc]
        · dsimp only
          generalize (finish w s' rest).2 = result at *
          cases hEnding with
          | whole hWhole => exact .whole (by rw [hWhole, hSplit])
          | failed hRest hFails =>
            exact .failed (by rw [hSplit, hRest, List.append_assoc]) hFails
      | flushed hNone hWritten =>
        exact ⟨[], by rw [List.append_nil, hWritten], .whole hNone.symm⟩
      | failed hFails hWritten =>
        exact ⟨[], by rw [List.append_nil, hWritten], .failed (List.nil_append _).symm hFails⟩

end

/-! ## Moves -/

namespace Shared

/-- What a move can do. -/
inductive Step (w : Writer) (m : Shared) : Move → Shared → Prop
  | call (points : List MetricPoint) :
      Step w m (.call points) { m with calls := m.calls ++ [⟨points, .called⟩] }
  | refuse {i : Nat} {points : List MetricPoint} {e : ExportError} :
      m.calls[i]? = some ⟨points, .called⟩ → block points = .error e →
      Step w m (.render i) (m.setPhase i (.ended (.error e)))
  | render {i : Nat} {points : List MetricPoint} {bytes : Bytes} :
      m.calls[i]? = some ⟨points, .called⟩ → IsBlock points bytes →
      Step w m (.render i) (m.setPhase i (.waiting bytes))
  | lock {i : Nat} {points : List MetricPoint} {bytes : Bytes} :
      m.holder = none → m.calls[i]? = some ⟨points, .waiting bytes⟩ →
      Step w m (.lock i) { m.setPhase i .writing with holder := some ⟨i, bytes⟩ }
  | take {h : Holder} {stream : Stream} {rest : Bytes} :
      m.holder = some h → offer w m.stream h.rest = (stream, .left rest) →
      Step w m .proceed { m with stream, holder := some ⟨h.call, rest⟩ }
  | settle {h : Holder} {stream : Stream} {result : Except ExportError Unit} :
      m.holder = some h → offer w m.stream h.rest = (stream, .ended result) →
      Step w m .proceed (m.settle h.call stream result)
  | interrupt : Step w m .interrupt m

theorem step_of_step? {w : Writer} {m m' : Shared} {move : Move}
    (h : m.step? w move = some m') : Step w m move m' := by
  cases move with
  | call points =>
    cases h
    exact .call points
  | render i =>
    simp only [step?] at h
    split at h
    case h_1 points hCall =>
      split at h
      case h_1 e hBlock =>
        cases h
        exact .refuse hCall hBlock
      case h_2 text hBlock =>
        cases h
        exact .render hCall (isBlock_iff.mpr ⟨text, hBlock, rfl⟩)
    case h_2 => cases h
  | lock i =>
    simp only [step?] at h
    split at h
    case h_1 points bytes hHolder hCall =>
      cases h
      exact .lock hHolder hCall
    case h_2 => cases h
  | proceed =>
    simp only [step?] at h
    split at h
    case h_1 => cases h
    case h_2 holder hHolder =>
      split at h
      case h_1 stream rest hOffer =>
        cases h
        exact .take hHolder hOffer
      case h_2 stream result hOffer =>
        cases h
        exact .settle hHolder hOffer
  | interrupt =>
    simp only [step?] at h
    split at h <;> cases h
    exact .interrupt

/-! ## Invariant -/

variable {w : Writer}

@[simp] theorem setPhase_stream (m : Shared) (i : Nat) (phase : Phase) :
    (m.setPhase i phase).stream = m.stream := rfl

@[simp] theorem setPhase_holder (m : Shared) (i : Nat) (phase : Phase) :
    (m.setPhase i phase).holder = m.holder := rfl

@[simp] theorem setPhase_settled (m : Shared) (i : Nat) (phase : Phase) :
    (m.setPhase i phase).settled = m.settled := rfl

theorem setPhase_call {m : Shared} {i : Nat} {c : Call} (h : m.calls[i]? = some c)
    (phase : Phase) : (m.setPhase i phase).calls[i]? = some ⟨c.points, phase⟩ := by
  simp [setPhase, h]

theorem setPhase_other {m : Shared} {i j : Nat} (h : i ≠ j) (phase : Phase) :
    (m.setPhase i phase).calls[j]? = m.calls[j]? := by
  simp [setPhase, h]

theorem lockOrder_of_free {m : Shared} (h : m.holder = none) : m.lockOrder = m.settled := by
  simp [lockOrder, h]

theorem lockOrder_of_held {m : Shared} {holder : Holder} (h : m.holder = some holder) :
    m.lockOrder = m.settled ++ [holder.call] := by
  simp [lockOrder, h]

/-- Calls that took the lock one after another and were done with it, each as if it were the only
call, and what has gone through the writer then. -/
inductive InTurn (w : Writer) (calls : List Call) : List Nat → Stream → Prop
  | none : InTurn w calls [] {}
  | next {order : List Nat} {s s' : Stream} {i : Nat} {points : List MetricPoint} {bytes : Bytes}
      {result : Except ExportError Unit} :
      InTurn w calls order s → calls[i]? = some ⟨points, .ended result⟩ → IsBlock points bytes →
      exportBatch w s points = (s', result) → InTurn w calls (order ++ [i]) s'

/-- Other calls may be made and go on. -/
theorem InTurn.mono {calls calls' : List Call} {order : List Nat} {s : Stream}
    (hSame : ∀ i ∈ order, ∀ c, calls[i]? = some c → calls'[i]? = some c)
    (h : InTurn w calls order s) : InTurn w calls' order s := by
  induction h with
  | none => exact .none
  | @next order s s' i points bytes result _ hCall hBlock hExport ih =>
    have hBefore := ih fun j hMem => hSame j (List.mem_append_left _ hMem)
    exact .next hBefore (hSame i (by simp) _ hCall) hBlock hExport

theorem InTurn.setPhase {m : Shared} {order : List Nat} {s : Stream}
    (h : InTurn w m.calls order s) {i : Nat} (hNotMem : i ∉ order) (phase : Phase) :
    InTurn w (m.setPhase i phase).calls order s := by
  refine h.mono fun j hMem c hOther => ?_
  have hNe : i ≠ j := fun hSame => hNotMem (hSame ▸ hMem)
  exact (setPhase_other hNe phase).trans hOther

theorem InTurn.ended {calls : List Call} {order : List Nat} {s : Stream}
    (h : InTurn w calls order s) {i : Nat} (hMem : i ∈ order) :
    ∃ c result, calls[i]? = some c ∧ c.phase = .ended result := by
  induction h with
  | none => cases hMem
  | next _ hCall _ _ ih =>
    rcases List.mem_append.mp hMem with hBefore | hLast
    · exact ih hBefore
    · obtain rfl := List.mem_singleton.mp hLast
      exact ⟨_, _, hCall, rfl⟩

/-- A call that has not taken the lock: what it waits with is its block, and if it has ended, it was
refused. -/
def Unlocked (c : Call) : Prop :=
  match c.phase with
  | .called => True
  | .waiting bytes => IsBlock c.points bytes
  | .writing => False
  | .ended result => ∃ e, block c.points = .error e ∧ result = .error e

/-- What holds of the exporter in every state:
1. no call takes the lock twice;
2. the calls that have not taken the lock have written nothing;
3. while the lock is free, the calls that had it were served one after another;
4. while a call has the lock, it has written a first part of its block behind the bytes of those
   calls, and will end as if it were the only call. -/
structure Orderly (w : Writer) (m : Shared) : Prop where
  once : m.lockOrder.Nodup
  unlocked : ∀ i c, m.calls[i]? = some c → i ∉ m.lockOrder → Unlocked c
  free : m.holder = none → InTurn w m.calls m.settled m.stream
  held : ∀ h, m.holder = some h → ∃ s points bytes taken, InTurn w m.calls m.settled s ∧
    m.calls[h.call]? = some ⟨points, .writing⟩ ∧ IsBlock points bytes ∧ bytes = taken ++ h.rest ∧
    m.stream.written = s.written ++ taken ∧ exportBatch w s points = finish w m.stream h.rest

theorem orderly_initial : Orderly w {} where
  once := List.nodup_nil
  unlocked _ _ h := by simp at h
  free _ := .none
  held := nofun

/-- A change to the calls that have not taken the lock. -/
theorem Orderly.change_unlocked {m : Shared} (h : Orderly w m) {calls : List Call}
    (hSame : ∀ i ∈ m.lockOrder, ∀ c, m.calls[i]? = some c → calls[i]? = some c)
    (hUnlocked : ∀ i c, calls[i]? = some c → i ∉ m.lockOrder → Unlocked c) :
    Orderly w { m with calls } where
  once := h.once
  unlocked := hUnlocked
  free hFree := (h.free hFree).mono fun i hMem => hSame i (List.mem_append_left _ hMem)
  held holder hHolder := by
    obtain ⟨s, points, bytes, taken, hTurn, hCall, hRest⟩ := h.held holder hHolder
    refine ⟨s, points, bytes, taken, hTurn.mono fun i hMem => ?_, ?_, hRest⟩
    · exact hSame i (List.mem_append_left _ hMem)
    · have hOrder : m.lockOrder = m.settled ++ [holder.call] := lockOrder_of_held hHolder
      exact hSame holder.call (by simp [hOrder]) _ hCall

/-- The calls that took the lock have it still or have ended. -/
theorem Orderly.locked {m : Shared} (h : Orderly w m) {i : Nat} (hMem : i ∈ m.lockOrder) :
    ∃ c, m.calls[i]? = some c ∧ (c.phase = .writing ∨ ∃ result, c.phase = .ended result) := by
  have hSettled {s : Stream} (hTurn : InTurn w m.calls m.settled s) (hMem : i ∈ m.settled) :
      ∃ c, m.calls[i]? = some c ∧ (c.phase = .writing ∨ ∃ result, c.phase = .ended result) := by
    obtain ⟨c, result, hCall, hEnded⟩ := hTurn.ended hMem
    exact ⟨c, hCall, .inr ⟨result, hEnded⟩⟩
  cases hHolder : m.holder with
  | none => exact hSettled (h.free hHolder) (lockOrder_of_free hHolder ▸ hMem)
  | some holder =>
    obtain ⟨s, points, bytes, taken, hTurn, hCall, -⟩ := h.held holder hHolder
    rw [lockOrder_of_held hHolder, List.mem_append, List.mem_singleton] at hMem
    rcases hMem with hBefore | rfl
    · exact hSettled hTurn hBefore
    · exact ⟨_, hCall, .inl rfl⟩

/-- A call in an earlier phase has not taken the lock. -/
theorem Orderly.not_mem {m : Shared} (h : Orderly w m) {i : Nat} {c : Call}
    (hCall : m.calls[i]? = some c) (hWriting : c.phase ≠ .writing)
    (hEnded : ∀ result, c.phase ≠ .ended result) : i ∉ m.lockOrder := by
  intro hMem
  obtain ⟨d, hSame, hPhase⟩ := h.locked hMem
  rw [hCall] at hSame
  cases hSame
  rcases hPhase with hNow | ⟨result, hNow⟩
  · exact hWriting hNow
  · exact hEnded result hNow

/-- A call that has ended without the lock was refused. -/
theorem Orderly.block_of_ended {m : Shared} (h : Orderly w m) {i : Nat} {c : Call}
    {result : Except ExportError Unit} (hCall : m.calls[i]? = some c) (hNotMem : i ∉ m.lockOrder)
    (hPhase : c.phase = .ended result) : ∃ e, block c.points = .error e ∧ result = .error e := by
  have hUnlocked := h.unlocked i c hCall hNotMem
  rwa [Unlocked, hPhase] at hUnlocked

/-- A call that has not taken the lock goes on without it. -/
theorem Orderly.setPhase {m : Shared} (h : Orderly w m) {i : Nat} {c : Call} {phase : Phase}
    (hCall : m.calls[i]? = some c) (hNotMem : i ∉ m.lockOrder)
    (hUnlocked : Unlocked ⟨c.points, phase⟩) : Orderly w (m.setPhase i phase) := by
  refine h.change_unlocked (fun j hMem d hOther => ?_) fun j d hOther hMem => ?_
  · have hNe : i ≠ j := fun hSame => hNotMem (hSame ▸ hMem)
    exact (setPhase_other hNe phase).trans hOther
  · rcases eq_or_ne i j with rfl | hNe
    · have hSame : some d = some ⟨c.points, phase⟩ :=
        hOther.symm.trans (setPhase_call hCall phase)
      cases hSame
      exact hUnlocked
    · exact h.unlocked j d ((setPhase_other hNe phase).symm.trans hOther) hMem

/-- One call more is made. -/
theorem Orderly.call {m : Shared} (h : Orderly w m) (points : List MetricPoint) :
    Orderly w { m with calls := m.calls ++ [⟨points, .called⟩] } := by
  refine h.change_unlocked (fun i _ c hCall => ?_) fun i c hCall hMem => ?_
  · rw [List.getElem?_append_left (List.getElem?_eq_some_iff.mp hCall).1, hCall]
  · rcases lt_trichotomy i m.calls.length with hBefore | rfl | hBehind
    · rw [List.getElem?_append_left hBefore] at hCall
      exact h.unlocked i c hCall hMem
    · rw [List.getElem?_append_right le_rfl, Nat.sub_self] at hCall
      cases hCall
      trivial
    · rw [List.getElem?_eq_none (by simp; omega)] at hCall
      cases hCall

/-- A call takes the lock, and has its whole block before it. -/
theorem Orderly.lock {m : Shared} (h : Orderly w m) {i : Nat} {points : List MetricPoint}
    {bytes : Bytes} (hFree : m.holder = none)
    (hCall : m.calls[i]? = some ⟨points, .waiting bytes⟩) :
    Orderly w { m.setPhase i .writing with holder := some ⟨i, bytes⟩ } := by
  have hOrder := lockOrder_of_free hFree
  have hNotMem : i ∉ m.lockOrder := h.not_mem hCall nofun nofun
  have hBlock : IsBlock points bytes := h.unlocked i _ hCall hNotMem
  rw [hOrder] at hNotMem
  have hOrder' : Shared.lockOrder { m.setPhase i .writing with holder := some ⟨i, bytes⟩ } =
      m.settled ++ [i] := by simp [lockOrder]
  refine ⟨?once, fun j c hOther hMem => ?unlocked, nofun, fun holder hHolder => ?held⟩
  case once =>
    -- A call that waits has not had the lock.
    rw [hOrder', ← List.concat_eq_append]
    exact (List.nodup_concat m.settled i).mpr ⟨hNotMem, hOrder ▸ h.once⟩
  case unlocked =>
    rw [hOrder', List.mem_append, List.mem_singleton, not_or] at hMem
    refine h.unlocked j c ?_ (hOrder ▸ hMem.1)
    rwa [← setPhase_other (Ne.symm hMem.2)]
  case held =>
    -- What was written while the lock was free is what stands before the block.
    cases hHolder
    exact ⟨m.stream, points, bytes, [], (h.free hFree).setPhase hNotMem .writing,
      setPhase_call hCall .writing, hBlock, rfl, (List.append_nil _).symm,
      exportBatch_eq_finish w hBlock m.stream⟩

/-- The writer takes a part of what the call that has the lock has left. -/
theorem Orderly.take {m : Shared} (h : Orderly w m) {holder : Holder} {stream : Stream}
    {rest : Bytes} (hHolder : m.holder = some holder)
    (hOffer : offer w m.stream holder.rest = (stream, .left rest)) :
    Orderly w { m with stream, holder := some ⟨holder.call, rest⟩ } := by
  obtain ⟨s, points, bytes, taken, hTurn, hCall, hBlock, hSplit, hWritten, hExport⟩ :=
    h.held holder hHolder
  have hOperation := operation_offer w m.stream holder.rest
  rw [hOffer] at hOperation
  obtain @⟨_, more, _, -, hRest, hMore⟩ := hOperation
  have hOrder : Shared.lockOrder { m with stream, holder := some ⟨holder.call, rest⟩ } =
      m.lockOrder := by simp [lockOrder, hHolder]
  refine ⟨hOrder ▸ h.once, hOrder ▸ h.unlocked, nofun, fun _ hSame => ?held⟩
  cases hSame
  -- The part written grows by what was taken, and the rest is still to be finished.
  refine ⟨s, points, bytes, taken ++ more, hTurn, hCall, hBlock, ?split, ?written, ?result⟩
  case split => rw [hSplit, hRest, List.append_assoc]
  case written =>
    dsimp only
    rw [hMore, hWritten, List.append_assoc]
  case result => rw [hExport, finish_offer, hOffer]

/-- The call that has the lock ends, and gives it back. -/
theorem Orderly.settle {m : Shared} (h : Orderly w m) {holder : Holder} {stream : Stream}
    {result : Except ExportError Unit} (hHolder : m.holder = some holder)
    (hOffer : offer w m.stream holder.rest = (stream, .ended result)) :
    Orderly w (m.settle holder.call stream result) := by
  obtain ⟨s, points, bytes, taken, hTurn, hCall, hBlock, -, -, hExport⟩ := h.held holder hHolder
  have hOrder := lockOrder_of_held hHolder
  have hOrder' : (m.settle holder.call stream result).lockOrder = m.settled ++ [holder.call] :=
    lockOrder_of_free rfl
  have hOnce := h.once
  rw [hOrder] at hOnce
  have hNotMem : holder.call ∉ m.settled := by
    rw [← List.concat_eq_append, List.nodup_concat] at hOnce
    exact hOnce.1
  refine ⟨hOrder' ▸ hOnce, fun j c hOther hMem => ?unlocked, fun _ => ?free, nofun⟩
  case unlocked =>
    rw [hOrder', ← hOrder] at hMem
    have hNe : holder.call ≠ j := fun hSame => hMem (by simp [hOrder, hSame])
    exact h.unlocked j c ((setPhase_other hNe (.ended result)).symm.trans hOther) hMem
  case free =>
    -- The call has done what `exportBatch` does, so it is the next one in turn.
    refine .next (hTurn.setPhase hNotMem (.ended result)) (setPhase_call hCall (.ended result))
      hBlock ?_
    rw [hExport, finish_offer, hOffer]
    rfl

theorem Orderly.step {m m' : Shared} {move : Move} (h : Orderly w m)
    (hStep : Step w m move m') : Orderly w m' := by
  cases hStep with
  | call points => exact h.call points
  | refuse hCall hBlock => exact h.setPhase hCall (h.not_mem hCall nofun nofun) ⟨_, hBlock, rfl⟩
  | render hCall hBlock => exact h.setPhase hCall (h.not_mem hCall nofun nofun) hBlock
  | lock hFree hCall => exact h.lock hFree hCall
  | take hHolder hOffer => exact h.take hHolder hOffer
  | settle hHolder hOffer => exact h.settle hHolder hOffer
  | interrupt => exact h

theorem orderly_of_reachable {m : Shared} (h : Reachable w m) : Orderly w m := by
  induction h with
  | initial => exact orderly_initial
  | step move _ hStep ih => exact ih.step (step_of_step? hStep)

/-! ## Pieces -/

/-- What a call that took the lock has written: as long as it has the lock, the bytes of its block
before those that are left, and what `Ending` says when it has ended. -/
def Piece (w : Writer) (m : Shared) (i : Nat) (piece : Bytes) : Prop :=
  ∃ c bytes, m.calls[i]? = some c ∧ IsBlock c.points bytes ∧
    ((c.phase = .writing ∧ ∃ rest, m.holder = some ⟨i, rest⟩ ∧ bytes = piece ++ rest) ∨
      ∃ result, c.phase = .ended result ∧ Ending w bytes piece result)

theorem forall₂_concat {α β : Type} {R : α → β → Prop} {as : List α} {bs : List β} {a : α} {b : β}
    (h : List.Forall₂ R as bs) (hLast : R a b) : List.Forall₂ R (as ++ [a]) (bs ++ [b]) :=
  List.rel_append h (.cons hLast .nil)

theorem InTurn.pieces {m : Shared} {order : List Nat} {s : Stream}
    (h : InTurn w m.calls order s) : ∃ pieces : List Bytes, s.written = pieces.flatten ∧
      List.Forall₂ (Piece w m) order pieces := by
  induction h with
  | none => exact ⟨[], rfl, .nil⟩
  | @next order s s' i points bytes result _ hCall hBlock hExport ih =>
    obtain ⟨pieces, hWritten, hPieces⟩ := ih
    obtain ⟨taken, hMore, hEnding⟩ := ending_finish w s bytes
    rw [← exportBatch_eq_finish w hBlock, hExport] at hMore hEnding
    refine ⟨pieces ++ [taken], ?_, forall₂_concat hPieces
      ⟨_, bytes, hCall, hBlock, .inr ⟨result, rfl, hEnding⟩⟩⟩
    rw [hMore, hWritten]
    simp

/-- The bytes written are one piece after another, in the order of the lock. -/
theorem Orderly.pieces {m : Shared} (h : Orderly w m) : ∃ pieces : List Bytes,
    m.stream.written = pieces.flatten ∧ List.Forall₂ (Piece w m) m.lockOrder pieces := by
  cases hHolder : m.holder with
  | none =>
    rw [lockOrder_of_free hHolder]
    exact (h.free hHolder).pieces
  | some holder =>
    obtain ⟨s, points, bytes, taken, hTurn, hCall, hBlock, hSplit, hWritten, -⟩ :=
      h.held holder hHolder
    obtain ⟨pieces, hBefore, hPieces⟩ := hTurn.pieces
    refine ⟨pieces ++ [taken], ?_, lockOrder_of_held hHolder ▸ forall₂_concat hPieces
      ⟨_, bytes, hCall, hBlock, .inl ⟨rfl, holder.rest, hHolder, hSplit⟩⟩⟩
    rw [hWritten, hBefore]
    simp

end Shared

/-! ## Progress -/

/-- How many moves a call has before it, its turn with the writer taken as one. -/
def Phase.movesLeft : Phase → Nat
  | .called => 3
  | .waiting _ => 2
  | .writing => 1
  | .ended _ => 0

theorem sum_map_modify {l : List Call} {i : Nat} {c : Call} (f : Call → Nat) (g : Call → Call)
    (h : l[i]? = some c) : ((l.modify i g).map f).sum + f c = (l.map f).sum + f (g c) := by
  induction l generalizing i with
  | nil => cases h
  | cons d rest ih =>
    cases i with
    | zero =>
      cases h
      simp only [List.modify_zero_cons, List.map_cons, List.sum_cons]
      omega
    | succ i =>
      have hRest := ih h
      simp only [List.modify_succ_cons, List.map_cons, List.sum_cons]
      omega

namespace Shared

variable {w : Writer}

/-- The moves that the calls have before them, with a turn with the writer taken as one. -/
def movesLeft (m : Shared) : Nat :=
  (m.calls.map fun c => c.phase.movesLeft).sum

/-- The bytes that the call that has the lock still has to write. -/
def bytesLeft (m : Shared) : Nat :=
  match m.holder with
  | none => 0
  | some h => h.rest.length

theorem movesLeft_setPhase {m : Shared} {i : Nat} {c : Call} (h : m.calls[i]? = some c)
    (phase : Phase) :
    (m.setPhase i phase).movesLeft + c.phase.movesLeft = m.movesLeft + phase.movesLeft :=
  sum_map_modify (fun c => c.phase.movesLeft) _ h

theorem points_setPhase (m : Shared) (i : Nat) (phase : Phase) :
    (m.setPhase i phase).calls.map Call.points = m.calls.map Call.points := by
  apply List.ext_getElem?
  intro j
  rcases eq_or_ne i j with rfl | hNe
  · simp [setPhase, Function.comp_def]
  · rw [List.getElem?_map, List.getElem?_map, setPhase_other hNe]

/-- As long as a call has not ended, one of them can go on, and has less before it then. -/
theorem Orderly.exists_progress {m : Shared} (h : Orderly w m)
    (hOpen : ¬∀ c ∈ m.calls, ∃ result, c.phase = .ended result) :
    ∃ move m', m.step? w move = some m' ∧
      m'.calls.map Call.points = m.calls.map Call.points ∧
      (m'.movesLeft < m.movesLeft ∨ m'.movesLeft = m.movesLeft ∧ m'.bytesLeft < m.bytesLeft) := by
  cases hHolder : m.holder with
  | some holder =>
    -- The call that has the lock goes on: the writer takes bytes or the call ends.
    obtain ⟨s, points, bytes, taken, -, hCall, -⟩ := h.held holder hHolder
    have hOperation := operation_offer w m.stream holder.rest
    cases hOffer : offer w m.stream holder.rest with
    | mk stream offered =>
      cases offered with
      | left rest =>
        rw [hOffer] at hOperation
        obtain @⟨_, more, _, hSome, hRest, -⟩ := hOperation
        refine ⟨.proceed, { m with stream, holder := some ⟨holder.call, rest⟩ }, ?_, rfl,
          .inr ⟨rfl, ?_⟩⟩
        · simp only [step?, hHolder, hOffer]
        · have hPos := List.length_pos_of_ne_nil hSome
          simp only [bytesLeft, hHolder, hRest, List.length_append]
          omega
      | ended result =>
        refine ⟨.proceed, m.settle holder.call stream result, ?_, points_setPhase m _ _, .inl ?_⟩
        · simp only [step?, hHolder, hOffer]
        · have hLess := movesLeft_setPhase hCall (.ended result)
          simp only [Phase.movesLeft] at hLess
          change (m.setPhase holder.call (.ended result)).movesLeft < m.movesLeft
          omega
  | none =>
    -- Any call that has not ended can render its block or take the lock.
    push Not at hOpen
    obtain ⟨c, hMem, hOpen⟩ := hOpen
    obtain ⟨i, hCall⟩ := List.mem_iff_getElem?.mp hMem
    obtain ⟨points, phase⟩ := c
    cases phase with
    | called =>
      cases hBlock : block points with
      | error e =>
        refine ⟨.render i, m.setPhase i (.ended (.error e)), ?_, points_setPhase m _ _, .inl ?_⟩
        · simp only [step?, hCall, hBlock]
        · have hLess := movesLeft_setPhase hCall (.ended (.error e))
          simp only [Phase.movesLeft] at hLess
          omega
      | ok text =>
        refine ⟨.render i, m.setPhase i (.waiting (Text.encode text)), ?_, points_setPhase m _ _,
          .inl ?_⟩
        · simp only [step?, hCall, hBlock]
        · have hLess := movesLeft_setPhase hCall (.waiting (Text.encode text))
          simp only [Phase.movesLeft] at hLess
          omega
    | waiting bytes =>
      refine ⟨.lock i, { m.setPhase i .writing with holder := some ⟨i, bytes⟩ }, ?_,
        points_setPhase m _ _, .inl ?_⟩
      · simp only [step?, hHolder, hCall]
      · have hLess := movesLeft_setPhase hCall .writing
        simp only [Phase.movesLeft] at hLess
        change (m.setPhase i .writing).movesLeft < m.movesLeft
        omega
    | writing =>
      -- With the lock free no call can have it.
      have hMem : i ∈ m.lockOrder := by
        by_contra hNot
        exact h.unlocked i _ hCall hNot
      rw [lockOrder_of_free hHolder] at hMem
      obtain ⟨d, result, hSame, hEnded⟩ := (h.free hHolder).ended hMem
      rw [hCall] at hSame
      cases hSame
      cases hEnded
    | ended result => exact absurd rfl (hOpen result)

/-- The calls that were made can all be brought to their ends. -/
theorem Orderly.exists_completion {m : Shared} (h : Orderly w m) : ∃ moves m',
    m.run w moves = some m' ∧ m'.calls.map Call.points = m.calls.map Call.points ∧
      ∀ c ∈ m'.calls, ∃ result, c.phase = .ended result := by
  -- By the moves that the calls have before them, and then by the bytes left to the one in turn.
  by_cases hDone : ∀ c ∈ m.calls, ∃ result, c.phase = .ended result
  · exact ⟨[], m, rfl, rfl, hDone⟩
  · obtain ⟨move, next, hStep, hSame, hLess⟩ := h.exists_progress hDone
    obtain ⟨moves, m', hRun, hPoints, hAll⟩ :=
      (h.step (step_of_step? hStep)).exists_completion
    refine ⟨move :: moves, m', ?_, hPoints.trans hSame, hAll⟩
    rw [run, hStep, Option.bind_some, hRun]
termination_by (m.movesLeft, m.bytesLeft)
decreasing_by
  rcases hLess with hFewer | ⟨hSame, hFewer⟩
  · exact .left _ _ hFewer
  · rw [hSame]
    exact .right _ hFewer

/-! ## Results -/

/-- A batch has a block exactly if its values are finite numbers. -/
theorem exists_isBlock_iff {points : List MetricPoint} :
    (∃ bytes, IsBlock points bytes) ↔ ∀ p ∈ points, p.value.IsNumber := by
  constructor
  · rintro ⟨bytes, hBlock⟩
    obtain ⟨text, hText, -⟩ := isBlock_iff.mp hBlock
    rcases isNumber_or_first points with hAll | ⟨before, p, after, rfl, hBefore, hOther⟩
    · exact hAll
    · rw [block_of_first hBefore hOther] at hText
      cases hText
  · intro hAll
    obtain ⟨text, hText⟩ := exists_block hAll
    exact ⟨_, isBlock_iff.mpr ⟨text, hText, rfl⟩⟩

/-- The calls that a move puts at the end of the lock order. -/
def Move.locks : Move → List Nat
  | .lock i => [i]
  | _ => []

theorem lockOrder_of_step {m m' : Shared} {move : Move} (h : Step w m move m') :
    m'.lockOrder = m.lockOrder ++ move.locks := by
  cases h with
  | lock hFree _ => simp [lockOrder, Move.locks, hFree]
  | take hHolder _ => simp [lockOrder, Move.locks, hHolder]
  | settle hHolder _ => simp [lockOrder, Move.locks, Shared.settle, hHolder]
  | _ => exact (List.append_nil _).symm

/-- What is written, whatever the writer does and however the calls are interleaved. -/
structure WrittenWhole (w : Writer) (m : Shared) : Prop where
  /-- The bytes written are one piece after another, in the order in which the calls took the lock;
  each piece is a first part of the block of its batch, and the whole block where the call has ended
  well.  A call that took the lock and has not ended well has ended with the error of the writer. -/
  pieces : ∃ pieces : List Bytes, m.stream.written = pieces.flatten ∧
    List.Forall₂ (Piece w m) m.lockOrder pieces
  /-- A call comes last in this order when it takes the lock, and stays where it is then. -/
  order : ∀ move m', m.step? w move = some m' → m'.lockOrder = m.lockOrder ++ move.locks
  /-- No call has two pieces. -/
  once : m.lockOrder.Nodup
  /-- A batch with another value than a finite number has no piece, and its call can only end with
  the error of its first such point. -/
  refused : ∀ i c, m.calls[i]? = some c → (∃ p ∈ c.points, ¬p.value.IsNumber) →
    i ∉ m.lockOrder ∧ ∀ result, c.phase = .ended result → ∃ before p after,
      c.points = before ++ p :: after ∧ (∀ q ∈ before, q.value.IsNumber) ∧ ¬p.value.IsNumber ∧
        result = .error (.invalidValue p.name p.value.display)
  /-- Where the writer takes something of every write and does not fail, and all calls have ended,
  the bytes written are the blocks of exactly the batches of finite numbers, all of them whole. -/
  whole : w.Accepts → (∀ c ∈ m.calls, ∃ result, c.phase = .ended result) →
    (∀ i c, m.calls[i]? = some c → (i ∈ m.lockOrder ↔ ∀ p ∈ c.points, p.value.IsNumber)) ∧
      ∃ blocks : List Bytes, m.stream.written = blocks.flatten ∧
        List.Forall₂ (fun i block => ∃ c, m.calls[i]? = some c ∧ c.phase = .ended (.ok ()) ∧
          IsBlock c.points block) m.lockOrder blocks
  /-- Where the writer fails next, the call that has the lock ends with the error, and nothing more
  is written. -/
  failing : ∀ h cause, m.holder = some h → w.Fails m.stream cause h.rest →
    ∃ m', m.step? w .proceed = some m' ∧ m'.stream.written = m.stream.written ∧
      ∃ c, m'.calls[h.call]? = some c ∧ c.phase = .ended (.error (.write cause))
  /-- What is written stays. -/
  untouched : ∀ move m', m.step? w move = some m' → m.stream.written <+: m'.stream.written
  /-- While the lock is free, all is as if the calls that had it had been made one after another. -/
  serial : m.holder = none → InTurn w m.calls m.settled m.stream
  /-- The calls that were made can all be brought to their ends. -/
  completes : ∃ moves m', m.run w moves = some m' ∧
    m'.calls.map Call.points = m.calls.map Call.points ∧
      ∀ c ∈ m'.calls, ∃ result, c.phase = .ended result

theorem Piece.isNumber {m : Shared} {i : Nat} {piece : Bytes} (h : Piece w m i piece) {c : Call}
    (hCall : m.calls[i]? = some c) : ∀ p ∈ c.points, p.value.IsNumber := by
  obtain ⟨d, bytes, hSame, hBlock, -⟩ := h
  rw [hCall] at hSame
  cases hSame
  exact exists_isBlock_iff.mp ⟨bytes, hBlock⟩

/-- Every call that took the lock has a piece. -/
theorem exists_piece {m : Shared} {order : List Nat} {pieces : List Bytes}
    (h : List.Forall₂ (Piece w m) order pieces) {i : Nat} (hMem : i ∈ order) :
    ∃ piece, Piece w m i piece := by
  induction h with
  | nil => cases hMem
  | cons hPiece _ ih =>
    rcases List.mem_cons.mp hMem with rfl | hRest
    · exact ⟨_, hPiece⟩
    · exact ih hRest

/-- A piece of a call that has ended, with a writer that does not fail. -/
theorem Piece.isBlock (hAccepts : w.Accepts) {m : Shared}
    (hEnded : ∀ c ∈ m.calls, ∃ result, c.phase = .ended result) {i : Nat} {piece : Bytes}
    (h : Piece w m i piece) :
    ∃ c, m.calls[i]? = some c ∧ c.phase = .ended (.ok ()) ∧ IsBlock c.points piece := by
  obtain ⟨c, bytes, hCall, hBlock, ⟨hWriting, -⟩ | ⟨result, hPhase, hEnding⟩⟩ := h
  · obtain ⟨result, hPhase⟩ := hEnded c (List.mem_of_getElem? hCall)
    rw [hPhase] at hWriting
    cases hWriting
  · cases hEnding with
    | whole hWhole => exact ⟨c, hCall, hPhase, hWhole ▸ hBlock⟩
    | failed _ hFails => exact absurd hFails (hAccepts.not_fails _ _ _)

theorem untouched_of_step {m m' : Shared} {move : Move} (h : Step w m move m') :
    m.stream.written <+: m'.stream.written := by
  cases h with
  | @take holder stream rest hHolder hOffer =>
    have hOperation := operation_offer w m.stream holder.rest
    rw [hOffer] at hOperation
    obtain @⟨_, more, _, -, -, hMore⟩ := hOperation
    exact ⟨more, hMore.symm⟩
  | @settle holder stream result hHolder hOffer =>
    have hOperation := operation_offer w m.stream holder.rest
    rw [hOffer] at hOperation
    have hSame : stream.written = m.stream.written := by
      cases hOperation with
      | flushed _ hSame => exact hSame
      | failed _ hSame => exact hSame
    exact ⟨[], (List.append_nil _).trans hSame.symm⟩
  | _ => exact List.prefix_refl _

theorem offer_of_fails {s : Stream} {cause : String} {bytes : Bytes} (h : w.Fails s cause bytes) :
    ∃ s', offer w s bytes = (s', .ended (.error (.write cause))) ∧ s'.written = s.written := by
  cases bytes with
  | nil =>
    rw [Writer.Fails] at h
    exact ⟨{ s with flushes := s.flushes + 1 }, by rw [offer, h], rfl⟩
  | cons b rest =>
    refine ⟨{ s with writes := s.writes + 1 }, ?_, rfl⟩
    rcases h with hWrite | ⟨hWrite, rfl⟩
    · rw [offer, hWrite]
    · rw [offer, hWrite]

/-- **The batches are written whole**, in every state of an exporter in use: whatever the order of
the calls and of their moves, and whatever the writer does. -/
theorem batches_written_whole {m : Shared} (h : Reachable w m) : WrittenWhole w m := by
  have hOrderly := orderly_of_reachable h
  obtain ⟨pieces, hWritten, hPieces⟩ := hOrderly.pieces
  have hNumbers {i : Nat} {c : Call} (hCall : m.calls[i]? = some c) (hMem : i ∈ m.lockOrder) :
      ∀ p ∈ c.points, p.value.IsNumber := by
    obtain ⟨piece, hPiece⟩ := exists_piece hPieces hMem
    exact hPiece.isNumber hCall
  constructor
  case pieces => exact ⟨pieces, hWritten, hPieces⟩
  case order => exact fun move m' hStep => lockOrder_of_step (step_of_step? hStep)
  case once => exact hOrderly.once
  case refused =>
    rintro i c hCall ⟨p, hMem, hOther⟩
    have hNotMem : i ∉ m.lockOrder := fun hLocked => hOther (hNumbers hCall hLocked p hMem)
    refine ⟨hNotMem, fun result hPhase => ?_⟩
    obtain ⟨e, hBlock, rfl⟩ := hOrderly.block_of_ended hCall hNotMem hPhase
    rcases isNumber_or_first c.points with hAll | ⟨before, q, after, hSplit, hBefore, hFirst⟩
    · exact absurd (hAll p hMem) hOther
    · rw [hSplit, block_of_first hBefore hFirst] at hBlock
      cases hBlock
      exact ⟨before, q, after, hSplit, hBefore, hFirst, rfl⟩
  case whole =>
    intro hAccepts hEnded
    refine ⟨fun i c hCall => ⟨hNumbers hCall, fun hAll => ?_⟩, pieces, hWritten,
      hPieces.imp fun _ _ hPiece => hPiece.isBlock hAccepts hEnded⟩
    -- A call that has ended without the lock was refused, which no batch of numbers is.
    by_contra hNotMem
    obtain ⟨result, hPhase⟩ := hEnded c (List.mem_of_getElem? hCall)
    obtain ⟨e, hBlock, -⟩ := hOrderly.block_of_ended hCall hNotMem hPhase
    obtain ⟨text, hText⟩ := exists_block hAll
    rw [hBlock] at hText
    cases hText
  case failing =>
    intro holder cause hHolder hFails
    obtain ⟨stream, hOffer, hSame⟩ := offer_of_fails hFails
    obtain ⟨s, points, bytes, taken, -, hCall, -⟩ := hOrderly.held holder hHolder
    refine ⟨m.settle holder.call stream (.error (.write cause)), ?_, hSame, _,
      setPhase_call hCall _, rfl⟩
    simp only [step?, hHolder, hOffer]
  case untouched => exact fun move m' hStep => untouched_of_step (step_of_step? hStep)
  case serial => exact hOrderly.free
  case completes => exact hOrderly.exists_completion

theorem reachable_of_run {m m' : Shared} {moves : List Move} (h : Reachable w m)
    (hRun : m.run w moves = some m') : Reachable w m' := by
  induction moves generalizing m with
  | nil =>
    cases hRun
    exact h
  | cons move rest ih =>
    rw [run] at hRun
    obtain ⟨next, hStep, hRest⟩ := Option.bind_eq_some_iff.mp hRun
    exact ih (h.step move hStep) hRest

/-- A writer that takes three bytes at a time, and three calls: the last one takes the lock first,
the second one is refused in the middle of it, and a write is interrupted. -/
theorem batches_written_whole_three_calls :
    let w : Writer := ⟨fun _ offered => .accepted (min 3 offered), fun _ => none⟩
    let moves := ([.call [⟨"a", 7, .int 1⟩], .call [⟨"b", 7, .float Double.nan⟩],
      .call [⟨"c", 8, .int (-1)⟩], .render 2, .lock 2, .proceed, .render 0, .interrupt,
      .render 1] : List Move) ++ List.replicate 5 Move.proceed ++ [Move.lock 0] ++
        List.replicate 6 Move.proceed
    ∃ m, run w {} moves = some m ∧ m.lockOrder = [2, 0] ∧
      m.stream.written = Text.encode "c\t-1.000000\t8\na\t1.000000\t7\n" ∧ WrittenWhole w m := by
  intro w moves
  have hEvaluated : (run w {} moves).map (fun m => (m.lockOrder, m.stream.written)) =
      some ([2, 0], Text.encode "c\t-1.000000\t8\na\t1.000000\t7\n") := by decide +kernel
  obtain ⟨m, hRun, hSeen⟩ := Option.map_eq_some_iff.mp hEvaluated
  obtain ⟨hOrder, hWritten⟩ := Prod.mk.inj hSeen
  exact ⟨m, hRun, hOrder, hWritten, batches_written_whole (reachable_of_run .initial hRun)⟩

end Shared

end SqlMetrics.Stdout
