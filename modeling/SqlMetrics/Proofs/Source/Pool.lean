import Mathlib
import SqlMetrics.Source.Sqlite.Pool

/-!
# Connections are kept apart and kept

Looking for an idle connection and opening one are two steps of a query's work, between which the
work of others goes on.  Still no connection is lost or shared, and no more are opened than were
needed at one time.

- **Turns**: `Turn` is the pool as a relation, with one constructor for each way a step can go, and
  `Turn.of_step` states that every step is one of them.
- **Invariant**: `Sound` holds of every state that a pool comes to (`sound_of_reachable`).
- **Demand**: `exists_demand` says that every connection was needed when the most work went on.
- **Places**: `Sound.places_eq` says that every open connection is in one place.
-/

namespace SqlMetrics.Sqlite.Pool

/-! ## Turns -/

/-- The pool as a relation: what a step does, by the work that it is about and the work before and
behind it. -/
inductive Turn (p : Pool) : Step → Pool → Prop
  | call :
    Turn p .call { p with
      workers := p.workers ++ [⟨p.called, .waiting, true⟩]
      called := p.called + 1
      mostWorkers := max p.mostWorkers (p.workers.length + 1) }
  /-- The work of a query takes the connection that was put back last. -/
  | take {before after : List Worker} {w : Worker} {rest : List Connection} {c : Connection}
      (hWorkers : p.workers = before ++ w :: after) (hPhase : w.phase = .waiting)
      (hIdle : p.idle = rest ++ [c]) :
    Turn p (.checkOut w.call) { p with
      idle := rest
      workers := before ++ { w with phase := .querying c } :: after }
  /-- The work of a query finds no connection. -/
  | miss {before after : List Worker} {w : Worker} (hWorkers : p.workers = before ++ w :: after)
      (hPhase : w.phase = .waiting) (hIdle : p.idle = []) :
    Turn p (.checkOut w.call) { p with
      workers := before ++ { w with phase := .connecting } :: after }
  | connect {before after : List Worker} {w : Worker}
      (hWorkers : p.workers = before ++ w :: after) (hPhase : w.phase = .connecting) :
    Turn p (.connect w.call) { p with
      workers := before ++ { w with phase := .querying p.opened } :: after
      opened := p.opened + 1 }
  | failToConnect {before after : List Worker} {w : Worker}
      (hWorkers : p.workers = before ++ w :: after) (hPhase : w.phase = .connecting) :
    Turn p (.failToConnect w.call) { p with workers := before ++ after }
  | finish {before after : List Worker} {w : Worker} {c : Connection}
      (hWorkers : p.workers = before ++ w :: after) (hPhase : w.phase = .querying c) :
    Turn p (.finish w.call) { p with
      workers := before ++ { w with phase := .finished c } :: after }
  | checkIn {before after : List Worker} {w : Worker} {c : Connection}
      (hWorkers : p.workers = before ++ w :: after) (hPhase : w.phase = .finished c) :
    Turn p (.checkIn w.call) { p with idle := p.idle ++ [c], workers := before ++ after }
  | abandon {before after : List Worker} {w : Worker} (hWorkers : p.workers = before ++ w :: after) :
    Turn p (.abandon w.call) { p with
      workers := before ++ { w with awaited := false } :: after }

variable {p q : Pool} {call : Nat}

/-- The work of a query stands between the work of others. -/
theorem exists_split (hCalls : (p.workers.map Worker.call).Nodup) {w : Worker}
    (h : p.worker? call = some w) : ∃ before after, p.workers = before ++ w :: after ∧
      w.call = call ∧ ∀ v ∈ before ++ after, v.call ≠ call := by
  obtain ⟨before, after, hWorkers⟩ := List.append_of_mem (List.mem_of_find?_eq_some h)
  have hCall : w.call = call := by simpa using List.find?_some h
  refine ⟨before, after, hWorkers, hCall, fun v hMem hSame => ?_⟩
  rw [hWorkers, List.map_append, List.map_cons] at hCalls
  have hOther := (List.nodup_middle.mp hCalls).notMem
  rw [← List.map_append] at hOther
  exact hOther (List.mem_map.mpr ⟨v, hMem, hSame.trans hCall.symm⟩)

/-- What is done to the work of one query is done between the work of others. -/
theorem map_of_split {before after : List Worker} {w : Worker} (f : Worker → Worker)
    (hCall : w.call = call) (hOthers : ∀ v ∈ before ++ after, v.call ≠ call) :
    (before ++ w :: after).map (fun v => if v.call == call then f v else v) =
      before ++ f w :: after := by
  have hKept {l : List Worker} (h : ∀ v ∈ l, v.call ≠ call) :
      l.map (fun v => if v.call == call then f v else v) = l :=
    (List.map_congr_left (g := id) fun v hMem => by simp [h v hMem]).trans (List.map_id l)
  obtain ⟨hBefore, hAfter⟩ := List.forall_mem_append.mp hOthers
  rw [List.map_append, List.map_cons, hKept hBefore, hKept hAfter]
  simp [hCall]

theorem filter_of_split {before after : List Worker} {w : Worker} (hCall : w.call = call)
    (hOthers : ∀ v ∈ before ++ after, v.call ≠ call) :
    (before ++ w :: after).filter (fun v => v.call != call) = before ++ after := by
  have hKept {l : List Worker} (h : ∀ v ∈ l, v.call ≠ call) :
      l.filter (fun v => v.call != call) = l :=
    List.filter_eq_self.mpr fun v hMem => by simp [h v hMem]
  obtain ⟨hBefore, hAfter⟩ := List.forall_mem_append.mp hOthers
  simp [hKept hBefore, hKept hAfter, hCall]

/-- The work of a query in a phase, between the work of others, and what becomes of the work when it
gets on and when it ends. -/
theorem exists_phase (hCalls : (p.workers.map Worker.call).Nodup) {phase : Phase}
    (h : p.phase? call = some phase) : ∃ before after w, p.workers = before ++ w :: after ∧
      w.call = call ∧ w.phase = phase ∧
      (∀ next, p.setPhase call next =
        { p with workers := before ++ { w with phase := next } :: after }) ∧
      p.endWork call = { p with workers := before ++ after } := by
  obtain ⟨w, hWorker, hPhase⟩ := Option.map_eq_some_iff.mp h
  obtain ⟨before, after, hWorkers, hCall, hOthers⟩ := exists_split hCalls hWorker
  refine ⟨before, after, w, hWorkers, hCall, hPhase, fun next => ?_, ?_⟩
  · rw [setPhase, hWorkers, map_of_split (fun v => { v with phase := next }) hCall hOthers]
  · rw [endWork, hWorkers, filter_of_split hCall hOthers]

/-- **Every step is one of the turns.** -/
theorem Turn.of_step (hCalls : (p.workers.map Worker.call).Nodup) {s : Step}
    (h : p.step s = some q) : Turn p s q := by
  cases s with
  | call =>
    cases h
    simpa using Turn.call (p := p)
  | checkOut call =>
    simp only [step, beq_iff_eq, Option.ite_none_right_eq_some] at h
    obtain ⟨hWaits, h⟩ := h
    obtain ⟨before, after, w, hWorkers, rfl, hPhase, hNext, -⟩ := exists_phase hCalls hWaits
    split at h
    · rename_i c hLast
      cases h
      rw [hNext]
      exact .take hWorkers hPhase (List.dropLast_append_getLast? c hLast).symm
    · rename_i hLast
      cases h
      rw [hNext]
      exact .miss hWorkers hPhase (List.getLast?_eq_none_iff.mp hLast)
  | connect call =>
    simp only [step, beq_iff_eq, Option.ite_none_right_eq_some] at h
    obtain ⟨hConnects, h⟩ := h
    obtain ⟨before, after, w, hWorkers, rfl, hPhase, hNext, -⟩ := exists_phase hCalls hConnects
    cases h
    rw [hNext]
    exact .connect hWorkers hPhase
  | failToConnect call =>
    simp only [step, beq_iff_eq, Option.ite_none_right_eq_some] at h
    obtain ⟨hConnects, h⟩ := h
    obtain ⟨before, after, w, hWorkers, rfl, hPhase, -, hEnd⟩ := exists_phase hCalls hConnects
    cases h
    rw [hEnd]
    exact .failToConnect hWorkers hPhase
  | finish call =>
    simp only [step] at h
    split at h
    · rename_i c hQueries
      obtain ⟨before, after, w, hWorkers, rfl, hPhase, hNext, -⟩ := exists_phase hCalls hQueries
      cases h
      rw [hNext]
      exact .finish hWorkers hPhase
    · cases h
  | checkIn call =>
    simp only [step] at h
    split at h
    · rename_i c hFinished
      obtain ⟨before, after, w, hWorkers, rfl, hPhase, -, hEnd⟩ := exists_phase hCalls hFinished
      cases h
      rw [hEnd]
      exact .checkIn hWorkers hPhase
    · cases h
  | abandon call =>
    simp only [step, Option.ite_none_right_eq_some] at h
    obtain ⟨hSome, h⟩ := h
    obtain ⟨w, hWorker⟩ := Option.isSome_iff_exists.mp hSome
    obtain ⟨before, after, hWorkers, rfl, hOthers⟩ := exists_split hCalls hWorker
    cases h
    rw [hWorkers, map_of_split (fun v => { v with awaited := false }) rfl hOthers]
    exact .abandon hWorkers

/-! ## The invariant -/

/-- How much work has found no connection and opens one. -/
def connecting (p : Pool) : Nat :=
  p.workers.countP fun w => w.phase == .connecting

/-- What holds of a pool in every state:
1. the open connections are those that were opened, each of them once;
2. the one that tried the database is among them;
3. work is told apart by its query;
4. with those that are being opened, there are no more connections than one or the most work that
   went on at a time;
5. the work that goes on counts for the most. -/
structure Sound (p : Pool) : Prop where
  connections : p.connections.Perm (List.range p.opened)
  opened : 1 ≤ p.opened
  calls : (p.workers.map Worker.call).Nodup
  called : ∀ w ∈ p.workers, w.call < p.called
  needed : p.opened + p.connecting ≤ max 1 p.mostWorkers
  most : p.workers.length ≤ p.mostWorkers

theorem sound_initial : Sound Pool.initial := by
  refine ⟨?_, le_rfl, List.nodup_nil, nofun, ?_, le_rfl⟩
  · exact List.Perm.refl _
  · simp [initial, connecting]

/-- Work has a connection, or is about to open one, or neither. -/
theorem length_held_add_connecting_le (workers : List Worker) :
    (workers.filterMap fun w => w.phase.connection?).length +
      workers.countP (fun w => w.phase == .connecting) ≤ workers.length := by
  induction workers with
  | nil => simp
  | cons w rest ih =>
    cases hPhase : w.phase <;> simp [hPhase, Phase.connection?] at ih ⊢ <;> omega

namespace Sound

variable {before after : List Worker} {w : Worker}

theorem length_connections (h : Sound p) : p.connections.length = p.opened := by
  simpa using h.connections.length_eq

/-- Work that gets on. -/
theorem getOn (h : Sound p) (hWorkers : p.workers = before ++ w :: after) (next : Worker)
    (hCall : next.call = w.call) {idle : List Connection} {opened : Nat}
    (hConnections : (idle ++ (before ++ next :: after).filterMap fun v =>
      v.phase.connection?).Perm (List.range opened))
    (hOpened : p.opened ≤ opened)
    (hNeeded : opened + (before ++ next :: after).countP (fun v => v.phase == .connecting) ≤
      max 1 p.mostWorkers) :
    Sound { p with idle, workers := before ++ next :: after, opened } := by
  obtain ⟨-, hSome, hCalls, hCalled, -, hMost⟩ := h
  rw [hWorkers] at hCalls hCalled hMost
  refine ⟨hConnections, hSome.trans hOpened, ?_, ?_, hNeeded, by simpa using hMost⟩
  · simpa [hCall] using hCalls
  · simpa [or_imp, forall_and, hCall] using hCalled

/-- Work that ends. -/
theorem getDone (h : Sound p) (hWorkers : p.workers = before ++ w :: after)
    {idle : List Connection}
    (hConnections : (idle ++ (before ++ after).filterMap fun v => v.phase.connection?).Perm
      (List.range p.opened)) :
    Sound { p with idle, workers := before ++ after } := by
  obtain ⟨-, hSome, hCalls, hCalled, hNeeded, hMost⟩ := h
  rw [connecting, hWorkers, List.countP_append, List.countP_cons] at hNeeded
  rw [hWorkers] at hCalls hCalled hMost
  refine ⟨hConnections, hSome, ?_, ?_, ?_, ?_⟩
  · rw [List.map_append, List.map_cons] at hCalls
    rw [List.map_append]
    exact (List.nodup_middle.mp hCalls).of_cons
  · exact fun v hMem => hCalled v (List.mem_append.mpr
      ((List.mem_append.mp hMem).imp_right (List.mem_cons_of_mem w)))
  · rw [connecting, List.countP_append]
    dsimp only
    omega
  · rw [List.length_append, List.length_cons] at hMost
    dsimp only
    rw [List.length_append]
    omega

/-- **Every step keeps the invariant.** -/
theorem step {s : Step} (h : Sound p) (hStep : p.step s = some q) : Sound q := by
  have hConnections := h.connections
  have hNeeded := h.needed
  rw [Pool.connections, held] at hConnections
  rw [connecting] at hNeeded
  cases Turn.of_step h.calls hStep with
  | call =>
    obtain ⟨-, hSome, hCalls, hCalled, -, hMost⟩ := h
    refine ⟨?_, hSome, ?_, ?_, ?_, ?_⟩
    · simpa [Pool.connections, held, Phase.connection?] using hConnections
    · -- Calls are numbered as they come, so no work that goes on has the number.
      rw [List.map_append]
      refine List.nodup_append.mpr ⟨hCalls, List.nodup_singleton _, ?_⟩
      rintro _ hOld _ hNew rfl
      obtain ⟨w, hMem, hCall⟩ := List.mem_map.mp hOld
      have hNext := hCalled w hMem
      rw [List.map_singleton, List.mem_singleton] at hNew
      dsimp only at hNew
      omega
    · intro w hMem
      rcases List.mem_append.mp hMem with hOld | hNew
      · exact Nat.lt_succ_of_lt (hCalled w hOld)
      · rw [List.mem_singleton.mp hNew]
        exact Nat.lt_succ_self _
    · simp only [connecting, List.countP_append, List.countP_singleton]
      simp only [reduceCtorEq, beq_iff_eq, if_false]
      omega
    · simp
  | @take before after w rest c hWorkers hPhase hIdle =>
    -- The connection goes from the idle ones to the work, so there are the same ones.
    refine h.getOn hWorkers { w with phase := .querying c } rfl ?_ le_rfl ?_
    · refine List.Perm.trans ?_ hConnections
      simp only [hWorkers, hIdle, List.filterMap_append, List.filterMap_cons, hPhase,
        Phase.connection?, List.append_assoc, List.singleton_append]
      exact List.perm_middle.append_left rest
    · simpa [hWorkers, hPhase] using hNeeded
  | @miss before after w hWorkers hPhase hIdle =>
    refine h.getOn hWorkers { w with phase := .connecting } rfl ?_ le_rfl ?_
    · simpa [hWorkers, hPhase, Phase.connection?] using hConnections
    · -- All connections are in use, and by others than the one that looks for one.
      have hBusy : p.opened = (before.filterMap fun v => v.phase.connection?).length +
          (after.filterMap fun v => v.phase.connection?).length := by
        rw [← h.length_connections]
        simp [Pool.connections, held, hWorkers, hPhase, hIdle, Phase.connection?]
      have hBefore := length_held_add_connecting_le before
      have hAfter := length_held_add_connecting_le after
      have hMost := h.most
      rw [hWorkers, List.length_append, List.length_cons] at hMost
      rw [List.countP_append, List.countP_cons]
      simp only [beq_self_eq_true, if_true]
      omega
  | @connect before after w hWorkers hPhase =>
    -- The new connection has the next number, and counted before as one that is being opened.
    refine h.getOn hWorkers { w with phase := .querying p.opened } rfl ?_ (Nat.le_succ _) ?_
    · rw [List.range_succ]
      refine List.Perm.trans ?_ (hConnections.append_right _)
      simp only [hWorkers, List.filterMap_append, List.filterMap_cons, hPhase, Phase.connection?,
        List.append_assoc]
      exact ((List.perm_append_singleton _ _).symm.append_left _).append_left _
    · simp only [hWorkers, List.countP_append, List.countP_cons, hPhase] at hNeeded ⊢
      simp only [beq_self_eq_true, if_true, reduceCtorEq, beq_iff_eq, if_false] at hNeeded ⊢
      omega
  | @failToConnect before after w hWorkers hPhase =>
    refine h.getDone hWorkers ?_
    simpa [hWorkers, hPhase, Phase.connection?] using hConnections
  | @finish before after w c hWorkers hPhase =>
    refine h.getOn hWorkers { w with phase := .finished c } rfl ?_ le_rfl ?_
    · simpa [hWorkers, hPhase, Phase.connection?] using hConnections
    · simpa [hWorkers, hPhase] using hNeeded
  | @checkIn before after w c hWorkers hPhase =>
    refine h.getDone hWorkers (List.Perm.trans ?_ hConnections)
    simp only [hWorkers, List.filterMap_append, List.filterMap_cons, hPhase, Phase.connection?,
      List.append_assoc, List.singleton_append]
    exact List.perm_middle.symm.append_left _
  | @abandon before after w hWorkers =>
    refine h.getOn hWorkers { w with awaited := false } rfl ?_ le_rfl ?_
    · simpa [hWorkers, List.filterMap_cons] using hConnections
    · simpa [hWorkers, List.countP_cons] using hNeeded

/-- A step that is no call neither counts as one nor makes work. -/
theorem frame_step {s : Step} (h : Sound p) (hStep : p.step s = some q) (hQuiet : s ≠ .call) :
    q.called = p.called ∧ q.mostWorkers = p.mostWorkers ∧
      q.workers.map Worker.call ⊆ p.workers.map Worker.call := by
  cases Turn.of_step h.calls hStep with
  | call => exact absurd rfl hQuiet
  | take hWorkers | miss hWorkers | connect hWorkers | failToConnect hWorkers | finish hWorkers
  | checkIn hWorkers | abandon hWorkers => simp [hWorkers]

/-- Where no connection can be opened, the connections stay as they are. -/
theorem failToConnect_step (h : Sound p) (hStep : p.step (.failToConnect call) = some q) :
    q.idle = p.idle ∧ q.held = p.held ∧ q.opened = p.opened := by
  generalize hFails : Step.failToConnect call = s at hStep
  cases Turn.of_step h.calls hStep with
  | failToConnect hWorkers hPhase =>
    exact ⟨rfl, by simp [held, hWorkers, hPhase, Phase.connection?], rfl⟩
  | call | take | miss | connect | finish | checkIn | abandon => cases hFails

end Sound

/-! ## Runs -/

theorem run_cons_eq_some_iff {s : Step} {rest : List Step} :
    p.run (s :: rest) = some q ↔ ∃ p₁, p.step s = some p₁ ∧ p₁.run rest = some q := by
  simp only [run, Option.bind_eq_some_iff]

theorem run_singleton (s : Step) : p.run [s] = p.step s := by
  simp [run]

theorem run_append (before after : List Step) :
    p.run (before ++ after) = (p.run before).bind fun p₁ => p₁.run after := by
  induction before generalizing p with
  | nil => rfl
  | cons s rest ih =>
    cases hStep : p.step s with
    | none => simp [run, hStep]
    | some p₁ => simp [run, hStep, ih]

/-- A run leads from states that a pool comes to to others. -/
theorem Reachable.run {steps : List Step} (h : Reachable p) (hRun : p.run steps = some q) :
    Reachable q := by
  induction steps generalizing p with
  | nil =>
    cases hRun
    exact h
  | cons s rest ih =>
    obtain ⟨p₁, hStep, hRest⟩ := run_cons_eq_some_iff.mp hRun
    exact ih (h.step p p₁ s hStep) hRest

/-- The invariant holds of every state that a pool comes to. -/
theorem sound_of_reachable (h : Reachable p) : Sound p := by
  induction h with
  | initial => exact sound_initial
  | step p q s _ hStep ih => exact ih.step hStep

theorem sound_of_run {steps : List Step} (hRun : Pool.initial.run steps = some p) : Sound p :=
  sound_of_reachable (Reachable.initial.run hRun)

/-- Whether a step opens a connection. -/
def Step.opens : Step → Bool
  | .connect _ => true
  | _ => false

/-- A connection more is open after a step that opens one, and no other step opens or closes any. -/
theorem Sound.opened_step {s : Step} (h : Sound p) (hStep : p.step s = some q) :
    q.opened = p.opened + s.opens.toNat := by
  cases Turn.of_step h.calls hStep <;> rfl

theorem opened_run {steps : List Step} (h : Sound p) (hRun : p.run steps = some q) :
    q.opened = p.opened + steps.countP Step.opens := by
  induction steps generalizing p with
  | nil =>
    cases hRun
    rfl
  | cons s rest ih =>
    obtain ⟨p₁, hStep, hRest⟩ := run_cons_eq_some_iff.mp hRun
    have hFirst : (s :: rest).countP Step.opens = s.opens.toNat + rest.countP Step.opens := by
      rw [List.countP_cons, Nat.add_comm]
      cases s.opens <;> rfl
    rw [ih (h.step hStep) hRest, h.opened_step hStep, hFirst, Nat.add_assoc]

/-- The most work that went on at a time is what it was, or what goes on now. -/
theorem Sound.mostWorkers_step {s : Step} (h : Sound p) (hStep : p.step s = some q) :
    q.mostWorkers = p.mostWorkers ∨ q.mostWorkers = q.workers.length := by
  cases Turn.of_step h.calls hStep with
  | call =>
    rw [List.length_append, List.length_singleton]
    exact max_choice _ _
  | _ => exact .inl rfl

/-- On the way of a pool there is a state in which the most work went on. -/
theorem exists_busiest {steps : List Step} (h : Sound p) (hRun : p.run steps = some q) :
    q.mostWorkers = p.mostWorkers ∨
      ∃ before r, before <+: steps ∧ p.run before = some r ∧ q.mostWorkers = r.workers.length := by
  induction steps generalizing p with
  | nil =>
    cases hRun
    exact .inl rfl
  | cons s rest ih =>
    obtain ⟨p₁, hStep, hRest⟩ := run_cons_eq_some_iff.mp hRun
    rcases ih (h.step hStep) hRest with hSame | ⟨before, r, hPrefix, hBefore, hMost⟩
    · rcases h.mostWorkers_step hStep with hKept | hNow
      · exact .inl (hSame.trans hKept)
      · exact .inr ⟨[s], p₁, List.prefix_append [s] rest,
          run_cons_eq_some_iff.mpr ⟨p₁, hStep, rfl⟩, hSame.trans hNow⟩
    · exact .inr ⟨s :: before, r, (List.prefix_cons_inj s).mpr hPrefix,
        run_cons_eq_some_iff.mpr ⟨p₁, hStep, hBefore⟩, hMost⟩

/-- At no time are there more connections than one, or than there was work at some time before. -/
theorem exists_demand {steps : List Step} (hRun : Pool.initial.run steps = some p) :
    ∃ before r, before <+: steps ∧ Pool.initial.run before = some r ∧
      p.connections.length ≤ max 1 r.workers.length := by
  have h := sound_of_run hRun
  have hNeeded : p.connections.length ≤ max 1 p.mostWorkers := by
    rw [h.length_connections]
    exact (Nat.le_add_right _ _).trans h.needed
  rcases exists_busiest sound_initial hRun with hNone | ⟨before, r, hPrefix, hBefore, hMost⟩
  · exact ⟨[], Pool.initial, List.nil_prefix, rfl, by rwa [hNone] at hNeeded⟩
  · exact ⟨before, r, hPrefix, hBefore, by rwa [hMost] at hNeeded⟩

/-! ## Places -/

/-- In how many places a connection is: among the idle ones, and with the work of queries. -/
def places (p : Pool) (c : Connection) : Nat :=
  p.idle.count c + p.workers.countP fun w => w.phase.connection? == some c

theorem places_eq_count (p : Pool) (c : Connection) : p.places c = p.connections.count c := by
  rw [places, connections, held, List.count_append, List.count_filterMap]

/-- Every open connection is in one place, and no other is anywhere. -/
theorem Sound.places_eq (h : Sound p) (c : Connection) :
    p.places c = if c < p.opened then 1 else 0 := by
  rw [places_eq_count, h.connections.count_eq, List.count_range]

end SqlMetrics.Sqlite.Pool
