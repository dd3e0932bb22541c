import SqlMetrics.Proofs.Query.Progress

/-!
# An execution in its surroundings

An execution meets a clock, a token, a shell and a data source.  Here these are arbitrary: each is a
function of all that has happened before, so the token may fire at any moment, the shell may answer
differently each time, and an ending may come at once, later or never.

- **Surroundings**: `History` is what has happened, and `Surroundings` what happens next.
- **Performance**: `Query.perform` runs the machine of an execution in surroundings.
- **Ways to go on**: `Execution.GoesOn` says what can happen from where an execution stands.  What
  holds of every performance is proved from this.
- **Histories**: `Surroundings.Explains` says that everything in a history could happen when it did.
-/

namespace SqlMetrics

/-! ## Surroundings -/

/-- One thing that happens between an execution and its surroundings. -/
inductive Occurrence where
  | clockRead (now : Int64)
  /-- The execution looks at the token. -/
  | tokenSeen (fired : Bool)
  | commandRun (command : String)
  | commandEnded (command : String) (outcome : Shell.Outcome)
  | called (call : SourceCall)
  | replied (reply : Reply SourceAnswer)

/-- What has happened so far, in order. -/
abbrev History := List Occurrence

namespace History

/-- The commands that were run. -/
def commands (h : History) : List String :=
  h.filterMap fun
    | .commandRun command => some command
    | _ => none

/-- The commands that ended, with their outcomes. -/
def outcomes (h : History) : List (String × Shell.Outcome) :=
  h.filterMap fun
    | .commandEnded command outcome => some (command, outcome)
    | _ => none

/-- The calls of the data source that were made. -/
def calls (h : History) : List SourceCall :=
  h.filterMap fun
    | .called call => some call
    | _ => none

/-- What happened before the first call of the data source; everything, if there was none. -/
def beforeCall (h : History) : History :=
  h.takeWhile fun
    | .called _ => false
    | _ => true

/-- Nothing but looks at the token that have not found it fired. -/
def Unfired (h : History) : Prop :=
  ∀ o ∈ h, o = .tokenSeen false

@[simp]
theorem commands_append (h more : History) : commands (h ++ more) = h.commands ++ more.commands :=
  List.filterMap_append

@[simp]
theorem outcomes_append (h more : History) : outcomes (h ++ more) = h.outcomes ++ more.outcomes :=
  List.filterMap_append

@[simp]
theorem calls_append (h more : History) : calls (h ++ more) = h.calls ++ more.calls :=
  List.filterMap_append

variable {looks : History}

theorem Unfired.outcomes_eq_nil (h : looks.Unfired) : looks.outcomes = [] :=
  List.filterMap_eq_nil_iff.mpr fun o hMem => by rw [h o hMem]

theorem Unfired.calls_eq_nil (h : looks.Unfired) : looks.calls = [] :=
  List.filterMap_eq_nil_iff.mpr fun o hMem => by rw [h o hMem]

theorem Unfired.beforeCall_append (h : looks.Unfired) (more : History) :
    beforeCall (looks ++ more) = looks ++ more.beforeCall :=
  List.takeWhile_append_of_pos fun o hMem => by rw [h o hMem]

theorem Unfired.tokenSeen_not_mem (h : looks.Unfired) : Occurrence.tokenSeen true ∉ looks :=
  fun hMem => by cases h _ hMem

theorem Unfired.clockRead_not_mem (h : looks.Unfired) (now : Int64) :
    Occurrence.clockRead now ∉ looks :=
  fun hMem => by cases h _ hMem

end History

/-- How something that is waited for ends by itself. -/
inductive Ending (α : Type) where
  /-- It ends in the step that begins it. -/
  | atOnce (value : α)
  /-- It ends in a later step, for which the execution has to be resumed. -/
  | later (value : α)
  /-- It does not end. -/
  | never

/-- How something ends by itself: with which looks at the token on the way, and with which value. -/
inductive Ending.Gives {α : Type} : Ending α → History → α → Prop
  | atOnce {value : α} : Gives (.atOnce value) [] value
  | later {value : α} : Gives (.later value) [.tokenSeen false] value

theorem Ending.Gives.unfired {α : Type} {ending : Ending α} {looks : History} {value : α}
    (h : ending.Gives looks value) : looks.Unfired := by
  cases h with
  | atOnce => simp [History.Unfired]
  | later => simp [History.Unfired]

/-- The same ending with another value. -/
def Ending.map {α β : Type} (f : α → β) : Ending α → Ending β
  | .atOnce value => .atOnce (f value)
  | .later value => .later (f value)
  | .never => .never

/-- All that an execution depends on.  Each part is a function of what has happened before. -/
structure Surroundings where
  clock : History → Int64
  /-- Whether the token is found fired. -/
  token : History → Bool
  shell : History → String → Ending Shell.Outcome
  source : History → SourceCall → Ending (Reply SourceAnswer)

/-! ## Performance -/

/-- What has happened in an execution and what it has come to, if it has come to anything. -/
structure Performance where
  history : History
  result : Option Extraction

/-- The extraction of an execution that was cancelled. -/
def Extraction.cancelled : Extraction :=
  ⟨[], .error .cancelled⟩

/-- An execution that has found the token fired. -/
def Performance.cancelled (past : History) : Performance :=
  ⟨past ++ [.tokenSeen true], some .cancelled⟩

/-- Waits for an ending.  An execution that is resumed looks at the token before anything else, even
if what it waited for has ended as well. -/
def Surroundings.await {α : Type} (env : Surroundings) (past : History) (ending : Ending α)
    (go : History → α → Performance) : Performance :=
  match ending with
  | .atOnce value => go past value
  | .later value =>
    if env.token past then .cancelled past else go (past ++ [.tokenSeen false]) value
  | .never => if env.token past then .cancelled past else ⟨past, none⟩

namespace Execution

/-- A bound on the commands that an execution has still to run. -/
def commandsLeft : Execution → Nat
  | .evaluating _ _ _ rest => rest.length + 1
  | .querying _ _ | .finished _ => 0

theorem commandsLeft_ofProgress_le (now : Int64) (values params : List Param) :
    (ofProgress now (Param.Progress.advance values params)).commandsLeft ≤ params.length := by
  cases hAdvance : Param.Progress.advance values params with
  | finished values' => exact Nat.zero_le _
  | waiting values' command rest => exact Param.length_lt_of_advance hAdvance

theorem commandsLeft_resumeCommand_lt (now : Int64) (values : List Param) (command : String)
    (rest : List Param) (outcome : Shell.Outcome) :
    (resumeCommand now values command rest outcome).commandsLeft <
      (evaluating now values command rest).commandsLeft := by
  rw [resumeCommand]
  cases Param.ofOutcome command outcome with
  | error e => exact Nat.succ_pos _
  | ok value => exact Nat.lt_succ_of_le (commandsLeft_ofProgress_le ..)

end Execution

namespace Query

/-- What a reply of the data source leads to. -/
def ofReply (q : Query) (now : Int64) : Reply SourceAnswer → Option Extraction
  | .answered answer _ => some (Execution.resumeAnswer q now answer)
  | .interrupted => some .cancelled
  | .crashed _ _ => none

/-- Goes on with an execution until it has come to something or waits forever. -/
def performFrom (q : Query) (env : Surroundings) (past : History) : Execution → Performance
  | .finished x => ⟨past, some x⟩
  | .evaluating now values command rest =>
    env.await (past ++ [.commandRun command]) (env.shell past command) fun past outcome =>
      performFrom q env (past ++ [.commandEnded command outcome])
        (Execution.resumeCommand now values command rest outcome)
  | .querying now params =>
    -- The call is a wait of its own, so the token is looked at before it begins.
    if env.token past then .cancelled past
    else
      let call : SourceCall := ⟨q.sql, params⟩
      let past := past ++ [.tokenSeen false]
      env.await (past ++ [.called call]) (env.source past call) fun past reply =>
        ⟨past ++ [.replied reply], q.ofReply now reply⟩
termination_by e => e.commandsLeft
decreasing_by exact Execution.commandsLeft_resumeCommand_lt ..

/-- Executes a query in surroundings. -/
def perform (q : Query) (env : Surroundings) : Performance :=
  let now := env.clock []
  let past := [.clockRead now]
  let fired := env.token past
  q.performFrom env (past ++ [.tokenSeen fired]) (Execution.start q now fired)

end Query

/-- **What a wait leads to**: the token cuts it short, it never ends, or it ends with a value. -/
theorem Surroundings.await_cases {α : Type} (env : Surroundings) (past : History)
    (ending : Ending α) (go : History → α → Performance) :
    env.token past = true ∧ env.await past ending go = .cancelled past ∨
      ending = .never ∧ env.token past = false ∧ env.await past ending go = ⟨past, none⟩ ∨
      ∃ looks value, ending.Gives looks value ∧
        (looks = [] ∨ looks = [.tokenSeen (env.token past)]) ∧
        env.await past ending go = go (past ++ looks) value := by
  cases ending with
  | atOnce value =>
    refine .inr (.inr ⟨[], value, .atOnce, .inl rfl, ?_⟩)
    rw [List.append_nil, await]
  | later value =>
    rw [await]
    cases hFired : env.token past with
    | true => exact .inl ⟨rfl, rfl⟩
    | false => exact .inr (.inr ⟨_, value, .later, .inr rfl, rfl⟩)
  | never =>
    rw [await]
    cases hFired : env.token past with
    | true => exact .inl ⟨rfl, rfl⟩
    | false => exact .inr (.inl ⟨rfl, rfl, rfl⟩)

/-! ## Ways to go on -/

namespace Execution

/-- What can happen after a call of the data source has begun, and what it leads to. -/
inductive CallEnds (q : Query) (env : Surroundings) (now : Int64) (past : History)
    (call : SourceCall) : History → Option Extraction → Prop
  /-- The token cuts the wait short. -/
  | cancelled : env.token (past ++ [.called call]) = true →
      CallEnds q env now past call [.tokenSeen true] (some .cancelled)
  /-- The call never ends. -/
  | stuck : env.source past call = .never → env.token (past ++ [.called call]) = false →
      CallEnds q env now past call [] none
  /-- The call ends with a reply. -/
  | replied {looks : History} {reply : Reply SourceAnswer} :
      (env.source past call).Gives looks reply →
      (looks = [] ∨ looks = [.tokenSeen (env.token (past ++ [.called call]))]) →
      CallEnds q env now past call (looks ++ [.replied reply]) (q.ofReply now reply)

/-- What can happen in an execution that began at `now`, from where it stands after a history, and
what it leads to. -/
inductive GoesOn (q : Query) (env : Surroundings) (now : Int64) :
    History → Execution → History → Option Extraction → Prop
  | finished {past : History} {x : Extraction} : GoesOn q env now past (.finished x) [] (some x)
  /-- The token cuts the wait for a command short. -/
  | commandCancelled {past : History} {values : List Param} {command : String} {rest : List Param} :
      env.token (past ++ [.commandRun command]) = true →
      GoesOn q env now past (.evaluating now values command rest)
        [.commandRun command, .tokenSeen true] (some .cancelled)
  /-- A command never ends. -/
  | commandStuck {past : History} {values : List Param} {command : String} {rest : List Param} :
      env.shell past command = .never → env.token (past ++ [.commandRun command]) = false →
      GoesOn q env now past (.evaluating now values command rest) [.commandRun command] none
  /-- A command ends and the execution is resumed with its outcome. -/
  | commandEnded {past : History} {values : List Param} {command : String} {rest : List Param}
      {outcome : Shell.Outcome} {looks tail : History} {r : Option Extraction} :
      (env.shell past command).Gives looks outcome →
      (looks = [] ∨ looks = [.tokenSeen (env.token (past ++ [.commandRun command]))]) →
      GoesOn q env now (past ++ [.commandRun command] ++ looks ++ [.commandEnded command outcome])
        (resumeCommand now values command rest outcome) tail r →
      GoesOn q env now past (.evaluating now values command rest)
        (.commandRun command :: (looks ++ .commandEnded command outcome :: tail)) r
  /-- The token is found fired before the call. -/
  | queryCancelled {past : History} {params : List Param} : env.token past = true →
      GoesOn q env now past (.querying now params) [.tokenSeen true] (some .cancelled)
  /-- The call is made. -/
  | called {past : History} {params : List Param} {tail : History} {r : Option Extraction} :
      env.token past = false →
      CallEnds q env now (past ++ [.tokenSeen false]) ⟨q.sql, params⟩ tail r →
      GoesOn q env now past (.querying now params)
        (.tokenSeen false :: .called ⟨q.sql, params⟩ :: tail) r

/-- An execution that began at this reading of the clock, if it is still under way. -/
def BeganAt (now : Int64) : Execution → Prop
  | .evaluating now' _ _ _ | .querying now' _ => now' = now
  | .finished _ => True

theorem beganAt_ofProgress (now : Int64) (p : Param.Progress) : (ofProgress now p).BeganAt now := by
  cases p with
  | finished values => exact rfl
  | waiting values command rest => exact rfl

theorem beganAt_start (q : Query) (now : Int64) (cancelled : Bool) :
    (start q now cancelled).BeganAt now := by
  rw [start]
  split
  · trivial
  · exact beganAt_ofProgress now _

theorem beganAt_resumeCommand (now : Int64) (values : List Param) (command : String)
    (rest : List Param) (outcome : Shell.Outcome) :
    (resumeCommand now values command rest outcome).BeganAt now := by
  rw [resumeCommand]
  split
  · trivial
  · exact beganAt_ofProgress now _

end Execution

open Execution

/-- **Whatever the surroundings do, an execution goes on in one of the ways there are.** -/
theorem Query.goesOn_performFrom (q : Query) (env : Surroundings) (past : History) {now : Int64}
    {e : Execution} (hBegan : e.BeganAt now) :
    ∃ tail, (q.performFrom env past e).history = past ++ tail ∧
      GoesOn q env now past e tail (q.performFrom env past e).result := by
  fun_induction Query.performFrom q env past e with
  | case1 past x => exact ⟨[], (List.append_nil _).symm, .finished⟩
  | case2 past now' values command rest ih =>
    obtain rfl : now' = now := hBegan
    rcases env.await_cases (past ++ [.commandRun command]) (env.shell past command)
        fun past outcome => q.performFrom env (past ++ [.commandEnded command outcome])
          (resumeCommand now' values command rest outcome) with
      ⟨hFired, hCancelled⟩ | ⟨hNever, hUnfired, hStuck⟩ | ⟨looks, outcome, hGives, hLooks, hGo⟩
    · rw [hCancelled]
      exact ⟨[.commandRun command, .tokenSeen true], by simp [Performance.cancelled],
        .commandCancelled hFired⟩
    · rw [hStuck]
      exact ⟨[.commandRun command], rfl, .commandStuck hNever hUnfired⟩
    · rw [hGo]
      obtain ⟨tail, hHistory, hTail⟩ := ih (past ++ [.commandRun command] ++ looks) outcome
        (beganAt_resumeCommand ..)
      exact ⟨_, by rw [hHistory]; simp, .commandEnded hGives hLooks hTail⟩
  | case3 past now' params hFired =>
    obtain rfl : now' = now := hBegan
    exact ⟨[.tokenSeen true], rfl, .queryCancelled hFired⟩
  | case4 past now' params hFired call past' =>
    obtain rfl : now' = now := hBegan
    rw [Bool.not_eq_true] at hFired
    rcases env.await_cases (past' ++ [.called call]) (env.source past' call)
        fun past reply => ⟨past ++ [.replied reply], q.ofReply now' reply⟩ with
      ⟨hFired', hCancelled⟩ | ⟨hNever, hUnfired, hStuck⟩ | ⟨looks, reply, hGives, hLooks, hGo⟩
    · rw [hCancelled]
      exact ⟨_, by simp [Performance.cancelled, past', call], .called hFired (.cancelled hFired')⟩
    · rw [hStuck]
      exact ⟨_, by simp [past', call], .called hFired (.stuck hNever hUnfired)⟩
    · rw [hGo]
      exact ⟨_, by simp [past', call], .called hFired (.replied hGives hLooks)⟩

/-- A performance begins with a reading of the clock and a look at the token.  If this finds it
fired the performance is over, and otherwise it goes on with the parameters. -/
theorem Query.perform_cases (q : Query) (env : Surroundings) :
    env.token [.clockRead (env.clock [])] = true ∧
        q.perform env = .cancelled [.clockRead (env.clock [])] ∨
      env.token [.clockRead (env.clock [])] = false ∧
        ∃ tail : History, (q.perform env).history =
            .clockRead (env.clock []) :: .tokenSeen false :: tail ∧
          GoesOn q env (env.clock []) [.clockRead (env.clock []), .tokenSeen false]
            (start q (env.clock []) false) tail (q.perform env).result := by
  cases hFired : env.token [.clockRead (env.clock [])] with
  | true =>
    refine .inl ⟨rfl, ?_⟩
    rw [perform]
    simp only [hFired]
    change q.performFrom env _ (.finished _) = _
    rw [performFrom]
    rfl
  | false =>
    refine .inr ⟨rfl, ?_⟩
    rw [perform]
    simp only [hFired]
    exact q.goesOn_performFrom env [.clockRead (env.clock []), .tokenSeen false]
      (beganAt_start q (env.clock []) false)

/-! ## Histories -/

namespace History

/-- A history at whose end the token has just been found unfired. -/
def EndsUnfired (h : History) : Prop :=
  ∃ before, h = before ++ [.tokenSeen false]

/-- A history at whose end a command has just ended. -/
def EndsWithCommand (h : History) : Prop :=
  ∃ before command outcome, h = before ++ [.commandEnded command outcome]

end History

namespace Surroundings

/-- What can happen next.  The clock and the token show what they do by then.  Nothing begins that
the token could have prevented: a command begins after a look at the token or after the command
before it, and a call after a look.  What ends does so as it was bound to when it began. -/
def Allows (env : Surroundings) (past : History) : Occurrence → Prop
  | .clockRead now => now = env.clock past
  | .tokenSeen fired => fired = env.token past
  | .commandRun _ => past.EndsUnfired ∨ past.EndsWithCommand
  | .called _ => past.EndsUnfired
  | .commandEnded command outcome => ∃ before looks,
      past = before ++ .commandRun command :: looks ∧ (env.shell before command).Gives looks outcome
  | .replied reply => ∃ before call looks,
      past = before ++ .called call :: looks ∧ (env.source before call).Gives looks reply

/-- A history in which everything could happen next when it did. -/
def Explains (env : Surroundings) (h : History) : Prop :=
  ∀ before o after, h = before ++ o :: after → env.Allows before o

theorem explains_nil (env : Surroundings) : env.Explains [] := by
  intro before o after h
  simp at h

variable {env : Surroundings} {past : History}

theorem Explains.append {o : Occurrence} (h : env.Explains past) (hAllows : env.Allows past o) :
    env.Explains (past ++ [o]) := by
  intro before o' after hSplit
  rcases List.eq_nil_or_concat after with rfl | ⟨rest, last, rfl⟩
  · -- It is the new occurrence that is asked for.
    obtain ⟨rfl, hLast⟩ := List.append_inj' hSplit rfl
    cases hLast
    exact hAllows
  · rw [List.concat_eq_append, ← List.cons_append, ← List.append_assoc] at hSplit
    exact h before o' rest (List.append_inj' hSplit rfl).1

/-- The looks at the token while something is waited for show what the token does. -/
theorem Explains.append_looks {looks : History} (h : env.Explains past)
    (hLooks : looks = [] ∨ looks = [.tokenSeen (env.token past)]) :
    env.Explains (past ++ looks) := by
  rcases hLooks with rfl | rfl
  · rwa [List.append_nil]
  · exact h.append (o := .tokenSeen _) rfl

end Surroundings

namespace Execution

variable {q : Query} {env : Surroundings} {now : Int64} {past tail : History} {e : Execution}
  {r : Option Extraction}

theorem CallEnds.explains {call : SourceCall} (h : CallEnds q env now past call tail r)
    (hPast : env.Explains (past ++ [.called call])) :
    env.Explains (past ++ [.called call] ++ tail) := by
  cases h with
  | cancelled hFired => exact hPast.append hFired.symm
  | stuck => rwa [List.append_nil]
  | @replied looks reply hGives hLooks =>
    rw [← List.append_assoc]
    refine (hPast.append_looks hLooks).append ?_
    exact ⟨past, call, looks, (List.append_cons ..).symm, hGives⟩

/-- What an execution adds to an explained history is explained, if the next command may begin. -/
theorem GoesOn.explains (h : GoesOn q env now past e tail r) (hPast : env.Explains past)
    (hReady : past.EndsUnfired ∨ past.EndsWithCommand) : env.Explains (past ++ tail) := by
  induction h with
  | finished => rwa [List.append_nil]
  | @commandCancelled past values command rest hFired =>
    rw [List.append_cons]
    exact (hPast.append (o := .commandRun command) hReady).append hFired.symm
  | commandStuck => exact hPast.append hReady
  | @commandEnded past values command rest outcome looks tail r hGives hLooks _ ih =>
    have hRun : env.Explains (past ++ [.commandRun command]) := hPast.append hReady
    have hEnded := (hRun.append_looks hLooks).append (o := .commandEnded command outcome)
      ⟨past, looks, (List.append_cons ..).symm, hGives⟩
    have hAll := ih hEnded (.inr ⟨_, _, _, rfl⟩)
    simpa using hAll
  | queryCancelled hFired => exact hPast.append hFired.symm
  | @called past params tail r hUnfired hEnds =>
    have hLook : env.Explains (past ++ [.tokenSeen false]) := hPast.append hUnfired.symm
    have hAll := hEnds.explains (hLook.append ⟨past, rfl⟩)
    simpa using hAll

end Execution

/-- **In the history of a performance everything could happen next when it did.** -/
theorem Query.explains_perform (q : Query) (env : Surroundings) :
    env.Explains (q.perform env).history := by
  have hClock : env.Explains [.clockRead (env.clock [])] :=
    env.explains_nil.append (o := .clockRead (env.clock [])) rfl
  rcases q.perform_cases env with ⟨hFired, hOver⟩ | ⟨hUnfired, tail, hHistory, hTail⟩
  · rw [hOver]
    exact hClock.append hFired.symm
  · rw [hHistory]
    have hLook := hClock.append (o := .tokenSeen false) hUnfired.symm
    exact hTail.explains hLook (.inl ⟨[.clockRead (env.clock [])], rfl⟩)

end SqlMetrics
