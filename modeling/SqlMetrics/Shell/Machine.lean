import SqlMetrics.Shell.Filter
import SqlMetrics.Shell.Outcome
import SqlMetrics.Shell.Reader

/-!
# Running shell programs

A machine holds the variables, the input, what has been written and where the two outputs go.
Running a program changes the machine and says how to go on: with the next program, or out of a loop
or of the whole shell.  Loops make the number of steps unbounded, so a run has a bound; a program
that reaches it ends as if it had failed.

A program may send signals.  One to the shell itself ends it; one to the process that started the
shell is kept for the caller.
-/

namespace SqlMetrics.Shell

/-- Where an output goes. -/
inductive Sink where
  | stdout
  | stderr
  | nowhere
  /-- The innermost place where a program's output is collected. -/
  | captured
deriving DecidableEq, Repr

/-- The state of the shell. -/
structure Machine where
  bindings : List (String × Bytes) := []
  files : Files := ⟨[], [], []⟩
  status : Nat := 0
  input : Bytes := []
  stdout : Bytes := []
  stderr : Bytes := []
  captured : Bytes := []
  outputTo : Sink := .stdout
  errorsTo : Sink := .stderr
  /-- The signals sent to the process that started the shell. -/
  parentSignals : List Nat := []

/-- How a program goes on. -/
inductive Flow where
  | next
  | breaks
  | continues
  | exits
  | killed (signal : Nat)
deriving DecidableEq, Repr

namespace Machine

/-- The number of the shell's own process. -/
def ownProcess : Nat := 4711

/-- The number of the process that started the shell. -/
def parentProcess : Nat := 4710

/-- The value of a variable. -/
def valueOf? (m : Machine) (name : String) : Option Bytes :=
  match name with
  | "$" => some (Text.encode (toString ownProcess))
  | "PPID" => some (Text.encode (toString parentProcess))
  | "?" => some (Text.encode (toString m.status))
  | "0" => some (Text.encode "/bin/sh")
  | "#" => some (Text.encode "0")
  | _ => m.bindings.lookup name

/-- The machine with a variable set. -/
def assign (m : Machine) (name : String) (value : Bytes) : Machine :=
  { m with bindings := (name, value) :: m.bindings.filter fun v => v.1 != name }

/-- The machine after bytes are written to a sink. -/
def write (m : Machine) (sink : Sink) (bytes : Bytes) : Machine :=
  match sink with
  | .stdout => { m with stdout := m.stdout ++ bytes }
  | .stderr => { m with stderr := m.stderr ++ bytes }
  | .captured => { m with captured := m.captured ++ bytes }
  | .nowhere => m

/-- The machine after a message of the shell itself. -/
def complain (m : Machine) (message : String) : Machine :=
  m.write m.errorsTo (Utility.line ("/bin/sh: 1: " ++ message))

/-- Where the output of a descriptor goes. -/
def sinkOf (m : Machine) (descriptor : Nat) : Option Sink :=
  match descriptor with
  | 1 => some m.outputTo
  | 2 => some m.errorsTo
  | _ => none

/-- The machine with the output of a descriptor sent elsewhere. -/
def redirected (m : Machine) (descriptor : Nat) (sink : Sink) : Machine :=
  match descriptor with
  | 1 => { m with outputTo := sink }
  | 2 => { m with errorsTo := sink }
  | _ => m

/-- The machine after a command, with the input and the outputs of the machine before it. -/
def restoreStreams (m before : Machine) : Machine :=
  { m with outputTo := before.outputTo, errorsTo := before.errorsTo }

/-- The machine after a command, with what its redirections changed as it was before. -/
def undo (m : Machine) (redirects : List Redirect) (before : Machine) : Machine :=
  let isInput : Redirect → Bool
    | .mk _ .input _ => true
    | _ => false
  { m.restoreStreams before with input := if redirects.any isInput then before.input else m.input }

/-- The machine after a program that had its own variables. -/
def leaveSubshell (m before : Machine) : Machine :=
  { m.restoreStreams before with bindings := before.bindings }

/-- The machine after what a utility produced. -/
def took (m : Machine) (p : Produced) : Machine :=
  { (m.write m.outputTo p.output).write m.errorsTo p.errors with status := p.status }

end Machine

/-- The signal that has no name. -/
def namelessSignal : Nat := 16

/-- The number of a signal by number or by its name without the first three letters, which may be in
small letters. -/
def signalNumber? (text : Bytes) : Option Nat :=
  match Utility.nat? text with
  | some n => if n ≤ 64 then some n else none
  | none =>
    let name := (Text.decodeLossy text).toUpper
    (List.range 32).find? fun n =>
      n != namelessSignal && !(signalName n).isEmpty && signalName n == "SIG" ++ name

/-- The signals that do not end a process. -/
def isIgnoredSignal (n : Nat) : Bool :=
  n == 0 || n == 17 || n == 18 || n == 23 || n == 28

/-- What the arguments of `kill` ask for. -/
inductive KillRequest where
  | send (signal : Nat) (targets : List Bytes)
  /-- The name of a signal is asked for. -/
  | name (signal : Nat)
  | refuse (message : String)

/-- How `kill` is used. -/
def killUsage : String :=
  "Usage: kill [-s sigspec | -signum | -sigspec] [pid | job]... or\nkill -l [exitstatus]"

/-- Reads the arguments of `kill`. -/
def KillRequest.ofArgs (args : List Bytes) : KillRequest :=
  match args with
  | [] => .refuse killUsage
  | [45, 108] :: status :: _ =>
    match Utility.nat? status with
    | some n => .name (n % 128)
    | none => .refuse ("invalid signal number or name: " ++ Text.decodeLossy status)
  | [45, 115] :: signal :: targets =>
    match signalNumber? signal with
    | some n => if targets.isEmpty then .refuse killUsage else .send n targets
    | none => .refuse ("invalid signal number or name: " ++ Text.decodeLossy signal)
  | (45 :: signal) :: targets =>
    match signalNumber? signal with
    | some n => if targets.isEmpty then .refuse killUsage else .send n targets
    | none => .refuse ("Illegal option -" ++ Text.decodeLossy (signal.take 1))
  | targets => .send 15 targets

/-- A process that a signal is sent to. -/
inductive KillTarget where
  | own
  | parent
  | other
  | illegal (text : String)

/-- Tells which process an argument names. -/
def KillTarget.ofArg (arg : Bytes) : KillTarget :=
  match Utility.nat? arg with
  | none => .illegal (Text.decodeLossy arg)
  | some n =>
    if n == Machine.ownProcess then .own
    else if n == Machine.parentProcess then .parent
    else .other

/-- Whether there is something at a path, of the kind that a test asks for. -/
def testFile (files : Files) (operator : String) (path : Bytes) : Bool :=
  match operator, (files.locate path).toOption.bind files.at? with
  | "-d", found => found == some .directory
  | "-e", found => found.isSome
  | "-s", some (.file content) => !content.isEmpty
  | "-f", some (.file _) | "-r", some (.file _) | "-w", some (.file _) => true
  | _, _ => false

/-- The value of a test. -/
def testArgs (files : Files) : List Bytes → Option Bool
  | [] => some false
  | [a] => some (!a.isEmpty)
  | [33] :: rest => (testArgs files rest).map (! ·)
  | [operator, a] =>
    match Text.decodeLossy operator with
    | "-n" => some (!a.isEmpty)
    | "-z" => some a.isEmpty
    | "-e" | "-f" | "-d" | "-r" | "-s" | "-x" | "-w" =>
      some (testFile files (Text.decodeLossy operator) a)
    | _ => none
  | [a, operator, b] =>
    let compare (holds : Int → Int → Bool) : Option Bool :=
      match Utility.int? a, Utility.int? b with
      | some x, some y => some (holds x y)
      | _, _ => none
    match Text.decodeLossy operator with
    | "=" => some (a == b)
    | "!=" => some (a != b)
    | "-eq" => compare (· == ·)
    | "-ne" => compare (· != ·)
    | "-lt" => compare (· < ·)
    | "-le" => compare (· ≤ ·)
    | "-gt" => compare (fun x y => y < x)
    | "-ge" => compare (fun x y => y ≤ x)
    | _ => none
  | _ => none

/-- The name of the program that a path leads to. -/
def programName (path : String) : String :=
  (["/bin/", "/usr/bin/"].findSome? fun directory =>
    if directory.toList.isPrefixOf path.toList then some (path.drop directory.length).toString
    else none).getD path

/-- Whether there is a program of a name, apart from what the shell does itself. -/
def isProgram (name : String) : Bool :=
  let name := programName name
  (utility? ⟨[], [], []⟩ name).isSome || ["kill", "test", "[", "sh"].contains name

/-- Sends a signal to processes, one after another. -/
def kill (signal : Nat) : List KillTarget → Machine → Machine × Flow
  | [], m => (m, .next)
  | .illegal text :: _, m =>
    ({ m.complain ("kill: Illegal number: " ++ text) with status := 2 }, .next)
  | .other :: rest, m => kill signal rest { m.complain "kill: No such process\n" with status := 1 }
  | .parent :: rest, m => kill signal rest { m with parentSignals := m.parentSignals ++ [signal] }
  | .own :: rest, m => if isIgnoredSignal signal then kill signal rest m else (m, .killed signal)

/-- The bytes without line ends at the end. -/
def chomp (bytes : Bytes) : Bytes :=
  (bytes.reverse.dropWhile (· == 10)).reverse

/-- A part of a word after expansion: quoted text stays together, unquoted text is split. -/
structure Fragment where
  quoted : Bool
  bytes : Bytes

/-- Whether a byte separates fields. -/
def isFieldBlank (b : UInt8) : Bool :=
  b == 32 || b == 9 || b == 10

/-- Splits fragments into fields.  `field` is the field that has begun, if one has. -/
def splitFields : Option Bytes → List Fragment → List Bytes
  | field, [] => field.toList
  | field, ⟨true, bytes⟩ :: rest => splitFields (some (field.getD [] ++ bytes)) rest
  | field, ⟨false, bytes⟩ :: rest =>
    let step (acc : Option Bytes × List Bytes) (b : UInt8) : Option Bytes × List Bytes :=
      if isFieldBlank b then
        match acc.1 with
        | some f => (none, acc.2 ++ [f])
        | none => acc
      else (some (acc.1.getD [] ++ [b]), acc.2)
    let (field, done) := bytes.foldl step (field, [])
    done ++ splitFields field rest

/-- Gives the fields of a line to variables, in order.  The last variable gets all that is left. -/
def assignFields : List String → Bytes → Machine → Machine
  | [], _, m => m
  | [name], line, m =>
    let trimmed := ((line.dropWhile isFieldBlank).reverse.dropWhile isFieldBlank).reverse
    m.assign name trimmed
  | name :: names, line, m =>
    let line := line.dropWhile isFieldBlank
    let isInField (b : UInt8) : Bool := !isFieldBlank b
    assignFields names (line.dropWhile isInField) (m.assign name (line.takeWhile isInField))

/-- The text of fragments that are not split. -/
def wholeText (fs : List Fragment) : Bytes :=
  fs.flatMap Fragment.bytes

/-- A run: the machine after it and how it goes on. -/
abbrev Run := Machine × Flow

/-- Whether a variable counts as given. -/
def isGiven (orEmpty : Bool) : Option Bytes → Bool
  | none => false
  | some v => !(orEmpty && v.isEmpty)

/-- Whether a piece of a word is the output of a program. -/
def isOutput : Piece → Bool
  | .output _ _ => true
  | _ => false

/-- The value of a variable in arithmetic. -/
def arithmeticValue (m : Machine) (name : String) : Int :=
  ((m.valueOf? name).bind Utility.int?).getD 0

mutual

/-- What the pieces of a word come to. -/
def expand : Nat → List Piece → Machine → Machine × List Fragment × Flow
  | 0, _, m => (m, [], .exits)
  | _, [], m => (m, [], .next)
  | fuel + 1, piece :: rest, m =>
    let (m, fragments, flow) := expandPiece fuel piece m
    if flow != .next then (m, fragments, flow)
    else
      let (m, more, flow) := expand fuel rest m
      (m, fragments ++ more, flow)

/-- What one piece comes to. -/
def expandPiece : Nat → Piece → Machine → Machine × List Fragment × Flow
  | 0, _, m => (m, [], .exits)
  | fuel + 1, piece, m =>
    match piece with
    | .text quoted bytes =>
      (m, if !quoted && bytes.isEmpty then [] else [⟨true, bytes⟩], .next)
    | .parameter quoted name form =>
      let value := m.valueOf? name
      match form with
      | .value => (m, [⟨quoted, value.getD []⟩], .next)
      | .length => (m, [⟨quoted, Text.encode (toString ((value.getD []).length))⟩], .next)
      | .orElse orEmpty word =>
        if isGiven orEmpty value then (m, [⟨quoted, value.getD []⟩], .next)
        else expand fuel word m
      | .orAssign orEmpty word =>
        if isGiven orEmpty value then (m, [⟨quoted, value.getD []⟩], .next)
        else
          let (m, fragments, flow) := expand fuel word m
          (m.assign name (wholeText fragments), fragments, flow)
      | .ifGiven orEmpty word =>
        if isGiven orEmpty value then expand fuel word m else (m, [], .next)
      | .orFail orEmpty word =>
        if isGiven orEmpty value then (m, [⟨quoted, value.getD []⟩], .next)
        else
          let (m, fragments, flow) := expand fuel word m
          if flow != .next then (m, [], flow)
          else
            let given := Text.decodeLossy (wholeText fragments)
            let message :=
              if !given.isEmpty then given
              else if orEmpty then "parameter not set or null" else "parameter not set"
            ({ m.complain (name ++ ": " ++ message) with status := 2 }, [], .exits)
    | .output quoted body =>
      -- The program inside starts with nothing captured; what it captures is the value here.
      let inner := { m with captured := [], outputTo := .captured }
      let (after, flow) := run fuel body inner
      let m' := { after.leaveSubshell m with captured := m.captured }
      match flow with
      | .killed n => (m', [], .killed n)
      | _ => (m', [⟨quoted, chomp after.captured⟩], .next)
    | .arithmetic quoted expression =>
      let (m, fragments, flow) := expand fuel expression m
      if flow != .next then (m, [], flow)
      else
        let text := Text.decodeLossy (wholeText fragments)
        match Arithmetic.evaluate (arithmeticValue m) text.toList with
        | .ok n => (m, [⟨quoted, Text.encode (Number.intText n)⟩], .next)
        | .error e =>
          ({ m.complain ("arithmetic expression: " ++ e.message ++ ": \"" ++ text ++ "\"") with
              status := 2 }, [], .exits)

/-- The fields of words. -/
def expandWords : Nat → List Word → Machine → Machine × List Bytes × Flow
  | 0, _, m => (m, [], .exits)
  | _, [], m => (m, [], .next)
  | fuel + 1, w :: rest, m =>
    let (m, fragments, flow) := expand fuel w m
    if flow != .next then (m, [], flow)
    else
      let (m, more, flow) := expandWords fuel rest m
      (m, splitFields none fragments ++ more, flow)

/-- Makes assignments, from the left. -/
def assignAll : Nat → List (String × Word) → Machine → Machine × Flow
  | 0, _, m => (m, .exits)
  | _, [], m => (m, .next)
  | fuel + 1, (name, w) :: rest, m =>
    let (m, fragments, flow) := expand fuel w m
    if flow != .next then (m, flow) else assignAll fuel rest (m.assign name (wholeText fragments))

/-- Makes redirections, from the left.  The flag says whether all of them could be made. -/
def redirectAll : Nat → List Redirect → Machine → Machine × Bool × Flow
  | 0, _, m => (m, false, .exits)
  | _, [], m => (m, true, .next)
  | fuel + 1, .mk descriptor kind target :: rest, m =>
    let (m, fragments, flow) := expand fuel target m
    let text := Text.decodeLossy (wholeText fragments)
    if flow != .next then (m, false, flow)
    else
      match kind with
      -- Files are only read here: what is written to one of them is gone.
      | .input =>
        match Utility.readFile? m.files (wholeText fragments) with
        | some content => redirectAll fuel rest { m with input := content }
        | none =>
          ({ m.complain ("cannot open " ++ text ++ ": No such file") with status := 2 }, false,
            .next)
      | .output =>
        if text == "/dev/stdout" then redirectAll fuel rest m
        else if text == "/dev/stderr" then
          redirectAll fuel rest (m.redirected descriptor m.errorsTo)
        else redirectAll fuel rest (m.redirected descriptor .nowhere)
      | .duplicate =>
        if text == "-" then redirectAll fuel rest (m.redirected descriptor .nowhere)
        else
          match (Utility.nat? (wholeText fragments)).bind m.sinkOf with
          | some sink => redirectAll fuel rest (m.redirected descriptor sink)
          | none =>
            ({ m.complain (text ++ ": Bad file descriptor") with status := 2 }, false, .next)

/-- Runs a command with its arguments. -/
def runCommand : Nat → String → List Bytes → Machine → Run
  | 0, _, _, m => (m, .exits)
  | fuel + 1, name, args, m =>
    match name with
    | "exit" | "return" =>
      match args with
      | [] => (m, .exits)
      | a :: _ =>
        match Utility.nat? a with
        | some n => ({ m with status := n % 256 }, .exits)
        | none =>
          let text := Text.decodeLossy a
          ({ m.complain (name ++ ": Illegal number: " ++ text) with status := 2 }, .exits)
    | "break" => ({ m with status := 0 }, .breaks)
    | "continue" => ({ m with status := 0 }, .continues)
    | "exec" =>
      match args with
      | [] => ({ m with status := 0 }, .next)
      | command :: args =>
        let command := Text.decodeLossy command
        if isProgram command then
          let (m, flow) := runCommand fuel command args m
          (m, if flow == .next then .exits else flow)
        else ({ m.complain ("exec: " ++ command ++ ": not found") with status := 127 }, .exits)
    | "command" =>
      match args with
      | [] => ({ m with status := 0 }, .next)
      | command :: args => runCommand fuel (Text.decodeLossy command) args m
    | "eval" =>
      let text := Text.decodeLossy (Utility.joined args)
      match Reader.program text with
      | .ok p => run fuel p m
      | .error e => ({ m.complain ("eval: " ++ e.message) with status := 2 }, .exits)
    | "export" | "readonly" =>
      let given := args.filterMap fun a =>
        match a.splitOn 61 with
        | key :: value :: more => some (key, [61].intercalate (value :: more))
        | _ => none
      (given.foldl (fun m v => m.assign (Text.decodeLossy v.1) v.2) { m with status := 0 }, .next)
    | "unset" =>
      let names := args.map Text.decodeLossy
      ({ m with
        bindings := m.bindings.filter fun v => !names.contains v.1
        status := 0 }, .next)
    | "set" | "trap" | "wait" | "cd" | "umask" | "ulimit" => ({ m with status := 0 }, .next)
    | "read" =>
      let rest := m.input.dropWhile (· != 10)
      let names := (Utility.operands args).map Text.decodeLossy
      let m' := assignFields names (m.input.takeWhile (· != 10)) m
      ({ m' with input := rest.drop 1, status := if rest.isEmpty then 1 else 0 }, .next)
    | "test" =>
      match testArgs m.files args with
      | some b => ({ m with status := if b then 0 else 1 }, .next)
      | none => ({ m.complain "test: unexpected operator" with status := 2 }, .next)
    | "[" =>
      if args.getLast? != some [93] then
        ({ m.complain "[: missing ]" with status := 2 }, .next)
      else
        match testArgs m.files args.dropLast with
        | some b => ({ m with status := if b then 0 else 1 }, .next)
        | none => ({ m.complain "[: unexpected operator" with status := 2 }, .next)
    | "kill" =>
      match KillRequest.ofArgs args with
      | .refuse message => ({ m.complain ("kill: " ++ message) with status := 2 }, .next)
      | .name n =>
        (m.took { output := Utility.line ((signalName n).drop 3).toString }, .next)
      | .send signal targets => kill signal (targets.map KillTarget.ofArg) { m with status := 0 }
    | "sh" =>
      match args with
      | [45, 99] :: script :: _ =>
        match Reader.program (Text.decodeLossy script) with
        | .error e => ({ m.complain e.message with status := 2 }, .next)
        | .ok p =>
          let (after, flow) := run fuel p m
          match flow with
          | .killed n => ({ after.leaveSubshell m with status := 128 + n }, .next)
          | _ => (after.leaveSubshell m, .next)
      | _ => (m, .next)
    | _ =>
      match utility? m.files (programName name) with
      | some utility => (m.took (utility args m.input), .next)
      | none => ({ m.complain (name ++ ": not found") with status := 127 }, .next)

/-- Runs a program. -/
def run : Nat → Program → Machine → Run
  | 0, _, m => ({ m with status := 1 }, .exits)
  | fuel + 1, p, m =>
    match p with
    | .nothing => (m, .next)
    | .simple assignments words redirects =>
      let (m, args, flow) := expandWords fuel words m
      if flow != .next then (m, flow)
      else
        let (redirected, done, flow) := redirectAll fuel redirects m
        if flow != .next then (redirected.undo redirects m, flow)
        else if !done then (redirected.undo redirects m, .next)
        else
          let (assigned, flow) := assignAll fuel assignments redirected
          if flow != .next then (assigned.undo redirects m, flow)
          else
            match args with
            | [] =>
              let ran := assignments.any (fun a => a.2.any isOutput) || words.any (·.any isOutput)
              ({ assigned.undo redirects m with status := if ran then assigned.status else 0 },
                .next)
            | name :: args =>
              let (after, flow) := runCommand fuel (Text.decodeLossy name) args assigned
              (after.undo redirects m, flow)
    | .pipeline negated stages =>
      let (m', flow) :=
        match stages with
        | [only] => run fuel only m
        | _ => runStages fuel stages m
      if negated && flow == .next then
        ({ m' with status := if m'.status == 0 then 1 else 0 }, flow)
      else (m', flow)
    | .both first second =>
      let (m, flow) := run fuel first m
      if flow == .next && m.status == 0 then run fuel second m else (m, flow)
    | .either first second =>
      let (m, flow) := run fuel first m
      if flow == .next && m.status != 0 then run fuel second m else (m, flow)
    | .sequence first second =>
      let (m, flow) := run fuel first m
      if flow == .next then run fuel second m else (m, flow)
    | .background body =>
      let (after, flow) := run fuel body { m with input := [] }
      let m := { after.leaveSubshell m with status := 0, input := m.input }
      match flow with
      | .killed n => (m, .killed n)
      | _ => (m, .next)
    | .group body redirects =>
      let (redirected, done, flow) := redirectAll fuel redirects m
      if flow != .next then (redirected.undo redirects m, flow)
      else if !done then (redirected.undo redirects m, .next)
      else
        let (after, flow) := run fuel body redirected
        (after.undo redirects m, flow)
    | .subshell body redirects =>
      let (redirected, done, flow) := redirectAll fuel redirects m
      if flow != .next then (redirected.undo redirects m, flow)
      else if !done then (redirected.undo redirects m, .next)
      else
        let (after, flow) := run fuel body redirected
        let after := (after.undo redirects m).leaveSubshell m
        match flow with
        | .killed n => (after, .killed n)
        | _ => (after, .next)
    | .conditional test ifTrue ifFalse redirects =>
      let (redirected, done, flow) := redirectAll fuel redirects m
      if flow != .next then (redirected.undo redirects m, flow)
      else if !done then (redirected.undo redirects m, .next)
      else
        let (after, flow) := run fuel test redirected
        if flow != .next then (after.undo redirects m, flow)
        else
          let branch := if after.status == 0 then ifTrue else ifFalse
          let (after, flow) := run fuel branch { after with status := 0 }
          (after.undo redirects m, flow)
    | .loop wanted test body redirects =>
      let (redirected, done, flow) := redirectAll fuel redirects m
      if flow != .next then (redirected.undo redirects m, flow)
      else if !done then (redirected.undo redirects m, .next)
      else
        let (after, flow) := runLoop fuel wanted test body 0 redirected
        (after.undo redirects m, flow)
    | .forEach name words body redirects =>
      let (m, fields, flow) := expandWords fuel words m
      if flow != .next then (m, flow)
      else
        let (redirected, done, flow) := redirectAll fuel redirects m
        if flow != .next then (redirected.undo redirects m, flow)
        else if !done then (redirected.undo redirects m, .next)
        else
          let (after, flow) := runFor fuel name fields body { redirected with status := 0 }
          (after.undo redirects m, flow)

/-- Runs the stages of a pipeline, each on what the one before has written. -/
def runStages : Nat → List Program → Machine → Run
  | 0, _, m => (m, .exits)
  | _, [], m => (m, .next)
  | fuel + 1, [last], m =>
    let (after, flow) := run fuel last m
    match flow with
    | .killed n => (after.leaveSubshell m, .killed n)
    | _ => (after.leaveSubshell m, .next)
  | fuel + 1, stage :: rest, m =>
    let (after, flow) := run fuel stage { m with captured := [], outputTo := .captured }
    let next := { after.leaveSubshell m with captured := m.captured, input := after.captured }
    match flow with
    | .killed n => (next, .killed n)
    | _ => runStages fuel rest next

/-- Runs a loop. -/
def runLoop : Nat → Bool → Program → Program → Nat → Machine → Run
  | 0, _, _, _, _, m => (m, .exits)
  | fuel + 1, wanted, test, body, status, m =>
    let (m, flow) := run fuel test m
    if flow != .next then (m, if flow == .breaks then .next else flow)
    else if (m.status == 0) != wanted then ({ m with status := status }, .next)
    else
      let (m, flow) := run fuel body m
      match flow with
      | .next | .continues => runLoop fuel wanted test body m.status m
      | .breaks => (m, .next)
      | flow => (m, flow)

/-- Runs a body once for each value of a variable. -/
def runFor : Nat → String → List Bytes → Program → Machine → Run
  | 0, _, _, _, m => (m, .exits)
  | _, _, [], _, m => (m, .next)
  | fuel + 1, name, value :: rest, body, m =>
    let (m, flow) := run fuel body (m.assign name value)
    match flow with
    | .next | .continues => runFor fuel name rest body m
    | .breaks => (m, .next)
    | flow => (m, flow)

end

/-- How many nested steps a run may make. -/
def stepBound : Nat := 20000

/-- What running a command comes to: its outcome and the signals it sent to the process that started
the shell. -/
structure Execution where
  outcome : Outcome
  parentSignals : List Nat
deriving DecidableEq, Repr

/-- The longest text that may be an argument of a process, with the null character at its end. -/
def argumentLimit : Nat := 131072

/-- Runs a command as the shell does when it is given it as an argument, among files and with
variables that it has from the environment. -/
def executeIn (environment : List (String × String)) (files : Files) (command : String) :
    Execution :=
  let bytes := Text.encode command
  if bytes.contains 0 then ⟨.notStarted .nulByte, []⟩
  else if argumentLimit ≤ bytes.length then ⟨.notStarted .tooLong, []⟩
  else
    match Reader.program command with
    | .error e => ⟨.ended (.code 2) [] (Utility.line ("/bin/sh: 1: " ++ e.message)), []⟩
    | .ok p =>
      let bindings := environment.map fun v => (v.1, Text.encode v.2)
      let start : Machine := { bindings := bindings, files := files }
      let (m, flow) := run stepBound p start
      let status :=
        match flow with
        | .killed n => ExitStatus.signal n false
        | _ => .code m.status
      ⟨.ended status m.stdout m.stderr, m.parentSignals⟩

/-- Runs a command without files and in an empty environment. -/
def execute (command : String) : Execution :=
  executeIn [] ⟨[], [], []⟩ command

/-- The outcome that the process which started the shell gets to see: none when the command has sent
it a signal before. -/
def Execution.seen? (e : Execution) : Option Outcome :=
  if e.parentSignals.isEmpty then some e.outcome else none

end SqlMetrics.Shell
