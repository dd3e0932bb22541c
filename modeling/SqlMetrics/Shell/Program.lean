import SqlMetrics.Text.Utf8

/-!
# Shell programs

The programs that the shell runs, as trees.  A word is a list of pieces, each of which is text or is
replaced by text when the word is used; what comes of an unquoted piece is split at blanks.
-/

namespace SqlMetrics.Shell

/-- Where a redirection sends an output or takes the input from. -/
inductive RedirectKind where
  /-- The input comes from a file. -/
  | input
  /-- The output goes to a file. -/
  | output
  /-- The output goes where another one goes. -/
  | duplicate
deriving DecidableEq, Repr

mutual

/-- A piece of a word. -/
inductive Piece where
  /-- Text that stands for itself. -/
  | text (quoted : Bool) (bytes : Bytes)
  /-- The value of a variable. -/
  | parameter (quoted : Bool) (name : String) (form : VariableForm)
  /-- The output of a program. -/
  | output (quoted : Bool) (body : Program)
  /-- The value of an arithmetic expression. -/
  | arithmetic (quoted : Bool) (expression : List Piece)

/-- What of a variable is taken.  With `orEmpty` an empty value counts as none. -/
inductive VariableForm where
  | value
  | length
  | orElse (orEmpty : Bool) (word : List Piece)
  | orAssign (orEmpty : Bool) (word : List Piece)
  | ifGiven (orEmpty : Bool) (word : List Piece)
  /-- The value, or else a failure with the word as its message. -/
  | orFail (orEmpty : Bool) (word : List Piece)

/-- A redirection of the input or of an output. -/
inductive Redirect where
  | mk (descriptor : Nat) (kind : RedirectKind) (target : List Piece)

/-- A program. -/
inductive Program where
  | nothing
  | simple (assignments : List (String × List Piece)) (words : List (List Piece))
      (redirects : List Redirect)
  | pipeline (negated : Bool) (stages : List Program)
  | both (first second : Program)
  | either (first second : Program)
  | sequence (first second : Program)
  | background (body : Program)
  | group (body : Program) (redirects : List Redirect)
  | subshell (body : Program) (redirects : List Redirect)
  | conditional (test ifTrue ifFalse : Program) (redirects : List Redirect)
  /-- Repeats the body as long as the success of the test is as wanted. -/
  | loop (wanted : Bool) (test body : Program) (redirects : List Redirect)
  | forEach (name : String) (words : List (List Piece)) (body : Program)
      (redirects : List Redirect)

end

/-- A word. -/
abbrev Word := List Piece

end SqlMetrics.Shell
