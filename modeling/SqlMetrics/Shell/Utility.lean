import SqlMetrics.Number.Numeral
import SqlMetrics.Number.Text
import SqlMetrics.Text.Utf8

/-!
# Utilities of the shell

The commands that turn their arguments into outputs and a status.  They work on bytes.
-/

namespace SqlMetrics.Shell

/-- What a utility comes to. -/
structure Produced where
  output : Bytes := []
  errors : Bytes := []
  status : Nat := 0
deriving DecidableEq, Repr

namespace Utility

/-- A line of text. -/
def line (s : String) : Bytes :=
  Text.encode s ++ [10]

/-- A failure with a message. -/
def failed (status : Nat) (message : String) : Produced :=
  ⟨[], line message, status⟩

/-- The lines of an input. -/
def lines (input : Bytes) : List Bytes :=
  let parts := input.splitOn 10
  match parts.getLast? with
  | some [] => parts.dropLast
  | _ => parts

/-- Lines put together again. -/
def unlines (ls : List Bytes) : Bytes :=
  ls.flatMap (· ++ [10])

/-- The integer that an argument spells. -/
def int? (arg : Bytes) : Option Int :=
  Number.readInt? (Text.decodeLossy arg).toList

/-- The natural number that an argument spells. -/
def nat? (arg : Bytes) : Option Nat :=
  let cs := (Text.decodeLossy arg).toList
  if cs.isEmpty || !cs.all Char.isDigit then none else some (Number.digitsValue cs)

/-- Whether a byte is an octal digit. -/
def isOctal (b : UInt8) : Bool :=
  48 ≤ b && b ≤ 55

/-- Up to so many octal digits, as a byte, and what follows them. -/
def octal (most : Nat) (bs : Bytes) : UInt8 × Bytes :=
  let digits := (bs.take most).takeWhile isOctal
  (UInt8.ofNat (digits.foldl (fun n d => 8 * n + (d.toNat - 48)) 0), bs.drop digits.length)

/-- The byte of an escape by letter. -/
def letterEscape? : UInt8 → Option UInt8
  | 97 => some 7
  | 98 => some 8
  | 102 => some 12
  | 110 => some 10
  | 114 => some 13
  | 116 => some 9
  | 118 => some 11
  | 92 => some 92
  | _ => none

/-- Text with its escapes replaced, where an octal escape starts with a zero.  The flag says that an
escape has ended all output. -/
def expandEchoEscapes : Nat → Bytes → Bytes × Bool
  | 0, bs => (bs, false)
  | _, [] => ([], false)
  | fuel + 1, 92 :: c :: rest =>
    if c == 99 then ([], true)
    else if c == 48 then
      let (b, rest) := octal 3 rest
      let (out, stop) := expandEchoEscapes fuel rest
      (b :: out, stop)
    else
      let (out, stop) := expandEchoEscapes fuel rest
      match letterEscape? c with
      | some b => (b :: out, stop)
      | none => (92 :: c :: out, stop)
  | fuel + 1, b :: rest =>
    let (out, stop) := expandEchoEscapes fuel rest
    (b :: out, stop)

/-- Arguments with blanks between them. -/
def joined (args : List Bytes) : Bytes :=
  [32].intercalate args

/-- Writes its arguments on a line. -/
def echo (args : List Bytes) : Produced :=
  let (bare, args) :=
    match args with
    | [45, 110] :: rest => (true, rest)
    | args => (false, args)
  let text := joined args
  let (out, stop) := expandEchoEscapes (text.length + 1) text
  { output := if bare || stop then out else out ++ [10] }

/-- A conversion of a format. -/
structure Conversion where
  flags : List Char
  width : Nat
  precision : Option Nat
  letter : Char
deriving DecidableEq, Repr

/-- Text brought to a width. -/
def padded (left : Bool) (fill : UInt8) (width : Nat) (bs : Bytes) : Bytes :=
  let n := width - bs.length
  if left then bs ++ List.replicate n 32 else List.replicate n fill ++ bs

/-- An integer as a conversion wants it. -/
def Conversion.integer (c : Conversion) (n : Int) : Bytes :=
  let magnitude : Nat :=
    if c.letter == 'd' || c.letter == 'i' then n.natAbs else (n % Number.twoTo 64).toNat
  let base := if c.letter == 'o' then 8 else if c.letter == 'x' || c.letter == 'X' then 16 else 10
  let digits := Nat.toDigits base magnitude
  let digits := if c.letter == 'X' then digits.map Char.toUpper else digits
  let digits := Number.zeros (c.precision.getD 1 - digits.length) ++ digits
  let sign :=
    if c.letter != 'd' && c.letter != 'i' then []
    else if n < 0 then ['-']
    else if c.flags.contains '+' then ['+']
    else if c.flags.contains ' ' then [' ']
    else []
  let left := c.flags.contains '-'
  let zeroFilled := c.flags.contains '0' && !left && c.precision.isNone
  let digits :=
    if zeroFilled then Number.zeros (c.width - sign.length - digits.length) ++ digits else digits
  padded left 32 c.width (Text.Utf8.encodeChars (sign ++ digits))

/-- Text as a conversion wants it. -/
def Conversion.text (c : Conversion) (bs : Bytes) : Bytes :=
  padded (c.flags.contains '-') 32 c.width (bs.take (c.precision.getD bs.length))

/-- Reads a conversion after the percent sign. -/
def conversion? (cs : List Char) : Option (Conversion × List Char) :=
  let isFlag (c : Char) : Bool := "-+ 0#".toList.contains c
  let flags := cs.takeWhile isFlag
  let cs := cs.dropWhile isFlag
  let width := Number.digitsValue (cs.takeWhile Char.isDigit)
  let cs := cs.dropWhile Char.isDigit
  let (precision, cs) :=
    match cs with
    | '.' :: rest =>
      (some (Number.digitsValue (rest.takeWhile Char.isDigit)), rest.dropWhile Char.isDigit)
    | cs => (none, cs)
  match cs with
  | letter :: rest => some (⟨flags, width, precision, letter⟩, rest)
  | [] => none

/-- What has been written of a format. -/
structure Formatting where
  output : Bytes := []
  errors : Bytes := []
  status : Nat := 0
  args : List Bytes
  /-- Whether an argument has been used. -/
  used : Bool := false
  stopped : Bool := false

/-- Takes the next argument; there are as many empty ones as needed. -/
def Formatting.next (f : Formatting) : Bytes × Formatting :=
  match f.args with
  | a :: rest => (a, { f with args := rest, used := true })
  | [] => ([], { f with used := true })

/-- Writes bytes. -/
def Formatting.write (f : Formatting) (bs : Bytes) : Formatting :=
  { f with output := f.output ++ bs }

/-- Notes that something is wrong with an argument. -/
def Formatting.complain (f : Formatting) (arg : Bytes) (complaint : String) : Formatting :=
  { f with
    errors := f.errors ++ line ("/bin/sh: 1: printf: " ++ Text.decodeLossy arg ++ ": " ++ complaint)
    status := 1 }

/-- Takes a number from the head of characters: hexadecimal after `0x`, octal after a zero, and else
decimal. -/
def takeNat (cs : List Char) : Nat × List Char :=
  let digits := cs.takeWhile Char.isDigit
  match cs with
  | '0' :: 'x' :: rest | '0' :: 'X' :: rest =>
    let isHex (c : Char) : Bool := c.isDigit || ('a' ≤ c.toLower && c.toLower ≤ 'f')
    let value (c : Char) : Nat := if c.isDigit then c.toNat - 48 else c.toLower.toNat - 87
    ((rest.takeWhile isHex).foldl (fun n c => 16 * n + value c) 0, rest.dropWhile isHex)
  | '0' :: rest =>
    let octal := rest.takeWhile fun c => '0' ≤ c && c ≤ '7'
    (octal.foldl (fun n c => 8 * n + (c.toNat - 48)) 0, rest.drop octal.length)
  | _ => (Number.digitsValue digits, cs.drop digits.length)

/-- Takes the integer of an argument, and tells what is wrong with the argument. -/
def takeInt (arg : Bytes) : Int × Option String :=
  match arg with
  | [] => (0, none)
  | 34 :: c :: _ | 39 :: c :: _ => (c.toNat, none)
  | _ =>
    let (negative, cs) := Number.splitSign (Text.decodeLossy arg).toList
    let (n, rest) := takeNat cs
    (Number.signed negative n,
      if !cs.head?.any Char.isDigit then some "expected numeric value"
      else if rest.isEmpty then none
      else some "not completely converted")

/-- A floating-point number as a conversion wants it. -/
def Conversion.float (c : Conversion) (x : Number.Double) : Bytes :=
  let text := (x.fixed (c.precision.getD 6)).toList
  let (sign, digits) :=
    match text with
    | '-' :: rest => (['-'], rest)
    | cs => (if c.flags.contains '+' then ['+'] else if c.flags.contains ' ' then [' '] else [], cs)
  let left := c.flags.contains '-'
  let digits :=
    if c.flags.contains '0' && !left then
      Number.zeros (c.width - sign.length - digits.length) ++ digits
    else digits
  padded left 32 c.width (Text.Utf8.encodeChars (sign ++ digits))

/-- Writes one pass of a format. -/
def format : Nat → List Char → Formatting → Formatting
  | 0, _, f => f
  | _, [], f => f
  | fuel + 1, '%' :: '%' :: rest, f => format fuel rest (f.write [37])
  | fuel + 1, '%' :: rest, f =>
    match conversion? rest with
    | none => { f with status := 1, stopped := true }
    | some (c, rest) =>
      let (arg, f) := f.next
      if c.letter == 's' then format fuel rest (f.write (c.text arg))
      else if c.letter == 'b' then
        let (out, stop) := expandEchoEscapes (arg.length + 1) arg
        let f := f.write (c.text out)
        if stop then { f with stopped := true } else format fuel rest f
      else if c.letter == 'c' then format fuel rest (f.write (c.text (arg.take 1)))
      else if "diouxX".toList.contains c.letter then
        let (n, complaint) := takeInt arg
        format fuel rest ((complaint.elim f (f.complain arg)).write (c.integer n))
      else if c.letter == 'f' then
        if arg.isEmpty then format fuel rest (f.write (c.float (Number.Double.ofInt 0)))
        else
          match Number.readDouble? (Text.decodeLossy arg).toList with
          | some x => format fuel rest (f.write (c.float x))
          | none =>
            format fuel rest
              ((f.complain arg "expected numeric value").write (c.float (Number.Double.ofInt 0)))
      else
        { f with
          errors := f.errors ++
            line ("/bin/sh: 1: printf: %" ++ c.letter.toString ++ ": invalid directive")
          status := 2
          stopped := true }
  | fuel + 1, '\\' :: rest, f =>
    let bs := Text.Utf8.encodeChars (rest.take 3)
    match rest with
    | c :: more =>
      if c == 'c' then { f with stopped := true }
      else if isOctal (UInt8.ofNat c.toNat) && c.toNat < 128 then
        let digits := bs.takeWhile isOctal
        format fuel (rest.drop digits.length) (f.write [(octal 3 bs).1])
      else
        match if c.toNat < 128 then letterEscape? (UInt8.ofNat c.toNat) else none with
        | some b => format fuel more (f.write [b])
        | none => format fuel rest (f.write [92])
    | [] => f.write [92]
  | fuel + 1, c :: rest, f => format fuel rest (f.write (String.utf8EncodeChar c))

/-- Repeats a format until its arguments are used up. -/
def formatAll : Nat → List Char → Formatting → Formatting
  | 0, _, f => f
  | fuel + 1, cs, f =>
    let f := format (cs.length + 1) cs { f with used := false }
    if f.stopped || !f.used || f.args.isEmpty then f else formatAll fuel cs f

/-- Writes its arguments by a format. -/
def printf (args : List Bytes) : Produced :=
  let args := if args.head? == some [45, 45] then args.drop 1 else args
  match args with
  | [] => failed 2 "/bin/sh: 1: printf: usage: printf format [arg ...]"
  | fmt :: args =>
    let f := formatAll (args.length + 1) (Text.decodeLossy fmt).toList { args := args }
    ⟨f.output, f.errors, f.status⟩

/-- The integers between bounds, one on each line. -/
def sequence (args : List Bytes) : Produced :=
  let between (a b : Int) : Bytes :=
    unlines ((List.range (b - a + 1).toNat).map fun (i : Nat) =>
      Text.encode (Number.intText (a + i)))
  match args.map int? with
  | [some b] => { output := between 1 b }
  | [some a, some b] => { output := between a b }
  | _ => failed 1 "seq: missing operand"

end Utility

end SqlMetrics.Shell
