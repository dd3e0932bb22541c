import SqlMetrics.Url.Percent
import SqlMetrics.Url.Punycode

/-!
# Hosts

The host of a URL is a domain name or an address.  In the special schemes a name is percent-decoded
and put in lower case, labels beyond ASCII are written in Punycode, and a name that ends in a number
has to be an address of four bytes, which may be written in fewer parts and in three bases.  In
other schemes a name is any text without delimiters.
-/

namespace SqlMetrics.Url

/-- The host of a URL. -/
inductive Host where
  | domain (name : String)
  /-- An address of 32 bits. -/
  | ipv4 (address : Nat)
  /-- An address of eight pieces of 16 bits. -/
  | ipv6 (pieces : List Nat)
deriving DecidableEq, Repr

/-- A number in a base, if all characters are digits of it. -/
def readBase (base : Nat) (cs : List Char) : Option Nat :=
  cs.foldl (fun acc c => do
    let n ← acc
    let d ← hexValue? c
    if d < base then some (base * n + d) else none) (some 0)

/-! ## Addresses of four bytes -/

/-- A part of an address: decimal, octal after a zero, or hexadecimal after `0x`. -/
def ipv4Part? : List Char → Option Nat
  | [] => none
  | '0' :: 'x' :: rest => readBase 16 rest
  | '0' :: 'X' :: rest => readBase 16 rest
  | '0' :: c :: rest => readBase 8 (c :: rest)
  | cs => readBase 10 cs

/-- Whether the last part of a name makes it an address. -/
def endsInNumber (name : List Char) : Bool :=
  let parts := name.splitOn '.'
  let last :=
    match parts.reverse with
    | [] :: previous :: _ => previous
    | last :: _ => last
    | [] => []
  (!last.isEmpty && last.all Char.isDigit) || (ipv4Part? last).isSome

/-- The address that the parts give: each but the last is a byte, and the last one fills
the rest. -/
def ipv4OfParts (parts : List Nat) : Option Nat :=
  match parts.reverse with
  | [] => none
  | last :: before =>
    let leading := before.reverse
    let room := 1 <<< (8 * (4 - leading.length))
    if 4 < parts.length || leading.any (255 < ·) || room ≤ last then none
    else some (leading.zipIdx.foldl (fun sum (n, i) => sum + n <<< (8 * (3 - i))) last)

/-- The address that a name spells. -/
def ipv4? (name : List Char) : Option Nat := do
  let parts := name.splitOn '.'
  let parts := if parts.getLast? == some [] then parts.dropLast else parts
  ipv4OfParts (← parts.mapM ipv4Part?)

/-- The four bytes of an address, in decimal. -/
def ipv4Text (address : Nat) : String :=
  let byte (i : Nat) : String := toString (address >>> (8 * i) % 256)
  byte 3 ++ "." ++ byte 2 ++ "." ++ byte 1 ++ "." ++ byte 0

/-! ## Addresses of sixteen bytes -/

/-- A byte in decimal, without leading zeros. -/
def decimalByte? (cs : List Char) : Option Nat :=
  match cs with
  | [] => none
  | ['0'] => some 0
  | '0' :: _ => none
  | _ => if 3 < cs.length then none else (readBase 10 cs).filter (· ≤ 255)

/-- The pieces of one group: up to four hexadecimal digits, or, at the very end, four bytes. -/
def ipv6Group? (last : Bool) (cs : List Char) : Option (List Nat) :=
  if cs.contains '.' then
    if last then do
      match ← (cs.splitOn '.').mapM decimalByte? with
      | [a, b, c, d] => some [256 * a + b, 256 * c + d]
      | _ => none
    else none
  else if cs.isEmpty || 4 < cs.length then none
  else (readBase 16 cs).map ([·])

/-- The pieces of groups that are separated by colons; `last` says that the address ends here. -/
def ipv6Groups? (last : Bool) (cs : List Char) : Option (List Nat) :=
  if cs.isEmpty then some []
  else
    let groups := cs.splitOn ':'
    let count := groups.length
    ((groups.zipIdx.mapM fun (g, i) => ipv6Group? (last && i + 1 == count) g)).map List.flatten

/-- What stands before and after the first double colon. -/
def splitDoubleColon : List Char → Option (List Char × List Char)
  | ':' :: ':' :: rest => some ([], rest)
  | c :: rest => (splitDoubleColon rest).map fun (before, after) => (c :: before, after)
  | [] => none

/-- The pieces of an address; a double colon stands for one or more zeros. -/
def ipv6? (cs : List Char) : Option (List Nat) :=
  match splitDoubleColon cs with
  | none => (ipv6Groups? true cs).filter fun pieces => pieces.length == 8
  | some (before, after) => do
    let front ← ipv6Groups? false before
    let back ← ipv6Groups? true after
    if front.length + back.length < 8 then
      some (front ++ List.replicate (8 - front.length - back.length) 0 ++ back)
    else none

/-- How many zeros each suffix of the pieces starts with. -/
def zeroRuns : List Nat → List Nat
  | [] => []
  | p :: rest =>
    let runs := zeroRuns rest
    (if p == 0 then runs.headD 0 + 1 else 0) :: runs

/-- Pieces in hexadecimal, with colons between them. -/
def piecesText (pieces : List Nat) : String :=
  ":".intercalate (pieces.map fun p => String.ofList (Nat.toDigits 16 p))

/-- The pieces of an address, with the first longest run of two or more zeros left out. -/
def ipv6Text (pieces : List Nat) : String :=
  let runs := zeroRuns pieces
  let longest := runs.foldl max 0
  if longest < 2 then piecesText pieces
  else
    let start := runs.findIdx (· == longest)
    piecesText (pieces.take start) ++ "::" ++ piecesText (pieces.drop (start + longest))

/-! ## Names -/

/-- Characters that a host of any scheme refuses. -/
def isForbiddenInHost (c : Char) : Bool :=
  ['\x00', '\t', '\n', '\r', ' ', '#', '/', ':', '<', '>', '?', '@', '[', '\\', ']', '^',
    '|'].contains c

/-- Characters that a domain name refuses. -/
def isForbiddenInDomain (c : Char) : Bool :=
  isForbiddenInHost c || c.toNat < 0x20 || c == '%' || c.toNat == 0x7F

/-- Whether a character counts for nothing in a domain name: a soft hyphen, a blank without width, a
mark of the byte order, or a choice among variants. -/
def isIgnoredInDomain (n : Nat) : Bool :=
  n == 0xAD || n == 0x34F || n == 0x200B || n == 0x2060 || n == 0x2064 || n == 0xFEFF ||
    (0xFE00 ≤ n && n ≤ 0xFE0F)

/-- A character of a domain name in its normal form: letters of the Latin, Greek and Cyrillic
alphabets in lower case, wide forms of ASCII as ASCII, the ideographic full stop as a dot, and
nothing for a character that counts for nothing. -/
def domainChar (c : Char) : List Char :=
  let n := c.toNat
  let shifted (d : Nat) : List Char := [Char.ofNat (n + d)]
  if 0x41 ≤ n && n ≤ 0x5A then shifted 32
  else if n < 0x80 then [c]
  else if isIgnoredInDomain n then []
  else if 0xC0 ≤ n && n ≤ 0xDE && n != 0xD7 then shifted 32
  else if 0x391 ≤ n && n ≤ 0x3A9 then shifted 32
  else if 0x400 ≤ n && n ≤ 0x40F then shifted 80
  else if 0x410 ≤ n && n ≤ 0x42F then shifted 32
  else if 0xFF21 ≤ n && n ≤ 0xFF3A then [Char.ofNat (n - 0xFF21 + 0x61)]
  else if 0xFF01 ≤ n && n ≤ 0xFF5E then [Char.ofNat (n - 0xFF01 + 0x21)]
  else if n == 0x3002 || n == 0xFF0E || n == 0xFF61 then ['.']
  else if n == 0xA0 || n == 0x3000 then [' ']
  else [c]

/-- Characters beyond ASCII that a domain name refuses: controls, joiners, the replacement
character, and characters that are given no meaning. -/
def isMeaninglessInDomain (c : Char) : Bool :=
  let n := c.toNat
  (0x80 ≤ n && n ≤ 0x9F) || n == 0x200C || n == 0x200D || n == 0x200E || n == 0x200F ||
    (0x2028 ≤ n && n ≤ 0x202E) || (0xE000 ≤ n && n ≤ 0xF8FF) || n == 0xFFFD || 0xF0000 ≤ n ||
    0xFFFE ≤ n % 0x10000

/-- How a label starts that is written in Punycode. -/
def punycodeMark : List Char := ['x', 'n', '-', '-']

/-- Whether a label is beyond ASCII. -/
def isBeyondAscii (label : List Char) : Bool :=
  label.any fun c => 128 ≤ c.toNat

/-- Whether what follows the mark is the Punycode of a label beyond ASCII in its normal form. -/
def isPunycode (cs : List Char) : Bool :=
  match Punycode.decode cs with
  | none => false
  | some label =>
    isBeyondAscii label && !label.any isMeaninglessInDomain &&
      label.flatMap domainChar == label && Punycode.encode label == cs

/-- A label in ASCII. -/
def labelText? (label : List Char) : Option (List Char) :=
  if punycodeMark.isPrefixOf label then
    if isPunycode (label.drop punycodeMark.length) then some label else none
  else if isBeyondAscii label then some (punycodeMark ++ Punycode.encode label)
  else some label

/-- The normal form in ASCII of a domain name. -/
def domainName? (cs : List Char) : Option (List Char) :=
  let mapped := cs.flatMap domainChar
  if mapped.any fun c => isForbiddenInDomain c || isMeaninglessInDomain c then none
  else ((mapped.splitOn '.').mapM labelText?).map fun labels => ['.'].intercalate labels

/-- Reads an address in brackets, without the opening one. -/
def bracketed? (cs : List Char) : Option Host :=
  if cs.getLast? == some ']' then (ipv6? cs.dropLast).map Host.ipv6 else none

/-- The host of a URL of a special scheme. -/
def Host.parseSpecial? (cs : List Char) : Option Host :=
  match cs with
  | '[' :: rest => bracketed? rest
  | _ =>
    match Text.decode (unescape cs) with
    | .error _ => none
    | .ok decoded => do
      let name ← domainName? decoded.toList
      if name.isEmpty then none
      else if endsInNumber name then (ipv4? name).map Host.ipv4
      else some (.domain (String.ofList name))

/-- The host of a URL of any other scheme. -/
def Host.parseOther? (cs : List Char) : Option Host :=
  match cs with
  | '[' :: rest => bracketed? rest
  | _ =>
    if cs.any isForbiddenInHost then none
    else some (.domain (String.ofList (escape .controls cs)))

/-- The text of a host. -/
def Host.text : Host → String
  | .domain name => name
  | .ipv4 address => ipv4Text address
  | .ipv6 pieces => "[" ++ ipv6Text pieces ++ "]"

end SqlMetrics.Url
