/-!
# UTF-8

Byte strings and their reading as UTF-8.  A malformed part of the input is the longest piece that
starts like a character and cannot be completed; the next character is looked for right after it.
`decode` refuses the first malformed part, and `decodeLossy` writes one replacement character for
each of them.
-/

namespace SqlMetrics

/-- A string of bytes. -/
abbrev Bytes := List UInt8

namespace Text

/-- Why a byte string is not UTF-8. -/
inductive Utf8Error where
  /-- The `length` bytes from `index` on start no character. -/
  | invalid (length index : Nat)
  /-- The input ends inside the character that starts at `index`. -/
  | incomplete (index : Nat)
deriving DecidableEq, Repr

/-- The text of the error. -/
def Utf8Error.message : Utf8Error → String
  | .invalid length index =>
    "invalid utf-8 sequence of " ++ toString length ++ " bytes from index " ++ toString index
  | .incomplete index => "incomplete utf-8 byte sequence from index " ++ toString index

namespace Utf8

/-- What a lead byte announces: how many bytes continue the character, the bits that the lead byte
itself carries, and the range in which the second byte has to lie.  The range keeps out overlong
forms, surrogates and numbers above the last code point. -/
structure Lead where
  more : Nat
  bits : Nat
  low : Nat
  high : Nat

/-- The lead bytes of characters beyond ASCII. -/
def lead? (b : Nat) : Option Lead :=
  if b < 0xC2 then none
  else if b < 0xE0 then some ⟨1, b - 0xC0, 0x80, 0xBF⟩
  else if b == 0xE0 then some ⟨2, 0, 0xA0, 0xBF⟩
  else if b == 0xED then some ⟨2, 0xD, 0x80, 0x9F⟩
  else if b < 0xF0 then some ⟨2, b - 0xE0, 0x80, 0xBF⟩
  else if b == 0xF0 then some ⟨3, 0, 0x90, 0xBF⟩
  else if b < 0xF4 then some ⟨3, b - 0xF0, 0x80, 0xBF⟩
  else if b == 0xF4 then some ⟨3, 4, 0x80, 0x8F⟩
  else none

/-- Whether a byte continues a character. -/
def isContinuation (b : Nat) : Bool :=
  0x80 ≤ b && b ≤ 0xBF

/-- What stands at the head of a byte string.  The counts are of bytes after the first. -/
inductive Head where
  /-- A character with `more` bytes after the first. -/
  | char (c : Char) (more : Nat)
  /-- A malformed part with `more` bytes after the first. -/
  | bad (more : Nat)
  /-- A character that the end of the input cuts short. -/
  | cut
deriving DecidableEq, Repr

/-- Reads the part that starts with byte `b`. -/
def head (b : UInt8) (rest : Bytes) : Head :=
  if b.toNat < 0x80 then .char (Char.ofNat b.toNat) 0
  else
    match lead? b.toNat with
    | none => .bad 0
    | some l =>
      match rest with
      | [] => .cut
      | b1 :: rest1 =>
        let n1 := b1.toNat
        if n1 < l.low || l.high < n1 then .bad 0
        else
          let code := l.bits * 64 + (n1 - 0x80)
          if l.more == 1 then .char (Char.ofNat code) 1
          else
            match rest1 with
            | [] => .cut
            | b2 :: rest2 =>
              let n2 := b2.toNat
              if !isContinuation n2 then .bad 1
              else
                let code := code * 64 + (n2 - 0x80)
                if l.more == 2 then .char (Char.ofNat code) 2
                else
                  match rest2 with
                  | [] => .cut
                  | b3 :: _ =>
                    let n3 := b3.toNat
                    if !isContinuation n3 then .bad 2
                    else .char (Char.ofNat (code * 64 + (n3 - 0x80))) 3

/-- The replacement character. -/
def replacement : Char := Char.ofNat 0xFFFD

/-- The characters of a byte string, with a replacement character for each malformed part. -/
def decodeLossyChars : Bytes → List Char
  | [] => []
  | b :: rest =>
    match head b rest with
    | .char c more => c :: decodeLossyChars (rest.drop more)
    | .bad more => replacement :: decodeLossyChars (rest.drop more)
    | .cut => [replacement]
termination_by bs => bs.length
decreasing_by all_goals (simp only [List.length_drop, List.length_cons]; omega)

/-- The characters of a byte string that starts at byte `index` of the whole input. -/
def decodeFrom (index : Nat) : Bytes → Except Utf8Error (List Char)
  | [] => .ok []
  | b :: rest =>
    match head b rest with
    | .char c more => (decodeFrom (index + 1 + more) (rest.drop more)).map (c :: ·)
    | .bad more => .error (.invalid (more + 1) index)
    | .cut => .error (.incomplete index)
termination_by bs => bs.length
decreasing_by simp only [List.length_drop, List.length_cons]; omega

/-- The bytes of a text. -/
def encodeChars (cs : List Char) : Bytes :=
  cs.flatMap String.utf8EncodeChar

end Utf8

/-- The bytes of a text in UTF-8. -/
def encode (s : String) : Bytes :=
  Utf8.encodeChars s.toList

/-- The text that the bytes spell, or the first place where they spell none. -/
def decode (bytes : Bytes) : Except Utf8Error String :=
  (Utf8.decodeFrom 0 bytes).map String.ofList

/-- The text that the bytes spell, malformed parts replaced. -/
def decodeLossy (bytes : Bytes) : String :=
  String.ofList (Utf8.decodeLossyChars bytes)

end Text

end SqlMetrics
