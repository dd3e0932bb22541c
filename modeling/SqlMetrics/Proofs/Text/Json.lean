import SqlMetrics.Proofs.Number.ReadBack
import SqlMetrics.Text.Json

/-!
# Reading JSON

A reader of JSON texts, written from the grammar of JSON and not from the writer, and that it gives
back what the writer has written.

- **Trees**: `Tree` is what a JSON text stands for.  Numbers without a point and an exponent are
  integers, all others doubles.
- **Tokens**: `Lexer` cuts a text into tokens, one character after another.
- **Nesting**: `Parser` puts the tokens together, one after another.  `read?` does both.
- **Reading back**: `Lexes` relates a part of a text to its tokens, whatever stands around it;
  strings and numbers that were written are one token each.
-/

namespace SqlMetrics.Text.Json

open Number (Double)

/-! ## Trees -/

/-- What a JSON text stands for.  The members of an object keep their order. -/
inductive Tree where
  | null
  | bool (b : Bool)
  | int (n : ℤ)
  | real (x : Double)
  | string (s : String)
  | array (items : List Tree)
  | object (members : List (String × Tree))

/-- Digits before a point: no zero stands before other digits. -/
def isWhole : List Char → Bool
  | [] => false
  | ['0'] => true
  | c :: _ => c != '0'

/-- What stands behind the first digits of a number that is no integer: a point with a digit behind
it, or an exponent. -/
def isFraction : List Char → Bool
  | '.' :: c :: _ => c.isDigit
  | c :: _ => c == 'e' || c == 'E'
  | [] => false

/-- Takes off a minus sign. -/
def splitMinus : List Char → Bool × List Char
  | '-' :: rest => (true, rest)
  | cs => (false, cs)

/-- Reads a number. -/
def number? (cs : List Char) : Option Tree :=
  let (negative, rest) := splitMinus cs
  let whole := rest.takeWhile Char.isDigit
  let behind := rest.dropWhile Char.isDigit
  if !isWhole whole then none
  else if behind.isEmpty then some (.int (Number.signed negative (Number.digitsValue whole)))
  else if isFraction behind then ((Number.readDouble? cs).filter Double.isFinite).map .real
  else none

/-- Reads a number or a word. -/
def plain? (cs : List Char) : Option Tree :=
  match number? cs with
  | some t => some t
  | none =>
    if cs == ['n', 'u', 'l', 'l'] then some .null
    else if cs == ['t', 'r', 'u', 'e'] then some (.bool true)
    else if cs == ['f', 'a', 'l', 's', 'e'] then some (.bool false)
    else none

/-! ## Strings -/

/-- The value of a digit to base sixteen. -/
def hexValue? (c : Char) : Option Nat :=
  if c.isDigit then some (c.toNat - 48)
  else if 'a' ≤ c && c ≤ 'f' then some (c.toNat - 87)
  else if 'A' ≤ c && c ≤ 'F' then some (c.toNat - 55)
  else none

/-- The number that digits write to base sixteen. -/
def hexNumber? (cs : List Char) : Option Nat :=
  cs.foldlM (fun n c => (hexValue? c).map (16 * n + ·)) 0

/-- The character that an escape of one letter stands for. -/
def unescape? : Char → Option Char
  | '"' => some '"'
  | '\\' => some '\\'
  | '/' => some '/'
  | 'b' => some '\x08'
  | 'f' => some '\x0c'
  | 'n' => some '\n'
  | 'r' => some '\r'
  | 't' => some '\t'
  | _ => none

/-- The characters of code points, of which the ones beyond four digits may be given by two
surrogates. -/
def characters? : List Nat → Option (List Char)
  | [] => some []
  | n :: rest =>
    if n < 0xD800 || 0xE000 ≤ n then (characters? rest).map (Char.ofNat n :: ·)
    else
      match rest with
      | [] => none
      | low :: rest =>
        if n < 0xDC00 && 0xDC00 ≤ low && low < 0xE000 then
          (characters? rest).map
            (Char.ofNat (0x10000 + (n - 0xD800) * 0x400 + (low - 0xDC00)) :: ·)
        else none

/-! ## Tokens -/

/-- The parts of a JSON text. -/
inductive Token where
  | beginArray
  | endArray
  | beginObject
  | endObject
  | colon
  | comma
  | text (s : String)
  /-- A number or a word. -/
  | plain (t : Tree)

/-- The token of a character that stands for itself. -/
def punctuation? : Char → Option Token
  | '[' => some .beginArray
  | ']' => some .endArray
  | '\x7b' => some .beginObject
  | '\x7d' => some .endObject
  | ':' => some .colon
  | ',' => some .comma
  | _ => none

/-- The characters of numbers and words. -/
def isPlain (c : Char) : Bool :=
  c.isAlphanum || c == '-' || c == '+' || c == '.'

/-- What the lexer is in.  What it has collected is kept with the latest first. -/
inductive Mode where
  | between
  | plain (cs : List Char)
  | quoted (points : List Nat)
  | escaped (points : List Nat)
  | hex (points : List Nat) (digits : List Char)

/-- The tokens so far, the latest first, and what is being read. -/
structure Lexer where
  tokens : List Token
  mode : Mode

namespace Lexer

/-- Reads a character that begins something. -/
def start (tokens : List Token) (c : Char) : Option Lexer :=
  if c == ' ' || c == '\t' || c == '\n' || c == '\r' then some ⟨tokens, .between⟩
  else if c == '"' then some ⟨tokens, .quoted []⟩
  else if isPlain c then some ⟨tokens, .plain [c]⟩
  else (punctuation? c).map fun t => ⟨t :: tokens, .between⟩

/-- Ends a number or a word. -/
def endPlain (tokens : List Token) (cs : List Char) : Option (List Token) :=
  (plain? cs.reverse).map fun t => .plain t :: tokens

/-- Reads one character. -/
def step (l : Lexer) (c : Char) : Option Lexer :=
  match l.mode with
  | .between => start l.tokens c
  | .plain cs =>
    if isPlain c then some { l with mode := .plain (c :: cs) }
    else (endPlain l.tokens cs).bind fun tokens => start tokens c
  | .quoted points =>
    if c == '"' then
      (characters? points.reverse).map fun cs => ⟨.text (String.ofList cs) :: l.tokens, .between⟩
    else if c == '\\' then some { l with mode := .escaped points }
    else if c.toNat < 32 then none
    else some { l with mode := .quoted (c.toNat :: points) }
  | .escaped points =>
    if c == 'u' then some { l with mode := .hex points [] }
    else (unescape? c).map fun d => { l with mode := .quoted (d.toNat :: points) }
  | .hex points digits =>
    if digits.length < 3 then some { l with mode := .hex points (c :: digits) }
    else
      (hexNumber? (c :: digits).reverse).map fun n => { l with mode := .quoted (n :: points) }

/-- The tokens at the end of a text. -/
def finish (l : Lexer) : Option (List Token) :=
  match l.mode with
  | .between => some l.tokens.reverse
  | .plain cs => (endPlain l.tokens cs).map List.reverse
  | _ => none

end Lexer

/-- Cuts a text into tokens. -/
def tokens? (cs : List Char) : Option (List Token) :=
  (cs.foldlM Lexer.step ⟨[], .between⟩).bind Lexer.finish

/-! ## Nesting -/

/-- What encloses a value: the items before it in its array, or the members before it in its object
and its own name, the latest first. -/
inductive Frame where
  | items (done : List Tree)
  | member (done : List (String × Tree)) (key : String)

/-- What has to follow, with what encloses it from the inside out.  A bracket may be closed at once
right after it was opened. -/
inductive Parser where
  | value (frames : List Frame) (mayEnd : Bool)
  | name (done : List (String × Tree)) (frames : List Frame) (mayEnd : Bool)
  | colon (done : List (String × Tree)) (key : String) (frames : List Frame)
  | after (t : Tree) (frames : List Frame)

/-- Reads one token. -/
def Parser.step : Parser → Token → Option Parser
  | .value frames _, .plain t => some (.after t frames)
  | .value frames _, .text s => some (.after (.string s) frames)
  | .value frames _, .beginArray => some (.value (.items [] :: frames) true)
  | .value frames _, .beginObject => some (.name [] frames true)
  | .value (.items _ :: frames) true, .endArray => some (.after (.array []) frames)
  | .name done frames _, .text s => some (.colon done s frames)
  | .name _ frames true, .endObject => some (.after (.object []) frames)
  | .colon done key frames, .colon => some (.value (.member done key :: frames) false)
  | .after t (.items done :: frames), .comma => some (.value (.items (t :: done) :: frames) false)
  | .after t (.items done :: frames), .endArray =>
    some (.after (.array (t :: done).reverse) frames)
  | .after t (.member done key :: frames), .comma =>
    some (.name ((key, t) :: done) frames false)
  | .after t (.member done key :: frames), .endObject =>
    some (.after (.object ((key, t) :: done).reverse) frames)
  | _, _ => none

/-- The value that was read, where nothing is left open. -/
def Parser.result? : Parser → Option Tree
  | .after t [] => some t
  | _ => none

/-- Reads a JSON text. -/
def read? (text : String) : Option Tree :=
  (tokens? text.toList).bind fun tokens =>
    (tokens.foldlM Parser.step (.value [] false)).bind Parser.result?

/-! ## Reading back

### Numbers and words -/

theorem isWhole_of_isWhole {cs : List Char} (h : Number.IsWhole cs) : isWhole cs = true := by
  unfold isWhole
  split
  case h_1 => exact absurd rfl h.isDigits.1
  case h_2 => rfl
  case h_3 c rest hOther =>
    rcases h.leading with hZero | hHead
    · obtain ⟨rfl, rfl⟩ := List.cons.inj hZero
      exact absurd rfl (hOther rfl)
    · simpa using hHead

theorem splitMinus_append (negative : Bool) {rest : List Char}
    (hRest : ∀ c ∈ rest.head?, c ≠ '-') :
    splitMinus ((if negative then ['-'] else []) ++ rest) = (negative, rest) := by
  cases negative with
  | true => rfl
  | false =>
    rw [if_neg Bool.false_ne_true, List.nil_append]
    unfold splitMinus
    split
    case h_1 => exact absurd rfl (hRest '-' rfl)
    case h_2 => rfl

/-- How a number is read, by the digits that it begins with and what is behind them. -/
theorem number?_append (negative : Bool) {whole behind : List Char}
    (hWhole : Number.IsWhole whole) (hBehind : ∀ c ∈ behind.head?, c.isDigit = false) :
    number? ((if negative then ['-'] else []) ++ (whole ++ behind)) =
      if behind.isEmpty then some (.int (Number.signed negative (Number.digitsValue whole)))
      else if isFraction behind then
        ((Number.readDouble? ((if negative then ['-'] else []) ++ (whole ++ behind))).filter
          Double.isFinite).map .real
      else none := by
  have hUnsigned : ∀ c ∈ (whole ++ behind).head?, c ≠ '-' := by
    rw [List.head?_append_of_ne_nil _ hWhole.isDigits.1]
    exact fun c hHead => (hWhole.isDigits.not_signed c hHead).2
  obtain ⟨hTake, hDrop⟩ := Number.span_digits hWhole.isDigits.2 hBehind
  simp only [number?, splitMinus_append negative hUnsigned, hTake, hDrop,
    isWhole_of_isWhole hWhole]
  rfl

/-- An integer that was written is read as itself. -/
theorem plain?_intText (n : ℤ) : plain? (Number.intText n).toList = some (.int n) := by
  have hNumber := @number?_append (decide (n < 0)) _ [] (Number.isWhole_natDigits n.natAbs)
    (by simp)
  have hText : (Number.intText n).toList =
      (if decide (n < 0) then ['-'] else []) ++ (Number.natDigits n.natAbs ++ []) := by
    simp [Number.intText]
  rw [← hText, List.isEmpty_nil, if_pos rfl, Number.digitsValue_natDigits,
    Number.signed_natAbs] at hNumber
  rw [plain?, hNumber]

/-- A finite double that was written is read as itself. -/
theorem plain?_json {x : Double} (h : x.isFinite = true) :
    plain? x.json.toList = some (.real x) := by
  obtain ⟨magnitude, d, hText, hSpells, -⟩ := Number.spellsReal_json h
  have hRead := Number.readDouble?_json h
  have hNumber : number? x.json.toList = some (.real x) := by
    rw [hText, Double.signChars] at hRead ⊢
    cases hSpells with
    | @pointed whole places exponent e hWhole hPlaces hExponent =>
      obtain ⟨first, rest, rfl⟩ := List.exists_cons_of_ne_nil hPlaces.1
      have hFraction : isFraction ('.' :: (first :: rest ++ exponent)) = true :=
        hPlaces.2 first List.mem_cons_self
      rw [number?_append x.isNegative hWhole (by simp), hRead, hFraction]
      simp [h]
    | @scaled whole cs mark e hWhole hMark hSpells =>
      have hFraction : isFraction (mark :: cs) = true := by
        rcases hMark with rfl | rfl <;> rfl
      have hNotDigit : mark.isDigit = false := by
        rcases hMark with rfl | rfl <;> rfl
      rw [number?_append x.isNegative hWhole (by simp [hNotDigit]), hRead, hFraction]
      simp [h]
  rw [plain?, hNumber]

theorem isPlain_of_isDigit {c : Char} (h : c.isDigit = true) : isPlain c = true := by
  simp [isPlain, Char.isAlphanum, h]

/-- The characters of integers are characters of numbers. -/
theorem isPlain_of_mem_intText {n : ℤ} {c : Char} (h : c ∈ (Number.intText n).toList) :
    isPlain c = true := by
  rcases Number.isNumeralChar_of_mem_intText h with hDigit | rfl | rfl
  · exact isPlain_of_isDigit hDigit
  · rfl
  · rfl

theorem isPlain_of_spellsInt {cs : List Char} {n : ℤ} (h : Number.SpellsInt cs n) {c : Char}
    (hMem : c ∈ cs) : isPlain c = true := by
  obtain ⟨hSign, hDigits⟩ := h
  rcases List.mem_append.mp hMem with hMem | hMem
  · cases hSign <;> simp_all [isPlain]
  · exact isPlain_of_isDigit (hDigits.2 c hMem)

theorem isPlain_of_isExponent {cs : List Char} {e : ℤ} (h : Number.IsExponent cs e) {c : Char}
    (hMem : c ∈ cs) : isPlain c = true := by
  cases h with
  | none => cases hMem
  | some hMark hSpells =>
    rcases List.mem_cons.mp hMem with rfl | hMem
    · rcases hMark with rfl | rfl <;> rfl
    · exact isPlain_of_spellsInt hSpells hMem

/-- The characters of finite doubles are characters of numbers. -/
theorem isPlain_of_mem_json {x : Double} (hFinite : x.isFinite = true) {c : Char}
    (h : c ∈ x.json.toList) : isPlain c = true := by
  obtain ⟨magnitude, d, hText, hSpells, -⟩ := Number.spellsReal_json hFinite
  rw [hText, List.mem_append] at h
  rcases h with hSign | hMagnitude
  · rw [Double.signChars] at hSign
    split at hSign
    · rw [List.mem_singleton.mp hSign]
      rfl
    · cases hSign
  · cases hSpells with
    | pointed hWhole hPlaces hExponent =>
      simp only [List.mem_append, List.mem_cons] at hMagnitude
      rcases hMagnitude with hMem | rfl | hMem | hMem
      · exact isPlain_of_isDigit (hWhole.isDigits.2 c hMem)
      · rfl
      · exact isPlain_of_isDigit (hPlaces.2 c hMem)
      · exact isPlain_of_isExponent hExponent hMem
    | scaled hWhole hMark hSpells =>
      rcases List.mem_append.mp hMagnitude with hMem | hMem
      · exact isPlain_of_isDigit (hWhole.isDigits.2 c hMem)
      · exact isPlain_of_isExponent (.some hMark hSpells) hMem

/-! ### Tokens -/

/-- A part of a text is cut into tokens, whatever stands before it. -/
def Lexes (cs : List Char) (tokens : List Token) : Prop :=
  ∀ before, cs.foldlM Lexer.step ⟨before, .between⟩ = some ⟨tokens.reverse ++ before, .between⟩

theorem Lexes.append {cs cs' : List Char} {ts ts' : List Token} (h : Lexes cs ts)
    (hOther : Lexes cs' ts') : Lexes (cs ++ cs') (ts ++ ts') := by
  intro before
  rw [List.foldlM_append, h before, Option.bind_eq_bind, Option.bind_some, hOther,
    List.reverse_append, List.append_assoc]

theorem lexes_nil : Lexes [] [] :=
  fun _ => rfl

/-- Parts of a text with something between any two of them. -/
theorem Lexes.intercalate {α : Type} {sep : List Char} {seps : List Token} {items : List α}
    {f : α → List Char} {g : α → List Token} (hSep : Lexes sep seps)
    (h : ∀ a ∈ items, Lexes (f a) (g a)) :
    Lexes (sep.intercalate (items.map f)) (seps.intercalate (items.map g)) := by
  induction items with
  | nil => exact lexes_nil
  | cons a rest ih =>
    have hFirst := h a List.mem_cons_self
    have hRest := ih fun b hMem => h b (List.mem_cons_of_mem a hMem)
    cases rest with
    | nil => simpa [List.intercalate] using hFirst
    | cons b more =>
      simp only [List.map_cons, List.intercalate_cons_cons] at hRest ⊢
      exact (hFirst.append hSep).append hRest

theorem tokens?_of_lexes {cs : List Char} {ts : List Token} (h : Lexes cs ts) :
    tokens? cs = some ts := by
  rw [tokens?, h []]
  simp [Lexer.finish]

/-- Which characters stand for a token by themselves. -/
theorem start_punctuation {c : Char} {t : Token} (h : punctuation? c = some t)
    (before : List Token) : isPlain c = false ∧
      Lexer.start before c = some ⟨t :: before, .between⟩ := by
  unfold punctuation? at h
  split at h <;> cases h
  all_goals exact ⟨rfl, rfl⟩

theorem lexes_punctuation {c : Char} {t : Token} (h : punctuation? c = some t) :
    Lexes [c] [t] := by
  intro before
  simp [Lexer.step, (start_punctuation h before).2]

theorem start_plain {c : Char} (h : isPlain c = true) (before : List Token) :
    Lexer.start before c = some ⟨before, .plain [c]⟩ := by
  have hSpace : (c == ' ' || c == '\t' || c == '\n' || c == '\r') = false := by
    by_contra hSpace
    simp only [Bool.not_eq_false, Bool.or_eq_true, beq_iff_eq] at hSpace
    rcases hSpace with ((rfl | rfl) | rfl) | rfl <;> exact absurd h (by decide)
  have hQuote : (c == '"') = false := by
    rw [beq_eq_false_iff_ne]
    rintro rfl
    exact absurd h (by decide)
  simp [Lexer.start, hSpace, hQuote, h]

theorem foldlM_plain {cs : List Char} (h : ∀ c ∈ cs, isPlain c = true) (before : List Token)
    (done : List Char) : cs.foldlM Lexer.step ⟨before, .plain done⟩ =
      some ⟨before, .plain (cs.reverse ++ done)⟩ := by
  induction cs generalizing done with
  | nil => rfl
  | cons c rest ih =>
    rw [List.foldlM_cons, Lexer.step]
    simp only [h c List.mem_cons_self, if_true, Option.bind_eq_bind, Option.bind_some]
    rw [ih fun d hMem => h d (List.mem_cons_of_mem c hMem)]
    simp

/-- A number or a word is read to the character behind it. -/
theorem lexes_plain {cs : List Char} {t : Tree} {c : Char} {p : Token}
    (hRead : plain? cs = some t) (hPlain : ∀ d ∈ cs, isPlain d = true)
    (hBehind : punctuation? c = some p) : Lexes (cs ++ [c]) [.plain t, p] := by
  intro before
  cases cs with
  | nil => exact absurd hRead (by simp [plain?, number?, splitMinus, isWhole])
  | cons first rest =>
    -- The first character opens the token, the others stay in it, and the one behind ends it.
    have hFirst : Lexer.step ⟨before, .between⟩ first = some ⟨before, .plain [first]⟩ :=
      start_plain (hPlain first List.mem_cons_self) before
    have hRest := foldlM_plain (fun d hMem => hPlain d (List.mem_cons_of_mem first hMem)) before
      [first]
    obtain ⟨hNotPlain, hStart⟩ := start_punctuation hBehind (.plain t :: before)
    have hEnd : Lexer.endPlain before (rest.reverse ++ [first]) = some (.plain t :: before) := by
      simp [Lexer.endPlain, hRead]
    rw [List.cons_append, List.foldlM_cons, hFirst, Option.bind_eq_bind, Option.bind_some,
      List.foldlM_append, hRest, Option.bind_eq_bind, Option.bind_some]
    simp [Lexer.step, hNotPlain, hEnd, hStart]

/-! ### Strings -/

/-- Characters are not surrogates. -/
theorem characters?_map_toNat (cs : List Char) : characters? (cs.map Char.toNat) = some cs := by
  induction cs with
  | nil => rfl
  | cons c rest ih =>
    have hValid : c.toNat < 0xD800 ∨ 0xE000 ≤ c.toNat := by
      rcases c.valid with hLow | ⟨hHigh, -⟩
      · exact .inl hLow
      · exact .inr hHigh
    rw [List.map_cons, characters?.eq_def]
    simp only [ih]
    rw [if_pos (by simpa using hValid)]
    simp

theorem hexNumber?_hexDigit {n : Nat} (h : n < 32) :
    hexNumber? ['0', '0', hexDigit (n / 16), hexDigit (n % 16)] = some n := by
  have hAll : ∀ n < 32, hexNumber? ['0', '0', hexDigit (n / 16), hexDigit (n % 16)] = some n := by
    decide
  exact hAll n h

/-- The characters with an escape of one letter. -/
def shortEscapes : List Char :=
  ['"', '\\', '\n', '\r', '\t', '\x08', '\x0c']

/-- How the other characters are written. -/
theorem encodeChar_of_not_mem {c : Char} (h : c ∉ shortEscapes) :
    encodeChar c = if c.toNat < 32 then
      ['\\', 'u', '0', '0', hexDigit (c.toNat / 16), hexDigit (c.toNat % 16)] else [c] := by
  have hCode (d : Char) (hMem : d ∈ shortEscapes) : c.toNat ≠ d.toNat := fun hSame =>
    h (Char.toNat_inj.mp hSame ▸ hMem)
  have hBack : c.toNat ≠ 8 := hCode '\x08' (by decide)
  have hForm : c.toNat ≠ 12 := hCode '\x0c' (by decide)
  simp only [shortEscapes, List.mem_cons, List.not_mem_nil, not_or] at h
  simp [encodeChar, h, hBack, hForm]

/-- A character that was written between quotes is read as itself. -/
theorem foldlM_encodeChar (c : Char) (before : List Token) (points : List Nat) :
    (encodeChar c).foldlM Lexer.step ⟨before, .quoted points⟩ =
      some ⟨before, .quoted (c.toNat :: points)⟩ := by
  by_cases hShort : c ∈ shortEscapes
  · -- Each escape of one letter is read by itself.
    simp only [shortEscapes, List.mem_cons, List.not_mem_nil, or_false] at hShort
    rcases hShort with rfl | rfl | rfl | rfl | rfl | rfl | rfl <;> rfl
  · rw [encodeChar_of_not_mem hShort]
    split
    case isTrue hControl => simp [Lexer.step, hexNumber?_hexDigit hControl]
    case isFalse hVisible =>
      simp only [shortEscapes, List.mem_cons, not_or] at hShort
      simp [Lexer.step, hShort, hVisible]

theorem lexes_string (s : String) : Lexes (string s).toList [.text s] := by
  have hChars (cs : List Char) (before : List Token) (points : List Nat) :
      (cs.flatMap encodeChar).foldlM Lexer.step ⟨before, .quoted points⟩ =
        some ⟨before, .quoted ((cs.map Char.toNat).reverse ++ points)⟩ := by
    induction cs generalizing points with
    | nil => rfl
    | cons c rest ih =>
      rw [List.flatMap_cons, List.foldlM_append, foldlM_encodeChar, Option.bind_eq_bind,
        Option.bind_some, ih]
      simp
  intro before
  have hOpen : Lexer.step ⟨before, .between⟩ '"' = some ⟨before, .quoted []⟩ := rfl
  rw [string, String.toList_ofList, encodeChars, List.foldlM_cons, hOpen, Option.bind_eq_bind,
    Option.bind_some, List.foldlM_append, hChars]
  simp [Lexer.step, characters?_map_toNat]

end SqlMetrics.Text.Json
