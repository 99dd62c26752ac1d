import Minimization.Value.Basic

/-!
# Tokens of a written configuration

Configurations are written as objects, lists, quoted texts, numbers and words. `Token.scan` cuts a
text into tokens, one character at a time: `Scanner` holds the token being read, `Scanner.step`
consumes one character. A number is a float when it has a point or an exponent and a whole number
otherwise. Control characters may not stand inside a quoted text.
-/

namespace Minimization.Value

/-- The tokens of a written configuration. -/
inductive Token where
  | openList
  | closeList
  | openObject
  | closeObject
  | comma
  | colon
  | text (s : String)
  | plain (v : Value)

/-- The token being read, characters in reverse order. A quoted text may hold the first half of a
character that is written in two halves. -/
inductive Scanner.Mode where
  | between
  | number (read : List Char)
  | word (read : List Char)
  | quoted (read : List Char) (half : Option Nat)
  | escape (read : List Char) (half : Option Nat)
  | code (read : List Char) (half : Option Nat) (digits value : Nat)

/-- The tokens read so far, in reverse order, and the one being read. -/
structure Scanner where
  tokens : List Token
  mode : Scanner.Mode

/-- Whether a character can stand in a number. -/
def isNumberChar (c : Char) : Bool :=
  c.isDigit || c == '-' || c == '+' || c == '.' || c == 'e' || c == 'E'

/-- Whether a character separates tokens. -/
def isSeparator (c : Char) : Bool := c == ' ' || c == '\t' || c == '\n' || c == '\r'

/-- The decimal digits at the start and what follows. -/
def spanDigits (cs : List Char) : List Char × List Char :=
  (cs.takeWhile Char.isDigit, cs.dropWhile Char.isDigit)

/-- The number that a list of decimal digits stands for. -/
def digitsValue (ds : List Char) : Nat := ds.foldl (fun n d => 10 * n + (d.toNat - '0'.toNat)) 0

/-- The fraction of a number: a point and at least one digit, or nothing. -/
def fraction? : List Char → Option (Option (List Char) × List Char)
  | '.' :: rest =>
    match spanDigits rest with
    | ([], _) => none
    | (ds, after) => some (some ds, after)
  | cs => some (none, cs)

/-- The exponent of a number, or nothing; it must end the number. -/
def power? : List Char → Option (Option Int)
  | [] => some none
  | c :: rest =>
    if c = 'e' ∨ c = 'E' then
      let (negative, body) := Decimal.takeSign rest
      match spanDigits body with
      | ([], _) => none
      | (ds, []) => some (some (Decimal.signed negative (digitsValue ds)))
      | _ => none
    else none

/-- A number: an optional minus, digits without a leading zero, a fraction, an exponent. A whole
number has a bounded count of digits. -/
def readNumber (cs : List Char) : Except Failure Value :=
  let (negative, body) :=
    match cs with
    | '-' :: rest => (true, rest)
    | _ => (false, cs)
  let (whole, rest) := spanDigits body
  let leads := match whole with
    | ['0'] => true
    | d :: _ => d != '0'
    | [] => false
  if !leads then .error .malformedText
  else match fraction? rest with
    | none => .error .malformedText
    | some (fraction, rest) =>
      match fraction, power? rest with
      | _, none => .error .malformedText
      | none, some none =>
        if Decimal.mostDigits < whole.length then .error .unreadable
        else .ok (.int (Decimal.signed negative (digitsValue whole)))
      | fraction, some power =>
        let places := fraction.getD []
        let shift : Int := power.getD 0 - places.length
        .ok (.real (Decimal.ofDigits negative (digitsValue (whole ++ places)) shift))

/-- The words of a configuration. -/
def readWord (cs : List Char) : Except Failure Value :=
  match String.ofList cs with
  | "true" => .ok (.bool true)
  | "false" => .ok (.bool false)
  | "null" => .ok .null
  | "NaN" => .ok (.real (0.0 / 0.0))
  | "Infinity" => .ok (.real (1.0 / 0.0))
  | "-Infinity" => .ok (.real (-1.0 / 0.0))
  | _ => .error .malformedText

/-- The value of a hexadecimal digit. -/
def hexValue? (c : Char) : Option Nat :=
  if c.isDigit then some (c.toNat - '0'.toNat)
  else if 'a' ≤ c ∧ c ≤ 'f' then some (c.toNat - 'a'.toNat + 10)
  else if 'A' ≤ c ∧ c ≤ 'F' then some (c.toNat - 'A'.toNat + 10)
  else none

/-- The characters read so far, with a first half that was not completed replaced by the replacement
character. -/
def settle (read : List Char) : Option Nat → List Char
  | none => read
  | some _ => '\ufffd' :: read

/-- A character given by its code: a first half is kept, a second half completes it. -/
def takeCode (read : List Char) (half : Option Nat) (value : Nat) : Scanner.Mode :=
  if 0xd800 ≤ value ∧ value < 0xdc00 then .quoted (settle read half) (some value)
  else if 0xdc00 ≤ value ∧ value < 0xe000 then
    match half with
    | some high =>
      let code := 0x10000 + (high - 0xd800) * 0x400 + (value - 0xdc00)
      .quoted (Char.ofNat code :: read) none
    | none => .quoted ('\ufffd' :: read) none
  else .quoted (Char.ofNat value :: settle read half) none

/-- The character that a letter after a backslash stands for. -/
def escaped? : Char → Option Char
  | '"' => some '"'
  | '\\' => some '\\'
  | '/' => some '/'
  | 'b' => some '\x08'
  | 'f' => some '\x0c'
  | 'n' => some '\n'
  | 'r' => some '\r'
  | 't' => some '\t'
  | _ => none

/-- The mark that a character is on its own. -/
def mark? : Char → Option Token
  | '[' => some .openList
  | ']' => some .closeList
  | '\x7b' => some .openObject
  | '\x7d' => some .closeObject
  | ',' => some .comma
  | ':' => some .colon
  | _ => none

/-- A character where a token can begin. -/
def Scanner.start (tokens : List Token) (c : Char) : Except Failure Scanner :=
  if isSeparator c then .ok ⟨tokens, .between⟩
  else if c = '"' then .ok ⟨tokens, .quoted [] none⟩
  else if c.isDigit ∨ c = '-' then .ok ⟨tokens, .number [c]⟩
  else if c.isAlpha then .ok ⟨tokens, .word [c]⟩
  else match mark? c with
    | some t => .ok ⟨t :: tokens, .between⟩
    | none => .error .malformedText

/-- Consumes one character. -/
def Scanner.step (s : Scanner) (c : Char) : Except Failure Scanner :=
  match s.mode with
  | .between => Scanner.start s.tokens c
  | .number read =>
    if isNumberChar c then .ok { s with mode := .number (c :: read) }
    else if read = ['-'] ∧ c.isAlpha then .ok { s with mode := .word (c :: read) }
    else do
      let v ← readNumber read.reverse
      Scanner.start (.plain v :: s.tokens) c
  | .word read =>
    if c.isAlpha then .ok { s with mode := .word (c :: read) }
    else do
      let v ← readWord read.reverse
      Scanner.start (.plain v :: s.tokens) c
  | .quoted read half =>
    if c = '"' then
      .ok ⟨.text (String.ofList (settle read half).reverse) :: s.tokens, .between⟩
    else if c = '\\' then .ok { s with mode := .escape read half }
    else if c.toNat < 32 then .error .malformedText
    else .ok { s with mode := .quoted (c :: settle read half) none }
  | .escape read half =>
    if c = 'u' then .ok { s with mode := .code read half 0 0 }
    else match escaped? c with
      | some d => .ok { s with mode := .quoted (d :: settle read half) none }
      | none => .error .malformedText
  | .code read half digits value =>
    match hexValue? c with
    | none => .error .malformedText
    | some d =>
      let value := 16 * value + d
      if digits = 3 then .ok { s with mode := takeCode read half value }
      else .ok { s with mode := .code read half (digits + 1) value }

/-- The tokens of a whole text: the last one must be complete. -/
def Scanner.finish (s : Scanner) : Except Failure (List Token) :=
  match s.mode with
  | .between => .ok s.tokens.reverse
  | .number read => do
    let v ← readNumber read.reverse
    .ok (.plain v :: s.tokens).reverse
  | .word read => do
    let v ← readWord read.reverse
    .ok (.plain v :: s.tokens).reverse
  | _ => .error .malformedText

/-- The tokens of a text. -/
def Token.scan (text : String) : Except Failure (List Token) := do
  let s ← text.toList.foldlM Scanner.step ⟨[], .between⟩
  s.finish

end Minimization.Value
