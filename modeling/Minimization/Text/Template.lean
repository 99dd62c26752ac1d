import Minimization.Text.Directive
import Minimization.Text.Word

/-!
# Templates

A template is a text with directives. `Template.read` splits it into its pieces, and `Template.fill`
puts values in: values in order, or fields by name, where the object of all fields is the only value in
order. Every value in order has to be used, and so does every field that is named. Two percent signs stand
for one. A percent sign that starts no directive shows only when values are put in, as a failure.

A layout is asked for a named directive before it is used (`Template.mentionsName`). What counts as one
there is not quite what can be filled: names are words, the letters of conversions may be capitals, and
digits may be of any script.
-/

namespace Minimization.Text

/-- A part of a template. -/
inductive Piece where
  | literal (c : Char)
  | directive (d : Directive)
  | malformed

/-- The pieces of a template. -/
abbrev Template := List Piece

/-- What a template is filled with: fields by name, if there are any, and the values in order that are
left. -/
structure Supply where
  fields : Option (Fields Value)
  queue : List Value

namespace Supply

/-- Values in order. -/
def inOrder (values : List Value) : Supply := ⟨none, values⟩

/-- Fields by name. -/
def byName (fields : Fields Value) : Supply := ⟨some fields, [.object fields]⟩

/-- Takes the next value. -/
def next (s : Supply) : Except Failure (Value × Supply) :=
  match s.queue with
  | v :: vs => .ok (v, { s with queue := vs })
  | [] => .error .wrongType

/-- Looks up the name of a directive, if it has one: the field is the only value in order from then
on. -/
def lookUp (s : Supply) (name : Option String) : Except Failure Supply :=
  match name, s.fields with
  | none, _ => .ok s
  | some _, none => .error .wrongType
  | some name, some fields =>
    match fields.get? name with
    | some v => .ok { s with queue := [v] }
    | none => .error .absent

/-- The number of a width or a precision, unless it is too large; a star takes the next value. -/
def measure (s : Supply) (m : Option Measure) : Except Failure (Option Int × Supply) := do
  let (n, s) ← match m with
    | none => return (none, s)
    | some (.fixed n) => pure ((n : Int), s)
    | some .given =>
      let (v, s) ← s.next
      pure (← Style.wholeOnly v, s)
  if Measure.most < n.natAbs then throw .overflow
  return (some n, s)

/-- Writes a directive. With fields by name, it has to use up what it looked up. -/
def write (s : Supply) (d : Directive) : Except Failure (String × Supply) := do
  let s ← s.lookUp d.name
  let (width, s) ← s.measure d.width
  let (places, s) ← s.measure d.places
  let (v, s) ← s.next
  let text ← (Style.ofFlags d.flags width places).apply d.letter v
  if s.fields.isSome && !s.queue.isEmpty then throw .wrongType
  return (text, s)

/-- Whether no value is left that has to be used. -/
def isSpent (s : Supply) : Bool := s.fields.isSome || s.queue.isEmpty

end Supply

namespace Template

/-- The pieces of a text of at most `fuel` characters. -/
def readWithin : (fuel : Nat) → List Char → Template
  | 0, _ => []
  | _, [] => []
  | fuel + 1, '%' :: '%' :: cs => .literal '%' :: readWithin fuel cs
  | fuel + 1, '%' :: cs =>
    match Directive.take? cs with
    | some (d, rest) => .directive d :: readWithin fuel rest
    | none => [.malformed]
  | fuel + 1, c :: cs => .literal c :: readWithin fuel cs

/-- The pieces of a text. -/
def read (s : String) : Template := readWithin s.length s.toList

/-- The text of a template. -/
def fill : Template → Supply → Except Failure String
  | [], s => if s.isSpent then .ok "" else .error .wrongType
  | .malformed :: _, _ => .error .malformedFormat
  | .literal c :: rest, s => do return String.singleton c ++ (← fill rest s)
  | .directive d :: rest, s => do
    let (text, s) ← s.write d
    return text ++ (← fill rest s)

/-- The letters of conversions that a layout may use, and those that are capitals or variants of
them. -/
def conversions : List Char := "diouxefgcrsa%DIOUXEFGCRSAıİſ".toList

/-- What follows a star or a number at the start of a text, if there is one. A layout may have digits of
any script there, although a directive is filled with those of ASCII only. -/
def afterMeasure? (cs : List Char) : Option (List Char) :=
  match cs with
  | '*' :: rest => some rest
  | cs =>
    match cs.takeWhile isDecimalDigit with
    | [] => none
    | _ => some (cs.dropWhile isDecimalDigit)

/-- What follows a width at the start of a text, which may be absent. -/
def afterWidth (cs : List Char) : List Char := (afterMeasure? cs).getD cs

/-- What follows a point with a precision at the start of a text, which may be absent. -/
def afterPlaces (cs : List Char) : List Char :=
  match cs with
  | '.' :: rest => (afterMeasure? rest).getD cs
  | cs => cs

/-- Whether a text starts with the rest of a named directive, after its percent sign. -/
def startsNamed (cs : List Char) : Bool :=
  match cs with
  | '(' :: rest =>
    match rest.takeWhile isWordChar, rest.dropWhile isWordChar with
    | _ :: _, ')' :: rest =>
      match afterPlaces (afterWidth (rest.dropWhile Directive.flagChars.contains)) with
      | c :: _ => conversions.contains c
      | [] => false
    | _, _ => false
  | _ => false

/-- Whether a directive with a name starts at some place of a text. -/
def mentionsName : List Char → Bool
  | [] => false
  | c :: cs => (c = '%' && startsNamed cs) || mentionsName cs

end Template

end Minimization.Text
