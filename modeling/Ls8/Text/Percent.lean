import Ls8.Text.NumeralReading
import Ls8.Text.Quoted
import Ls8.Text.RealText

/-
  Templates with percent conversions, as log messages use them.

  A template is text in which `%` starts a conversion: flags, a width, a precision, an optional
  length letter that means nothing, and the letter that says what is written.  Every conversion
  takes the next argument; `%%` is no conversion but a percent sign.

  A template does not suit its arguments if one is missing or left over or of the wrong kind, or if
  a conversion is unknown or unfinished; `fill` then falls back to the template itself, followed by
  the list of arguments.  A number that is too large for the place where it is wanted is an error
  instead.  The first conversion that goes wrong decides which of both it is.  A text that is longer
  than anything that is ever printed is not worked out: it matters only if all else goes right.
-/

namespace Ls8.Text

/-- What a template can be filled in with. -/
inductive Argument where
  | integer (x : Int)
  | real (x : Float)
  | text (s : String)
  | truth (b : Bool)
  | absent
  | list (items : List Argument)
  | record (fields : List (String × Argument))

/-- A number that does not fit the place where it is wanted. -/
inductive Overflow where
  /-- A width given as an argument. -/
  | width
  /-- A precision given as an argument. -/
  | precision
  /-- More digits than an integer may be written with. -/
  | digits
  /-- No character has this number. -/
  | character
  /-- An infinite number has no whole part. -/
  | infinite
  /-- An integer beyond the greatest double. -/
  | real
  /-- There is no storage for a text of this length. -/
  | storage
  deriving DecidableEq, Repr

/-- Why a template cannot be filled in. -/
inductive FillError where
  /-- The template does not suit its arguments. -/
  | mismatch
  | overflow (e : Overflow)
  deriving DecidableEq, Repr

namespace Argument

mutual

/-- The argument as it stands in a list. -/
def listed : Argument → String
  | .integer x => decimal x
  | .real x => realText x
  | .text s => quote s
  | .truth true => "True"
  | .truth false => "False"
  | .absent => "None"
  | .list items => "[" ++ ", ".intercalate (listedItems items) ++ "]"
  | .record fields => "\x7b" ++ ", ".intercalate (listedFields fields) ++ "\x7d"

/-- The items of a list. -/
def listedItems : List Argument → List String
  | [] => []
  | a :: rest => a.listed :: listedItems rest

/-- The fields of a record, each with its name. -/
def listedFields : List (String × Argument) → List String
  | [] => []
  | (name, a) :: rest => (quote name ++ ": " ++ a.listed) :: listedFields rest

end

/-- The argument as plain text. -/
def plain : Argument → String
  | .text s => s
  | a => a.listed

/-- The integer that an argument is; a truth value counts as one or zero. -/
def integer? : Argument → Option Int
  | .integer x => some x
  | .truth b => some (if b then 1 else 0)
  | _ => none

/-- The integer that an argument has to be. -/
def asInteger (a : Argument) : Except FillError Int := a.integer?.elim (.error .mismatch) .ok

/-- The integer that an argument has; a double is cut towards zero. -/
def whole : Argument → Except FillError Int
  | .real x =>
    match magnitude x with
    | .infinite => .error (.overflow .infinite)
    | .undefined => .error .mismatch
    | .finite b => .ok (if isNegative x then -(b.ratio.floor : Int) else b.ratio.floor)
  | a => a.asInteger

/-- The double that an argument is, or that is nearest to it. -/
def double : Argument → Except FillError Float
  | .real x => .ok x
  | a =>
    match a.integer? with
    | none => .error .mismatch
    | some n =>
      let x := (DecimalNumber.finite (n < 0) n.natAbs 0).toFloat
      if magnitude x = .infinite then .error (.overflow .real) else .ok x

/-- The character with a number.  The numbers 0xd800 to 0xdfff belong to no character; for each of
    them stands the one 0xd0000 further on, which is not assigned. -/
def numbered (n : Nat) : Char :=
  if n.isValidChar then Char.ofNat n else Char.ofNat (n + 0xd0000)

/-- The character that an argument names: a text of one character, or the number of one. -/
def character : Argument → Except FillError Char
  | .text s =>
    match s.toList with
    | [c] => .ok c
    | _ => .error .mismatch
  | a =>
    match a.integer? with
    | none => .error .mismatch
    | some n =>
      if n < 0 ∨ 0x10ffff < n then .error (.overflow .character)
      else .ok (numbered n.toNat)

end Argument

/-- A text in which every character beyond ASCII is given by its code. -/
def escapeBeyondAscii (s : String) : String :=
  String.ofList (s.toList.flatMap fun c => if c.toNat < 128 then [c] else escapeCode c)

/-- A list of arguments in parentheses; a list of one has a comma behind it. -/
def argumentList (args : List Argument) : String :=
  let items := args.map Argument.listed
  "(" ++ ", ".intercalate items ++ (if items.length = 1 then ",)" else ")")

/-! ## Conversions -/

/-- One conversion, read from a template. -/
structure Conversion where
  left : Bool := false
  plus : Bool := false
  space : Bool := false
  alternate : Bool := false
  zero : Bool := false
  width : Nat := 0
  precision : Option Nat := none

/-- Flags in front of a conversion. -/
def readFlags : Conversion → List Char → Conversion × List Char
  | c, '-' :: rest => readFlags { c with left := true } rest
  | c, '+' :: rest => readFlags { c with plus := true } rest
  | c, ' ' :: rest => readFlags { c with space := true } rest
  | c, '#' :: rest => readFlags { c with alternate := true } rest
  | c, '0' :: rest => readFlags { c with zero := true } rest
  | c, rest => (c, rest)

/-- A number written in the template, zero if there is none. -/
def readCount (cs : List Char) : Nat × List Char :=
  ((cs.takeWhile Char.isDigit).foldl (fun n c => n * 10 + (c.toNat - '0'.toNat)) 0,
    cs.dropWhile Char.isDigit)

/-- The greatest width that a conversion may have.  A negative width, given by an argument, puts the
    text to the left; the least one of all is no width. -/
def widthLimit : Nat := 0x7fffffffffffffff

/-- The greatest precision that a conversion may have. -/
def precisionLimit : Nat := 0x7fffffff

/-- The greatest number of digits that an integer may be written with. -/
def digitLimit : Nat := 0x7ffffffc

/-- The greatest length of a text that is ever printed.  A longer one is not worked out. -/
def storageLimit : Nat := 0x40000000

/-- The greatest width for which there is storage. -/
def paddingLimit : Nat := 0x400000000

/-- Spaces that bring a text to the width of its conversion. -/
def Conversion.pad (c : Conversion) (text : List Char) : List Char :=
  let blanks := List.replicate (c.width - text.length) ' '
  if c.left then text ++ blanks else blanks ++ text

/-- A text under a conversion: cut to the precision, padded to the width. -/
def Conversion.ofText (c : Conversion) (s : String) : List Char :=
  c.pad (match c.precision with
    | some n => s.toList.take n
    | none => s.toList)

/-- A number under a conversion, given its sign, a mark and its digits. -/
def Conversion.ofDigits (c : Conversion) (negative : Bool) (mark : String) (digits : List Char) :
    List Char :=
  let sign := if negative then ['-'] else if c.plus then ['+'] else if c.space then [' '] else []
  c.pad (field sign mark.toList (if c.zero && !c.left then c.width else 0) digits)

/-- An integer under a conversion, given the mark and the digits of its base; nothing if the text is
    not worked out. -/
def Conversion.ofInteger (c : Conversion) (mark : String) (numeral : Nat → List Char) (x : Int) :
    Except FillError (Option (List Char)) :=
  let places := c.precision.getD 0
  if places > digitLimit then .error (.overflow .digits)
  else if places > storageLimit then .ok none
  else
    let digits := field [] [] places (numeral x.natAbs)
    .ok (c.ofDigits (x < 0) (if c.alternate then mark else "") digits)

/-- The precision at which a double is written.  Digits behind the last one of any double are not
    asked for where they would be dropped, and with an exponent the greatest precision of all leaves
    no places. -/
def Conversion.places (c : Conversion) (style : RealStyle) : Nat :=
  let places := c.precision.getD 6
  match style with
  | .fixed => places
  | .scientific => if places = precisionLimit then 0 else places
  | .general => if c.alternate then places else min places allDigits

/-- A number with a point under a conversion; nothing if the text is not worked out. -/
def Conversion.ofReal (c : Conversion) (style : RealStyle) (x : Float) : Option (List Char) :=
  let places := c.places style
  if x.isFinite ∧ places > storageLimit then none
  else c.ofDigits (isNegative x) "" (realChars (·.inStyle style places c.alternate) x)

/-- A real number in capital letters. -/
def Conversion.ofRealCapital (c : Conversion) (style : RealStyle) (x : Float) :
    Option (List Char) := (c.ofReal style x).map (·.map Char.toUpper)

/-- What a conversion of letter `kind` writes for an argument; nothing if the text is not worked
    out. -/
def Conversion.write (c : Conversion) (kind : Char) (arg : Argument) :
    Except FillError (Option (List Char)) :=
  match kind with
  | 's' => .ok (c.ofText arg.plain)
  | 'r' => .ok (c.ofText arg.listed)
  | 'a' => .ok (c.ofText (escapeBeyondAscii arg.listed))
  | 'c' => do return c.pad [← arg.character]
  | 'd' | 'i' | 'u' => do c.ofInteger "" decimalDigits (← arg.whole)
  | 'x' => do c.ofInteger "0x" (hexDigits false) (← arg.asInteger)
  | 'X' => do c.ofInteger "0X" (hexDigits true) (← arg.asInteger)
  | 'o' => do c.ofInteger "0o" octalDigits (← arg.asInteger)
  | 'f' => do return c.ofReal .fixed (← arg.double)
  | 'e' => do return c.ofReal .scientific (← arg.double)
  | 'g' => do return c.ofReal .general (← arg.double)
  | 'F' => do return c.ofRealCapital .fixed (← arg.double)
  | 'E' => do return c.ofRealCapital .scientific (← arg.double)
  | 'G' => do return c.ofRealCapital .general (← arg.double)
  | _ => .error .mismatch

/-- What a conversion of letter `kind` writes for an argument; nothing if the text is not worked
    out.  That the argument suits is found out before there is storage for the text. -/
def Conversion.apply (c : Conversion) (kind : Char) (arg : Argument) :
    Except FillError (Option (List Char)) := do
  if c.width > storageLimit then
    discard ({ c with width := 0 }.write kind arg)
    if c.width > paddingLimit then throw (.overflow .storage)
    return none
  else c.write kind arg

/-! ## Templates -/

/-- A width or precision: a number, or `*`, which takes the next argument. -/
def readMeasure (limit : Nat) (tooLarge : Overflow) (cs : List Char) (args : List Argument) :
    Except FillError (Int × List Char × List Argument) :=
  match cs, args with
  | '*' :: rest, arg :: args =>
    match arg.integer? with
    | none => .error .mismatch
    | some n =>
      if -(limit : Int) - 1 ≤ n ∧ n ≤ limit then .ok (n, rest, args)
      else .error (.overflow tooLarge)
  | '*' :: _, [] => .error .mismatch
  | _, _ =>
    let (n, rest) := readCount cs
    if n ≤ limit then .ok (n, rest, args) else .error .mismatch

/-- One conversion, read from behind its `%`: what it writes, and the template and the arguments
    that are left. -/
def convert (cs : List Char) (args : List Argument) :
    Except FillError (Option (List Char) × List Char × List Argument) := do
  let (c, cs) := readFlags {} cs
  let (width, cs, args) ← readMeasure widthLimit .width cs args
  let c := { c with
    width := if width < -(widthLimit : Int) then 0 else width.natAbs
    left := c.left || decide (width < 0) }
  let (c, cs, args) ← match cs with
    | '.' :: rest => do
      let (precision, rest, args) ← readMeasure precisionLimit .precision rest args
      pure ({ c with precision := some precision.toNat }, rest, args)
    | _ => pure (c, cs, args)
  let cs := match cs with
    | 'h' :: rest | 'l' :: rest | 'L' :: rest => rest
    | _ => cs
  match cs, args with
  | kind :: rest, arg :: args => do
    let text ← c.apply kind arg
    return (text, rest, args)
  | _, _ => throw .mismatch

/-- A template filled in, if every conversion succeeds and takes part in using up the arguments;
    nothing if the text is not worked out.  Each conversion shortens the template, so its length
    bounds their number. -/
def fillFrom : Nat → List Char → List Argument → Except FillError (Option (List Char))
  | _, [], [] => .ok (some [])
  | _, [], _ :: _ => .error .mismatch
  | 0, _ :: _, _ => .error .mismatch
  | n + 1, '%' :: '%' :: rest, args => do
    let more ← fillFrom n rest args
    return more.map ('%' :: ·)
  | n + 1, '%' :: rest, args => do
    let (text, rest, args) ← convert rest args
    let more ← fillFrom n rest args
    return do return (← text) ++ (← more)
  | n + 1, c :: rest, args => do
    let more ← fillFrom n rest args
    return more.map (c :: ·)

/-- **A message with its arguments.**  Without arguments the template is the message; a template
    that does not suit its arguments is shown with the list of them. -/
def fill (template : String) (args : List Argument) : Except Overflow String :=
  if args.isEmpty then .ok template
  else
    match fillFrom template.length template.toList args with
    | .ok (some cs) => .ok (String.ofList cs)
    | .ok none => .error .storage
    | .error .mismatch => .ok (template ++ " " ++ argumentList args)
    | .error (.overflow e) => .error e

example : fill "100%" [] = .ok "100%" := rfl
example : fill "pc=%02x %s" [.integer 31, .text "NOP"] = .ok "pc=1f NOP" := by cbv
example : fill "%d" [.integer 1, .integer 2] = .ok "%d (1, 2)" := by cbv
example : (fill "%.1f" [.real 0.25]).toOption = some "0.2" := by decide +kernel
example : fill "%*d" [.integer 0x8000000000000000, .integer 1] = .error .width := by cbv

end Ls8.Text
