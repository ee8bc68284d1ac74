import BuildRules.Shell.Arithmetic

namespace BuildRules.Shell.Format

private def isOctal (c : Char) : Bool := decide ('0' ≤ c) && decide (c ≤ '7')

private def letters : List (Char × Char) :=
  [('a', '\x07'), ('b', '\x08'), ('f', '\x0c'), ('n', '\n'), ('r', '\r'), ('t', '\t'),
    ('v', '\x0b'), ('\\', '\\')]

/-- The byte after a backslash: one to three octal digits, or a letter. A backslash before
anything else stands for itself. -/
def escape (chars : List Char) : Char × List Char :=
  let run := (chars.take 3).takeWhile isOctal
  match chars with
  | c :: rest =>
    if run.isEmpty then
      match letters.lookup c with
      | some byte => (byte, rest)
      | none => ('\\', chars)
    else
      let value := run.foldl (fun value c => 8 * value + Json.digitValue c) 0
      (Char.ofNat (value % 256), chars.drop run.length)
  | [] => ('\\', [])

/-- Escapes in the text of an argument, where an octal number may begin with one more zero.
The second part tells whether the output ends here. -/
def unescaped : Nat → List Char → Bytes × Bool
  | 0, _ => ([], false)
  | _ + 1, [] => ([], false)
  | fuel + 1, c :: rest =>
    if c != '\\' then
      let (more, stops) := unescaped fuel rest
      (c :: more, stops)
    else
      match rest with
      | 'c' :: _ => ([], true)
      | _ =>
        let digits := match rest with
          | '0' :: d :: more => if isOctal d then d :: more else rest
          | _ => rest
        let (byte, rest) := escape digits
        let (more, stops) := unescaped fuel rest
        (byte :: more, stops)

structure Directive where
  flags : List Char
  width : Nat
  precision : Option Nat
  letter : Char

private def directive? (chars : List Char) : Option (Directive × List Char) :=
  let flags := chars.takeWhile fun c => "#-+ 0".toList.contains c
  let rest := chars.drop flags.length
  let width := rest.takeWhile Char.isDigit
  let rest := rest.drop width.length
  let (precision, rest) :=
    match rest with
    | '.' :: more =>
      let places := more.takeWhile Char.isDigit
      (some (Json.decimalValue places), more.drop places.length)
    | _ => (none, rest)
  match rest with
  | letter :: rest => some (⟨flags, Json.decimalValue width, precision, letter⟩, rest)
  | [] => none

private def padded (directive : Directive) (text : Bytes) : Bytes :=
  let blanks := List.replicate (directive.width - text.length) ' '
  if directive.flags.contains '-' then text ++ blanks else blanks ++ text

private def integer (directive : Directive) (sign digits : Bytes) : Bytes :=
  let zeros (count : Nat) : Bytes := List.replicate (count - digits.length) '0'
  match directive.precision with
  | some places => padded directive (sign ++ zeros places ++ digits)
  | none =>
    if directive.flags.contains '0' && !directive.flags.contains '-' then
      sign ++ zeros (directive.width - sign.length) ++ digits
    else padded directive (sign ++ digits)

private def signOf (directive : Directive) (value : Int) : Bytes :=
  if value < 0 then ['-']
  else if directive.flags.contains '+' then ['+']
  else if directive.flags.contains ' ' then [' ']
  else []

/-- An argument as a number: a quote stands for the character after it. -/
private def numberOf (argument : Bytes) : Option Int :=
  match argument with
  | [] => some 0
  | '\x27' :: c :: _ | '\x22' :: c :: _ => some c.toNat
  | _ => Arithmetic.numberOf? argument

/-- A number as a machine word has it. -/
private def wordOf (value : Int) : Nat := (value % 0x10000000000000000).toNat

structure Output where
  text : Bytes
  rest : List Bytes
  /-- No further output is wanted. -/
  stops : Bool
  /-- Every argument had the form that its directive asks for. -/
  fits : Bool

private def writeNumber (directive : Directive) (value : Int) : Option Bytes :=
  let letter := directive.letter
  if letter == 'd' || letter == 'i' then
    some (integer directive (signOf directive value) (Nat.toDigits 10 value.natAbs))
  else if letter == 'u' then some (integer directive [] (Nat.toDigits 10 (wordOf value)))
  else if letter == 'o' then some (integer directive [] (Nat.toDigits 8 (wordOf value)))
  else if letter == 'x' then some (integer directive [] (Nat.toDigits 16 (wordOf value)))
  else if letter == 'X' then
    some (integer directive [] ((Nat.toDigits 16 (wordOf value)).map Char.toUpper))
  else none

/-- One use of a format. -/
private def once : Nat → List Char → List Bytes → Output
  | 0, _, arguments => ⟨[], arguments, true, true⟩
  | _ + 1, [], arguments => ⟨[], arguments, false, true⟩
  | fuel + 1, c :: rest, arguments =>
    let prepend (text : Bytes) (output : Output) : Output :=
      { output with text := text ++ output.text }
    if c == '\\' then
      let (byte, rest) := escape rest
      prepend [byte] (once fuel rest arguments)
    else if c != '%' then prepend [c] (once fuel rest arguments)
    else
      match rest with
      | '%' :: rest => prepend ['%'] (once fuel rest arguments)
      | _ =>
        match directive? rest with
        | none => ⟨['%'], arguments, true, false⟩
        | some (directive, rest) =>
          let argument := arguments.headD []
          let others := arguments.tail
          if directive.letter == 's' then
            let text := match directive.precision with
              | some places => argument.take places
              | none => argument
            prepend (padded directive text) (once fuel rest others)
          else if directive.letter == 'b' then
            let (text, stops) := unescaped (argument.length + 1) argument
            if stops then ⟨padded directive text, others, true, true⟩
            else prepend (padded directive text) (once fuel rest others)
          else if directive.letter == 'c' then
            prepend (padded directive (argument.take 1)) (once fuel rest others)
          else
            let value := numberOf argument
            match writeNumber directive (value.getD 0) with
            | none => ⟨[], arguments, true, false⟩
            | some text =>
              let output := prepend text (once fuel rest others)
              { output with fits := output.fits && value.isSome }

private def again (format : Bytes) : Nat → List Bytes → Output
  | 0, arguments => ⟨[], arguments, true, true⟩
  | fuel + 1, arguments =>
    let first := once (format.length + 1) format arguments
    if first.stops || first.rest.isEmpty || first.rest.length = arguments.length then first
    else
      let others := again format fuel first.rest
      ⟨first.text ++ others.text, others.rest, others.stops, first.fits && others.fits⟩

/-- The output of a format, and whether all arguments fit it. -/
def write (format : Bytes) (arguments : List Bytes) : Bytes × Bool :=
  let output := again format (arguments.length + 1) arguments
  (output.text, output.fits)

end BuildRules.Shell.Format
