namespace BuildRules.Shell

/-- Text of the shell: each byte is the character of its number. -/
abbrev Bytes := List Char

mutual

/-- A part of a word. A quoted part is neither split nor dropped where it is empty. -/
inductive Piece where
  | literal (text : Bytes) (quoted : Bool)
  | parameter (name : Bytes) (quoted : Bool)
  /-- Another word where a parameter is unset or, for some, empty. -/
  | fallback (name : Bytes) (orEmpty : Bool) (other : List Piece) (quoted : Bool)
  | arithmetic (expression : Bytes) (quoted : Bool)
  /-- The output of a script, without line feeds at its end. -/
  | output (script : Script) (quoted : Bool)

/-- Where a channel leads. -/
inductive Redirection where
  | copy (channel source : Nat)
  | write (channel : Nat) (path : List Piece) (append : Bool)
  | read (path : List Piece)

inductive Script where
  | nothing
  | simple (assignments : List (Bytes × List Piece)) (words : List (List Piece))
      (redirections : List Redirection)
  | sequence (first second : Script)
  | both (first second : Script)
  | either (first second : Script)
  | negated (script : Script)
  | piped (first second : Script)
  | loop (whileTrue : Bool) (condition body : Script)
  | branch (condition whenTrue whenFalse : Script)
  | forEach (name : Bytes) (words : Option (List (List Piece))) (body : Script)
  | grouped (body : Script) (redirections : List Redirection)
  /-- Nothing that happens inside changes the variables outside. -/
  | forked (body : Script) (redirections : List Redirection)

end

instance : Inhabited Script := ⟨.nothing⟩

/-- The piece as it is where words are not split. -/
def Piece.whole : Piece → Piece
  | .literal text _ => .literal text true
  | .parameter name _ => .parameter name true
  | .fallback name orEmpty other _ => .fallback name orEmpty other true
  | .arithmetic expression _ => .arithmetic expression true
  | .output script _ => .output script true

def isNameStart (c : Char) : Bool := c.isAlpha || c == '_'
def isNameChar (c : Char) : Bool := c.isAlphanum || c == '_'

/-- Characters that end a word where they are not quoted. -/
def isMeta (c : Char) : Bool := "|&;<>() \t\n".toList.contains c

private def isSpecial (c : Char) : Bool := c == ' ' || c == '\t'

/-- Blanks, joined lines and a comment. -/
private def skipBlanks : List Char → List Char
  | '\\' :: '\n' :: rest => skipBlanks rest
  | '#' :: rest => rest.dropWhile (· != '\n')
  | c :: rest => if isSpecial c then skipBlanks rest else c :: rest
  | [] => []

private def skipLines : Nat → List Char → List Char
  | 0, chars => chars
  | fuel + 1, chars =>
    match skipBlanks chars with
    | '\n' :: rest => skipLines fuel rest
    | chars => chars

private def keywords : List String :=
  ["then", "elif", "else", "fi", "do", "done", "\x7d"]

/-- The characters up to the next that ends a word. -/
private def bareWord (chars : List Char) : String := String.ofList (chars.takeWhile (!isMeta ·))

private def atEnd (chars : List Char) : Bool :=
  match chars with
  | [] | ')' :: _ => true
  | _ => keywords.contains (bareWord chars)

private def after? (keyword : String) (chars : List Char) : Option (List Char) :=
  let chars := skipLines (chars.length + 1) chars
  if bareWord chars == keyword then some (chars.drop keyword.length) else none

/-- The text up to two closing parentheses that match, and what follows them. -/
private def arithmeticText : Nat → List Char → List Char → Option (Bytes × List Char)
  | _, _, [] => none
  | depth, written, c :: rest =>
    if c == '(' then arithmeticText (depth + 1) (c :: written) rest
    else if c == ')' then
      if depth = 0 then
        if rest.head? == some ')' then some (written.reverse, rest.tail) else none
      else arithmeticText (depth - 1) (c :: written) rest
    else arithmeticText depth (c :: written) rest

/-- A name with an equals sign at the beginning of a word. -/
private def assignment? : List Piece → Option (Bytes × List Piece)
  | .literal text false :: rest =>
    let name := text.takeWhile isNameChar
    match text.drop name.length, name with
    | '=' :: value, c :: _ =>
      if isNameStart c then
        some (name, if value.isEmpty then rest else .literal value false :: rest)
      else none
    | _, _ => none
  | _ => none

private def escapedInQuotes (c : Char) : Bool := "$`\"\\".toList.contains c

mutual

/-- The pieces of a word up to a character that ends it. -/
private def pieces : Nat → List Char → Option (List Piece × List Char)
  | 0, _ => none
  | fuel + 1, chars =>
    match chars with
    | [] => some ([], [])
    | '\x27' :: rest =>
      let text := rest.takeWhile (· != '\x27')
      match rest.drop text.length with
      | _ :: after =>
        (pieces fuel after).map fun (more, after) => (.literal text true :: more, after)
      | [] => none
    | '\x22' :: rest => do
      let (inner, after) ← quotedPieces fuel rest
      let (more, after) ← pieces fuel after
      return (.literal [] true :: inner ++ more, after)
    | '\\' :: '\n' :: rest => pieces fuel rest
    | '\\' :: c :: rest =>
      (pieces fuel rest).map fun (more, after) => (.literal [c] true :: more, after)
    | '$' :: rest => do
      let (piece, after) ← dollar false fuel rest
      let (more, after) ← pieces fuel after
      return (piece :: more, after)
    | c :: rest =>
      if isMeta c then some ([], chars)
      else
        let run := rest.takeWhile fun c => !isMeta c && !"'\"\\$".toList.contains c
        (pieces fuel (rest.drop run.length)).map fun (more, after) =>
          (.literal (c :: run) false :: more, after)

/-- Pieces up to the closing double quote. -/
private def quotedPieces : Nat → List Char → Option (List Piece × List Char)
  | 0, _ => none
  | fuel + 1, chars =>
    match chars with
    | [] => none
    | '\x22' :: rest => some ([], rest)
    | '\\' :: '\n' :: rest => quotedPieces fuel rest
    | '\\' :: c :: rest =>
      (quotedPieces fuel rest).map fun (more, after) =>
        (.literal (if escapedInQuotes c then [c] else ['\\', c]) true :: more, after)
    | '$' :: rest => do
      let (piece, after) ← dollar true fuel rest
      let (more, after) ← quotedPieces fuel after
      return (piece :: more, after)
    | c :: rest =>
      let run := rest.takeWhile fun c => !"\"\\$".toList.contains c
      (quotedPieces fuel (rest.drop run.length)).map fun (more, after) =>
        (.literal (c :: run) true :: more, after)

/-- What a dollar sign begins. -/
private def dollar (quoted : Bool) : Nat → List Char → Option (Piece × List Char)
  | 0, _ => none
  | fuel + 1, chars =>
    match chars with
    | '(' :: '(' :: rest =>
      (arithmeticText 0 [] rest).map fun (text, after) => (.arithmetic text quoted, after)
    | '(' :: rest => do
      let (script, after) ← statements fuel rest
      match after with
      | ')' :: after => return (.output script quoted, after)
      | _ => none
    | '\x7b' :: rest => braced quoted fuel rest
    | c :: rest =>
      if isNameStart c then
        let name := chars.takeWhile isNameChar
        some (.parameter name quoted, chars.drop name.length)
      else if c.isDigit || "@*#?$!-".toList.contains c then some (.parameter [c] quoted, rest)
      else some (.literal ['$'] quoted, chars)
    | [] => some (.literal ['$'] quoted, [])

/-- A parameter in braces, possibly with another word for it. -/
private def braced (quoted : Bool) : Nat → List Char → Option (Piece × List Char)
  | 0, _ => none
  | fuel + 1, chars =>
    let run := chars.takeWhile isNameChar
    let name := if run.isEmpty then chars.take 1 else run
    let otherwise (orEmpty : Bool) (rest : List Char) : Option (Piece × List Char) := do
      let (other, after) ← bracedPieces quoted fuel rest
      return (.fallback name orEmpty other quoted, after)
    match chars.drop name.length with
    | '\x7d' :: after => some (.parameter name quoted, after)
    | ':' :: '-' :: rest => otherwise true rest
    | '-' :: rest => otherwise false rest
    | _ => none

/-- Pieces up to the closing brace. -/
private def bracedPieces (quoted : Bool) : Nat → List Char → Option (List Piece × List Char)
  | 0, _ => none
  | fuel + 1, chars =>
    match chars with
    | [] => none
    | '\x7d' :: rest => some ([], rest)
    | '\x22' :: rest => do
      let (inner, after) ← quotedPieces fuel rest
      let (more, after) ← bracedPieces quoted fuel after
      return (inner ++ more, after)
    | '$' :: rest => do
      let (piece, after) ← dollar quoted fuel rest
      let (more, after) ← bracedPieces quoted fuel after
      return (piece :: more, after)
    | c :: rest =>
      let run := rest.takeWhile fun c => !"\x7d\"$".toList.contains c
      (bracedPieces quoted fuel (rest.drop run.length)).map fun (more, after) =>
        (.literal (c :: run) quoted :: more, after)

/-- A redirection, if one stands here. -/
private def redirection? : Nat → List Char → Option (Option (Redirection × List Char))
  | 0, _ => none
  | fuel + 1, chars =>
    let digits := chars.takeWhile Char.isDigit
    let number (standard : Nat) : Nat :=
      match digits with
      | [c] => c.toNat - '0'.toNat
      | _ => standard
    match chars.drop digits.length with
    | '>' :: '&' :: c :: rest =>
      if c.isDigit then some (some (.copy (number 1) (c.toNat - '0'.toNat), rest)) else none
    | '>' :: '>' :: rest => do
      let (path, after) ← pieces fuel (skipBlanks rest)
      return some (.write (number 1) path true, after)
    | '>' :: rest => do
      let (path, after) ← pieces fuel (skipBlanks rest)
      return some (.write (number 1) path false, after)
    | '<' :: rest => do
      let (path, after) ← pieces fuel (skipBlanks rest)
      return some (.read path, after)
    | _ => some none

private def redirections : Nat → List Char → Option (List Redirection × List Char)
  | 0, _ => none
  | fuel + 1, chars => do
    let chars := skipBlanks chars
    match ← redirection? fuel chars with
    | some (redirection, after) =>
      let (more, after) ← redirections fuel after
      return (redirection :: more, after)
    | none => return ([], chars)

/-- Words and redirections in any order. -/
private def simple : Nat → List (Bytes × List Piece) → List (List Piece) → List Redirection →
    List Char → Option (Script × List Char)
  | 0, _, _, _, _ => none
  | fuel + 1, assignments, words, others, chars => do
    let chars := skipBlanks chars
    match ← redirection? fuel chars with
    | some (redirection, after) => simple fuel assignments words (others ++ [redirection]) after
    | none =>
      let finished := .simple assignments words others
      match chars with
      | [] => return (finished, [])
      | c :: _ =>
        if isMeta c then return (finished, chars)
        else
          let (word, after) ← pieces fuel chars
          match words, assignment? word with
          | [], some assignment => simple fuel (assignments ++ [assignment]) words others after
          | _, _ => simple fuel assignments (words ++ [word]) others after

private def wordList : Nat → List Char → Option (List (List Piece) × List Char)
  | 0, _ => none
  | fuel + 1, chars => do
    let chars := skipBlanks chars
    match chars with
    | [] => return ([], [])
    | c :: _ =>
      if isMeta c then return ([], chars)
      else
        let (word, after) ← pieces fuel chars
        let (more, after) ← wordList fuel after
        return (word :: more, after)

private def loopFrom (whileTrue : Bool) : Nat → List Char → Option (Script × List Char)
  | 0, _ => none
  | fuel + 1, chars => do
    let (condition, rest) ← statements fuel chars
    let (body, rest) ← statements fuel (← after? "do" rest)
    return (.loop whileTrue condition body, ← after? "done" rest)

private def branchFrom : Nat → List Char → Option (Script × List Char)
  | 0, _ => none
  | fuel + 1, chars => do
    let (condition, rest) ← statements fuel chars
    let (whenTrue, rest) ← statements fuel (← after? "then" rest)
    match after? "elif" rest, after? "else" rest with
    | some rest, _ => do
      let (whenFalse, rest) ← branchFrom fuel rest
      return (.branch condition whenTrue whenFalse, rest)
    | none, some rest => do
      let (whenFalse, rest) ← statements fuel rest
      return (.branch condition whenTrue whenFalse, ← after? "fi" rest)
    | none, none => return (.branch condition whenTrue .nothing, ← after? "fi" rest)

private def forEachFrom : Nat → List Char → Option (Script × List Char)
  | 0, _ => none
  | fuel + 1, chars => do
    let chars := skipBlanks chars
    let name := chars.takeWhile isNameChar
    if name.isEmpty then none
    let rest := chars.drop name.length
    let (words, rest) ← match after? "in" rest with
      | some rest => do
        let (words, rest) ← wordList fuel rest
        pure (some words, rest)
      | none => pure (none, rest)
    let rest := skipBlanks rest
    let rest := if rest.head? == some ';' then rest.tail else rest
    let (body, rest) ← statements fuel (← after? "do" rest)
    return (.forEach name words body, ← after? "done" rest)

private def command : Nat → List Char → Option (Script × List Char)
  | 0, _ => none
  | fuel + 1, chars =>
    match chars with
    | '(' :: rest => do
      let (body, rest) ← statements fuel rest
      match rest with
      | ')' :: rest => do
        let (others, rest) ← redirections fuel rest
        return (.forked body others, rest)
      | _ => none
    | _ =>
      let word := bareWord chars
      let rest := chars.drop word.length
      if word == "while" then loopFrom true fuel rest
      else if word == "until" then loopFrom false fuel rest
      else if word == "if" then branchFrom fuel rest
      else if word == "for" then forEachFrom fuel rest
      else if word == "\x7b" then do
        let (body, rest) ← statements fuel rest
        let (others, rest) ← redirections fuel (← after? "\x7d" rest)
        return (.grouped body others, rest)
      else do
        match ← simple fuel [] [] [] chars with
        | (.simple [] [] [], _) => none
        | found => return found

private def pipeline : Nat → List Char → Option (Script × List Char)
  | 0, _ => none
  | fuel + 1, chars => do
    let chars := skipBlanks chars
    if bareWord chars == "!" then
      let (script, rest) ← pipeline fuel (chars.drop 1)
      return (.negated script, rest)
    else
      let (first, rest) ← command fuel chars
      match skipBlanks rest with
      | '|' :: '|' :: more => return (first, '|' :: '|' :: more)
      | '|' :: more => do
        let (second, rest) ← pipeline fuel (skipLines (more.length + 1) more)
        return (.piped first second, rest)
      | rest => return (first, rest)

/-- Scripts after one that decides whether they run. -/
private def conditions (first : Script) : Nat → List Char → Option (Script × List Char)
  | 0, _ => none
  | fuel + 1, chars =>
    match skipBlanks chars with
    | '&' :: '&' :: rest => do
      let (second, rest) ← pipeline fuel (skipLines (rest.length + 1) rest)
      conditions (.both first second) fuel rest
    | '|' :: '|' :: rest => do
      let (second, rest) ← pipeline fuel (skipLines (rest.length + 1) rest)
      conditions (.either first second) fuel rest
    | rest => some (first, rest)

/-- Scripts one after the other, up to a word or a parenthesis that ends them. -/
private def statements : Nat → List Char → Option (Script × List Char)
  | 0, _ => none
  | fuel + 1, chars => do
    let chars := skipLines (chars.length + 1) chars
    if atEnd chars then return (.nothing, chars)
    let (first, rest) ← pipeline fuel chars
    let (first, rest) ← conditions first fuel rest
    match skipBlanks rest with
    | ';' :: rest | '\n' :: rest => do
      let (others, rest) ← statements fuel rest
      return (.sequence first others, rest)
    | rest => return (first, rest)

end

/-- A whole text as a script. Each level of reading takes at least one character off every
few, which bounds their number. -/
def Script.parse? (text : Bytes) : Option Script :=
  match statements (8 * text.length + 16) text with
  | some (script, []) => some script
  | _ => none

end BuildRules.Shell
