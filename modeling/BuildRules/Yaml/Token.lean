import BuildRules.Json.Parse
import BuildRules.Yaml.Cursor

/-! Tokens of YAML 1.1. Indentation becomes opening and closing tokens. A key is known by the
colon after it, so its token is put in front of it later. -/
namespace BuildRules.Yaml

inductive Error where
  | character (c : Char)
  /-- No token begins here. -/
  | stray (c : Char)
  | keyWithoutColon
  | entryNotAllowed
  | keyNotAllowed
  | valueNotAllowed
  | anchorName
  | blockHeader
  | quoteUnclosed
  | markInQuote
  | escape
  | escapeBeyondUnicode
  | tagged
  | directive
  | contentExpected
  | collectionUnclosed
  | severalDocuments
  | anchorUndeclared (name : String)
  | anchorRepeated (name : String)
  | keyNotScalar
  | mergeNotMap
  | indicatorAsValue
  /-- Text in the form of a number that has no digits, or too many. -/
  | numberDigits
deriving DecidableEq

inductive Token where
  | documentStart
  | documentEnd
  | blockSequence
  | blockMapping
  | blockEnd
  | flowSequence
  | flowSequenceEnd
  | flowMapping
  | flowMappingEnd
  | flowEntry
  | blockEntry
  | key
  | value
  | alias_ (name : String)
  | anchor (name : String)
  | scalar (text : String) (plain : Bool)
deriving DecidableEq, Inhabited

/-- A token that a colon may turn out to be the key before. -/
structure Candidate where
  /-- Number of tokens before it. -/
  place : Nat
  /-- It begins a line at the indentation of a block, where only a key can stand. -/
  required : Bool
  index : Nat
  line : Nat
  column : Nat

structure Lexer where
  cursor : Cursor
  tokens : Array Token
  /-- Depth of brackets and braces. -/
  flow : Nat
  /-- Column of the innermost block, below zero outside of all. -/
  indent : Int
  outer : List Int
  keyAllowed : Bool
  /-- At most one for each depth of brackets. -/
  candidates : List (Nat × Candidate)

namespace Lexer

abbrev Lexing := StateT Lexer (Except Error)

def start (chars : List Char) : Lexer := ⟨.start chars, #[], 0, -1, [], true, []⟩

private def place : Lexing Cursor := return (← get).cursor
private def moveTo (cursor : Cursor) : Lexing Unit := modify fun state => { state with cursor }
private def emit (token : Token) : Lexing Unit :=
  modify fun state => { state with tokens := state.tokens.push token }
private def allowKey (keyAllowed : Bool) : Lexing Unit :=
  modify fun state => { state with keyAllowed }

private def column : Lexing Int := return (← get).cursor.column

/-- Move over the characters of an indicator and emit its token. -/
private def emitOver (count : Nat) (token : Token) : Lexing Unit := do
  moveTo ((← place).skip count)
  emit token

private def dropCandidate (flow : Nat) : Lexing Unit := do
  match (← get).candidates.lookup flow with
  | none => return
  | some candidate =>
    if candidate.required then throw .keyWithoutColon
    modify fun state =>
      { state with candidates := state.candidates.filter fun entry => entry.1 != flow }

private def dropCurrent : Lexing Unit := do dropCandidate (← get).flow

/-- A candidate ends with its line, or after 1024 characters. -/
private def isStale (cursor : Cursor) (candidate : Candidate) : Bool :=
  candidate.line != cursor.line || 1024 < cursor.index - candidate.index

private def dropStale : Lexing Unit := do
  let state ← get
  let stale := state.candidates.filter fun entry => isStale state.cursor entry.2
  if stale.any fun entry => entry.2.required then throw .keyWithoutColon
  set { state with
    candidates := state.candidates.filter fun entry => !isStale state.cursor entry.2 }

private def saveCandidate : Lexing Unit := do
  let state ← get
  if state.keyAllowed then
    let required := state.flow == 0 && state.indent == (state.cursor.column : Int)
    dropCurrent
    let candidate : Candidate :=
      ⟨state.tokens.size, required, state.cursor.index, state.cursor.line, state.cursor.column⟩
    modify fun state => { state with candidates := (state.flow, candidate) :: state.candidates }

/-- Blocks that end at a column: how many, and the indentation that remains. -/
private def closedBlocks (column indent : Int) : List Int → Nat × Int × List Int
  | [] => (0, indent, [])
  | before :: outer =>
    if column < indent then
      let (count, indent, outer) := closedBlocks column before outer
      (count + 1, indent, outer)
    else (0, indent, before :: outer)

private def closeBlocks (column : Int) : Lexing Unit := do
  let state ← get
  if state.flow == 0 then
    let (count, indent, outer) := closedBlocks column state.indent state.outer
    set { state with
      indent, outer, tokens := state.tokens ++ Array.replicate count Token.blockEnd }

/-- Whether a new block begins at a column. -/
private def openBlock (column : Int) : Lexing Bool := do
  let state ← get
  if state.indent < column then
    set { state with outer := state.indent :: state.outer, indent := column }
    return true
  else return false

/-- Spaces, comments and line ends up to the next token. -/
private def skipToToken : Nat → Lexing Unit
  | 0 => return
  | fuel + 1 => do
    let here := ((← place).skipSpaces).skipComment
    match here.lineBreak? with
    | none => moveTo here
    | some (_, after) =>
      moveTo after
      if (← get).flow == 0 then allowKey true
      skipToToken fuel

private def documentMark (token : Token) : Lexing Unit := do
  closeBlocks (-1)
  dropCurrent
  allowKey false
  emitOver 3 token

private def openFlow (token : Token) : Lexing Unit := do
  saveCandidate
  modify fun state => { state with flow := state.flow + 1, keyAllowed := true }
  emitOver 1 token

private def closeFlow (token : Token) : Lexing Unit := do
  dropCurrent
  modify fun state => { state with flow := state.flow - 1, keyAllowed := false }
  emitOver 1 token

private def flowEntry : Lexing Unit := do
  allowKey true
  dropCurrent
  emitOver 1 .flowEntry

private def blockEntry : Lexing Unit := do
  let state ← get
  if state.flow == 0 then
    if !state.keyAllowed then throw .entryNotAllowed
    if ← openBlock (← column) then emit .blockSequence
  allowKey true
  dropCurrent
  emitOver 1 .blockEntry

private def explicitKey : Lexing Unit := do
  let state ← get
  if state.flow == 0 then
    if !state.keyAllowed then throw .keyNotAllowed
    if ← openBlock (← column) then emit .blockMapping
  allowKey (state.flow == 0)
  dropCurrent
  emitOver 1 .key

private def insertToken (place : Nat) (token : Token) : Lexing Unit :=
  modify fun state => { state with tokens := state.tokens.insertIdxIfInBounds place token }

/-- A colon. With a candidate before it that one becomes a key, and may open a mapping. -/
private def mappingValue : Lexing Unit := do
  let state ← get
  match state.candidates.lookup state.flow with
  | some candidate =>
    modify fun state =>
      { state with candidates := state.candidates.filter fun entry => entry.1 != state.flow }
    insertToken candidate.place .key
    if state.flow == 0 then
      if ← openBlock candidate.column then insertToken candidate.place .blockMapping
    allowKey false
  | none =>
    if state.flow == 0 then
      if !state.keyAllowed then throw .valueNotAllowed
      if ← openBlock (← column) then emit .blockMapping
    allowKey (state.flow == 0)
    dropCurrent
  emitOver 1 .value

private def isAnchorChar (c : Char) : Bool := c.isAlphanum || c == '-' || c == '_'

private def anchorName : Lexing String := do
  let (name, after) := (← place).next.span isAnchorChar
  if name.isEmpty then throw .anchorName
  let closes := match after.rest with
    | [] => true
    | c :: _ => isGap c || "?:,]\x7d%@`".toList.contains c
  if !closes then throw .anchorName
  moveTo after
  return String.ofList name

/-- Length of the run of a plain scalar within a line. A colon ends it before a gap, and in
brackets so do their indicators. -/
private def plainLength (inFlow : Bool) : List Char → Nat
  | [] => 0
  | c :: rest =>
    let colonEnds := match rest with
      | [] => true
      | d :: _ => isGap d || (inFlow && ",[]\x7b\x7d".toList.contains d)
    if isGap c || (c == ':' && colonEnds) || (inFlow && ",?[]\x7b\x7d".toList.contains c) then 0
    else plainLength inFlow rest + 1

/-- Line ends after the first one, with spaces around them. None where a document mark
begins a line. -/
private def plainBreaks : Nat → List Char → Cursor → Option (List Char × Cursor)
  | 0, breaks, here => some (breaks.reverse, here)
  | fuel + 1, breaks, here =>
    let here := here.skipSpaces
    match here.lineBreak? with
    | none => some (breaks.reverse, here)
    | some (c, after) => if after.markAt then none else plainBreaks fuel (c :: breaks) after

/-- One line end is a space; of more, the first is left out. -/
private def folded (first : Char) (breaks : List Char) : List Char :=
  if first != '\n' then first :: breaks
  else if breaks.isEmpty then [' '] else breaks

/-- What stands between two runs of a plain scalar, and whether a line ended there. Nothing
where the scalar ends. -/
private def plainSpaces (here : Cursor) : List Char × Bool × Cursor :=
  let (spaces, afterSpaces) := here.span (· == ' ')
  match afterSpaces.lineBreak? with
  | none => (spaces, false, afterSpaces)
  | some (first, after) =>
    if after.markAt then ([], true, after)
    else
      match plainBreaks after.rest.length [] after with
      | none => ([], true, after)
      | some (breaks, rest) => (folded first breaks, true, rest)

private def plainRuns (inFlow : Bool) (indent : Int) :
    Nat → List Char → List Char → Bool → Cursor → List Char × Bool × Cursor
  | 0, written, _, keyAllowed, here => (written, keyAllowed, here)
  | fuel + 1, written, spaces, keyAllowed, here =>
    let length := if here.is '#' then 0 else plainLength inFlow here.rest
    if length = 0 then (written, keyAllowed, here)
    else
      let written := written ++ spaces ++ here.rest.take length
      let (spaces, broke, after) := plainSpaces (here.skip length)
      if spaces.isEmpty || after.is '#' || (!inFlow && decide ((after.column : Int) < indent)) then
        (written, broke, after)
      else plainRuns inFlow indent fuel written spaces broke after

private def plainScalar : Lexing Unit := do
  saveCandidate
  let state ← get
  let (text, keyAllowed, after) :=
    plainRuns (state.flow != 0) (state.indent + 1) (state.cursor.rest.length + 1) [] [] false
      state.cursor
  moveTo after
  allowKey keyAllowed
  emit (.scalar (String.ofList text) true)

/-- The character of an escape with a letter. -/
private def escapes : List (Char × Char) :=
  [('0', '\x00'), ('a', '\x07'), ('b', '\x08'), ('t', '\t'), ('\t', '\t'), ('n', '\n'),
    ('v', '\x0b'), ('f', '\x0c'), ('r', '\r'), ('e', '\x1b'), (' ', ' '), ('\x22', '\x22'),
    ('\\', '\\'), ('/', '/'), ('N', '\x85'), ('_', '\xa0'), ('L', '\u2028'), ('P', '\u2029')]

private def escapeWidth? (c : Char) : Option Nat :=
  if c == 'x' then some 2 else if c == 'u' then some 4 else if c == 'U' then some 8 else none

private def codeEscape (width : Nat) (here : Cursor) : Except Error (Char × Cursor) :=
  let digits := here.rest.take width
  if digits.length = width then
    match Json.hexDigits? digits with
    | some code =>
      if 0x110000 ≤ code then .error .escapeBeyondUnicode
      else if code.isValidChar then .ok (Char.ofNat code, here.skip width)
      else .error .escape
    | none => .error .escape
  else .error .escape

/-- Line ends within quotes, with the blanks around them. -/
private def quotedBreaks : Nat → List Char → Cursor → Except Error (List Char × Cursor)
  | 0, breaks, here => .ok (breaks.reverse, here)
  | fuel + 1, breaks, here =>
    if here.markAt then .error .markInQuote
    else
      let here := here.skipWhile fun c => c == ' ' || c == '\t'
      match here.lineBreak? with
      | none => .ok (breaks.reverse, here)
      | some (c, after) => quotedBreaks fuel (c :: breaks) after

/-- The rest of a quoted scalar. `written` has its last character first. -/
private def quotedRest (double : Bool) :
    Nat → List Char → Cursor → Except Error (List Char × Cursor)
  | 0, _, _ => .error .quoteUnclosed
  | fuel + 1, written, here =>
    match here.rest with
    | [] => .error .quoteUnclosed
    | c :: rest =>
      if c == ' ' || c == '\t' || isBreak c then
        let (blanks, afterBlanks) := here.span fun c => c == ' ' || c == '\t'
        match afterBlanks.lineBreak? with
        | none =>
          if afterBlanks.atEnd then .error .quoteUnclosed
          else quotedRest double fuel (blanks.reverse ++ written) afterBlanks
        | some (first, after) =>
          match quotedBreaks (after.rest.length + 1) [] after with
          | .error error => .error error
          | .ok (breaks, after) =>
            quotedRest double fuel ((folded first breaks).reverse ++ written) after
      else if !double && c == '\x27' then
        if rest.head? == some '\x27' then quotedRest double fuel (c :: written) (here.skip 2)
        else .ok (written.reverse, here.next)
      else if double && c == '\x22' then .ok (written.reverse, here.next)
      else if double && c == '\\' then
        match rest with
        | [] => .error .escape
        | letter :: _ =>
          match escapes.lookup letter with
          | some decoded => quotedRest double fuel (decoded :: written) (here.skip 2)
          | none =>
            match escapeWidth? letter with
            | some width =>
              match codeEscape width (here.skip 2) with
              | .error error => .error error
              | .ok (decoded, after) => quotedRest double fuel (decoded :: written) after
            | none =>
              if isBreak letter then
                match quotedBreaks (rest.length + 1) [] (here.skip 2) with
                | .error error => .error error
                | .ok (breaks, after) => quotedRest double fuel (breaks.reverse ++ written) after
              else .error .escape
      else quotedRest double fuel (c :: written) here.next

private def quotedScalar (double : Bool) : Lexing Unit := do
  saveCandidate
  allowKey false
  let here := (← place).next
  let (text, after) ← liftM (quotedRest double (here.rest.length + 1) [] here)
  moveTo after
  emit (.scalar (String.ofList text) false)

/-- What happens to line ends after a block scalar. -/
private inductive Chomping where
  | strip
  | clip
  | keep
deriving DecidableEq

private def chomping? (c : Char) : Option Chomping :=
  if c == '+' then some .keep else if c == '-' then some .strip else none

private def indentDigit? (here : Cursor) : Except Error (Option Nat × Cursor) :=
  match here.rest with
  | c :: _ =>
    if c == '0' then .error .blockHeader
    else if c.isDigit then .ok (some (Json.digitValue c), here.next)
    else .ok (none, here)
  | [] => .ok (none, here)

private def chompMark (here : Cursor) : Option Chomping × Cursor :=
  match here.rest with
  | c :: _ =>
    match chomping? c with
    | some chomping => (some chomping, here.next)
    | none => (none, here)
  | [] => (none, here)

/-- The two marks of a header come in either order; a comment may follow. -/
private def blockHeader (here : Cursor) : Except Error (Chomping × Option Nat × Cursor) := do
  let (chomping, increment, after) ←
    match chompMark here with
    | (some chomping, after) =>
      let (increment, after) ← indentDigit? after
      pure (chomping, increment, after)
    | (none, _) =>
      let (increment, after) ← indentDigit? here
      match increment with
      | none => pure (.clip, none, after)
      | some _ =>
        let (chomping, after) := chompMark after
        pure (chomping.getD .clip, increment, after)
  if !(after.lineEnds || after.is ' ') then throw .blockHeader
  let after := after.skipSpaces.skipComment
  if !after.lineEnds then throw .blockHeader
  return (chomping, increment, (after.lineBreak?.map Prod.snd).getD after)

/-- Empty lines before the first line of a block scalar, and the widest indentation seen. -/
private def leadingLines : Nat → List Char → Nat → Cursor → List Char × Nat × Cursor
  | 0, breaks, widest, here => (breaks.reverse, widest, here)
  | fuel + 1, breaks, widest, here =>
    let here := here.skipSpaces
    let widest := max widest here.column
    match here.lineBreak? with
    | none => (breaks.reverse, widest, here)
    | some (c, after) => leadingLines fuel (c :: breaks) widest after

/-- Spaces up to a column. -/
private def indentTo (indent : Nat) : Nat → Cursor → Cursor
  | 0, here => here
  | fuel + 1, here =>
    if here.column < indent && here.is ' ' then indentTo indent fuel here.next else here

/-- Empty lines between lines of a block scalar. -/
private def emptyLines (indent : Nat) : Nat → List Char → Cursor → List Char × Cursor
  | 0, breaks, here => (breaks.reverse, here)
  | fuel + 1, breaks, here =>
    let here := indentTo indent indent here
    match here.lineBreak? with
    | none => (breaks.reverse, here)
    | some (c, after) => emptyLines indent fuel (c :: breaks) after

private def startsBlank (here : Cursor) : Bool := here.is ' ' || here.is '\t'

/-- Lines of a block scalar: the text, the last line end, the empty lines after it. -/
private def blockLines (folds : Bool) (indent : Nat) :
    Nat → List Char → List Char → Cursor → List Char × List Char × List Char × Cursor
  | 0, written, breaks, here => (written, [], breaks, here)
  | fuel + 1, written, breaks, here =>
    let leading := startsBlank here
    let (line, atEnd) := here.span (!isBreak ·)
    let written := written ++ breaks ++ line
    let (lineEnd, after) := match atEnd.lineBreak? with
      | some (c, after) => ([c], after)
      | none => ([], atEnd)
    let (breaks, after) := emptyLines indent (after.rest.length + 1) [] after
    if after.column = indent && !after.atEnd then
      let joint :=
        if folds && lineEnd == ['\n'] && !leading && !startsBlank after then
          (if breaks.isEmpty then [' '] else [])
        else lineEnd
      blockLines folds indent fuel (written ++ joint) breaks after
    else (written, lineEnd, breaks, after)

private def blockScalar (folds : Bool) : Lexing Unit := do
  allowKey true
  dropCurrent
  let state ← get
  let (chomping, increment, here) ← liftM (blockHeader state.cursor.next)
  let least := (max 1 (state.indent + 1)).toNat
  let (indent, breaks, here) :=
    match increment with
    | some increment =>
      let indent := least + increment - 1
      let (breaks, here) := emptyLines indent (here.rest.length + 1) [] here
      (indent, breaks, here)
    | none =>
      let (breaks, widest, here) := leadingLines (here.rest.length + 1) [] 0 here
      (max least widest, breaks, here)
  let (text, lineEnd, breaks, after) :=
    if here.column = indent && !here.atEnd then
      blockLines folds indent (here.rest.length + 1) [] breaks here
    else ([], [], breaks, here)
  let tail := match chomping with
    | .strip => []
    | .clip => lineEnd
    | .keep => lineEnd ++ breaks
  moveTo after
  emit (.scalar (String.ofList (text ++ tail)) false)

/-- A plain scalar begins with any character that is no indicator, and with a hyphen, a
question mark or a colon where no gap follows. -/
private def beginsPlain (here : Cursor) (inFlow : Bool) (c : Char) : Bool :=
  !(isGap c || "-?:,[]\x7b\x7d#&*!|>'\"%@`".toList.contains c) ||
    (!here.gapAt 1 && (c == '-' || (!inFlow && (c == '?' || c == ':'))))

/-- One token, or those that one place of the text gives. -/
private def fetch (c : Char) : Lexing Unit := do
  let state ← get
  let here := state.cursor
  let inFlow := state.flow != 0
  if c == '%' && here.column = 0 then throw .directive
  else if c == '-' && here.column = 0 && here.markAt then documentMark .documentStart
  else if c == '.' && here.column = 0 && here.markAt then documentMark .documentEnd
  else if c == '[' then openFlow .flowSequence
  else if c == '\x7b' then openFlow .flowMapping
  else if c == ']' then closeFlow .flowSequenceEnd
  else if c == '\x7d' then closeFlow .flowMappingEnd
  else if c == ',' then flowEntry
  else if c == '-' && here.gapAt 1 then blockEntry
  else if c == '?' && (inFlow || here.gapAt 1) then explicitKey
  else if c == ':' && (inFlow || here.gapAt 1) then mappingValue
  else if c == '*' || c == '&' then
    saveCandidate
    allowKey false
    let name ← anchorName
    emit (if c == '*' then .alias_ name else .anchor name)
  else if c == '!' then throw .tagged
  else if c == '|' && !inFlow then blockScalar false
  else if c == '>' && !inFlow then blockScalar true
  else if c == '\x27' then quotedScalar false
  else if c == '\x22' then quotedScalar true
  else if beginsPlain here inFlow c then plainScalar
  else throw (.stray c)

/-- All tokens from here on. Each takes at least one character. -/
private def fetchAll : Nat → Lexing Unit
  | 0 => return
  | fuel + 1 => do
    skipToToken ((← place).rest.length + 1)
    dropStale
    closeBlocks (← column)
    match (← place).rest with
    | [] =>
      closeBlocks (-1)
      dropCurrent
    | c :: _ =>
      fetch c
      fetchAll fuel

end Lexer

/-- The tokens of a text. A byte order mark at its beginning is passed over. -/
def tokens (text : List Char) : Except Error (List Token) := do
  match text.find? (!isAllowed ·) with
  | some c => throw (.character c)
  | none =>
    let lexer := Lexer.start text
    let lexer := if lexer.cursor.is '\ufeff' then { lexer with cursor := lexer.cursor.next }
      else lexer
    let (_, last) ← (Lexer.fetchAll (text.length + 1)).run lexer
    return last.tokens.toList

end BuildRules.Yaml
