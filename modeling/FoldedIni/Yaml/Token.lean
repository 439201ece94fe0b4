import FoldedIni.Yaml.Block

/-!
# Tokens

The tokens of a document. Indentation opens and closes block collections, and a
key of a map is known only by the colon behind it: what may turn out to be a key
is remembered, and the key token is put in front of it when the colon comes. Such
a key stands on one line and is not too long.
-/

set_option autoImplicit false

namespace FoldedIni.Yaml

inductive Token where
  | directive (name : String) (arguments : List String)
  | documentStart
  | documentEnd
  | sequenceStart
  | mappingStart
  | blockEnd
  | flowSequenceStart
  | flowSequenceEnd
  | flowMappingStart
  | flowMappingEnd
  | entry
  | comma
  | key
  | value
  | alias (name : String)
  | anchor (name : String)
  | tag (handle : Option String) (suffix : String)
  | scalar (text : AnyText) (isPlain : Bool)
  deriving DecidableEq, Repr

/-- What may turn out to be a key: the number of its first token, and where it
stands. A required one has to. -/
structure Candidate where
  number : Nat
  isRequired : Bool
  index : Nat
  line : Nat
  column : Nat

/-- How many characters a key that is known by its colon may take. -/
def longestKey : Nat := 1024

/-- The state of the reader of tokens. -/
structure Lexer where
  source : Source
  /-- The brackets that are open, the innermost first. -/
  brackets : List Char
  indent : Int
  outer : List Int
  keyAllowed : Bool
  /-- The candidates by the number of open brackets around them. -/
  candidates : List (Nat × Candidate)
  tokens : List Token

namespace Lexer

def ofText (s : List Char) : Lexer := ⟨.ofText s, [], -1, [], true, [], []⟩

def inFlow (l : Lexer) : Bool := !l.brackets.isEmpty

def depth (l : Lexer) : Nat := l.brackets.length

def emit (l : Lexer) (t : Token) : Lexer := { l with tokens := l.tokens ++ [t] }

def emitAt (l : Lexer) (number : Nat) (t : Token) : Lexer :=
  { l with tokens := l.tokens.take number ++ t :: l.tokens.drop number }

def pass (l : Lexer) (n : Nat) : Lexer := { l with source := l.source.advance n }

def allowKey (l : Lexer) (allowed : Bool) : Lexer := { l with keyAllowed := allowed }

/-- Forgets the candidates that can no longer be keys. -/
def dropStale (l : Lexer) : Except Fault Lexer := do
  let (live, stale) := l.candidates.partition fun (_, c) =>
    c.line = l.source.line && l.source.index - c.index ≤ longestKey
  if stale.any fun (_, c) => c.isRequired then throw .malformed
  return { l with candidates := live }

/-- Forgets the candidate at the present depth. -/
def dropCandidate (l : Lexer) : Except Fault Lexer := do
  match l.candidates.lookup l.depth with
  | none => return l
  | some c =>
    if c.isRequired then throw .malformed
    return { l with candidates := l.candidates.filter fun (d, _) => d != l.depth }

/-- Remembers what comes next as a candidate, where a key is allowed. -/
def saveCandidate (l : Lexer) : Except Fault Lexer := do
  if !l.keyAllowed then return l
  let isRequired := !l.inFlow && l.indent = l.source.column
  let l ← l.dropCandidate
  let c : Candidate :=
    ⟨l.tokens.length, isRequired, l.source.index, l.source.line, l.source.column⟩
  return { l with candidates := (l.depth, c) :: l.candidates }

/-- Closes the block collections that are indented by more than a column. -/
def closeTo (column : Int) (l : Lexer) : Lexer :=
  if l.inFlow then l else
  let closing := (l.indent :: l.outer).takeWhile (column < ·)
  match (l.indent :: l.outer).drop closing.length with
  | [] => l
  | indent :: outer =>
    { l with indent, outer, tokens := l.tokens ++ closing.map fun _ => .blockEnd }

def openAt (column number : Nat) (t : Token) (l : Lexer) : Lexer :=
  if l.indent < column then
    { l.emitAt number t with indent := column, outer := l.indent :: l.outer }
  else l

/-- Skips blanks, comments and line breaks. A tab is a blank between brackets only.
Behind a line break a key is allowed. -/
def skipBlanks : (fuel : Nat) → Lexer → Lexer
  | 0, l => l
  | fuel + 1, l =>
    let s := l.source.skip fun c => c == ' ' || (l.inFlow && c == '\t')
    let s := if s.peek == some '#' then s.skipLine else s
    match s.peek with
    | some c =>
      if isBreak c then
        skipBlanks fuel { l with source := s.next, keyAllowed := !l.inFlow || l.keyAllowed }
      else { l with source := s }
    | none => { l with source := s }

/-- Closes all block collections in front of a document marker or the end. -/
def closeAll (l : Lexer) : Except Fault Lexer := do
  return (← (l.closeTo (-1)).dropCandidate).allowKey false

def anchorName (l : Lexer) : Except Fault (String × Lexer) := do
  let isNameChar (c : Char) : Bool :=
    !endsWord (some c) && !",[]\x7b\x7d".toList.contains c && c != '\ufeff'
  let source := l.source.next
  let name := source.rest.takeWhile isNameChar
  if name.isEmpty || (source.rest.drop name.length).head? == some '\ufeff' then throw .malformed
  return (String.ofList name, { l with source := source.advance name.length })

def isTagChar (c : Char) : Bool :=
  c.isAlphanum || "-;/?:@&=+$,_.!~*'()[]%#".toList.contains c

def tagSuffix (source : Source) : Except Fault (String × Source) :=
  let suffix := source.rest.takeWhile isTagChar
  if suffix.isEmpty then .error .malformed
  else .ok (String.ofList suffix, source.advance suffix.length)

/-- The handle at the start of a tag: one exclamation mark, or two with a name
between them. -/
def tagHandle (s : List Char) : Except Fault (List Char) :=
  let isTagEnd (c : Char) : Bool := c == ' ' || isBreak c
  if ((s.drop 1).takeWhile fun c => !isTagEnd c).contains '!' then
    let name := (s.drop 1).takeWhile fun c => c.isAlphanum || c == '-' || c == '_'
    if (s.drop (1 + name.length)).head? == some '!' then .ok ('!' :: name ++ ['!'])
    else .error .malformed
  else .ok ['!']

def tagToken (source : Source) : Except Fault (Token × Source) := do
  let (t, source) ←
    if source.peekNext == some '<' then do
      let (suffix, source) ← tagSuffix (source.advance 2)
      if source.peek != some '>' then throw .malformed
      pure (Token.tag none suffix, source.next)
    else if endsWord source.peekNext then pure (Token.tag none "!", source.next)
    else do
      let handle ← tagHandle source.rest
      let (suffix, source) ← tagSuffix (source.advance handle.length)
      pure (Token.tag (some (String.ofList handle)) suffix, source)
  match source.peek with
  | none => return (t, source)
  | some c => if c == ' ' || isBreak c then return (t, source) else throw .malformed

def wordsFrom (word : List Char) : List Char → List String
  | [] => if word.isEmpty then [] else [String.ofList word.reverse]
  | c :: rest =>
    if c == ' ' then
      if word.isEmpty then wordsFrom [] rest
      else String.ofList word.reverse :: wordsFrom [] rest
    else if c == '#' && word.isEmpty then []
    else wordsFrom (c :: word) rest

def isVersion (s : String) : Bool :=
  match s.toList.span Char.isDigit with
  | (major, '.' :: minor) => major == ['1'] && !minor.isEmpty && minor.all Char.isDigit
  | _ => false

/-- Reads a directive. That of the version and that of tag handles are checked, and
others do not count. -/
def directive (l : Lexer) : Except Fault Lexer := do
  let line := (l.source.rest.drop 1).takeWhile fun c => !endsLine (some c)
  let source := l.source.skipLine
  match wordsFrom [] line with
  | [] => throw .malformed
  | name :: arguments =>
    let sound := match name, arguments with
      | "YAML", [version] => isVersion version
      | "YAML", _ => false
      | "TAG", [_, _] => true
      | "TAG", _ => false
      | _, _ => true
    if !sound then throw .malformed
    return { l.emit (.directive name arguments) with source }

/-- May a key or an entry of a block collection begin here? -/
def requireKeyAllowed (l : Lexer) : Except Fault Unit :=
  if l.inFlow || l.keyAllowed then .ok () else .error .malformed

def openBracket (bracket : Char) (t : Token) (l : Lexer) : Except Fault Lexer := do
  let l ← l.saveCandidate
  return { (l.pass 1).emit t with brackets := bracket :: l.brackets, keyAllowed := true }

def closeBracket (t : Token) (l : Lexer) : Except Fault Lexer := do
  let l ← l.dropCandidate
  return { (l.pass 1).emit t with brackets := l.brackets.tail, keyAllowed := false }

def colon (l : Lexer) : Except Fault Lexer := do
  match l.candidates.lookup l.depth with
  | some c =>
    let rest := l.candidates.filter fun (d, _) => d != l.depth
    let l := { l with candidates := rest }.emitAt c.number .key
    let l := if l.inFlow then l else l.openAt c.column c.number .mappingStart
    return ((l.allowKey false).pass 1).emit .value
  | none =>
    l.requireKeyAllowed
    let l := if l.inFlow then l else l.openAt l.source.column l.tokens.length .mappingStart
    let l ← (l.allowKey !l.inFlow).dropCandidate
    return (l.pass 1).emit .value

def question (l : Lexer) : Except Fault Lexer := do
  l.requireKeyAllowed
  let l := if l.inFlow then l else l.openAt l.source.column l.tokens.length .mappingStart
  let l ← (l.allowKey !l.inFlow).dropCandidate
  return (l.pass 1).emit .key

def dash (l : Lexer) : Except Fault Lexer := do
  l.requireKeyAllowed
  let l := if l.inFlow then l else l.openAt l.source.column l.tokens.length .sequenceStart
  let l ← (l.allowKey true).dropCandidate
  return (l.pass 1).emit .entry

/-- Adds a scalar, behind which `rest` is to come. -/
def scalar (l : Lexer) (isPlain : Bool) (text : AnyText) (rest : List Char) : Lexer :=
  { l.emit (.scalar text isPlain) with source := l.source.advanceTo rest }

/-- Is the colon at hand one behind a key? Inside brackets only a list needs a blank
behind it. -/
def colonSeparates (l : Lexer) : Bool :=
  endsWord l.source.peekNext || l.brackets.head? == some '\x7b'

/-- May a plain scalar begin with this character? -/
def startsPlain (l : Lexer) (c : Char) : Bool :=
  let next := l.source.peekNext
  if "-?:,[]\x7b\x7d#&*!|>'\"%@\x60".toList.contains c then
    (c == '-' && !endsWord next) ||
    (c == ':' && l.inFlow && !(next == some ' ' || next == some '\t')) ||
    (!l.inFlow && (c == '?' || c == ':') && !endsWord next)
  else !(endsWord (some c) || isBreak c)

/-- Reads the token that begins with `c`. -/
def token (l : Lexer) (c : Char) : Except Fault Lexer := do
  let next := l.source.peekNext
  let rest := l.source.rest
  let atMargin := l.source.column = 0
  if c == '%' && atMargin then (← l.closeAll).directive
  else if c == '-' && atMargin && startsMarker '-' rest then
    return ((← l.closeAll).pass 3).emit .documentStart
  else if c == '.' && atMargin && startsMarker '.' rest then
    return ((← l.closeAll).pass 3).emit .documentEnd
  else if c == '[' then l.openBracket '[' .flowSequenceStart
  else if c == '\x7b' then l.openBracket '\x7b' .flowMappingStart
  else if c == ']' then l.closeBracket .flowSequenceEnd
  else if c == '\x7d' then l.closeBracket .flowMappingEnd
  else if c == ',' then return ((← (l.allowKey true).dropCandidate).pass 1).emit .comma
  else if c == '-' && endsWord next then l.dash
  else if c == '?' && (l.inFlow || endsWord next) then l.question
  else if c == ':' && l.colonSeparates then l.colon
  else if c == '*' then
    let (name, l) ← (← l.saveCandidate).anchorName
    return (l.allowKey false).emit (.alias name)
  else if c == '&' then
    let (name, l) ← (← l.saveCandidate).anchorName
    return (l.allowKey false).emit (.anchor name)
  else if c == '!' then
    let l ← l.saveCandidate
    let (t, source) ← tagToken l.source
    return { (l.allowKey false).emit t with source }
  else if (c == '|' || c == '>') && !l.inFlow then
    let l ← (l.allowKey true).dropCandidate
    let (text, left) ← block (c == '>') l.indent rest.tail
    return l.scalar false (String.ofList text) left
  else if c == '\'' || c == '"' then
    let l ← l.saveCandidate
    let (text, left) ← quoted (c == '"') rest.tail
    return (l.allowKey false).scalar false (.ofSigns text) left
  else if l.startsPlain c then
    let l ← l.saveCandidate
    let (text, left) := plain l.inFlow (l.indent + 1) rest
    return (l.allowKey false).scalar true (String.ofList text) left
  else throw .malformed

/-- Reads tokens to the end of the document. Each takes a character at least. -/
def run : (fuel : Nat) → Lexer → Except Fault (List Token)
  | 0, _ => .error .malformed
  | fuel + 1, l => do
    let l ← (l.skipBlanks (l.source.rest.length + 1)).dropStale
    let l := l.closeTo l.source.column
    match l.source.peek with
    | none => return (← l.closeAll).tokens
    | some c => run fuel (← l.token c)

end Lexer

/-- The tokens of a document. A byte order mark at its start does not count. -/
def Token.ofText (s : List Char) : Except Fault (List Token) :=
  let l := Lexer.ofText s
  let l := if s.head? == some '\ufeff' then l.pass 1 else l
  l.run (s.length + 1)

end FoldedIni.Yaml
