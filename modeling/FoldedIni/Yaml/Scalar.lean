import FoldedIni.Text.Halved
import FoldedIni.Yaml.Source

/-!
# Scalars

The three ways to write a scalar. A plain scalar ends at an indicator, a quoted
one at its quote, and a block scalar with its indentation. In all of them line
breaks may be folded: a single break between two lines of text becomes a space,
and of several breaks the first one goes.
-/

set_option autoImplicit false

namespace FoldedIni.Yaml

/-- What a line break and the breaks behind it become between two lines of text. -/
def foldBreaks (first : Char) (more : List Char) : List Char :=
  if first != '\n' then first :: more
  else if more.isEmpty then [' '] else more

/-! ## Plain scalars -/

/-- Does the plain scalar end at `c`, behind which `next` stands? -/
def endsPlain (inFlow : Bool) (c : Char) (next : Option Char) : Bool :=
  endsWord (some c) || (c == ':' && endsWord next) || (inFlow && ",[]\x7b\x7d".toList.contains c)

def plainRun (inFlow : Bool) : List Char → List Char × List Char
  | [] => ([], [])
  | c :: rest =>
    if endsPlain inFlow c rest.head? then ([], c :: rest)
    else
      let (run, left) := plainRun inFlow rest
      (c :: run, left)

/-- The breaks and the indentation of the lines behind a break: the breaks, the
column of the first character that is neither, and what is left. Nothing comes
back at a document marker. -/
def plainBreaks (column : Nat) : List Char → Option (List Char × Nat × List Char)
  | [] => some ([], column, [])
  | c :: rest =>
    if c == ' ' then plainBreaks (column + 1) rest
    else if isBreak c then
      if startsAnyMarker rest then none
      else (plainBreaks 0 rest).map fun (breaks, column, left) =>
        (breakMeaning c :: breaks, column, left)
    else some ([], column, c :: rest)

structure Gap where
  /-- What the gap becomes between two words. -/
  meaning : List Char
  /-- The column of the next word, if it stands on another line. -/
  column : Option Nat
  rest : List Char

def plainGap (s : List Char) : Option Gap :=
  let blanks := s.takeWhile (· == ' ')
  match s.dropWhile (· == ' ') with
  | [] => if blanks.isEmpty then none else some ⟨blanks, none, []⟩
  | c :: rest =>
    if isBreak c then
      if startsAnyMarker rest then none
      else (plainBreaks 0 rest).map fun (more, column, left) =>
        ⟨foldBreaks (breakMeaning c) more, some column, left⟩
    else if blanks.isEmpty then none else some ⟨blanks, none, c :: rest⟩

/-- Does the scalar go on behind a gap? It does not at a comment, nor on a line
that is indented by less than `indent` outside of brackets. -/
def Gap.continues (inFlow : Bool) (indent : Int) (g : Gap) : Bool :=
  g.rest.head? != some '#' &&
    (inFlow || match g.column with
      | none => true
      | some column => indent ≤ column)

/-- A plain scalar and what is left behind its last word. -/
def plainFrom (inFlow : Bool) (indent : Int) : (fuel : Nat) → List Char → List Char × List Char
  | 0, s => ([], s)
  | fuel + 1, s =>
    let (run, left) := plainRun inFlow s
    if run.isEmpty then ([], s) else
    match plainGap left with
    | none => (run, left)
    | some gap =>
      if gap.continues inFlow indent then
        let (more, behind) := plainFrom inFlow indent fuel gap.rest
        if more.isEmpty then (run, left) else (run ++ gap.meaning ++ more, behind)
      else (run, left)

def plain (inFlow : Bool) (indent : Int) (s : List Char) : List Char × List Char :=
  plainFrom inFlow indent (s.length + 1) s

/-! ## Quoted scalars -/

def hexDigit? (c : Char) : Option Nat :=
  if '0' ≤ c && c ≤ '9' then some (c.toNat - 48)
  else if 'a' ≤ c && c ≤ 'f' then some (c.toNat - 87)
  else if 'A' ≤ c && c ≤ 'F' then some (c.toNat - 55)
  else none

/-- The characters that one letter behind a backslash stands for. -/
def escapes : List (Char × Char) :=
  [('0', '\x00'), ('a', '\x07'), ('b', '\x08'), ('t', '\t'), ('\t', '\t'), ('n', '\n'),
   ('v', '\x0b'), ('f', '\x0c'), ('r', '\r'), ('e', '\x1b'), (' ', ' '), ('"', '"'),
   ('/', '/'), ('\\', '\\'), ('N', '\x85'), ('_', '\xa0'), ('L', '\u2028'), ('P', '\u2029')]

/-- The escapes by code and how many digits each takes. -/
def codeEscapes : List (Char × Nat) := [('x', 2), ('u', 4), ('U', 8)]

/-- The character with a code, or the half of one. -/
def signOf (code : Nat) : Except Fault Text.Sign :=
  if 0xD800 ≤ code && code < 0xE000 then .ok (.half code)
  else if 0x110000 ≤ code then .error .notNumber
  else .ok (.char (Char.ofNat code))

/-- Where the reader of a quoted scalar stands. -/
inductive Quoting where
  /-- Behind text and these blanks, in reverse, on the same line. -/
  | text (blanks : List Char)
  /-- Behind a line break, which does not count if it is escaped, and more breaks, in reverse. -/
  | broken (first : Option Char) (more : List Char)
  /-- Behind a single quote, which ends the scalar unless another one follows. -/
  | quote
  /-- Behind a backslash. -/
  | escape
  /-- Among the digits of a code, of which `left` are to come. -/
  | code (left value : Nat)

namespace Quoting

def gap : Quoting → List Char
  | .text blanks => blanks.reverse
  | .broken none more => more.reverse
  | .broken (some first) more => foldBreaks first more.reverse
  | _ => []

def flush (q : Quoting) : List Text.Sign := q.gap.map .char

/-- Where the reader stands behind a blank or a break. -/
def behindSpace? (c : Char) : Quoting → Option Quoting
  | .text blanks =>
    if c == ' ' || c == '\t' then some (.text (c :: blanks))
    else if isBreak c then some (.broken (some (breakMeaning c)) [])
    else none
  | .broken first more =>
    if c == ' ' || c == '\t' then some (.broken first more)
    else if isBreak c then some (.broken first (breakMeaning c :: more))
    else none
  | _ => none

end Quoting

/-- The signs of a quoted scalar, and what is left behind its quote. -/
abbrev Quoted := Except Fault (List Text.Sign × List Char)

def prepend (front : List Text.Sign) : Quoted → Quoted
  | .ok (text, rest) => .ok (front ++ text, rest)
  | .error e => .error e

def quotedFrom (double : Bool) : Quoting → List Char → Quoted
  | .quote, [] => .ok ([], [])
  | _, [] => .error .malformed
  | .quote, c :: rest =>
    if c == '\'' then prepend [.char c] (quotedFrom double (.text []) rest) else .ok ([], c :: rest)
  | .code left value, c :: rest =>
    match hexDigit? c with
    | none => .error .malformed
    | some d =>
      if left = 0 then do
        let sign ← signOf (value * 16 + d)
        prepend [sign] (quotedFrom double (.text []) rest)
      else quotedFrom double (.code (left - 1) (value * 16 + d)) rest
  | .escape, c :: rest =>
    if isBreak c then
      if startsAnyMarker rest then .error .malformed
      else quotedFrom double (.broken none []) rest
    else
      match escapes.lookup c, codeEscapes.lookup c with
      | some d, _ => prepend [.char d] (quotedFrom double (.text []) rest)
      | none, some digits => quotedFrom double (.code (digits - 1) 0) rest
      | none, none => .error .malformed
  | q, c :: rest =>
    match q.behindSpace? c with
    | some behind =>
      if isBreak c && startsAnyMarker rest then .error .malformed
      else quotedFrom double behind rest
    | none =>
      if double && c == '"' then .ok (q.flush, rest)
      else if double && c == '\\' then prepend q.flush (quotedFrom double .escape rest)
      else if !double && c == '\'' then prepend q.flush (quotedFrom double .quote rest)
      else prepend (q.flush ++ [.char c]) (quotedFrom double (.text []) rest)

def quoted (double : Bool) (s : List Char) : Quoted :=
  quotedFrom double (.text []) s

end FoldedIni.Yaml
