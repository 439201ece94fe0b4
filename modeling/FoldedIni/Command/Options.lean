import FoldedIni.Number.Integer
import FoldedIni.Text.Quoted

/-!
# Options and arguments

A command line is a list of words. A word with a dash in front is an option if it
names one, in full or by the start of its name; numbers below nought and words
with a blank in them are arguments like others, and so is everything behind two
dashes. Options take the next word, or what follows an equals sign, as their
value if they take one.

The words are used from left to right, and what each does is done before the next
is looked at. Only what the words are is settled for all of them beforehand.
-/

set_option autoImplicit false

namespace FoldedIni.Command

structure OptionSpec where
  names : List String
  takesValue : Bool
  isRequired : Bool
  deriving DecidableEq, Repr

/-- How the option is named in messages. -/
def OptionSpec.title (o : OptionSpec) : String := "/".intercalate o.names

inductive Arity where
  | one
  | oneOrMore
  /-- An argument and all words behind it, options and dashes included. -/
  | rest
  deriving DecidableEq, Repr

/-- What a command accepts: options, and arguments in one place. -/
structure Grammar where
  options : List OptionSpec
  place : String
  arity : Arity
  isPlaceRequired : Bool

inductive UsageError where
  | ambiguous (word : String) (matching : List String)
  | noValue (option : String)
  | ignoredValue (option value : String)
  | notInteger (option value : String)
  | noSuchCommand (place word : String) (commands : List String)
  | missing (names : List String)
  | unrecognized (words : List String)
  | negativeBoundary
  deriving DecidableEq, Repr

def UsageError.message : UsageError → String
  | .ambiguous word matching =>
    s!"ambiguous option: {word} could match " ++ ", ".intercalate matching
  | .noValue option => s!"argument {option}: expected one argument"
  | .ignoredValue option value =>
    s!"argument {option}: ignored explicit argument {Text.quote value}"
  | .notInteger option value => s!"argument {option}: invalid int value: {Text.quote value}"
  | .noSuchCommand place word commands =>
    s!"argument {place}: invalid choice: {Text.quote word} (choose from " ++
      ", ".intercalate (commands.map Text.quote) ++ ")"
  | .missing names => "the following arguments are required: " ++ ", ".intercalate names
  | .unrecognized words => "unrecognized arguments: " ++ " ".intercalate words
  | .negativeBoundary => "--boundary must not be negative"

/-! ## Words -/

structure Carried where
  value : List Char
  behindEquals : Bool
  deriving DecidableEq, Repr

/-- What a word is. -/
inductive Mark where
  | argument
  | dashes
  /-- An option under one of its names. -/
  | option (spec : OptionSpec) (name : String) (carried : Option Carried)
  | unknownOption

def Mark.isOption : Mark → Bool
  | .option _ _ _ | .unknownOption => true
  | _ => false

def Mark.isDashes : Mark → Bool
  | .dashes => true
  | _ => false

def Mark.isArgument : Mark → Bool
  | .argument => true
  | _ => false

def splitValue (word : String) : String × Option Carried :=
  match word.toList.span (· != '=') with
  | (front, _ :: value) => (String.ofList front, some ⟨value, true⟩)
  | (_, []) => (word, none)

def Grammar.named (g : Grammar) : List (String × OptionSpec) :=
  g.options.flatMap fun o => o.names.map fun name => (name, o)

/-- The options that a word may stand for by the start of a name. A word with one
dash may also be a short option with its value right behind it. -/
def Grammar.candidates (g : Grammar) (word : String) :
    List (OptionSpec × String × Option Carried) :=
  if "--".isPrefixOf word then
    let (front, value) := splitValue word
    g.named.filterMap fun (name, o) =>
      if front.isPrefixOf name then some (o, name, value) else none
  else
    g.named.filterMap fun (name, o) =>
      if name.toList = word.toList.take 2 then
        some (o, name, some ⟨word.toList.drop 2, false⟩)
      else if word.isPrefixOf name then some (o, name, none)
      else none

/-- Is the word a number below nought? A line feed at its end does not count. -/
def isNegativeNumber (word : String) : Bool :=
  let digits (s : List Char) : Bool := !s.isEmpty && s.all fun c => (Number.digit? c).isSome
  let s := word.toList
  let s := if s.getLast? == some '\n' then s.dropLast else s
  match s with
  | '-' :: rest =>
    match rest.span (· != '.') with
    | (whole, []) => digits whole
    | (whole, _ :: fraction) => (whole.isEmpty || digits whole) && digits fraction
  | _ => false

def Grammar.mark (g : Grammar) (word : String) : Except UsageError Mark :=
  if !"-".isPrefixOf word then .ok .argument else
  match g.named.lookup word with
  | some o => .ok (.option o word none)
  | none =>
    if word = "-" then .ok .argument else
    let (front, value) := splitValue word
    match if value.isSome then g.named.lookup front else none with
    | some o => .ok (.option o front value)
    | none =>
      match g.candidates word with
      | [(o, name, value)] => .ok (.option o name value)
      | [] =>
        if isNegativeNumber word || word.toList.contains ' ' then .ok .argument
        else .ok .unknownOption
      | found => .error (.ambiguous word (found.map fun (_, name, _) => name))

/-- Settles what the words are. Behind two dashes all are arguments. -/
def Grammar.marks (g : Grammar) : List String → Except UsageError (List (String × Mark))
  | [] => .ok []
  | word :: rest =>
    if word = "--" then .ok ((word, .dashes) :: rest.map fun w => (w, .argument))
    else do
      let m ← g.mark word
      return (word, m) :: (← g.marks rest)

/-! ## Use -/

inductive Use where
  | option (spec : OptionSpec) (value : Option String)
  | place (values : List String)

/-- What the words ask for in order, up to the first that is wrong, and the words
that are left over. -/
structure Parsed where
  uses : List Use
  finish : Except UsageError (List String)

def Parsed.after (uses : List Use) (left : List String) (p : Parsed) : Parsed :=
  ⟨uses ++ p.uses, p.finish.map (left ++ ·)⟩

/-- Takes words for the place of arguments, if the next words go there. -/
def takePlace (arity : Arity) (words : List (String × Mark)) :
    Option (List String × List (String × Mark)) :=
  let rest := words.dropWhile fun w => w.2.isDashes
  match rest with
  | [] => none
  | (word, m) :: behind =>
    if !m.isArgument then none else
    match arity with
    | .one => some ([word], behind.dropWhile fun w => w.2.isDashes)
    | .oneOrMore =>
      let taken := rest.takeWhile fun w => !w.2.isOption
      some ((taken.filter fun w => w.2.isArgument).map (·.1), rest.drop taken.length)
    | .rest => some (words.map (·.1), [])

/-- What the word of an option comes to: uses, an option that is still to look for
its value in the next word, and a word left over. -/
structure Taken where
  uses : List Use
  last : Option OptionSpec
  left : List String

/-- Takes an option whose word carries a value. Behind a short option without a
value stand more short options; from the first unknown one on they are left over. -/
def takeCarried (g : Grammar) (o : OptionSpec) (name : String) (behindEquals : Bool)
    (value : List Char) : Except UsageError Taken :=
  let ignored := UsageError.ignoredValue o.title (String.ofList value)
  if o.takesValue then .ok ⟨[.option o (some (String.ofList value))], none, []⟩ else
  match value with
  | [] => .error ignored
  | c :: rest =>
    if "--".isPrefixOf name || behindEquals || c == '-' then .error ignored else
    let next := String.ofList ['-', c]
    match g.named.lookup next with
    | none => .ok ⟨[.option o none], none, [String.ofList ('-' :: c :: rest)]⟩
    | some o₁ =>
      match rest with
      | [] => .ok ⟨[.option o none], some o₁, []⟩
      | '=' :: more => do
        let taken ← takeCarried g o₁ next true more
        return { taken with uses := .option o none :: taken.uses }
      | d :: more => do
        let taken ← takeCarried g o₁ next false (d :: more)
        return { taken with uses := .option o none :: taken.uses }

/-- Takes an option, and the next word as its value if it takes one and carries none. -/
def takeOption (g : Grammar) (o : OptionSpec) (name : String) (carried : Option Carried)
    (behind : List (String × Mark)) : Except UsageError (Taken × List (String × Mark)) := do
  let taken ← match carried with
    | none => pure ⟨[], some o, []⟩
    | some c => takeCarried g o name c.behindEquals c.value
  match taken.last with
  | none => return (taken, behind)
  | some o =>
    let use (value : Option String) : Taken :=
      ⟨taken.uses ++ [.option o value], none, taken.left⟩
    if !o.takesValue then return (use none, behind) else
    match behind with
    | (word, .argument) :: behind => return (use (some word), behind)
    | _ => throw (.noValue o.title)

/-- Uses the words. The place for arguments is open until it has taken some. -/
def consume (g : Grammar) : (fuel : Nat) → (isOpen : Bool) → List (String × Mark) → Parsed
  | 0, _, words => ⟨[], .ok (words.map (·.1))⟩
  | fuel + 1, isOpen, words =>
    let placed := if isOpen then takePlace g.arity words else none
    match words with
    | (word, .unknownOption) :: behind => (consume g fuel isOpen behind).after [] [word]
    | (_, .option o name carried) :: behind =>
      match takeOption g o name carried behind with
      | .ok (taken, behind) => (consume g fuel isOpen behind).after taken.uses taken.left
      | .error e => ⟨[], .error e⟩
    | _ =>
      match placed with
      | some (values, behind) => (consume g fuel false behind).after [.place values] []
      | none =>
        let skipped := words.takeWhile fun w => !w.2.isOption
        match words.drop skipped.length with
        | [] => ⟨[], .ok (skipped.map (·.1))⟩
        | behind => (consume g fuel isOpen behind).after [] (skipped.map (·.1))

def isUsed (o : OptionSpec) (uses : List Use) : Bool :=
  uses.any fun u => match u with
    | .option o₁ _ => o₁ == o
    | .place _ => false

def isPlaced (uses : List Use) : Bool :=
  uses.any fun u => match u with
    | .option _ _ => false
    | .place _ => true

/-- What is required and not used: the arguments first, then the options. -/
def Grammar.unmet (g : Grammar) (uses : List Use) : List String :=
  (if g.isPlaceRequired && !isPlaced uses then [g.place] else []) ++
    (g.options.filter fun o => o.isRequired && !isUsed o uses).map (·.title)

def Grammar.parse (g : Grammar) (words : List String) : Parsed :=
  match g.marks words with
  | .error e => ⟨[], .error e⟩
  | .ok marked =>
    let p := consume g (marked.length + 1) true marked
    match p.finish, g.unmet p.uses with
    | .ok _, name :: names => ⟨p.uses, .error (.missing (name :: names))⟩
    | _, _ => p

end FoldedIni.Command
