import FoldedIni.Text.Blank
import FoldedIni.Text.Lines
import FoldedIni.Text.Lowercase

/-!
# Markup

Titles, table cells and messages are read as markup. A tag in square brackets
begins a style, and a tag with a stroke ends one; neither is shown. Backslashes in
front of a tag take it as text: each pair of them is shown as one backslash, and
an odd one lets the tag itself be shown. In running text the name of a picture
between two colons is shown as the picture.

What the names of styles and pictures stand for is known to the console. How a style
looks is left out: only the text in it is kept.
-/

set_option autoImplicit false

namespace FoldedIni.Markup

/-- What stands in front of a closing character, of allowed characters only, and what is left. -/
def upTo (stop : Char) (allowed : Char → Bool) : List Char → Option (List Char × List Char)
  | [] => none
  | c :: rest =>
    if c = stop then some ([], rest)
    else if allowed c then
      (upTo stop allowed rest).map fun (inside, left) => (c :: inside, left)
    else none

theorem of_upTo {stop : Char} {allowed : Char → Bool} {s inside left : List Char}
    (h : upTo stop allowed s = some (inside, left)) :
    s = inside ++ stop :: left ∧ ∀ c ∈ inside, allowed c = true := by
  induction s generalizing inside with
  | nil => cases h
  | cons c rest ih =>
    rw [upTo] at h
    split at h
    next hstop =>
      cases h
      exact ⟨congrArg (· :: left) hstop, nofun⟩
    next =>
      split at h
      next hallowed =>
        obtain ⟨⟨inside', left'⟩, hrest, hsame⟩ := Option.map_eq_some_iff.mp h
        cases hsame
        obtain ⟨rfl, hinside⟩ := ih hrest
        exact ⟨rfl, List.forall_mem_cons.mpr ⟨hallowed, hinside⟩⟩
      next => cases h

theorem length_lt_of_upTo {stop : Char} {allowed : Char → Bool} {s inside left : List Char}
    (h : upTo stop allowed s = some (inside, left)) : left.length < s.length := by
  rw [(of_upTo h).1, List.length_append, List.length_cons]
  omega

/-! ## Tags -/

/-- A tag: its name, and what stands behind an equals sign. -/
structure Tag where
  name : List Char
  parameters : List Char
  deriving DecidableEq, Repr

def Tag.ofText (inside : List Char) : Tag :=
  ⟨inside.takeWhile (· != '='), (inside.dropWhile (· != '=')).tail⟩

/-- The characters that a tag begins with. -/
def startsTag (c : Char) : Bool := ('a' ≤ c && c ≤ 'z') || c == '#' || c == '/' || c == '@'

/-- What is inside the brackets of a tag, behind the first of which `s` stands, and
what is left. Another bracket must not open inside. -/
def tag? (s : List Char) : Option (List Char × List Char) :=
  if s.head?.any startsTag then upTo ']' (· != '[') s else none

theorem of_tag {s inside left : List Char} (h : tag? s = some (inside, left)) :
    s.head?.any startsTag = true ∧ upTo ']' (· != '[') s = some (inside, left) := by
  unfold tag? at h
  split at h
  next hfirst => exact ⟨hfirst, h⟩
  next => cases h

inductive Piece where
  | run (s : List Char)
  /-- Text that backslashes have taken out of the markup. It is apart from its neighbours. -/
  | escaped (s : List Char)
  | tag (t : Tag)
  deriving DecidableEq, Repr

def Piece.tag? : Piece → Option Tag
  | .tag t => some t
  | _ => none

theorem Piece.eq_of_tag? {p : Piece} {t : Tag} (h : t ∈ p.tag?) : p = .tag t := by
  cases p with
  | tag u =>
    cases h
    rfl
  | _ => cases h

def runOn (s : List Char) : List Piece → List Piece
  | .run t :: rest => .run (s ++ t) :: rest
  | rest => .run s :: rest

/-- Reads pieces behind so many backslashes. A backslash in front of a bracket is not
shown, even if no tag begins there. -/
def piecesFrom (slashes : Nat) : List Char → List Piece
  | [] => [.run (List.replicate slashes '\\')]
  | c :: rest =>
    if c = '\\' then piecesFrom (slashes + 1) rest
    else if c = '[' then
      match _h : tag? rest with
      | some (inside, left) =>
        .escaped (List.replicate (slashes / 2) '\\') ::
          (if slashes % 2 = 1 then .escaped ('[' :: inside ++ [']']) else .tag (.ofText inside)) ::
            piecesFrom 0 left
      | none => runOn (List.replicate (slashes - 1) '\\' ++ ['[']) (piecesFrom 0 rest)
    else runOn (List.replicate slashes '\\' ++ [c]) (piecesFrom 0 rest)
termination_by s => s.length
decreasing_by
  · exact Nat.lt_succ_self _
  · exact Nat.lt_succ_of_lt (length_lt_of_upTo (of_tag _h).2)
  · exact Nat.lt_succ_self _
  · exact Nat.lt_succ_self _

def pieces (s : List Char) : List Piece := piecesFrom 0 s

/-! ## Consoles -/

/-- What a console knows of names. A picture holds no bracket and no backslash, and
nothing that is not printed. -/
structure Console where
  /-- The full name of a style. -/
  styleName : List Char → List Char
  /-- Can the parameters of a tag be read, where they are needed? -/
  isReadable : List Char → Bool
  /-- Can the style that a tag names be drawn? One that is not known is left out. -/
  isHarmless : Tag → Bool
  /-- The picture that a name stands for. -/
  picture? : String → Option (List Char)
  picture_plain : ∀ name picture, picture? name = some picture →
    ∀ c ∈ picture, c ≠ '[' ∧ c ≠ '\\' ∧ Text.isPrinted c = true

/-- What is left of a text without an ending. -/
def stripEnd? (ending s : List Char) : Option (List Char) :=
  if ending.isSuffixOf s then some (s.take (s.length - ending.length)) else none

def formOf (inside : List Char) : List Char × List Char :=
  match stripEnd? "-emoji".toList inside, stripEnd? "-text".toList inside with
  | some name, _ => (name, ['\ufe0f'])
  | none, some name => (name, ['\ufe0e'])
  | none, none => (inside, [])

namespace Console

variable (console : Console)

/-- What is shown for a text between two colons: a picture, or the text as it stands. -/
def picture (inside : List Char) : List Char :=
  let (name, form) := formOf inside
  match console.picture? (Text.lowercase (String.ofList name)) with
  | some shown => shown ++ form
  | none => ':' :: inside ++ [':']

/-- Running text with pictures in the place of their names. -/
def illustrate : List Char → List Char
  | [] => []
  | c :: rest =>
    if c = ':' then
      match _h : upTo ':' (fun d => !Text.isBlank d) rest with
      | some (inside, left) => console.picture inside ++ illustrate left
      | none => c :: illustrate rest
    else c :: illustrate rest
termination_by s => s.length
decreasing_by
  · exact Nat.lt_succ_of_lt (length_lt_of_upTo _h)
  · exact Nat.lt_succ_self _
  · exact Nat.lt_succ_self _

def printed (s : List Char) : List Char := (console.illustrate s).filter Text.isPrinted

def isClosable (t : Tag) : Bool :=
  t.name.head? != some '@' || t.parameters.isEmpty || console.isReadable t.parameters

/-- The styles that are left open when one is closed, if it can be. The last one begun is
closed if none is named. -/
def close (name : List Char) : List Tag → Option (List Tag)
  | [] => none
  | last :: rest =>
    if name.isEmpty || last.name == name then
      if console.isClosable last then some rest else none
    else (close name rest).map (last :: ·)

/-- The styles that are open behind a tag, the last one first. -/
def turn (opened : List Tag) (t : Tag) : Option (List Tag) :=
  match t.name with
  | '/' :: name =>
    console.close (if (Text.trim name).isEmpty then [] else console.styleName (Text.trim name)) opened
  | name => some (⟨console.styleName name, t.parameters⟩ :: opened)

/-- The text of pieces behind the open styles. -/
def textFrom (opened : List Tag) : List Piece → Option (List Char)
  | [] => some []
  | .run s :: rest | .escaped s :: rest => (textFrom opened rest).map (console.printed s ++ ·)
  | .tag t :: rest =>
    match console.turn opened t with
    | some opened => textFrom opened rest
    | none => none

/-- The text that is shown for markup, unless it ends a style that cannot be ended there. -/
def shown? (s : String) : Option (List Char) := console.textFrom [] (pieces s.toList)

/-- All tags in the markup name styles that can be drawn. -/
def Harmless (s : String) : Prop := ∀ t, .tag t ∈ pieces s.toList → console.isHarmless t = true

instance (s : String) : Decidable (console.Harmless s) :=
  decidable_of_iff (∀ p ∈ pieces s.toList, ∀ t ∈ p.tag?, console.isHarmless t = true) <| by
    constructor
    · intro h t hmem
      exact h _ hmem t rfl
    · intro h p hmem t ht
      exact h t (Piece.eq_of_tag? ht ▸ hmem)

end Console

/-! ## A simple console -/

/-- The short names of styles and what they stand for. -/
def shortStyles : List (String × String) :=
  [("b", "bold"), ("d", "dim"), ("i", "italic"), ("u", "underline"), ("uu", "underline2"),
   ("r", "reverse"), ("c", "conceal"), ("s", "strike"), ("o", "overline")]

/-- A console that knows the short names of styles, and no pictures. -/
def Console.simple : Console where
  styleName s :=
    let name := Text.lowercase (String.ofList (Text.trim s))
    ((shortStyles.lookup name).getD name).toList
  isReadable _ := true
  isHarmless _ := true
  picture? _ := none
  picture_plain := nofun

end FoldedIni.Markup
