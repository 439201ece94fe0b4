import FoldedIni.Yaml.Token

/-!
# Nodes

The tokens of a document form a tree of scalars, sequences and mappings. What is
left out where a node may stand is an empty scalar. An alias stands for the node
that carries its anchor, which cannot be one that the alias itself is part of.
-/

set_option autoImplicit false

namespace FoldedIni.Yaml

/-- A node of a document, with its tag if it carries one. -/
inductive Node where
  | scalar (tag : Option String) (text : AnyText) (isPlain : Bool)
  | sequence (tag : Option String) (items : List Node)
  | mapping (tag : Option String) (entries : List (Node × Node))
  deriving Repr, Inhabited

namespace Node

def empty : Node := .scalar none "" true

end Node

/-- What is left of a document, and the nodes known by an anchor. -/
structure Tokens where
  rest : List Token
  anchors : List (String × Node)
  handles : List (String × String)

namespace Tokens

/-- A reader of tokens. -/
abbrev Reader := StateT Tokens (Except Fault)

def fail {α : Type} : Reader α := throw .malformed

def peek : Reader (Option Token) := do return (← get).rest.head?

def advance : Reader Unit := modify fun t => { t with rest := t.rest.tail }

/-- Is the next token one of these? The end of the document is none of them. -/
def next (expected : List Token) : Reader Bool := do
  match ← peek with
  | none => return false
  | some t => return expected.contains t

def accept (t : Token) : Reader Bool := do
  if ← next [t] then
    advance
    return true
  else return false

/-- Passes over the comma in front of an item, which the first item has not. -/
def separator (isFirst : Bool) : Reader Unit := do
  if isFirst then return
  if ← accept .comma then return
  fail

def expand (handle : Option String) (suffix : String) : Reader String := do
  match handle with
  | none => return suffix
  | some handle =>
    match (← get).handles.lookup handle with
    | none => fail
    | some front => return front ++ suffix

def anchor? : Reader (Option String) := do
  match ← peek with
  | some (.anchor name) =>
    advance
    return some name
  | _ => return none

def tag? : Reader (Option String) := do
  match ← peek with
  | some (.tag handle suffix) =>
    advance
    return some (← expand handle suffix)
  | _ => return none

def properties : Reader (Option String × Option String) := do
  match ← anchor? with
  | some name => return (some name, ← tag?)
  | none =>
    let tag ← tag?
    if tag.isSome then return (← anchor?, tag) else return (none, none)

mutual

/-- Reads a node. Block collections may stand only where `inBlock` says so, and a
sequence that is not indented only as the key or the value of a block mapping. -/
def node (inBlock unindented : Bool) : (fuel : Nat) → Reader Node
  | 0 => fail
  | fuel + 1 => do
    match ← peek with
    | some (.alias name) =>
      advance
      match (← get).anchors.lookup name with
      | none => fail
      | some n => return n
    | _ =>
      let (anchor, tag) ← properties
      let n ← content inBlock unindented (anchor.isSome || tag.isSome) tag fuel
      match anchor with
      | none => pure ()
      | some name => modify fun t => { t with anchors := (name, n) :: t.anchors }
      return n

/-- Reads what a node holds. It may be left out behind an anchor or a tag. -/
def content (inBlock unindented mayBeEmpty : Bool) (tag : Option String) :
    (fuel : Nat) → Reader Node
  | 0 => fail
  | fuel + 1 => do
    match ← peek with
    | some .entry =>
      if unindented then return .sequence tag (← unindentedItems fuel)
      else if mayBeEmpty then return .scalar tag "" true
      else fail
    | some (.scalar text isPlain) =>
      advance
      return .scalar tag text isPlain
    | some .flowSequenceStart =>
      advance
      return .sequence tag (← flowItems true fuel)
    | some .flowMappingStart =>
      advance
      return .mapping tag (← flowEntries true fuel)
    | some .sequenceStart =>
      if inBlock then
        advance
        return .sequence tag (← blockItems fuel)
      else if mayBeEmpty then return .scalar tag "" true
      else fail
    | some .mappingStart =>
      if inBlock then
        advance
        return .mapping tag (← blockEntries fuel)
      else if mayBeEmpty then return .scalar tag "" true
      else fail
    | _ => if mayBeEmpty then return .scalar tag "" true else fail

def nodeUnless (ends : List Token) (inBlock unindented : Bool) : (fuel : Nat) → Reader Node
  | 0 => fail
  | fuel + 1 => do
    if ← next ends then return .empty else node inBlock unindented fuel

def blockItems : (fuel : Nat) → Reader (List Node)
  | 0 => fail
  | fuel + 1 => do
    if ← accept .entry then
      let n ← nodeUnless [.entry, .blockEnd] true false fuel
      return n :: (← blockItems fuel)
    else if ← accept .blockEnd then return []
    else fail

def unindentedItems : (fuel : Nat) → Reader (List Node)
  | 0 => fail
  | fuel + 1 => do
    if ← accept .entry then
      let n ← nodeUnless [.entry, .key, .value, .blockEnd] true false fuel
      return n :: (← unindentedItems fuel)
    else return []

def blockEntries : (fuel : Nat) → Reader (List (Node × Node))
  | 0 => fail
  | fuel + 1 => do
    if ← accept .blockEnd then return []
    let hasKey ← accept .key
    if !hasKey && !(← next [.value]) then fail
    let k ← if hasKey then nodeUnless [.key, .value, .blockEnd] true true fuel else pure .empty
    let v ← if ← accept .value then nodeUnless [.key, .value, .blockEnd] true true fuel
      else pure .empty
    return (k, v) :: (← blockEntries fuel)

/-- Reads the items of a sequence in brackets. A single key with its value is a
mapping of its own. -/
def flowItems (isFirst : Bool) : (fuel : Nat) → Reader (List Node)
  | 0 => fail
  | fuel + 1 => do
    if ← accept .flowSequenceEnd then return []
    separator isFirst
    if ← accept .key then
      let k ← nodeUnless [.value, .comma, .flowSequenceEnd] false false fuel
      let v ← if ← accept .value then nodeUnless [.comma, .flowSequenceEnd] false false fuel
        else pure .empty
      return .mapping none [(k, v)] :: (← flowItems false fuel)
    else if ← accept .flowSequenceEnd then return []
    else
      let n ← node false false fuel
      return n :: (← flowItems false fuel)

def flowEntries (isFirst : Bool) : (fuel : Nat) → Reader (List (Node × Node))
  | 0 => fail
  | fuel + 1 => do
    if ← accept .flowMappingEnd then return []
    separator isFirst
    if ← accept .flowMappingEnd then return []
    let hasKey ← accept .key
    let isBare := !hasKey && !(← next [.value])
    let k ← if hasKey then nodeUnless [.value, .comma, .flowMappingEnd] false false fuel
      else if isBare then node false false fuel
      else pure .empty
    let hasValue ← if isBare then pure false else accept .value
    let v ← if hasValue then nodeUnless [.comma, .flowMappingEnd] false false fuel
      else pure .empty
    return (k, v) :: (← flowEntries false fuel)

end

/-- Reads the directives in front of a document. Each handle is declared once, and
so is the version. -/
def directives : (fuel : Nat) → (seen : List String) → Reader Unit
  | 0, _ => fail
  | fuel + 1, seen => do
    match ← peek with
    | some (.directive name arguments) =>
      let mark := match name, arguments with
        | "TAG", handle :: _ => handle
        | name, _ => name
      if (name == "YAML" || name == "TAG") && seen.contains mark then fail
      advance
      match name, arguments with
      | "TAG", [handle, front] =>
        modify fun t => { t with handles := (handle, front) :: t.handles }
      | _, _ => pure ()
      directives fuel (mark :: seen)
    | _ => return ()

def document (fuel : Nat) : Reader (Option Node) := do
  match ← peek with
  | none => return none
  | some t =>
    let isDeclared := match t with
      | .directive _ _ | .documentStart => true
      | _ => false
    if isDeclared then
      directives fuel []
      if !(← accept .documentStart) then fail
    let isEmpty := match ← peek with
      | none | some (.directive _ _) | some .documentStart | some .documentEnd => true
      | some _ => false
    let n ← if isDeclared && isEmpty then pure .empty else node true false fuel
    let _ ← accept .documentEnd
    match ← peek with
    | none => return some n
    | some _ => fail

end Tokens

/-- The handles that need no declaration. -/
def standardHandles : List (String × String) := [("!", "!"), ("!!", "tag:yaml.org,2002:")]

/-- The document that the tokens form. -/
def Node.ofTokens? (tokens : List Token) : Except Fault (Option Node) :=
  (Tokens.document (4 * tokens.length + 8)).run' ⟨tokens, [], standardHandles⟩

end FoldedIni.Yaml
