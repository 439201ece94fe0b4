import FoldedIni.Store.Call

/-!
# Sessions

A session makes calls on a store in which the name of a pair or a comment block is bound
once and for all, since values may share what it names, and in which a new value can only
be given a comment block that is there.

Lines may be handed in that are no lists: whatever can be counted and walked through
passes the checks of a value. Such a pair can be read, but it cannot be emptied or added
to, and this comes out only where it is written. A new text and a new key length stay
when the lines cannot be folded anew.

A pair is taken to be two lists or no list at all. What can be emptied but not added to,
and what is given as a comment block and is none, are left out.
-/

set_option autoImplicit false

namespace FoldedIni

namespace Store

def taken? {α : Type} (name : String) (content : Option α) : Option Failure :=
  if content.isSome then some (.taken name) else none

def missing? (st : Store) (comment : Option String) : Option Failure :=
  comment.bind fun c => if (st.comments.get? c).isSome then none else some (.unbound c)

/-- What is wrong with the names in a step. -/
def objection? (st : Store) : Step → Option Failure
  | .newPair p | .handMadePair p _ => taken? p (st.pairs.get? (.register p))
  | .newComment c _ => taken? c (st.comments.get? c)
  | .valueOfLines _ _ _ _ _ _ c | .valueOfContent _ _ _ _ _ _ c => st.missing? c
  | _ => none

/-- The pair that a step writes to, if it was there before. -/
def target? (st : Store) : Step → Option PairRef
  | .addLine p _ _ | .clearPair p => p.map .register
  | .save p _ | .foldInto p _ _ => some (.register p)
  | .update v _ _ _ _ | .setKeyLength v _ | .destroy v => (st.values.get? v).map Value.pair
  | _ => none

/-- What a step leaves that would come to `after`, but cannot write to its pair. -/
def halfway (st after : Store) : Step → Store × Failure
  | .foldInto _ _ _ | .update _ _ _ _ _ | .setKeyLength _ _ =>
    ({ after with pairs := st.pairs }, .wrongType)
  | _ => (st, .absentList)

end Store

/-- A store, and the pairs in it that are no lists. -/
structure Session where
  store : Store
  fixed : List PairRef

namespace Session

inductive Demand where
  | call (c : Call)
  /-- Binds a pair of two things that are no lists and have these entries. -/
  | fixedPair (pair : String) (lines lengths : List Datum)
  deriving Repr

def empty : Session := ⟨.empty, []⟩

def blocks (s : Session) (t : Step) : Bool := (s.store.target? t).any s.fixed.contains

/-- Takes a step whose names are in order. -/
def step (s : Session) (t : Step) : Session × Except Failure Reply :=
  match s.store.step t with
  | (after, .error e) => ({ s with store := after }, .error e)
  | (after, .ok reply) =>
    if s.blocks t then
      let (store, e) := s.store.halfway after t
      ({ s with store := store }, .error e)
    else ({ s with store := after }, .ok reply)

/-- Meets a demand: the session it leaves, and its reply or failure. -/
def perform (s : Session) : Demand → Session × Except Failure Reply
  | .call c =>
    match c.step? with
    | none =>
      let (store, outcome) := s.store.perform c
      ({ s with store := store }, outcome)
    | some t =>
      match s.store.objection? t with
      | some e => (s, .error e)
      | none => s.step t
  | .fixedPair pair lines lengths =>
    match s.store.objection? (.newPair pair) with
    | some e => (s, .error e)
    | none =>
      let (store, outcome) := s.store.step (.handMadePair pair ⟨some lines, some lengths⟩)
      (⟨store, .register pair :: s.fixed⟩, outcome)

end Session

end FoldedIni
