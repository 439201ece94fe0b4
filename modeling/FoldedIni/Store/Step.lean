import FoldedIni.Store.Basic

/-!
# Steps

A session is a list of steps on a store. Each step names the registers it works
on, answers with a reply or a failure, and the session goes on after a failure.
-/

set_option autoImplicit false

namespace FoldedIni

/-- A field of a value that is set without any check. -/
inductive Assignment where
  | keyLength (n : Int)
  | boundary (n : Int)
  | line (n : Int)
  | origin (o : GivenOrigin)
  deriving Repr

def Value.assign (v : Value) : Assignment → Value
  | .keyLength n => { v with keyLength := n }
  | .boundary n => { v with boundary := n }
  | .line n => { v with line := n }
  | .origin o => { v with origin := o }

/-- One step of a session. -/
inductive Step where
  | newPair (pair : String)
  | handMadePair (pair : String) (content : LinePair)
  | addLine (pair : Option String) (line : Datum) (length : Option Int)
  | clearPair (pair : Option String)
  | save (pair : String) (chunk : Bytes)
  | foldInto (pair : String) (layout : Layout) (content : Bytes)
  | unfold (pair : String)
  | newComment (comment : String) (lines : List Datum)
  | addCommentLine (comment : String) (line : Datum)
  | countComment (comment : String)
  | commentLine (comment : String) (index : Int)
  | destroyComment (comment : String)
  | showComment (comment : String)
  | valueOfLines (value : String) (pair : Option String) (line : Int) (origin : GivenOrigin)
      (keyLength boundary : Option Int) (comment : Option String)
  | valueOfContent (value : String) (content : Datum) (length : Option Int) (origin : GivenOrigin)
      (keyLength boundary : Option Int) (comment : Option String)
  | update (value : String) (content : Datum) (length : Option Int) (origin : GivenOrigin)
      (boundary : Option Int)
  | setKeyLength (value : String) (keyLength : Option Int)
  | extractComment (value : String)
  | putComment (value : String) (comment : Option String)
  | destroy (value : String)
  | serialize (value : Option String) (key terminator : Datum)
  | showValue (value : String)
  | assign (value : String) (field : Assignment)
  deriving Repr

inductive Reply where
  | done
  | bytes (s : Bytes)
  | count (n : Nat)
  | text (s : String)
  | register (name : Option String)
  deriving Repr

namespace Store

def act : Step → Action Reply
  | .newPair p => do setPair (.register p) .empty; return .done
  | .handMadePair p content => do setPair (.register p) content; return .done
  | .addLine p line length => do addLine (p.map .register) line length; return .done
  | .clearPair none => return .done
  | .clearPair (some p) => do clearPair (.register p); return .done
  | .save p chunk => do save (.register p) chunk; return .done
  | .foldInto p layout s => do foldInto (.register p) layout s; return .done
  | .unfold p => return .bytes (← unfoldPair (.register p))
  | .newComment c lines => do newComment c lines; return .done
  | .addCommentLine c line => do addCommentLine c line; return .done
  | .countComment c => do return .count (← check (← comment c).count)
  | .commentLine c index => do return .bytes (← check ((← comment c).get index))
  | .destroyComment c => do destroyComment c; return .done
  | .showComment c => return .text (← comment c).literal
  | .valueOfLines v p line origin keyLength boundary c => do
    valueOfLines v (p.map .register) line origin keyLength boundary c
    return .done
  | .valueOfContent v content length origin keyLength boundary c => do
    valueOfContent v content length origin keyLength boundary c
    return .done
  | .update v content length origin boundary => do
    update v content length origin boundary
    return .done
  | .setKeyLength v keyLength => do setKeyLength v keyLength; return .done
  | .extractComment v => return .register (← extractComment v)
  | .putComment v c => do putComment v c; return .done
  | .destroy v => do destroy v; return .done
  | .serialize v key terminator => return .bytes (← serialize v key terminator)
  | .showValue v => return .text (← literal v)
  | .assign v field => do setValue v ((← value v).assign field); return .done

/-- Runs one step: the store it leaves, and its reply or failure. -/
def step (s : Store) (st : Step) : Store × Except Failure Reply :=
  match act st s with
  | .ok reply s => (s, .ok reply)
  | .error e s => (s, .error e)

end Store

end FoldedIni
