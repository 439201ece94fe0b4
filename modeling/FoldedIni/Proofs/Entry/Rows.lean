import FoldedIni.Proofs.Entry.Split
import FoldedIni.Proofs.Fold.RoundTrip

/-!
# The rows of an entry

The text of an entry says where each of its rows ends. A terminator that stands in
neither the value, the key nor the comment stands in no row: not in a line that was
cut out of the value or got a mark, and not across the separator, of which it has no
byte (`not_infix_of_mem_fold`, `not_infix_keyRow`). The main statement is
`splitRows_text`.
-/

set_option autoImplicit false

namespace FoldedIni

namespace Entry

variable {t key s : Bytes} {comment : List Bytes}

/-- A terminator with no byte of the separator that cannot overlap itself. -/
structure Unmistakable (t : Bytes) : Prop where
  ne_nil : t ≠ []
  space_not_mem : 0x20 ∉ t
  equals_not_mem : 0x3D ∉ t
  unbordered : Unbordered t

theorem unmistakable_crlf : Unmistakable [0x0D, 0x0A] :=
  ⟨by decide, by decide, by decide, unbordered_of_nodup (by decide)⟩

/-- The row of the key is one row of the text. -/
theorem text_cons (comment : List Bytes) (key first : Bytes) (rest : List Bytes) (t : Bytes) :
    text comment key (first :: rest) t = rows t (comment ++ (key ++ separator ++ first) :: rest) := by
  simp [text, rows, List.append_assoc]

/-- The terminator does not begin in the key or the separator and end behind it. -/
theorem not_infix_keyRow {first : Bytes} (ht : Unmistakable t) (hkey : ¬ t <:+: key)
    (hfirst : ¬ t <:+: first) : ¬ t <:+: key ++ separator ++ first := by
  intro h
  have hrow : key ++ separator ++ first = key ++ 0x20 :: (0x3D :: (0x20 :: first)) := by
    simp [separator]
  rw [hrow] at h
  rcases infix_append_cons h ht.space_not_mem with h | h
  · exact hkey h
  · have hspace := infix_of_infix_cons h ht.equals_not_mem
    exact hfirst (infix_of_infix_cons hspace ht.space_not_mem)

theorem not_infix_marked {chunk : Bytes} (ht : Unmistakable t) (h : ¬ t <:+: chunk) :
    ¬ t <:+: Fold.marked chunk := by
  intro hmarked
  by_cases hnil : chunk = []
  · subst hnil
    exact h hmarked
  · rw [Fold.marked_of_ne_nil hnil] at hmarked
    split at hmarked
    · exact h (infix_of_infix_cons hmarked ht.space_not_mem)
    · exact h hmarked

/-- The terminator stands in no line of a value in which it does not stand. -/
theorem not_infix_of_mem_fold (layout : Layout) (ht : Unmistakable t) (hs : ¬ t <:+: s) :
    ∀ line ∈ FoldedIni.fold layout s, ¬ t <:+: line := by
  have hgreedy := Fold.chunksWith_greedyFold .atOpportunity layout s
  have hchunk : ∀ chunk ∈ Fold.chunks layout s, ¬ t <:+: chunk := by
    intro chunk hmem h
    have hwhole := List.infix_of_mem_flatten hmem
    rw [Fold.chunks, hgreedy.flatten] at hwhole
    exact hs (h.trans hwhole)
  rw [FoldedIni.fold]
  cases hchunks : Fold.chunks layout s with
  | nil => simp [Fold.linesOf]
  | cons first rest =>
    intro line hline
    rw [hchunks] at hchunk
    rcases List.mem_cons.mp hline with rfl | hline
    · exact hchunk _ List.mem_cons_self
    · obtain ⟨chunk, hmem, rfl⟩ := List.mem_map.mp hline
      exact not_infix_marked ht (hchunk chunk (List.mem_cons_of_mem first hmem))

/-- The text of an entry is split into the comment lines, the row of the key and the
lines below it. -/
theorem splitRows_text {first : Bytes} {rest : List Bytes} (ht : Unmistakable t)
    (hkey : ¬ t <:+: key) (hcomment : ∀ line ∈ comment, ¬ t <:+: line)
    (hlines : ∀ line ∈ first :: rest, ¬ t <:+: line) :
    splitRows t (text comment key (first :: rest) t) =
      (comment ++ (key ++ separator ++ first) :: rest, []) := by
  rw [text_cons]
  apply splitRows_rows ht.ne_nil ht.unbordered
  intro row hrow
  rcases List.mem_append.mp hrow with hrow | hrow
  · exact hcomment row hrow
  · rcases List.mem_cons.mp hrow with rfl | hrow
    · exact not_infix_keyRow ht hkey (hlines first List.mem_cons_self)
    · exact hlines row (List.mem_cons_of_mem first hrow)

end Entry

end FoldedIni
