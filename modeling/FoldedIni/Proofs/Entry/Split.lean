import FoldedIni.Entry

/-!
# Splitting a text into rows

A text is read back by cutting it at its terminators, from the left. The cuts are the
ends of the rows if the terminator stands in none of them and cannot overlap itself:
then it cannot begin in a row and end behind it either. The main statement is
`splitRows_rows`.
-/

set_option autoImplicit false

namespace FoldedIni.Entry

variable {t row behind text a b : Bytes} {x : UInt8}

/-- The bytes in front of the first place at which the terminator stands, and those
behind it. -/
def cutRow (t : Bytes) : Bytes → Option (Bytes × Bytes)
  | [] => none
  | b :: rest =>
    if t ≠ [] ∧ t <+: b :: rest then some ([], (b :: rest).drop t.length)
    else (cutRow t rest).map fun cut => (b :: cut.1, cut.2)

/-- A cut loses the terminator and nothing else. -/
theorem eq_of_cutRow (h : cutRow t text = some (row, behind)) :
    t ≠ [] ∧ text = row ++ t ++ behind := by
  induction text generalizing row with
  | nil => cases h
  | cons b rest ih =>
    rw [cutRow] at h
    split at h
    next hstands =>
      obtain ⟨hne, u, hu⟩ := hstands
      cases h
      refine ⟨hne, ?_⟩
      rw [← hu, List.drop_left, List.nil_append]
    next =>
      obtain ⟨⟨front, back⟩, hcut, heq⟩ := Option.map_eq_some_iff.mp h
      cases heq
      obtain ⟨hne, hrest⟩ := ih hcut
      exact ⟨hne, by rw [hrest]; rfl⟩

/-- The rows of a text, each of which ends with the terminator, and what is left
behind the last of them. -/
def splitRows (t text : Bytes) : List Bytes × Bytes :=
  match _h : cutRow t text with
  | none => ([], text)
  | some (row, behind) => (row :: (splitRows t behind).1, (splitRows t behind).2)
termination_by text.length
decreasing_by
  all_goals
    obtain ⟨hne, htext⟩ := eq_of_cutRow _h
    have hpos := List.length_pos_iff.mpr hne
    rw [htext]
    simp only [List.length_append]
    omega

/-- No part of the terminator in front of its end is also a part at its end, so that
two places at which it stands cannot overlap. -/
def Unbordered (t : Bytes) : Prop := ∀ u, u <+: t → u <:+ t → u ≠ [] → u = t

theorem unbordered_of_nodup (h : t.Nodup) : Unbordered t := by
  intro u hprefix hsuffix hne
  obtain ⟨front, rfl⟩ := hsuffix
  cases front with
  | nil => rfl
  | cons b front =>
    -- the first byte of the terminator stands again where `u` begins
    obtain ⟨c, u, rfl⟩ := List.exists_cons_of_ne_nil hne
    cases (List.cons_prefix_cons.mp hprefix).1
    simp at h

/-- A terminator that does not stand in a row does not begin in it either. -/
theorem not_prefix_of_unbordered (ht : Unbordered t) (hrow : ¬ t <:+: row) (hne : row ≠ []) :
    ¬ t <+: row ++ (t ++ behind) := by
  intro hprefix
  rcases List.prefix_or_prefix_of_prefix hprefix (List.prefix_append row (t ++ behind)) with
    hin | ⟨u, hu⟩
  · exact hrow hin.isInfix
  · have hstart : u <+: t ++ behind := by
      rw [← hu] at hprefix
      exact (List.prefix_append_right_inj row).mp (hu ▸ hprefix)
    have hlength := congrArg List.length hu
    simp only [List.length_append] at hlength
    have hborder : u <+: t :=
      List.prefix_of_prefix_length_le hstart (List.prefix_append t behind) (by omega)
    have hrowPos := List.length_pos_iff.mpr hne
    by_cases hnil : u = []
    · exact hrow ⟨[], [], by simpa [hnil] using hu.symm⟩
    · have := congrArg List.length (ht u hborder ⟨row, hu⟩ hnil)
      omega

theorem cutRow_append (hne : t ≠ []) (ht : Unbordered t) (hrow : ¬ t <:+: row) :
    cutRow t (row ++ (t ++ behind)) = some (row, behind) := by
  induction row with
  | nil =>
    obtain ⟨b, rest, rfl⟩ := List.exists_cons_of_ne_nil hne
    have hstands : b :: rest ≠ [] ∧ b :: rest <+: b :: (rest ++ behind) :=
      ⟨hne, List.prefix_append (b :: rest) behind⟩
    rw [List.nil_append, List.cons_append, cutRow, if_pos hstands]
    simp
  | cons b rest ih =>
    have hprefix : ¬ t <+: b :: rest ++ (t ++ behind) :=
      not_prefix_of_unbordered ht hrow (List.cons_ne_nil b rest)
    have hrest := ih fun h => hrow (List.infix_cons h)
    rw [List.cons_append] at hprefix ⊢
    rw [cutRow, if_neg fun h => hprefix h.2, hrest]
    rfl

/-- A text is split into the rows it was put together from. -/
theorem splitRows_rows {lines : List Bytes} (hne : t ≠ []) (ht : Unbordered t)
    (hlines : ∀ line ∈ lines, ¬ t <:+: line) : splitRows t (rows t lines) = (lines, []) := by
  induction lines with
  | nil =>
    rw [splitRows]
    rfl
  | cons line rest ih =>
    have hrows : rows t (line :: rest) = line ++ (t ++ rows t rest) := by
      simp [rows, List.append_assoc]
    have hcut : cutRow t (line ++ (t ++ rows t rest)) = some (line, rows t rest) :=
      cutRow_append hne ht (hlines line List.mem_cons_self)
    have hrest := ih fun l hl => hlines l (List.mem_cons_of_mem line hl)
    rw [hrows, splitRows]
    split
    next hnone => rw [hcut] at hnone; cases hnone
    next row behind hsome =>
      rw [hcut] at hsome
      cases hsome
      rw [hrest]

theorem infix_of_infix_cons (h : t <:+: x :: b) (hx : x ∉ t) : t <:+: b := by
  rcases List.infix_cons_iff.mp h with hprefix | h
  · cases t with
    | nil => exact List.nil_infix
    | cons y t =>
      cases (List.cons_prefix_cons.mp hprefix).1
      exact absurd List.mem_cons_self hx
  · exact h

/-- A byte that is not in the terminator keeps it on one side. -/
theorem infix_append_cons (h : t <:+: a ++ x :: b) (hx : x ∉ t) : t <:+: a ∨ t <:+: b := by
  rcases List.infix_append_iff_ne_nil.mp h with h | h | ⟨l₁, l₂, -, hl₂, rfl, -, hprefix⟩
  · exact .inl h
  · exact .inr (infix_of_infix_cons h hx)
  · obtain ⟨y, l₂, rfl⟩ := List.exists_cons_of_ne_nil hl₂
    cases (List.cons_prefix_cons.mp hprefix).1
    exact absurd (List.mem_append_right l₁ List.mem_cons_self) hx

end FoldedIni.Entry
