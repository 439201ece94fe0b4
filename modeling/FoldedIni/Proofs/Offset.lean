import FoldedIni.Bytes

/-!
# Offsets and slices

Where the blanks of a byte string stand, and how its slices fit together. The
statements about folding speak of offsets in the value, while the fold reads the
bytes one by one; this module ties the two views together.
-/

set_option autoImplicit false

namespace FoldedIni.Bytes

variable {s : Bytes} {start stop c i : Nat}

/-- A blank stands at the offset `c`. -/
def BlankAt (s : Bytes) (c : Nat) : Prop := ∃ b, s[c]? = some b ∧ isBlank b = true

/-- The first byte is a blank. -/
def startsBlank (s : Bytes) : Bool := s.head?.any isBlank

theorem BlankAt.lt_length (h : BlankAt s c) : c < s.length := by
  obtain ⟨b, hb, -⟩ := h
  exact (List.getElem?_eq_some_iff.mp hb).1

/-- Reading on from offset `i`, the next byte is the one at `i`. -/
theorem blankAt_of_drop {b : UInt8} {rest : Bytes} (h : s.drop i = b :: rest) :
    BlankAt s i ↔ isBlank b = true := by
  have hb : s[i]? = some b := by
    have := congrArg List.head? h
    simpa using this
  simp [BlankAt, hb]

theorem drop_succ_eq_tail {b : UInt8} {rest : Bytes} (h : s.drop i = b :: rest) :
    s.drop (i + 1) = rest := by
  have := congrArg List.tail h
  simpa using this

theorem blankAt_cons_succ {b : UInt8} : BlankAt (b :: s) (c + 1) ↔ BlankAt s c := by
  simp [BlankAt]

theorem blankAt_zero_iff : BlankAt s 0 ↔ startsBlank s = true := by
  cases s <;> simp [BlankAt, startsBlank]

theorem blankAt_drop : BlankAt (s.drop start) c ↔ BlankAt s (start + c) := by
  simp [BlankAt]

theorem blankAt_slice : BlankAt (slice start stop s) c ↔ BlankAt s (start + c) ∧ start + c < stop := by
  by_cases h : c < stop - start
  · have hlt : start + c < stop := by omega
    simp [BlankAt, slice, h, hlt]
  · have hge : ¬ start + c < stop := by omega
    have hnone : (slice start stop s)[c]? = none := by rw [slice, List.getElem?_take, if_neg h]
    simp [BlankAt, hnone, hge]

theorem blankAt_append_of_lt {t : Bytes} (h : c < s.length) : BlankAt (s ++ t) c ↔ BlankAt s c := by
  rw [BlankAt, BlankAt, List.getElem?_append_left h]

theorem ne_nil_of_startsBlank (h : startsBlank s = true) : s ≠ [] := by
  rintro rfl
  cases h

theorem startsBlank_cons (b : UInt8) (rest : Bytes) : startsBlank (b :: rest) = isBlank b := rfl

/-- What is read from the offset of a blank on starts with it. -/
theorem BlankAt.startsBlank_drop (h : BlankAt s c) : startsBlank (s.drop c) = true := by
  obtain ⟨b, hb, hblank⟩ := h
  simp [startsBlank, hb, hblank]

theorem BlankAt.startsBlank_slice (h : BlankAt s c) (hlt : c < stop) :
    startsBlank (slice c stop s) = true := by
  obtain ⟨b, hb, hblank⟩ := h
  have hpos : stop - c ≠ 0 := by omega
  simp [startsBlank, slice, List.head?_take, hpos, hb, hblank]

theorem slice_append_drop (h : start ≤ stop) (s : Bytes) :
    slice start stop s ++ s.drop stop = s.drop start := by
  have hstop : s.drop stop = (s.drop start).drop (stop - start) := by
    rw [List.drop_drop, Nat.add_sub_cancel' h]
  rw [slice, hstop, List.take_append_drop]

theorem take_append_slice (h : start ≤ stop) : s.take start ++ slice start stop s = s.take stop := by
  have hstop : stop = start + (stop - start) := by omega
  rw [slice, hstop, List.take_add, Nat.add_sub_cancel_left]

theorem slice_append_of_le {t : Bytes} (h : stop ≤ s.length) :
    slice start stop (s ++ t) = slice start stop s := by
  by_cases hle : start ≤ s.length
  · rw [slice, List.drop_append_of_le_length hle, List.take_append_of_le_length]
    · rfl
    · rw [List.length_drop]
      omega
  · have hnil : stop - start = 0 := by omega
    rw [slice, slice, hnil, List.take_zero, List.take_zero]

theorem length_slice_of_le (h : stop ≤ s.length) : (slice start stop s).length = stop - start := by
  simp only [slice, List.length_take, List.length_drop]
  omega

theorem slice_cons_succ (b : UInt8) (s : Bytes) :
    slice (start + 1) (stop + 1) (b :: s) = slice start stop s := by
  simp [slice]

theorem slice_zero_cons_succ (b : UInt8) (s : Bytes) :
    slice 0 (stop + 1) (b :: s) = b :: slice 0 stop s := by
  simp [slice]

theorem slice_ne_nil (hlt : start < stop) (hlen : start < s.length) : slice start stop s ≠ [] := by
  intro hnil
  have := congrArg List.length hnil
  simp only [slice, List.length_take, List.length_drop, List.length_nil] at this
  omega

/-- Behind the offset of a blank there are fewer blanks than behind an earlier one. -/
theorem BlankAt.countP_lt (h : BlankAt s c) (hlt : start < c) :
    (s.drop (c + 1)).countP isBlank < (s.drop (start + 1)).countP isBlank := by
  obtain ⟨b, hb, hblank⟩ := h
  have hcons : s.drop c = b :: s.drop (c + 1) := by
    obtain ⟨hlen, rfl⟩ := List.getElem?_eq_some_iff.mp hb
    exact List.drop_eq_getElem_cons hlen
  have hsplit := slice_append_drop (Nat.succ_le_of_lt hlt) s
  rw [← hsplit, hcons, List.countP_append, List.countP_cons_of_pos hblank]
  omega

end FoldedIni.Bytes
