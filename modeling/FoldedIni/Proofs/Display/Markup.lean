import FoldedIni.Display.Markup
import Mathlib.Data.List.Basic

/-!
# What markup leaves of a text

A text is shown as it stands just if no tag is in it, no bracket stands behind a backslash,
and no name of a picture is replaced. The reason why nothing else can happen is a count: the
brackets and backslashes of a text never get more, and each tag and each such backslash takes
some away.

A text that cannot be shown at all holds a tag that ends a style.
-/

set_option autoImplicit false

namespace FoldedIni.Markup

variable {s inside left : List Char}

/-! ## Tags in a text -/

/-- A tag whose first character is of some kind stands in the text. -/
def HasTag (p : Char → Bool) (s : List Char) : Prop :=
  ∃ front first inside behind, s = front ++ '[' :: first :: inside ++ ']' :: behind ∧
    p first = true ∧ '[' ∉ inside

/-- A bracket stands behind a backslash in the text. -/
def HasEscape (s : List Char) : Prop := ['\\', '['] <:+: s

theorem isSome_upTo {stop : Char} {allowed : Char → Bool} (h : ∀ c ∈ inside, allowed c = true) :
    (upTo stop allowed (inside ++ stop :: left)).isSome = true := by
  induction inside with
  | nil => simp [upTo]
  | cons c inside ih =>
    obtain ⟨hc, hrest⟩ := List.forall_mem_cons.mp h
    rw [List.cons_append, upTo]
    split
    · rfl
    · rw [Option.isSome_map]
      exact ih hrest

/-- What is told of a tag when one is found. -/
theorem spec_of_tag (h : tag? s = some (inside, left)) :
    s = inside ++ ']' :: left ∧ '[' ∉ inside ∧ inside.head?.any startsTag = true := by
  obtain ⟨hfirst, hupTo⟩ := of_tag h
  obtain ⟨rfl, hallowed⟩ := of_upTo hupTo
  refine ⟨rfl, fun hmem => by simpa using hallowed _ hmem, ?_⟩
  cases inside with
  | nil => simp [startsTag] at hfirst
  | cons first inside => exact hfirst

/-- A tag is found right behind a bracket just if the text begins with one. -/
theorem tag?_isSome_iff :
    (tag? s).isSome = true ↔ ∃ first inside behind, s = first :: inside ++ ']' :: behind ∧
      startsTag first = true ∧ '[' ∉ inside := by
  constructor
  · intro h
    obtain ⟨⟨inside, behind⟩, htag⟩ := Option.isSome_iff_exists.mp h
    obtain ⟨rfl, hopen, hfirst⟩ := spec_of_tag htag
    cases inside with
    | nil => cases hfirst
    | cons first inside =>
      exact ⟨first, inside, behind, rfl, hfirst, fun hmem => hopen (List.mem_cons_of_mem _ hmem)⟩
  · rintro ⟨first, inside, behind, rfl, hfirst, hopen⟩
    have hallowed : ∀ c ∈ first :: inside, (c != '[') = true := by
      intro c hc
      rcases List.mem_cons.mp hc with rfl | hc
      · exact bne_iff_ne.mpr fun h => by simp [h, startsTag] at hfirst
      · exact bne_iff_ne.mpr fun h => hopen (h ▸ hc)
    have hhead : (first :: inside ++ ']' :: behind).head?.any startsTag = true := hfirst
    rw [tag?, if_pos hhead]
    exact isSome_upTo hallowed

theorem hasTag_cons {p : Char → Bool} {c : Char} :
    HasTag p (c :: s) ↔
      (c = '[' ∧ ∃ first inside behind, s = first :: inside ++ ']' :: behind ∧
        p first = true ∧ '[' ∉ inside) ∨ HasTag p s := by
  constructor
  · rintro ⟨front, first, inside, behind, heq, hfirst, hopen⟩
    cases front with
    | nil =>
      obtain ⟨rfl, rfl⟩ := List.cons.inj heq
      exact .inl ⟨rfl, first, inside, behind, rfl, hfirst, hopen⟩
    | cons d front =>
      obtain ⟨-, rfl⟩ := List.cons.inj heq
      exact .inr ⟨front, first, inside, behind, rfl, hfirst, hopen⟩
  · rintro (⟨rfl, first, inside, behind, rfl, hfirst, hopen⟩ |
      ⟨front, first, inside, behind, rfl, hfirst, hopen⟩)
    · exact ⟨[], first, inside, behind, rfl, hfirst, hopen⟩
    · exact ⟨c :: front, first, inside, behind, rfl, hfirst, hopen⟩

theorem hasTag_cons_of_ne {p : Char → Bool} {c : Char} (hc : c ≠ '[') :
    HasTag p (c :: s) ↔ HasTag p s := by
  rw [hasTag_cons, or_iff_right fun h => hc h.1]

theorem hasEscape_cons {c : Char} :
    HasEscape (c :: s) ↔ (c = '\\' ∧ ∃ behind, s = '[' :: behind) ∨ HasEscape s := by
  rw [HasEscape, List.infix_cons_iff, List.cons_prefix_cons]
  simp only [HasEscape, List.IsPrefix, List.singleton_append, eq_comm]

theorem hasEscape_cons_of_ne {c : Char} (hc : c ≠ '\\') : HasEscape (c :: s) ↔ HasEscape s := by
  rw [hasEscape_cons, or_iff_right fun h => hc h.1]

/-- Backslashes alone take no bracket out of the markup. -/
theorem hasEscape_replicate_cons {c : Char} (hc : c ≠ '[') (hslash : c ≠ '\\') (n : Nat) :
    HasEscape (List.replicate n '\\' ++ c :: s) ↔ HasEscape s := by
  induction n with
  | zero => exact hasEscape_cons_of_ne hslash
  | succ n ih =>
    rw [List.replicate_succ, List.cons_append, hasEscape_cons, ih]
    refine or_iff_right ?_
    rintro ⟨-, behind, heq⟩
    cases n with
    | zero => exact hc (List.cons.inj heq).1
    | succ n => simp [List.replicate_succ] at heq

theorem not_hasEscape_replicate (n : Nat) : ¬ HasEscape (List.replicate n '\\') := by
  intro h
  have hmem : '[' ∈ List.replicate n '\\' := h.subset (by simp)
  simp at hmem

/-! ## Pieces -/

/-- The text in a piece. A tag has none. -/
def Piece.raw : Piece → List Char
  | .run s | .escaped s => s
  | .tag _ => []

/-- The text in pieces, before pictures are put into it. -/
def raw (ps : List Piece) : List Char := ps.flatMap Piece.raw

@[simp] theorem raw_nil : raw [] = [] := rfl

@[simp] theorem raw_cons (p : Piece) (ps : List Piece) : raw (p :: ps) = p.raw ++ raw ps := rfl

@[simp] theorem raw_runOn (s : List Char) (ps : List Piece) : raw (runOn s ps) = s ++ raw ps := by
  cases ps with
  | nil => simp [runOn, Piece.raw]
  | cons p ps => cases p <;> simp [runOn, Piece.raw]

/-- The brackets that open and the backslashes in a text. -/
def weight (s : List Char) : Nat := s.countP fun c => c == '[' || c == '\\'

@[simp] theorem weight_nil : weight [] = 0 := rfl

@[simp] theorem weight_append (s t : List Char) : weight (s ++ t) = weight s + weight t :=
  List.countP_append

@[simp] theorem weight_open (s : List Char) : weight ('[' :: s) = weight s + 1 := by
  simp [weight]

@[simp] theorem weight_slash (s : List Char) : weight ('\\' :: s) = weight s + 1 := by
  simp [weight]

@[simp] theorem weight_replicate (n : Nat) : weight (List.replicate n '\\') = n := by
  simp [weight, List.countP_replicate]

theorem weight_cons_of_ne {c : Char} (hopen : c ≠ '[') (hslash : c ≠ '\\') (s : List Char) :
    weight (c :: s) = weight s := by
  simp [weight, hopen, hslash]

theorem weight_eq_zero (h : ∀ c ∈ s, c ≠ '[' ∧ c ≠ '\\') : weight s = 0 := by
  simpa [weight, List.countP_eq_zero] using h

/-- What takes brackets and backslashes away is a tag, in both of its readings. -/
theorem weight_tag {n : Nat} (h : tag? s = some (inside, left)) :
    weight (raw [.escaped (List.replicate (n / 2) '\\'),
      if n % 2 = 1 then .escaped ('[' :: inside ++ [']']) else .tag (.ofText inside)]) +
        weight left < n + weight ('[' :: s) := by
  obtain ⟨hs, -⟩ := spec_of_tag h
  have hstop : ∀ t, weight (']' :: t) = weight t := weight_cons_of_ne (by decide) (by decide)
  split
  · simp [Piece.raw, hs, hstop]
    omega
  · simp [Piece.raw, hs, hstop]
    omega

/-- The text in the pieces never has more brackets and backslashes. -/
theorem weight_piecesFrom_le (n : Nat) (s : List Char) :
    weight (raw (piecesFrom n s)) ≤ n + weight s := by
  fun_induction piecesFrom n s with
  | case1 n => simp [Piece.raw]
  | case2 n rest ih =>
    rw [weight_slash]
    omega
  | case3 n rest inside left htag _ ih =>
    have hlost := weight_tag (n := n) htag
    simp only [raw_cons, raw_nil, weight_append, weight_nil] at hlost ⊢
    omega
  | case4 n rest htag _ ih =>
    simp only [raw_runOn, weight_append, weight_replicate, weight_open, weight_nil] at ih ⊢
    omega
  | case5 n c rest hslash hopen ih =>
    rw [weight_cons_of_ne hopen hslash]
    simp only [raw_runOn, weight_append, weight_replicate, weight_cons_of_ne hopen hslash,
      weight_nil] at ih ⊢
    omega

theorem replicate_append_slash (n : Nat) (s : List Char) :
    List.replicate n '\\' ++ '\\' :: s = List.replicate (n + 1) '\\' ++ s := by
  rw [List.replicate_succ', List.append_assoc]
  rfl

/-- As long as no bracket and no backslash goes, the text is one run. -/
theorem piecesFrom_of_weight {n : Nat} (h : weight (raw (piecesFrom n s)) = n + weight s) :
    piecesFrom n s = [.run (List.replicate n '\\' ++ s)] := by
  fun_induction piecesFrom n s with
  | case1 n => rw [List.append_nil]
  | case2 n rest ih =>
    rw [weight_slash] at h
    rw [ih (by omega), replicate_append_slash]
  | case3 n rest inside left htag _ ih =>
    have hlost := weight_tag (n := n) htag
    have hleft := weight_piecesFrom_le 0 left
    simp only [raw_cons, raw_nil, weight_append, weight_nil] at hlost h
    omega
  | case4 n rest htag _ ih =>
    have hrest := weight_piecesFrom_le 0 rest
    simp only [raw_runOn, weight_append, weight_replicate, weight_open, weight_nil] at h
    obtain rfl : n = 0 := by omega
    rw [ih (by omega)]
    rfl
  | case5 n c rest hslash hopen ih =>
    simp only [raw_runOn, weight_append, weight_replicate, weight_cons_of_ne hopen hslash,
      weight_nil] at h
    rw [ih (by omega), runOn]
    simp

/-- Brackets and backslashes go just if there is a tag, or a bracket behind a backslash. -/
theorem weight_piecesFrom_iff (n : Nat) (s : List Char) :
    weight (raw (piecesFrom n s)) = n + weight s ↔
      ¬ HasTag startsTag s ∧ ¬ HasEscape (List.replicate n '\\' ++ s) := by
  fun_induction piecesFrom n s with
  | case1 n =>
    have hnone : ¬ HasTag startsTag [] := by
      rintro ⟨front, _, _, _, heq, -⟩
      simp at heq
    simp [Piece.raw, hnone, not_hasEscape_replicate]
  | case2 n rest ih =>
    rw [hasTag_cons_of_ne (by decide), replicate_append_slash, ← ih, weight_slash]
    omega
  | case3 n rest inside left htag _ ih =>
    have hlost := weight_tag (n := n) htag
    have hleft := weight_piecesFrom_le 0 left
    have htagged : HasTag startsTag ('[' :: rest) :=
      hasTag_cons.mpr (.inl ⟨rfl, tag?_isSome_iff.mp (by rw [htag]; rfl)⟩)
    simp only [raw_cons, raw_nil, weight_append, weight_nil] at hlost ⊢
    simp only [htagged, not_true_eq_false, false_and, iff_false]
    omega
  | case4 n rest htag _ ih =>
    have hrest := weight_piecesFrom_le 0 rest
    have huntagged : HasTag startsTag ('[' :: rest) ↔ HasTag startsTag rest := by
      rw [hasTag_cons, ← tag?_isSome_iff, htag]
      simp
    rw [huntagged]
    simp only [raw_runOn, weight_append, weight_replicate, weight_open, weight_nil]
    cases n with
    | zero =>
      simp only [List.replicate_zero, List.nil_append,
        hasEscape_cons_of_ne (show '[' ≠ '\\' by decide)] at ih ⊢
      rw [← ih]
      omega
    | succ n =>
      have hescaped : HasEscape (List.replicate (n + 1) '\\' ++ '[' :: rest) := by
        rw [← replicate_append_slash]
        exact ⟨List.replicate n '\\', rest, by simp⟩
      simp only [hescaped, not_true_eq_false, and_false, iff_false]
      omega
  | case5 n c rest hslash hopen ih =>
    rw [hasTag_cons_of_ne hopen, hasEscape_replicate_cons hopen hslash]
    simp only [raw_runOn, weight_append, weight_replicate, weight_cons_of_ne hopen hslash,
      weight_nil, List.replicate_zero, List.nil_append] at ih ⊢
    rw [← ih]
    omega

/-- A text is one run just if no tag is in it and no bracket stands behind a backslash. -/
theorem pieces_eq_run_iff : pieces s = [.run s] ↔ ¬ HasTag startsTag s ∧ ¬ HasEscape s := by
  have hweight := weight_piecesFrom_iff 0 s
  rw [List.replicate_zero, List.nil_append, Nat.zero_add] at hweight
  rw [← hweight]
  constructor
  · intro h
    rw [pieces] at h
    simp [h, Piece.raw]
  · intro h
    rw [pieces, piecesFrom_of_weight (by omega)]
    rfl

theorem pieces_of_no_open (h : '[' ∉ s) : pieces s = [.run s] := by
  refine pieces_eq_run_iff.mpr ⟨?_, ?_⟩
  · intro htag
    obtain ⟨front, first, inside, behind, rfl, -⟩ := htag
    simp at h
  · intro hescape
    exact h (hescape.subset (by simp))

/-- A tag among the pieces of a text stands in the text. -/
theorem exists_of_tag_mem {n : Nat} {t : Tag} (h : .tag t ∈ piecesFrom n s) :
    ∃ front inside behind, s = front ++ '[' :: inside ++ ']' :: behind ∧ '[' ∉ inside ∧
      t = .ofText inside := by
  have hrun : ∀ {u : List Char} {ps : List Piece}, .tag t ∈ runOn u ps → .tag t ∈ ps := by
    intro u ps hmem
    cases ps with
    | nil => simp [runOn] at hmem
    | cons p ps => cases p <;> simpa [runOn] using hmem
  fun_induction piecesFrom n s with
  | case1 n => simp at h
  | case2 n rest ih =>
    obtain ⟨front, inside, behind, rfl, hopen, ht⟩ := ih h
    exact ⟨'\\' :: front, inside, behind, rfl, hopen, ht⟩
  | case3 n rest inside left htag _ ih =>
    obtain ⟨rfl, hopen, -⟩ := spec_of_tag htag
    simp only [List.mem_cons, reduceCtorEq, false_or] at h
    rcases h with hthis | hlater
    · split at hthis
      · cases hthis
      · cases hthis
        exact ⟨[], inside, left, rfl, hopen, rfl⟩
    · obtain ⟨front, inside', behind, rfl, hopen', ht⟩ := ih hlater
      exact ⟨'[' :: inside ++ ']' :: front, inside', behind, by simp, hopen', ht⟩
  | case4 n rest htag _ ih =>
    obtain ⟨front, inside, behind, rfl, hopen, ht⟩ := ih (hrun h)
    exact ⟨'[' :: front, inside, behind, rfl, hopen, ht⟩
  | case5 n c rest hslash hopen ih =>
    obtain ⟨front, inside, behind, rfl, hopen, ht⟩ := ih (hrun h)
    exact ⟨c :: front, inside, behind, rfl, hopen, ht⟩

/-! ## Consoles -/

namespace Console

variable (console : Console) {opened : List Tag} {ps : List Piece} {shown : List Char}

theorem formOf_plain (inside : List Char) :
    ∀ c ∈ (formOf inside).2, c ≠ '[' ∧ c ≠ '\\' ∧ Text.isPrinted c = true := by
  unfold formOf
  split <;> simp <;> decide

/-- What is shown for a text between two colons is a picture, or the text as it stands. -/
theorem picture_cases (inside : List Char) :
    (∀ c ∈ console.picture inside, c ≠ '[' ∧ c ≠ '\\' ∧ Text.isPrinted c = true) ∨
      console.picture inside = ':' :: inside ++ [':'] := by
  simp only [picture]
  cases hshown : console.picture? (Text.lowercase (String.ofList (formOf inside).1)) with
  | some shown =>
    refine .inl fun c hc => ?_
    rcases List.mem_append.mp hc with hpicture | hform
    · exact console.picture_plain _ _ hshown c hpicture
    · exact formOf_plain inside c hform
  | none => exact .inr rfl

/-- Pictures bring no brackets and no backslashes. -/
theorem weight_illustrate_le (s : List Char) : weight (console.illustrate s) ≤ weight s := by
  have hcolon : ∀ t, weight (':' :: t) = weight t := weight_cons_of_ne (by decide) (by decide)
  fun_induction illustrate console s with
  | case1 => exact Nat.le_refl _
  | case2 rest inside left hname ih =>
    obtain ⟨rfl, -⟩ := of_upTo hname
    have hpicture : weight (console.picture inside) ≤ weight inside := by
      rcases console.picture_cases inside with hplain | hsame
      · rw [weight_eq_zero fun c hc => ⟨(hplain c hc).1, (hplain c hc).2.1⟩]
        exact Nat.zero_le _
      · simp [hsame, hcolon]
    simp only [weight_append, hcolon]
    omega
  | case3 rest hname ih =>
    rw [hcolon, hcolon]
    exact ih
  | case4 c rest hc ih =>
    simp only [weight, List.countP_cons] at ih ⊢
    omega

/-- Pictures bring nothing that is not printed. -/
theorem isPrinted_illustrate (h : ∀ c ∈ s, Text.isPrinted c = true) :
    ∀ c ∈ console.illustrate s, Text.isPrinted c = true := by
  fun_induction illustrate console s with
  | case1 => exact h
  | case2 rest inside left hname ih =>
    obtain ⟨rfl, -⟩ := of_upTo hname
    intro c hc
    rcases List.mem_append.mp hc with hpicture | hleft
    · rcases console.picture_cases inside with hplain | hsame
      · exact (hplain c hpicture).2.2
      · rw [hsame] at hpicture
        refine h c ?_
        simp only [List.cons_append, List.mem_cons, List.mem_append] at hpicture ⊢
        tauto
    · exact ih (fun d hd => h d (by simp [hd])) c hleft
  | case3 rest hname ih =>
    obtain ⟨hfirst, hrest⟩ := List.forall_mem_cons.mp h
    exact List.forall_mem_cons.mpr ⟨hfirst, ih hrest⟩
  | case4 c rest hc ih =>
    obtain ⟨hfirst, hrest⟩ := List.forall_mem_cons.mp h
    exact List.forall_mem_cons.mpr ⟨hfirst, ih hrest⟩

/-- A text without colons has no names of pictures. -/
theorem illustrate_of_no_colon (h : ':' ∉ s) : console.illustrate s = s := by
  fun_induction illustrate console s with
  | case1 => rfl
  | case2 rest inside left hname ih => exact absurd List.mem_cons_self h
  | case3 rest hname ih => exact absurd List.mem_cons_self h
  | case4 c rest hc ih => rw [ih fun hmem => h (List.mem_cons_of_mem _ hmem)]

theorem weight_printed_le (s : List Char) : weight (console.printed s) ≤ weight s :=
  Nat.le_trans List.filter_sublist.countP_le (console.weight_illustrate_le s)

/-! ## What is shown -/

theorem weight_textFrom_le (h : console.textFrom opened ps = some shown) :
    weight shown ≤ weight (raw ps) := by
  induction ps generalizing opened shown with
  | nil =>
    cases h
    exact Nat.le_refl _
  | cons p ps ih =>
    cases p with
    | run s | escaped s =>
      obtain ⟨later, hlater, rfl⟩ := Option.map_eq_some_iff.mp h
      have hthis := console.weight_printed_le s
      have hrest := ih hlater
      simp only [raw_cons, Piece.raw, weight_append]
      omega
    | tag t =>
      rw [textFrom] at h
      split at h
      · exact ih h
      · cases h

/-- A text is shown as it stands just if it is one run in which nothing is replaced. -/
theorem shown?_eq_self_iff (text : String) :
    console.shown? text = some text.toList ↔
      ¬ HasTag startsTag text.toList ∧ ¬ HasEscape text.toList ∧
        console.printed text.toList = text.toList := by
  have hrun : pieces text.toList = [.run text.toList] →
      console.shown? text = some (console.printed text.toList) := by
    intro h
    rw [shown?, h]
    exact congrArg some (List.append_nil _)
  rw [← and_assoc, ← pieces_eq_run_iff]
  constructor
  · intro h
    have hle := console.weight_textFrom_le h
    have hge := weight_piecesFrom_le 0 text.toList
    have hpieces : pieces text.toList = [.run text.toList] :=
      piecesFrom_of_weight (by rw [pieces] at hle; omega)
    exact ⟨hpieces, Option.some.inj ((hrun hpieces).symm.trans h)⟩
  · rintro ⟨hpieces, hprinted⟩
    rw [hrun hpieces, hprinted]

/-- Where every character is printed, nothing but a picture is put in the place of a text. -/
theorem printed_eq_self_iff (h : ∀ c ∈ s, Text.isPrinted c = true) :
    console.printed s = s ↔ console.illustrate s = s := by
  rw [printed, List.filter_eq_self.mpr (console.isPrinted_illustrate h)]

/-- What has no colon, no opening bracket and nothing that is not printed is shown as it stands. -/
theorem shown?_of_plain {text : String}
    (h : ∀ c ∈ text.toList, c ≠ '[' ∧ c ≠ ':' ∧ Text.isPrinted c = true) :
    console.shown? text = some text.toList := by
  have hopen : '[' ∉ text.toList := fun hmem => (h _ hmem).1 rfl
  have hcolon : ':' ∉ text.toList := fun hmem => (h _ hmem).2.1 rfl
  obtain ⟨htag, hescape⟩ := pieces_eq_run_iff.mp (pieces_of_no_open hopen)
  refine (console.shown?_eq_self_iff text).mpr ⟨htag, hescape, ?_⟩
  rw [console.printed_eq_self_iff fun c hc => (h c hc).2.2]
  exact console.illustrate_of_no_colon hcolon

theorem harmless_of_no_open {text : String} (h : '[' ∉ text.toList) : console.Harmless text := by
  intro t hmem
  rw [pieces_of_no_open h] at hmem
  cases List.mem_singleton.mp hmem

/-- A text that is not shown holds a tag that ends a style. -/
theorem hasTag_of_shown?_eq_none {text : String} (h : console.shown? text = none) :
    HasTag (· == '/') text.toList := by
  have hclosing : ∀ {opened : List Tag} {ps : List Piece}, console.textFrom opened ps = none →
      ∃ t name, .tag t ∈ ps ∧ t.name = '/' :: name := by
    intro opened ps hnone
    induction ps generalizing opened with
    | nil => cases hnone
    | cons p ps ih =>
      cases p with
      | run s | escaped s =>
        obtain ⟨t, name, hmem, hname⟩ := ih (Option.map_eq_none_iff.mp hnone)
        exact ⟨t, name, List.mem_cons_of_mem _ hmem, hname⟩
      | tag t =>
        rw [textFrom] at hnone
        split at hnone
        next =>
          obtain ⟨t', name, hmem, hname⟩ := ih hnone
          exact ⟨t', name, List.mem_cons_of_mem _ hmem, hname⟩
        next hturn =>
          unfold turn at hturn
          split at hturn
          next name hname => exact ⟨t, name, List.mem_cons_self, hname⟩
          next => cases hturn
  obtain ⟨t, name, hmem, hname⟩ := hclosing h
  obtain ⟨front, inside, behind, htext, hopen, rfl⟩ := exists_of_tag_mem hmem
  cases inside with
  | nil => cases hname
  | cons first inside =>
    refine ⟨front, first, inside, behind, htext, ?_, fun hin => hopen (List.mem_cons_of_mem _ hin)⟩
    simp only [Tag.ofText, List.takeWhile_cons] at hname
    split at hname
    · rw [(List.cons.inj hname).1]
      rfl
    · cases hname

end Console

end FoldedIni.Markup
