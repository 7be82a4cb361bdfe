/-
  HttpApp/Text/Blank.lean --- white space and trimming.

  Blank are the characters with the Unicode property White_Space.  Every blank of
  core's `Char.isWhitespace` is one of them, and a trimmed text neither starts nor
  ends with one.
-/

set_option autoImplicit false

namespace HttpApp.Text

/-- Characters with the property White_Space. -/
def isBlank (c : Char) : Bool :=
  let n := c.toNat
  (9 ≤ n && n ≤ 13) || n == 0x20 || n == 0x85 || n == 0xA0 || n == 0x1680 ||
    (0x2000 ≤ n && n ≤ 0x200A) || n == 0x2028 || n == 0x2029 || n == 0x202F ||
    n == 0x205F || n == 0x3000

theorem isBlank_of_isWhitespace {c : Char} (h : c.isWhitespace = true) : isBlank c = true := by
  simp only [Char.isWhitespace, Bool.or_eq_true, decide_eq_true_eq] at h
  rcases h with ((rfl | rfl) | rfl) | rfl <;> decide

theorem not_isBlank_of_isDigit {c : Char} (h : c.isDigit = true) : isBlank c = false := by
  simp only [Char.isDigit, Bool.and_eq_true, decide_eq_true_eq, ge_iff_le, UInt32.le_iff_toNat_le,
    Char.toNat_val] at h
  simp [isBlank] at h ⊢
  omega

/-- Drops what `p` holds of at both ends. -/
def trimEnds (p : Char → Bool) (cs : List Char) : List Char :=
  ((cs.dropWhile p).reverse.dropWhile p).reverse

/-- A text without the blanks at its ends. -/
def trimBlanks (cs : List Char) : List Char := trimEnds isBlank cs

/-- A text without the blanks at its ends. -/
def trim (s : String) : String := String.ofList (trimBlanks s.toList)

private theorem dropWhile_of_head {p : Char → Bool} {cs : List Char}
    (h : ∀ c, cs.head? = some c → p c = false) : cs.dropWhile p = cs := by
  cases cs with
  | nil => rfl
  | cons c cs => exact List.dropWhile_cons_of_neg (by simp [h c rfl])

/-- Trimming takes away what `p` holds of around a text that has no such character at its
ends. -/
theorem trimEnds_padded {p : Char → Bool} {front w back : List Char}
    (hfront : ∀ c ∈ front, p c = true) (hback : ∀ c ∈ back, p c = true)
    (hd : ∀ c, w.head? = some c → p c = false) (tl : ∀ c, w.getLast? = some c → p c = false) :
    trimEnds p (front ++ (w ++ back)) = w := by
  have hback' : ∀ c ∈ back.reverse, p c = true := fun c hc => hback c (List.mem_reverse.mp hc)
  have hcut : (w ++ back).dropWhile p = w ++ back ∨ w = [] := by
    cases w with
    | nil => exact .inr rfl
    | cons c w => exact .inl (dropWhile_of_head fun d h => hd d h)
  rw [trimEnds, List.dropWhile_append_of_pos hfront]
  rcases hcut with hcut | rfl
  · rw [hcut, List.reverse_append, List.dropWhile_append_of_pos hback',
      dropWhile_of_head fun c hc => tl c (by rwa [List.head?_reverse] at hc),
      List.reverse_reverse]
  · have hnone : back.dropWhile p = [] := by
      simpa using @List.dropWhile_append_of_pos _ p back [] hback
    rw [List.nil_append, hnone]
    rfl

/-- Trimming leaves a text that has no blank at its ends as it is. -/
theorem trimEnds_of_ends {p : Char → Bool} {cs : List Char}
    (hd : ∀ c, cs.head? = some c → p c = false)
    (tl : ∀ c, cs.getLast? = some c → p c = false) : trimEnds p cs = cs := by
  simpa using @trimEnds_padded p [] cs [] (by simp) (by simp) hd tl

private theorem mem_dropWhile {p : Char → Bool} {c : Char} {cs : List Char} (hc : c ∈ cs)
    (h : p c = false) : c ∈ cs.dropWhile p := by
  induction cs with
  | nil => exact hc
  | cons d cs ih =>
    cases hd : p d with
    | true =>
      rw [List.dropWhile_cons_of_pos hd]
      refine ih ((List.mem_cons.mp hc).resolve_left ?_)
      rintro rfl
      rw [h] at hd
      cases hd
    | false => rwa [List.dropWhile_cons_of_neg (by simp [hd])]

/-- Trimming keeps what `p` does not hold of. -/
theorem mem_trimEnds {p : Char → Bool} {c : Char} {cs : List Char} (hc : c ∈ cs)
    (h : p c = false) : c ∈ trimEnds p cs :=
  List.mem_reverse.mpr (mem_dropWhile (List.mem_reverse.mpr (mem_dropWhile hc h)) h)

/-- What trimming takes away lies around what it leaves. -/
theorem exists_padding (p : Char → Bool) (cs : List Char) :
    ∃ front back, cs = front ++ (trimEnds p cs ++ back) ∧
      (∀ c ∈ front, p c = true) ∧ ∀ c ∈ back, p c = true := by
  have htaken : ∀ ds : List Char, ∀ c ∈ ds.takeWhile p, p c = true := fun ds =>
    List.all_eq_true.mp List.all_takeWhile
  refine ⟨cs.takeWhile p, ((cs.dropWhile p).reverse.takeWhile p).reverse, ?_, htaken cs, ?_⟩
  · rw [trimEnds, ← List.reverse_append, List.takeWhile_append_dropWhile, List.reverse_reverse,
      List.takeWhile_append_dropWhile]
  · intro c hc
    exact htaken _ c (List.mem_reverse.mp hc)

theorem trimEnds_subset (p : Char → Bool) (cs : List Char) : trimEnds p cs ⊆ cs := by
  intro c hc
  have hback := (List.dropWhile_sublist p).subset (List.mem_reverse.1 hc)
  exact (List.dropWhile_sublist p).subset (List.mem_reverse.1 hback)

theorem trimEnds_cons {p : Char → Bool} {c : Char} (h : p c = true) (cs : List Char) :
    trimEnds p (c :: cs) = trimEnds p cs := by
  rw [trimEnds, List.dropWhile_cons_of_pos h, trimEnds]

/-- Trimming takes away one character on each side of a text without such characters. -/
theorem trimEnds_between {p : Char → Bool} {a b : Char} {w : List Char} (ha : p a = true)
    (hb : p b = true) (hw : ∀ c ∈ w, p c = false) : trimEnds p (a :: (w ++ [b])) = w :=
  @trimEnds_padded p [a] w [b] (by simpa using ha) (by simpa using hb)
    (fun c hc => hw c (List.mem_of_head? hc)) fun c hc => hw c (List.mem_of_getLast? hc)

end HttpApp.Text
