/-
  HttpApp/Text/Cut.lean --- cutting sequences at separators and markers.

  `pieces` cuts at every separator and `cutAt?` at the first one; `cut?` looks for
  a marker of several elements; `crlfLines` cuts a text at its line ends.  The
  lemmas say that cutting loses nothing: joining the pieces with the separator
  gives the sequence back and the other way round, and what is in front of a marker,
  the marker and what follows it make up the whole.
-/

set_option autoImplicit false

namespace HttpApp.Text

variable {α : Type} [DecidableEq α]

/-! ## Words -/

/-- A word is cut off what follows it: nothing, or an element that is no part of a word. -/
theorem takeWhile_append_stop {β : Type} {p : β → Bool} {w rest : List β} (hw : ∀ a ∈ w, p a = true)
    (hrest : ∀ a, rest.head? = some a → p a = false) :
    (w ++ rest).takeWhile p = w ∧ (w ++ rest).dropWhile p = rest := by
  rw [List.takeWhile_append_of_pos hw, List.dropWhile_append_of_pos hw]
  cases rest with
  | nil => exact ⟨List.append_nil w, rfl⟩
  | cons a rest =>
    have ha : ¬p a = true := by simp [hrest a rfl]
    rw [List.takeWhile_cons_of_neg ha, List.dropWhile_cons_of_neg ha, List.append_nil]
    exact ⟨rfl, rfl⟩

theorem takeWhile_append_cons {β : Type} {p : β → Bool} {w : List β} (hw : ∀ a ∈ w, p a = true)
    (a : β) (ha : p a = false) (rest : List β) :
    (w ++ a :: rest).takeWhile p = w ∧ (w ++ a :: rest).dropWhile p = a :: rest :=
  takeWhile_append_stop hw fun _ hb => Option.some.inj hb ▸ ha

/-! ## One separator -/

/-- The stretches between the separators, in order; always at least one. -/
def pieces (sep : α) : List α → List (List α)
  | [] => [[]]
  | a :: l =>
    if a = sep then [] :: pieces sep l
    else match pieces sep l with
      | [] => [[a]]
      | w :: ws => (a :: w) :: ws

/-- What stands before and after the first separator. -/
def cutAt? (sep : α) : List α → Option (List α × List α)
  | [] => none
  | a :: l =>
    if a = sep then some ([], l)
    else (cutAt? sep l).map fun p => (a :: p.1, p.2)

theorem pieces_ne_nil (sep : α) (l : List α) : pieces sep l ≠ [] := by
  cases l with
  | nil => simp [pieces]
  | cons a l =>
    rw [pieces]
    split
    · simp
    · split <;> simp

/-- Joining the pieces with the separator gives the sequence back. -/
theorem intercalate_pieces (sep : α) (l : List α) : [sep].intercalate (pieces sep l) = l := by
  induction l with
  | nil => simp [pieces, List.intercalate]
  | cons a l ih =>
    rw [pieces]
    cases h : pieces sep l with
    | nil => exact absurd h (pieces_ne_nil sep l)
    | cons w ws =>
      rw [h] at ih
      split
      · next ha => subst ha; cases ws <;> simp_all [List.intercalate]
      · cases ws <;> simp_all [List.intercalate]

/-- A stretch without the separator is one piece. -/
theorem pieces_eq_singleton {sep : α} {l : List α} (h : sep ∉ l) : pieces sep l = [l] := by
  induction l with
  | nil => rfl
  | cons a l ih =>
    rw [List.mem_cons, not_or] at h
    rw [pieces, if_neg (Ne.symm h.1), ih h.2]

/-- The pieces on both sides of a separator are those of the whole. -/
theorem pieces_append_cons (sep : α) (front behind : List α) :
    pieces sep (front ++ sep :: behind) = pieces sep front ++ pieces sep behind := by
  induction front with
  | nil => simp [pieces]
  | cons a front ih =>
    rw [List.cons_append, pieces, pieces, ih]
    split
    · rfl
    · cases h : pieces sep front with
      | nil => exact absurd h (pieces_ne_nil sep front)
      | cons w ws => rfl

/-- A stretch without the separator, in front of one, is the first piece. -/
theorem pieces_append {sep : α} {w : List α} (h : sep ∉ w) (l : List α) :
    pieces sep (w ++ sep :: l) = w :: pieces sep l := by
  rw [pieces_append_cons, pieces_eq_singleton h, List.singleton_append]

/-- Where a map takes nothing but the separator to the separator, the pieces are mapped. -/
theorem pieces_map {f : α → α} {sep : α} (h : ∀ a, f a = sep ↔ a = sep) (l : List α) :
    pieces sep (l.map f) = (pieces sep l).map (List.map f) := by
  induction l with
  | nil => rfl
  | cons a l ih =>
    rw [List.map_cons, pieces, pieces, ih]
    simp only [h]
    split
    · rfl
    · cases heq : pieces sep l with
      | nil => exact absurd heq (pieces_ne_nil sep l)
      | cons w ws => rfl

/-- Cutting gives back what was joined in front of a last sequence, and the pieces of that one. -/
theorem pieces_intercalate_concat {sep : α} {ws : List (List α)} (h : ∀ w ∈ ws, sep ∉ w)
    (l : List α) : pieces sep ([sep].intercalate (ws ++ [l])) = ws ++ pieces sep l := by
  induction ws with
  | nil => rw [List.nil_append, List.intercalate_singleton, List.nil_append]
  | cons w ws ih =>
    obtain ⟨v, vs, hvs⟩ := List.exists_cons_of_ne_nil (List.concat_ne_nil l ws)
    have ih := ih fun v hv => h v (List.mem_cons_of_mem _ hv)
    rw [hvs] at ih
    rw [List.cons_append, hvs, List.intercalate_cons_cons, List.append_assoc,
      List.singleton_append, pieces_append (h w List.mem_cons_self), ih, List.cons_append]

/-- Cutting gives back what was joined with the separator. -/
theorem pieces_intercalate {sep : α} {ws : List (List α)} (hne : ws ≠ [])
    (h : ∀ w ∈ ws, sep ∉ w) : pieces sep ([sep].intercalate ws) = ws := by
  have hlast := pieces_eq_singleton (h _ (List.getLast_mem hne))
  rw [← List.dropLast_concat_getLast hne,
    pieces_intercalate_concat fun w hw => h w ((List.dropLast_sublist ws).subset hw), hlast]

/-- Words that are joined with a separator: every one behind the first follows a separator. -/
theorem intercalate_cons_eq_append_flatMap {β : Type} (sep : β) (w : List β) (ws : List (List β)) :
    [sep].intercalate (w :: ws) = w ++ ws.flatMap fun v => sep :: v := by
  induction ws generalizing w with
  | nil => simp
  | cons v ws ih =>
    rw [List.intercalate_cons_cons, ih]
    simp

/-- What holds in a separator and in the parts that it joins holds in the whole. -/
theorem forall_mem_intercalate {β : Type} {P : β → Prop} {sep : List β} {ws : List (List β)}
    (hsep : ∀ a ∈ sep, P a) (h : ∀ w ∈ ws, ∀ a ∈ w, P a) : ∀ a ∈ sep.intercalate ws, P a := by
  induction ws with
  | nil => exact fun a ha => by cases ha
  | cons w ws ih =>
    have hw := h w List.mem_cons_self
    have hws := ih fun v hv => h v (List.mem_cons_of_mem _ hv)
    cases ws with
    | nil => simpa using hw
    | cons w' ws =>
      rw [List.intercalate_cons_cons]
      intro a ha
      rcases List.mem_append.mp ha with ha | ha
      · exact (List.mem_append.mp ha).elim (hw a) (hsep a)
      · exact hws a ha

theorem sep_notMem_of_mem_pieces {sep : α} {l w : List α} (h : w ∈ pieces sep l) : sep ∉ w := by
  induction l generalizing w with
  | nil => simp_all [pieces]
  | cons a l ih =>
    rw [pieces] at h
    split at h
    · obtain rfl | h := List.mem_cons.mp h
      · exact List.not_mem_nil
      · exact ih h
    · next ha =>
      split at h
      · simp_all [Ne.symm ha]
      · next v vs heq =>
        rw [heq] at ih
        obtain rfl | h := List.mem_cons.mp h
        · simp [Ne.symm ha, ih List.mem_cons_self]
        · exact ih (List.mem_cons_of_mem _ h)

/-- Nothing but the separator is lost by a cut. -/
theorem cutAt?_eq_some {sep : α} {l before after : List α}
    (h : cutAt? sep l = some (before, after)) : l = before ++ sep :: after ∧ sep ∉ before := by
  induction l generalizing before with
  | nil => simp [cutAt?] at h
  | cons a l ih =>
    rw [cutAt?] at h
    split at h
    · next ha => simp_all
    · next ha =>
      obtain ⟨⟨b, c⟩, hb, hc⟩ := Option.map_eq_some_iff.1 h
      simp only [Prod.mk.injEq] at hc
      obtain ⟨rfl, rfl⟩ := hc
      obtain ⟨rfl, hn⟩ := ih hb
      exact ⟨rfl, by simp [hn, Ne.symm ha]⟩

/-- A sequence is cut at the separator that follows a stretch without one. -/
theorem cutAt?_append {sep : α} {before : List α} (after : List α) (h : sep ∉ before) :
    cutAt? sep (before ++ sep :: after) = some (before, after) := by
  induction before with
  | nil => simp [cutAt?]
  | cons a l ih =>
    simp only [List.mem_cons, not_or] at h
    simp [cutAt?, Ne.symm h.1, ih h.2]

/-! ## Markers of several elements -/

/-- What follows `marker` at the front of a sequence. -/
def after? (marker : List α) (l : List α) : Option (List α) :=
  match marker, l with
  | [], l => some l
  | _ :: _, [] => none
  | m :: ms, a :: l => if m = a then after? ms l else none

/-- What stands before and after the first occurrence of a marker; an empty marker
occurs nowhere. -/
def cut? (marker : List α) : List α → Option (List α × List α)
  | [] => none
  | a :: l =>
    if marker = [] then none
    else match after? marker (a :: l) with
      | some rest => some ([], rest)
      | none => (cut? marker l).map fun p => (a :: p.1, p.2)

theorem after?_eq_some_iff {marker l rest : List α} :
    after? marker l = some rest ↔ l = marker ++ rest := by
  induction marker generalizing l with
  | nil => simp [after?]
  | cons m ms ih =>
    cases l with
    | nil => simp [after?]
    | cons a l =>
      rw [after?]
      by_cases h : m = a
      · subst h; simp [ih]
      · simp [h, Ne.symm h]

@[simp] theorem after?_append (marker rest : List α) : after? marker (marker ++ rest) = some rest :=
  after?_eq_some_iff.2 rfl

/-- What is in front of the marker, the marker and what follows make up the whole. -/
theorem cut?_eq_some {marker l before rest : List α} (h : cut? marker l = some (before, rest)) :
    l = before ++ marker ++ rest := by
  induction l generalizing before with
  | nil => simp [cut?] at h
  | cons a l ih =>
    rw [cut?] at h
    split at h
    · simp at h
    · split at h
      · next r hr =>
        simp only [Option.some.injEq, Prod.mk.injEq] at h
        obtain ⟨rfl, rfl⟩ := h
        simpa using after?_eq_some_iff.1 hr
      · obtain ⟨⟨b, c⟩, hb, hc⟩ := Option.map_eq_some_iff.1 h
        simp only [Prod.mk.injEq] at hc
        obtain ⟨rfl, rfl⟩ := hc
        rw [ih hb]; simp

/-- The rest after a marker is shorter than the whole. -/
theorem length_of_cut? {marker l before rest : List α} (h : cut? marker l = some (before, rest)) :
    rest.length < l.length := by
  have hm : marker ≠ [] := by
    rintro rfl
    cases l <;> simp [cut?] at h
  have := cut?_eq_some h
  have hp : 0 < marker.length := List.length_pos_iff.2 hm
  rw [this]; simp; omega

/-- A stretch without the first element of a marker is passed over. -/
theorem cut?_append_of_notMem {m : α} {ms w : List α} (h : m ∉ w) (l : List α) :
    cut? (m :: ms) (w ++ l) = (cut? (m :: ms) l).map fun p => (w ++ p.1, p.2) := by
  induction w with
  | nil => simp
  | cons a w ih =>
    rw [List.mem_cons, not_or] at h
    have hafter : after? (m :: ms) (a :: (w ++ l)) = none := by rw [after?, if_neg h.1]
    rw [List.cons_append, cut?, if_neg (List.cons_ne_nil _ _), hafter, ih h.2]
    simp only [Option.map_map]
    rfl

/-- A sequence is cut at a marker that has not occurred before it is complete. -/
theorem cut?_append {marker before : List α} (hne : marker ≠ [])
    (h : ∀ front behind, before ++ marker = front ++ marker ++ behind → behind = [])
    (rest : List α) : cut? marker (before ++ marker ++ rest) = some (before, rest) := by
  induction before with
  | nil =>
    obtain ⟨m, ms, rfl⟩ := List.exists_cons_of_ne_nil hne
    have hafter := after?_append (m :: ms) rest
    rw [List.cons_append] at hafter
    rw [List.nil_append, List.cons_append, cut?, if_neg hne, hafter]
  | cons a before ih =>
    have hafter : after? marker (a :: (before ++ marker ++ rest)) = none := by
      cases heq : after? marker (a :: (before ++ marker ++ rest)) with
      | none => rfl
      | some l =>
        -- A marker at the front would be complete before the one behind it is.
        have hprefix : marker <+: a :: before ++ marker :=
          List.prefix_of_prefix_length_le ⟨l, (after?_eq_some_iff.1 heq).symm⟩
            ⟨rest, rfl⟩ (by simp only [List.length_append, List.length_cons]; omega)
        obtain ⟨behind, hbehind⟩ := hprefix
        have hnil : behind = [] := h [] behind (by simpa using hbehind.symm)
        have hlength := congrArg List.length hbehind
        simp only [hnil, List.append_nil, List.length_append, List.length_cons] at hlength
        omega
    rw [List.cons_append, List.cons_append, cut?, if_neg hne, hafter, ih]
    · rfl
    · intro front behind heq
      exact h (a :: front) behind (congrArg (a :: ·) heq)

/-- A cut is made at the first occurrence of a marker. -/
theorem length_le_of_cut? {marker l before rest : List α} (h : cut? marker l = some (before, rest))
    {front behind : List α} (heq : l = front ++ marker ++ behind) :
    before.length ≤ front.length := by
  induction l generalizing before front with
  | nil => simp [cut?] at h
  | cons a l ih =>
    rw [cut?] at h
    split at h
    · simp at h
    · split at h
      · obtain ⟨rfl, -⟩ := Prod.mk.inj (Option.some.inj h)
        exact Nat.zero_le _
      · next hafter =>
        obtain ⟨⟨b, r⟩, hp, hcons⟩ := Option.map_eq_some_iff.1 h
        obtain ⟨rfl, rfl⟩ := Prod.mk.inj hcons
        cases front with
        | nil =>
          have hfront := after?_append marker behind
          rw [List.nil_append] at heq
          rw [heq, hfront] at hafter
          simp at hafter
        | cons c front =>
          have hlength := ih hp (List.cons.inj heq).2
          simpa using hlength

/-- Where a cut leaves nothing behind the marker, nothing is behind any occurrence of it. -/
theorem eq_nil_of_cut? {marker before : List α}
    (h : cut? marker (before ++ marker) = some (before, [])) (front behind : List α)
    (heq : before ++ marker = front ++ marker ++ behind) : behind = [] := by
  have hfirst := length_le_of_cut? h heq
  have hlength := congrArg List.length heq
  simp only [List.length_append] at hlength
  exact List.eq_nil_of_length_eq_zero (by omega)

/-- A marker whose first element does not come again in it has not occurred before it is
complete, unless it occurs in what stands before. -/
theorem eq_nil_of_not_infix {β : Type} {m : β} {ms before : List β} (hm : m ∉ ms)
    (h : ¬m :: ms <:+: before) (front behind : List β)
    (heq : before ++ (m :: ms) = front ++ (m :: ms) ++ behind) : behind = [] := by
  rw [List.append_assoc] at heq
  obtain ⟨c, -, hc⟩ | ⟨c, hbefore, hc⟩ := List.append_eq_append_iff.1 heq
  · have hlength := congrArg List.length hc
    simp only [List.length_append, List.length_cons] at hlength
    exact List.eq_nil_of_length_eq_zero (by omega)
  · cases c with
    | nil => simpa using hc
    | cons a c =>
      rw [List.cons_append, List.cons_append, List.cons.injEq] at hc
      obtain ⟨rfl, hc⟩ := hc
      -- The first element that follows `c` stands in the marker, or the marker in `before`.
      obtain ⟨d, rfl, -⟩ | ⟨d, hms, hd⟩ := List.append_eq_append_iff.1 hc
      · exact absurd ⟨front, d, by simp [hbefore]⟩ h
      · cases d with
        | nil => exact absurd ⟨front, [], by simp [hbefore, hms]⟩ h
        | cons e d =>
          obtain ⟨rfl, -⟩ := List.cons.inj hd
          exact absurd (by simp [hms]) hm

/-- The marker behind `before` is the first one: none is complete earlier. -/
def FirstBehind {β : Type} (marker before : List β) : Prop :=
  ∀ front behind, before ++ marker = front ++ marker ++ behind → behind = []

/-- What a cut finds is the first occurrence of the marker, and it finds one if there is one. -/
theorem cut?_eq_some_iff {marker l before rest : List α} (hne : marker ≠ []) :
    cut? marker l = some (before, rest) ↔
      l = before ++ marker ++ rest ∧ FirstBehind marker before := by
  constructor
  · intro h
    refine ⟨cut?_eq_some h, fun front behind heq => ?_⟩
    have hwhole : l = front ++ marker ++ (behind ++ rest) := by
      rw [cut?_eq_some h, heq, List.append_assoc _ behind]
    have hfirst := length_le_of_cut? h hwhole
    have hlength := congrArg List.length heq
    simp only [List.length_append] at hlength
    exact List.eq_nil_of_length_eq_zero (by omega)
  · rintro ⟨rfl, hfirst⟩
    exact cut?_append hne hfirst rest

/-- A marker that occurs is found. -/
theorem exists_cut?_of_infix {marker l : List α} (hne : marker ≠ []) (h : marker <:+: l) :
    ∃ before rest, cut? marker l = some (before, rest) := by
  obtain ⟨front, behind, rfl⟩ := h
  induction front with
  | nil =>
    obtain ⟨m, ms, rfl⟩ := List.exists_cons_of_ne_nil hne
    have hafter := after?_append (m :: ms) behind
    rw [List.cons_append] at hafter
    rw [List.nil_append, List.cons_append, cut?, if_neg hne, hafter]
    exact ⟨[], behind, rfl⟩
  | cons a front ih =>
    obtain ⟨before, rest, hcut⟩ := ih
    rw [List.cons_append, List.cons_append, cut?, if_neg hne]
    cases after? marker (a :: (front ++ marker ++ behind)) with
    | some l => exact ⟨[], l, rfl⟩
    | none => exact ⟨a :: before, rest, by rw [hcut]; rfl⟩

/-- A cut does not change where more follows. -/
theorem cut?_append_right {marker l before rest : List α} (h : cut? marker l = some (before, rest))
    (more : List α) : cut? marker (l ++ more) = some (before, rest ++ more) := by
  have hne : marker ≠ [] := by
    rintro rfl
    cases l <;> simp [cut?] at h
  obtain ⟨rfl, hfirst⟩ := (cut?_eq_some_iff hne).1 h
  exact (cut?_eq_some_iff hne).2 ⟨List.append_assoc _ _ _, hfirst⟩

/-- Whether a marker is the first one behind `before` is seen by cutting. -/
theorem firstBehind_iff {marker before : List α} (hne : marker ≠ []) :
    FirstBehind marker before ↔ cut? marker (before ++ marker) = some (before, []) := by
  rw [cut?_eq_some_iff hne, List.append_nil]
  exact ⟨fun h => ⟨rfl, h⟩, fun h => h.2⟩

theorem firstBehind_nil {β : Type} {before : List β} : FirstBehind [] before ↔ before = [] := by
  constructor
  · exact fun h => h [] before (by simp)
  · rintro rfl front behind heq
    exact (List.append_eq_nil_iff.1 heq.symm).2

instance (marker before : List α) : Decidable (FirstBehind marker before) :=
  match marker with
  | [] => decidable_of_iff (before = []) firstBehind_nil.symm
  | _ :: _ => decidable_of_iff _ (firstBehind_iff (List.cons_ne_nil _ _)).symm

theorem FirstBehind.of_append {β : Type} {marker front before : List β}
    (h : FirstBehind marker (front ++ before)) : FirstBehind marker before := by
  intro front' behind heq
  refine h (front ++ front') behind ?_
  rw [List.append_assoc, heq]
  simp only [List.append_assoc]

/-- What stands in front of the first marker and what follows it are determined by the whole. -/
theorem FirstBehind.unique {marker before rest before' rest' : List α} (hne : marker ≠ [])
    (h : FirstBehind marker before) (h' : FirstBehind marker before')
    (heq : before ++ marker ++ rest = before' ++ marker ++ rest') :
    before = before' ∧ rest = rest' := by
  have hcut := (cut?_eq_some_iff hne).2 ⟨heq, h'⟩
  rw [(cut?_eq_some_iff hne).2 ⟨rfl, h⟩] at hcut
  exact Prod.mk.inj (Option.some.inj hcut)

/-! ## Lines -/

/-- The lines of a text whose line ends are carriage return, line feed. -/
def crlfLines : List Char → List (List Char)
  | [] => [[]]
  | '\r' :: '\n' :: l => [] :: crlfLines l
  | c :: l =>
    match crlfLines l with
    | [] => [[c]]
    | w :: ws => (c :: w) :: ws

theorem crlfLines_cons {c : Char} (h : c ≠ '\r') (l : List Char) :
    crlfLines (c :: l) = match crlfLines l with
      | [] => [[c]]
      | w :: ws => (c :: w) :: ws := by
  rw [crlfLines]
  intro l' hc
  exact absurd hc h

/-- A stretch without a carriage return is one line. -/
theorem crlfLines_eq_singleton {l : List Char} (h : '\r' ∉ l) : crlfLines l = [l] := by
  induction l with
  | nil => rfl
  | cons c l ih =>
    rw [List.mem_cons, not_or] at h
    rw [crlfLines_cons (Ne.symm h.1), ih h.2]

/-- A stretch without a carriage return, in front of a line end, is the first line. -/
theorem crlfLines_append {w : List Char} (h : '\r' ∉ w) (l : List Char) :
    crlfLines (w ++ '\r' :: '\n' :: l) = w :: crlfLines l := by
  induction w with
  | nil => rfl
  | cons c w ih =>
    rw [List.mem_cons, not_or] at h
    rw [List.cons_append, crlfLines_cons (Ne.symm h.1), ih h.2]

/-- Lines that are joined with line ends are the lines of the whole. -/
theorem crlfLines_intercalate {ws : List (List Char)} (hne : ws ≠ []) (h : ∀ w ∈ ws, '\r' ∉ w) :
    crlfLines (['\r', '\n'].intercalate ws) = ws := by
  induction ws with
  | nil => exact absurd rfl hne
  | cons w ws ih =>
    have hw := h w List.mem_cons_self
    cases ws with
    | nil => rw [List.intercalate_singleton, crlfLines_eq_singleton hw]
    | cons w' ws =>
      rw [List.intercalate_cons_cons, List.append_assoc, List.cons_append, List.singleton_append,
        crlfLines_append hw]
      rw [ih (List.cons_ne_nil _ _) fun v hv => h v (List.mem_cons_of_mem _ hv)]

end HttpApp.Text
