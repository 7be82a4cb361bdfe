/-
  HttpApp/Proofs/Media/Reading.lean --- reading the media types that clients write.

  A well-formed text is cut at the first characters that are no part of a token, and
  every parameter is read in front of what follows it: nothing, or a semicolon with the
  next parameter.  The spaces behind the last parameter are trimmed away, and only the
  text of the media type tells (`WrittenMedia.media_trimmed`).  Main statement:
  `WrittenMedia.read?_padded`.
-/
import HttpApp.Media.Writer
import HttpApp.Text.Cut

set_option autoImplicit false

namespace HttpApp

theorem Text.not_isBlank_of_isTokenChar {c : Char} (h : Text.isTokenChar c = true) :
    Text.isBlank c = false := by
  obtain ⟨hlow, hhigh⟩ := Text.toNat_of_isTokenChar h
  simp [Text.isBlank]
  omega

namespace MediaType

/-- What follows a part of a text: nothing, or a semicolon and more. -/
def behind : Option (List Char) → List Char
  | none => []
  | some rest => ';' :: rest

theorem head?_behind {more : Option (List Char)} {c : Char} (h : (behind more).head? = some c) :
    c = ';' := by
  cases more with
  | none => cases h
  | some rest => exact (Option.some.inj h).symm

/-! ## Values -/

theorem readQuoted_false {v : List Char} (hv : ∀ c ∈ v, isQuotable c = true) (hquote : '"' ∉ v)
    (rest : List Char) : readQuoted false (v ++ '"' :: rest) = some (v, rest) := by
  induction v with
  | nil => rfl
  | cons c v ih =>
    rw [List.mem_cons, not_or] at hquote
    obtain ⟨hc, hv⟩ := List.forall_mem_cons.mp hv
    simp [readQuoted, Ne.symm hquote.1, hc, ih hv hquote.2]

/-- A quoted value ends at the first quote behind its first character. -/
theorem readQuoted_append {v : List Char} (hne : v ≠ []) (hv : ∀ c ∈ v, isQuotable c = true)
    (hquote : '"' ∉ v.tail) (rest : List Char) :
    readQuoted true (v ++ '"' :: rest) = some (v, rest) := by
  obtain ⟨c, v, rfl⟩ := List.exists_cons_of_ne_nil hne
  obtain ⟨hc, hv⟩ := List.forall_mem_cons.mp hv
  simp [readQuoted, hc, readQuoted_false hv hquote]

theorem afterQuoted_append {trail : List Char} (h : ∀ c ∈ trail, c = ' ')
    (more : Option (List Char)) : afterQuoted (trail ++ behind more) = some (trail, more) := by
  induction trail with
  | nil => cases more <;> rfl
  | cons c trail ih =>
    obtain ⟨hc, htrail⟩ := List.forall_mem_cons.mp h
    simp [hc, afterQuoted, ih htrail]

theorem readBare_append {v : List Char} (hne : v ≠ []) (hv : ∀ c ∈ v, Text.isTokenChar c = true)
    (more : Option (List Char)) : readBare (v ++ behind more) = some (v, more) := by
  have hstop : ∀ c, (behind more).head? = some c → Text.isTokenChar c = false := by
    intro c hc
    rw [head?_behind hc]
    decide
  obtain ⟨htake, hdrop⟩ := Text.takeWhile_append_stop hv hstop
  rw [readBare, htake, hdrop]
  cases more with
  | none => rfl
  | some rest => simp [behind, hne]

/-! ## Parameters -/

namespace WrittenParam

/-- A parameter whose parts are what they should be. -/
structure Formed (p : WrittenParam) : Prop where
  lead : ∀ c ∈ p.lead, c = ' '
  trail : ∀ c ∈ p.trail, c = ' '
  name_ne_nil : p.name ≠ []
  name : ∀ c ∈ p.name, Text.isTokenChar c = true
  value_ne_nil : p.value ≠ []
  quoted : p.quoted = true → (∀ c ∈ p.value, isQuotable c = true) ∧ '"' ∉ p.value.tail
  bare : p.quoted = false → (∀ c ∈ p.value, Text.isTokenChar c = true) ∧ p.trail = []

theorem isWellFormed_iff {p : WrittenParam} : p.isWellFormed = true ↔ p.Formed := by
  constructor
  · intro h
    simp only [isWellFormed, Bool.and_eq_true, List.all_eq_true, beq_iff_eq,
      Bool.not_eq_true', List.isEmpty_eq_false_iff] at h
    obtain ⟨⟨⟨⟨⟨hlead, htrail⟩, hne⟩, hname⟩, hvalue⟩, hrest⟩ := h
    refine ⟨hlead, htrail, hne, hname, hvalue, ?_, ?_⟩
    · intro hquoted
      simpa [hquoted] using hrest
    · intro hquoted
      simpa [hquoted] using hrest
  · intro h
    simp only [isWellFormed, Bool.and_eq_true, List.all_eq_true, beq_iff_eq,
      Bool.not_eq_true', List.isEmpty_eq_false_iff]
    refine ⟨⟨⟨⟨⟨h.lead, h.trail⟩, h.name_ne_nil⟩, h.name⟩, h.value_ne_nil⟩, ?_⟩
    cases hquoted : p.quoted with
    | true => simpa using h.quoted hquoted
    | false => simpa using h.bare hquoted

/-- The text of a parameter behind its name. -/
def writtenValue (p : WrittenParam) : List Char :=
  (if p.quoted then '"' :: p.value ++ ['"'] else p.value) ++ p.trail

theorem written_eq (p : WrittenParam) :
    p.written = p.lead ++ (p.name ++ '=' :: p.writtenValue) := by
  simp [written, writtenValue, List.append_assoc]

/-- The spaces in front of a name and the name are cut off what follows them. -/
theorem Formed.cut {p : WrittenParam} (h : p.Formed) (rest : List Char) :
    let text := p.lead ++ (p.name ++ '=' :: rest)
    text.takeWhile (· == ' ') = p.lead ∧ text.dropWhile (· == ' ') = p.name ++ '=' :: rest ∧
      (p.name ++ '=' :: rest).takeWhile Text.isTokenChar = p.name ∧
      (p.name ++ '=' :: rest).dropWhile Text.isTokenChar = '=' :: rest := by
  have hfirst : ∀ c, (p.name ++ '=' :: rest).head? = some c → (c == ' ') = false := by
    intro c hc
    obtain ⟨first, name, hname⟩ := List.exists_cons_of_ne_nil h.name_ne_nil
    obtain rfl : first = c := by simpa [hname] using hc
    have htoken := h.name first (by simp [hname])
    rw [beq_eq_false_iff_ne]
    rintro rfl
    exact absurd htoken (by decide)
  obtain ⟨hlead, htext⟩ := Text.takeWhile_append_stop
    (fun c hc => beq_iff_eq.mpr (h.lead c hc)) hfirst
  obtain ⟨hname, hrest⟩ := Text.takeWhile_append_cons h.name '=' (by decide) rest
  exact ⟨hlead, htext, hname, hrest⟩

end WrittenParam

/-- One parameter is read, and then those behind the semicolon that follows it. -/
theorem readParams_append {p : WrittenParam} (h : p.Formed) (more : Option (List Char))
    (fuel : Nat) : readParams (fuel + 1) (p.written ++ behind more) = readParams.go fuel p more := by
  have hwritten : p.written ++ behind more =
      p.lead ++ (p.name ++ '=' :: (p.writtenValue ++ behind more)) := by
    simp [p.written_eq, List.append_assoc]
  obtain ⟨hlead, htext, hname, hrest⟩ := h.cut (p.writtenValue ++ behind more)
  have hnonempty : (p.name ++ '=' :: (p.writtenValue ++ behind more)).isEmpty = false := by
    simp [h.name_ne_nil]
  rw [hwritten, readParams]
  simp only [hlead, htext, hname, hrest, hnonempty]
  obtain ⟨lead, name, value, quoted, trail⟩ := p
  obtain ⟨n, ns, rfl⟩ : ∃ n ns, name = n :: ns := List.exists_cons_of_ne_nil h.name_ne_nil
  obtain ⟨v, vs, rfl⟩ : ∃ v vs, value = v :: vs := List.exists_cons_of_ne_nil h.value_ne_nil
  cases quoted with
  | true =>
    obtain ⟨hquotable, hquote⟩ := h.quoted rfl
    have hread := readQuoted_append h.value_ne_nil hquotable hquote (trail ++ behind more)
    have hafter := afterQuoted_append h.trail more
    simp only [List.cons_append] at hread
    simp [WrittenParam.writtenValue, hread, hafter]
  | false =>
    obtain ⟨htoken, rfl⟩ : _ ∧ trail = [] := h.bare rfl
    have hread := readBare_append h.value_ne_nil htoken more
    have hv : v ≠ '"' := by
      rintro rfl
      exact absurd (htoken '"' (by simp)) (by decide)
    simp only [List.cons_append] at hread
    simp [WrittenParam.writtenValue, hread, hv]

/-- Parameters that are written behind each other are read in order. -/
theorem readParams_written {p : WrittenParam} {ps : List WrittenParam} (hp : p.Formed)
    (hps : ∀ p ∈ ps, p.Formed) {fuel : Nat} (hfuel : ps.length < fuel) :
    readParams fuel (p.written ++ ps.flatMap fun p => ';' :: p.written) = some (p :: ps, none) := by
  induction ps generalizing p fuel with
  | nil =>
    obtain ⟨fuel, rfl⟩ := Nat.exists_eq_add_one.mpr hfuel
    simpa [behind, readParams.go] using readParams_append hp none fuel
  | cons q qs ih =>
    obtain ⟨fuel, rfl⟩ : ∃ n, fuel = n + 1 := ⟨fuel - 1, by grind⟩
    obtain ⟨hq, hqs⟩ := List.forall_mem_cons.mp hps
    have hrest := ih hq hqs (Nat.lt_of_succ_lt_succ hfuel)
    have h := readParams_append hp (some (q.written ++ qs.flatMap fun p => ';' :: p.written)) fuel
    rw [readParams.go, hrest] at h
    simpa [behind] using h

/-! ## Spaces at the end -/

namespace WrittenParam

/-- Parameters without the spaces behind the last one. -/
def cutTrail : List WrittenParam → List WrittenParam
  | [] => []
  | [p] => [{ p with trail := [] }]
  | p :: q :: ps => p :: cutTrail (q :: ps)

/-- The text of parameters, each behind a semicolon. -/
def joined (ps : List WrittenParam) : List Char := ps.flatMap fun p => ';' :: p.written

theorem joined_cons (p : WrittenParam) (ps : List WrittenParam) :
    joined (p :: ps) = (';' :: p.written) ++ joined ps := rfl

theorem not_isTokenChar_of_head?_joined {ps : List WrittenParam} (c : Char)
    (h : (joined ps).head? = some c) : Text.isTokenChar c = false := by
  cases ps with
  | nil => cases h
  | cons p ps =>
    obtain rfl : ';' = c := Option.some.inj h
    decide

theorem length_le_length_joined (ps : List WrittenParam) : ps.length ≤ (joined ps).length := by
  induction ps with
  | nil => exact Nat.le_refl 0
  | cons p ps ih =>
    rw [joined_cons, List.length_append, List.length_cons, List.length_cons]
    omega

theorem written_eq_append_trail (p : WrittenParam) :
    p.written = { p with trail := [] }.written ++ p.trail := by
  simp [written]

theorem Formed.withoutTrail {p : WrittenParam} (h : p.Formed) :
    Formed { p with trail := [] } where
  lead := h.lead
  trail := by simp
  name_ne_nil := h.name_ne_nil
  name := h.name
  value_ne_nil := h.value_ne_nil
  quoted := h.quoted
  bare hquoted := ⟨(h.bare hquoted).1, rfl⟩

theorem forall_formed_cutTrail {ps : List WrittenParam} (h : ∀ p ∈ ps, p.Formed) :
    ∀ p ∈ cutTrail ps, p.Formed := by
  induction ps using cutTrail.induct with
  | case1 => exact h
  | case2 p => simpa [cutTrail] using (h p List.mem_cons_self).withoutTrail
  | case3 p q ps ih =>
    obtain ⟨hp, hps⟩ := List.forall_mem_cons.mp h
    exact List.forall_mem_cons.mpr ⟨hp, ih hps⟩

/-- What is cut off are spaces. -/
theorem joined_eq_cutTrail {ps : List WrittenParam} (h : ∀ p ∈ ps, p.Formed) :
    ∃ spaces, (∀ c ∈ spaces, c = ' ') ∧ joined ps = joined (cutTrail ps) ++ spaces := by
  induction ps using cutTrail.induct with
  | case1 => exact ⟨[], by simp, rfl⟩
  | case2 p =>
    exact ⟨p.trail, (h p List.mem_cons_self).trail, by
      simp [joined, cutTrail, p.written_eq_append_trail]⟩
  | case3 p q ps ih =>
    obtain ⟨spaces, hspaces, heq⟩ := ih (List.forall_mem_cons.mp h).2
    refine ⟨spaces, hspaces, ?_⟩
    rw [cutTrail, joined_cons p (q :: ps), heq, joined_cons, List.append_assoc]

/-- A text whose last character is no blank. -/
def EndsDark (l : List Char) : Prop := ∃ front c, l = front ++ [c] ∧ Text.isBlank c = false

theorem EndsDark.prepend {l : List Char} (h : EndsDark l) (m : List Char) : EndsDark (m ++ l) := by
  obtain ⟨front, c, rfl, hc⟩ := h
  exact ⟨m ++ front, c, (List.append_assoc ..).symm, hc⟩

theorem endsDark_word {w : List Char} (hne : w ≠ []) (hw : ∀ c ∈ w, Text.isTokenChar c = true) :
    EndsDark w :=
  ⟨w.dropLast, w.getLast hne, (List.dropLast_concat_getLast hne).symm,
    Text.not_isBlank_of_isTokenChar (hw _ (List.getLast_mem hne))⟩

theorem Formed.endsDark {p : WrittenParam} (h : p.Formed) (htrail : p.trail = []) :
    EndsDark p.written := by
  have hvalue : EndsDark (if p.quoted then '"' :: p.value ++ ['"'] else p.value) := by
    cases hquoted : p.quoted with
    | true => exact ⟨'"' :: p.value, '"', rfl, by decide⟩
    | false => exact endsDark_word h.value_ne_nil (h.bare hquoted).1
  rw [written, htrail, List.append_nil]
  exact (hvalue.prepend ['=']).prepend (p.lead ++ p.name)

theorem endsDark_joined_cutTrail {ps : List WrittenParam} (hne : ps ≠ [])
    (h : ∀ p ∈ ps, p.Formed) : EndsDark (joined (cutTrail ps)) := by
  induction ps using cutTrail.induct with
  | case1 => exact absurd rfl hne
  | case2 p =>
    have hp := (h p List.mem_cons_self).withoutTrail.endsDark rfl
    simpa [joined, cutTrail] using hp.prepend [';']
  | case3 p q ps ih =>
    rw [cutTrail, joined_cons]
    exact (ih (List.cons_ne_nil q ps) (List.forall_mem_cons.mp h).2).prepend _

theorem map_pair_cutTrail (ps : List WrittenParam) : (cutTrail ps).map pair = ps.map pair := by
  induction ps using cutTrail.induct with
  | case1 => rfl
  | case2 p => rfl
  | case3 p q ps ih => rw [cutTrail, List.map_cons, ih, ← List.map_cons]

/-- The spaces behind parameters do not show in their names and values. -/
theorem pairs_cutTrail (ps : List WrittenParam) : pairs (cutTrail ps) = pairs ps := by
  match ps with
  | [] => rfl
  | [p] => rfl
  | p :: q :: ps =>
    obtain ⟨r, rs, hcut⟩ : ∃ r rs, cutTrail (q :: ps) = r :: rs := by
      cases ps with
      | nil => exact ⟨_, _, rfl⟩
      | cons s ps => exact ⟨_, _, rfl⟩
    have hmap := map_pair_cutTrail (q :: ps)
    rw [hcut] at hmap
    rw [cutTrail, hcut, pairs, pairs, hmap]
    all_goals simp

end WrittenParam

end MediaType

/-! ## Media types -/

namespace WrittenMedia

open MediaType

/-- A media type whose parts are what they should be. -/
structure Formed (w : WrittenMedia) : Prop where
  type_ne_nil : w.type ≠ []
  type : ∀ c ∈ w.type, Text.isTokenChar c = true
  subtype_ne_nil : w.subtype ≠ []
  subtype : ∀ c ∈ w.subtype, Text.isTokenChar c = true
  params : ∀ p ∈ w.params, p.Formed

theorem isWellFormed_iff {w : WrittenMedia} : w.isWellFormed = true ↔ w.Formed := by
  simp only [isWellFormed, Bool.and_eq_true, List.all_eq_true, Bool.not_eq_true',
    List.isEmpty_eq_false_iff, WrittenParam.isWellFormed_iff]
  exact ⟨fun ⟨⟨⟨⟨h₁, h₂⟩, h₃⟩, h₄⟩, h₅⟩ => ⟨h₁, h₂, h₃, h₄, h₅⟩,
    fun h => ⟨⟨⟨⟨h.type_ne_nil, h.type⟩, h.subtype_ne_nil⟩, h.subtype⟩, h.params⟩⟩

theorem written_eq (w : WrittenMedia) :
    w.written = w.type ++ '/' :: (w.subtype ++ WrittenParam.joined w.params) := by
  simp [written, WrittenParam.joined]

/-- A written media type is read as what was written. -/
theorem readTrimmed?_written {w : WrittenMedia} (h : w.Formed) :
    readTrimmed? w.written = some w.media := by
  obtain ⟨htype, hrest⟩ := Text.takeWhile_append_cons h.type '/' (by decide)
    (w.subtype ++ WrittenParam.joined w.params)
  obtain ⟨hsubtype, hparams⟩ := Text.takeWhile_append_stop h.subtype
    (@WrittenParam.not_isTokenChar_of_head?_joined w.params)
  rw [w.written_eq, readTrimmed?]
  simp only [htype, hrest]
  obtain ⟨t, ts, ht⟩ := List.exists_cons_of_ne_nil h.type_ne_nil
  simp only [ht, hsubtype, hparams]
  cases hcases : w.params with
  | nil => simp [WrittenParam.joined, media, hcases, ht]
  | cons p ps =>
    obtain ⟨hp, hps⟩ := List.forall_mem_cons.mp (hcases ▸ h.params)
    have hlength := WrittenParam.length_le_length_joined ps
    have hread : readParams ((p.written ++ WrittenParam.joined ps).length + 1)
        (p.written ++ WrittenParam.joined ps) = some (p :: ps, none) :=
      readParams_written hp hps (by rw [List.length_append]; omega)
    rw [List.length_append] at hread
    simp [WrittenParam.joined_cons, h.subtype_ne_nil, hread, media, hcases, ht]

/-- A media type without the spaces behind its last parameter. -/
def trimmed (w : WrittenMedia) : WrittenMedia :=
  { w with params := WrittenParam.cutTrail w.params }

theorem Formed.trimmed {w : WrittenMedia} (h : w.Formed) : w.trimmed.Formed where
  type_ne_nil := h.type_ne_nil
  type := h.type
  subtype_ne_nil := h.subtype_ne_nil
  subtype := h.subtype
  params := WrittenParam.forall_formed_cutTrail h.params

/-- Neither end of a media type is a blank once the spaces behind it are cut off. -/
theorem Formed.ends {w : WrittenMedia} (h : w.Formed) :
    (∀ c, w.trimmed.written.head? = some c → Text.isBlank c = false) ∧
      ∀ c, w.trimmed.written.getLast? = some c → Text.isBlank c = false := by
  constructor
  · intro c hc
    obtain ⟨t, ts, ht⟩ := List.exists_cons_of_ne_nil h.type_ne_nil
    obtain rfl : t = c := by simpa [written_eq, WrittenMedia.trimmed, ht] using hc
    exact Text.not_isBlank_of_isTokenChar (h.type t (by simp [ht]))
  · intro c hc
    have hdark : WrittenParam.EndsDark w.trimmed.written := by
      rw [written_eq]
      refine .prepend (.prepend ?_ ['/']) w.type
      cases hcases : w.params with
      | nil =>
        simpa [WrittenMedia.trimmed, hcases, WrittenParam.cutTrail, WrittenParam.joined] using
          WrittenParam.endsDark_word h.subtype_ne_nil h.subtype
      | cons p ps =>
        refine .prepend (WrittenParam.endsDark_joined_cutTrail ?_ h.params) w.subtype
        simp [hcases]
    obtain ⟨front, d, hwritten, hd⟩ := hdark
    obtain rfl : d = c := by simpa [hwritten] using hc
    exact hd

/-- The spaces that are cut off show in the text of a media type and in nothing else. -/
theorem media_trimmed (w : WrittenMedia) :
    w.trimmed.media = { w.media with shown := w.trimmed.media.shown } :=
  congrArg (fun params => { w.media with shown := w.trimmed.media.shown, params })
    (WrittenParam.pairs_cutTrail w.params)

/-- A written media type is read as what was written, with any spaces around it. -/
theorem read?_padded {w : WrittenMedia} (h : w.Formed) {front back : List Char}
    (hfront : ∀ c ∈ front, c = ' ') (hback : ∀ c ∈ back, c = ' ') :
    read? (String.ofList (front ++ w.written ++ back)) = some w.trimmed.media := by
  obtain ⟨spaces, hspaces, hjoined⟩ := WrittenParam.joined_eq_cutTrail h.params
  have hwritten : w.written = w.trimmed.written ++ spaces := by
    simp [written_eq, hjoined, WrittenMedia.trimmed]
  have hblank : ∀ c, c = ' ' → Text.isBlank c = true := by
    rintro c rfl
    decide
  have htrim : Text.trimBlanks (front ++ w.written ++ back) = w.trimmed.written := by
    rw [hwritten, List.append_assoc, List.append_assoc]
    refine Text.trimEnds_padded (fun c hc => hblank c (hfront c hc)) (fun c hc => ?_)
      h.ends.1 h.ends.2
    rcases List.mem_append.mp hc with hc | hc
    · exact hblank c (hspaces c hc)
    · exact hblank c (hback c hc)
  rw [read?, String.toList_ofList, htrim, readTrimmed?_written h.trimmed]

end WrittenMedia

end HttpApp
