/-
  HttpApp/Proofs/Form/Parts.lean --- parts are taken one by one.

  The delimiters cut a body into stretches, one for each part.  Reading does not look
  for them first: it looks for the empty line behind the header lines of a part, and
  from there for the delimiter behind its content.  In a stretch that has header lines
  and an empty line behind them, both searches end where they should.  In one that has
  not, the first search runs over the delimiter, and the part is taken together with
  the next one.  Main statement: where every part has its header lines, the parts of a
  body are its items, one by one.
-/
import HttpApp.Proofs.Form.Multipart
import Mathlib.Data.List.Forall2

set_option autoImplicit false

namespace HttpApp.Multipart

open Text (FirstBehind)

theorem delimiter_ne_nil (boundary : Bytes) : delimiter boundary ≠ [] := List.cons_ne_nil _ _

theorem lineEnd_append_ne_nil (l : Bytes) : lineEnd ++ l ≠ [] := List.cons_ne_nil _ _

/-! ## Stretches -/

/-- What follows the first delimiter of a body. -/
def Begins (boundary body behind : Bytes) : Prop :=
  ∃ preamble, FirstBehind (delimiter boundary) preamble ∧
    body = preamble ++ delimiter boundary ++ behind

/-- The stretches that follow one another behind a delimiter.  Each goes from the end of a delimiter
line to the first line end with a delimiter behind it; `rest` follows the last one of these. -/
inductive Stretches (boundary : Bytes) : Bytes → List Bytes → Bytes → Prop where
  | nil (rest : Bytes) : Stretches boundary rest [] rest
  | cons {stretch behind rest : Bytes} {stretches : List Bytes} :
    FirstBehind (lineEnd ++ delimiter boundary) stretch →
    Stretches boundary behind stretches rest →
    Stretches boundary (lineEnd ++ (stretch ++ (lineEnd ++ delimiter boundary) ++ behind))
      (stretch :: stretches) rest

/-- A stretch begins with a header line, and an empty line comes after it. -/
structure HasHeaders (stretch : Bytes) : Prop where
  begins : ¬lineEnd <+: stretch
  ends : lineEnd ++ lineEnd <:+: stretch

/-- A stretch is a part: its header lines go up to the first empty line, and all that follows is
its content. -/
structure Splits (stretch : Bytes) (p : Part) : Prop where
  begins : ¬lineEnd <+: stretch
  block : ∃ block, Utf8.decode block = .ok p.headers ∧ FirstBehind (lineEnd ++ lineEnd) block ∧
    stretch = block ++ (lineEnd ++ lineEnd) ++ p.content

/-- What a part is by its header lines: a file if they name one, and else a text field. -/
inductive Part.Is (p : Part) : Item → Prop where
  | field {name text : String} : (Disposition.ofLines p.headers).name = some name →
    (Disposition.ofLines p.headers).filename = none → Utf8.decode p.content = .ok text →
    Is p (.field name text)
  | file {name filename : String} : (Disposition.ofLines p.headers).name = some name →
    (Disposition.ofLines p.headers).filename = some filename →
    Is p (.file name filename (Disposition.ofLines p.headers).contentType p.content)

/-- A stretch is an item of a form. -/
def Holds (stretch : Bytes) (item : Item) : Prop := ∃ p, Splits stretch p ∧ p.Is item

/-- The stretches behind a delimiter, up to the closing mark, are determined by what stands
there: others that begin in the same place are the first ones of them. -/
theorem Stretches.isPrefix {boundary body rest epilogue : Bytes} {stretches stretches' : List Bytes}
    (h : Stretches boundary body stretches rest)
    (h' : Stretches boundary body stretches' (dashes ++ epilogue)) : stretches <+: stretches' := by
  induction h generalizing stretches' with
  | nil rest => exact List.nil_prefix
  | @cons stretch behind rest stretches hfirst _ ih =>
    generalize hbody : lineEnd ++ (stretch ++ (lineEnd ++ delimiter boundary) ++ behind) = body at h'
    generalize hlast : dashes ++ epilogue = last at h'
    cases h' with
    | nil _ =>
      rw [← hlast] at hbody
      exact absurd (List.cons.inj hbody).1 (by decide)
    | @cons stretch' behind' _ stretches' hfirst' hbehind' =>
      obtain ⟨rfl, rfl⟩ := hfirst.unique (lineEnd_append_ne_nil _) hfirst' (List.append_cancel_left hbody)
      rw [← hlast] at hbehind'
      exact (List.prefix_cons_inj stretch).2 (ih hbehind')

/-! ## Reading a part -/

/-- A part is added to a form as the item that it is, and only so. -/
theorem Part.addTo_eq_ok_iff {p : Part} {f g : Form} :
    p.addTo f = .ok g ↔ ∃ item, p.Is item ∧ g = joined f (formOf [item]) := by
  constructor
  · intro h
    rw [addTo] at h
    dsimp only at h
    cases hname : (Disposition.ofLines p.headers).name with
    | none => simp [hname] at h
    | some name =>
      cases hfilename : (Disposition.ofLines p.headers).filename with
      | none =>
        cases htext : Utf8.decode p.content with
        | error fault => simp [hname, hfilename, htext] at h
        | ok text =>
          simp only [hname, hfilename, htext, Except.ok.injEq] at h
          exact ⟨_, .field hname hfilename htext, by simp [← h, joined, formOf]⟩
      | some filename =>
        simp only [hname, hfilename, Except.ok.injEq] at h
        exact ⟨_, .file hname hfilename, by simp [← h, joined, formOf]⟩
  · rintro ⟨item, hitem, rfl⟩
    rw [addTo]
    cases hitem with
    | field hname hfilename htext => simp [hname, hfilename, htext, joined, formOf]
    | file hname hfilename => simp [hname, hfilename, joined, formOf]

/-- A part is taken behind a line end: its headers end at the first empty line, and its content at
the first delimiter behind that. -/
theorem nextPart_eq_some_iff {boundary body rest : Bytes} {p : Part} :
    nextPart boundary body = .ok (some (p, rest)) ↔
      ∃ block behind, Utf8.decode block = .ok p.headers ∧
        body = lineEnd ++ (block ++ (lineEnd ++ lineEnd) ++ behind) ∧
        FirstBehind (lineEnd ++ lineEnd) block ∧
        behind = p.content ++ (lineEnd ++ delimiter boundary) ++ rest ∧
        FirstBehind (lineEnd ++ delimiter boundary) p.content := by
  constructor
  · intro h
    rw [nextPart] at h
    split at h
    · cases h
    · split at h
      · cases h
      · next l hl =>
        split at h
        · cases h
        · next block behind hblock =>
          split at h
          · cases h
          · next headers hdecode =>
            split at h
            · cases h
            · next content rest' hcontent =>
              obtain ⟨rfl, rfl⟩ := Prod.mk.inj (Option.some.inj (Except.ok.inj h))
              obtain rfl := Text.after?_eq_some_iff.1 hl
              obtain ⟨rfl, hfirst⟩ := (Text.cut?_eq_some_iff (lineEnd_append_ne_nil _)).1 hblock
              exact ⟨block, behind, hdecode, rfl, hfirst,
                (Text.cut?_eq_some_iff (lineEnd_append_ne_nil _)).1 hcontent⟩
  · rintro ⟨block, behind, hdecode, rfl, hblock, hbehind, hcontent⟩
    have hopen : ∀ l : Bytes, Text.after? dashes (lineEnd ++ l) = none := fun _ => rfl
    rw [nextPart, hopen, Text.after?_append]
    dsimp only [Option.isSome_none, Bool.false_eq_true]
    rw [if_neg Bool.false_ne_true, (Text.cut?_eq_some_iff (lineEnd_append_ne_nil _)).2 ⟨rfl, hblock⟩]
    dsimp only
    rw [hdecode]
    dsimp only
    rw [(Text.cut?_eq_some_iff (lineEnd_append_ne_nil _)).2 ⟨hbehind, hcontent⟩]

/-- Header lines and the content behind them are taken as a part if the first empty line and the
first delimiter behind that are the ones that end them. -/
theorem nextPart_of_firstBehind {boundary block content : Bytes} {headers : String}
    (hdecode : Utf8.decode block = .ok headers) (hblock : FirstBehind (lineEnd ++ lineEnd) block)
    (hcontent : FirstBehind (lineEnd ++ delimiter boundary) content) (rest : Bytes) :
    nextPart boundary (lineEnd ++
        (block ++ (lineEnd ++ lineEnd) ++ content ++ (lineEnd ++ delimiter boundary) ++ rest)) =
      .ok (some (⟨headers, content⟩, rest)) := by
  refine nextPart_eq_some_iff.2 ⟨block, _, hdecode, ?_, hblock, rfl, hcontent⟩
  simp only [List.append_assoc]

/-- A stretch that is a part is taken as that part. -/
theorem Splits.nextPart {boundary stretch : Bytes} {p : Part} (h : Splits stretch p)
    (hfirst : FirstBehind (lineEnd ++ delimiter boundary) stretch) (rest : Bytes) :
    nextPart boundary (lineEnd ++ (stretch ++ (lineEnd ++ delimiter boundary) ++ rest)) =
      .ok (some (p, rest)) := by
  obtain ⟨block, hdecode, hblock, rfl⟩ := h.block
  exact nextPart_of_firstBehind hdecode hblock hfirst.of_append rest

/-- A part that is taken is the stretch up to the next delimiter, if that one has headers. -/
theorem exists_splits_of_nextPart {boundary body rest : Bytes} {p : Part}
    (hheaders : ∀ stretch behind, FirstBehind (lineEnd ++ delimiter boundary) stretch →
      body = lineEnd ++ (stretch ++ (lineEnd ++ delimiter boundary) ++ behind) → HasHeaders stretch)
    (h : nextPart boundary body = .ok (some (p, rest))) :
    ∃ stretch, FirstBehind (lineEnd ++ delimiter boundary) stretch ∧
      body = lineEnd ++ (stretch ++ (lineEnd ++ delimiter boundary) ++ rest) ∧ Splits stretch p := by
  obtain ⟨block, behind, hdecode, rfl, hblock, rfl, hcontent⟩ := nextPart_eq_some_iff.1 h
  generalize hwhole : block ++ (lineEnd ++ lineEnd) ++
    (p.content ++ (lineEnd ++ delimiter boundary) ++ rest) = whole at hheaders ⊢
  -- The delimiter that was found behind the content is somewhere behind the first one.
  obtain ⟨stretch, rest', hcut⟩ := Text.exists_cut?_of_infix
    (lineEnd_append_ne_nil (delimiter boundary)) (l := whole)
    ⟨block ++ (lineEnd ++ lineEnd) ++ p.content, rest, by
      rw [← hwhole]
      simp only [List.append_assoc]⟩
  obtain ⟨rfl, hfirst⟩ := (Text.cut?_eq_some_iff (lineEnd_append_ne_nil _)).1 hcut
  have hhas := hheaders stretch rest' hfirst rfl
  obtain ⟨block', content', hown⟩ := Text.exists_cut?_of_infix (lineEnd_append_ne_nil _) hhas.ends
  obtain ⟨rfl, hblock'⟩ := (Text.cut?_eq_some_iff (lineEnd_append_ne_nil _)).1 hown
  -- The empty line of the stretch is the one that was found, and so is its delimiter.
  have hsame : block ++ (lineEnd ++ lineEnd) ++ (p.content ++ (lineEnd ++ delimiter boundary) ++ rest) =
      block' ++ (lineEnd ++ lineEnd) ++ (content' ++ (lineEnd ++ delimiter boundary) ++ rest') := by
    rw [hwhole]
    simp only [List.append_assoc]
  obtain ⟨rfl, hbehind⟩ := hblock.unique (lineEnd_append_ne_nil _) hblock' hsame
  obtain ⟨rfl, rfl⟩ := hcontent.unique (lineEnd_append_ne_nil _) hfirst.of_append hbehind
  exact ⟨_, hfirst, rfl, hhas.begins, block, hdecode, hblock, rfl⟩

theorem exists_epilogue_of_nextPart {boundary body : Bytes}
    (h : nextPart boundary body = .ok none) : ∃ epilogue, body = dashes ++ epilogue := by
  rw [nextPart] at h
  split at h
  · next hclosed =>
    obtain ⟨epilogue, heq⟩ := Option.isSome_iff_exists.1 hclosed
    exact ⟨epilogue, Text.after?_eq_some_iff.1 heq⟩
  · split at h
    · cases h
    · split at h
      · cases h
      · split at h
        · cases h
        · split at h <;> cases h

/-! ## Reading all parts -/

/-- Stretches that are items, up to the closing mark, are read as these items. -/
theorem Stretches.readParts {boundary body epilogue : Bytes} {stretches : List Bytes}
    {items : List Item} (h : Stretches boundary body stretches (dashes ++ epilogue))
    (hitems : List.Forall₂ Holds stretches items) {fuel : Nat} (hfuel : stretches.length < fuel)
    (f : Form) : readParts boundary fuel body f = .ok (joined f (formOf items)) := by
  generalize hlast : dashes ++ epilogue = last at h
  induction h generalizing items fuel f with
  | nil _ =>
    obtain ⟨n, rfl⟩ : ∃ n, fuel = n + 1 := ⟨fuel - 1, by omega⟩
    subst hlast
    cases hitems
    simp [Multipart.readParts, Multipart.nextPart, joined, formOf]
  | cons hfirst _ ih =>
    obtain ⟨n, rfl⟩ : ∃ n, fuel = n + 1 := ⟨fuel - 1, by omega⟩
    cases hitems with
    | @cons _ item _ items hitem hitems =>
      obtain ⟨p, hsplits, his⟩ := hitem
      have hadd : p.addTo f = .ok (joined f (formOf [item])) := Part.addTo_eq_ok_iff.2 ⟨item, his, rfl⟩
      rw [Multipart.readParts, hsplits.nextPart hfirst]
      dsimp only
      rw [hadd]
      dsimp only
      rw [ih hitems (by simpa using hfuel) _ hlast, joined_assoc, ← formOf_cons]

/-- What is read are the stretches up to the closing mark, each as one item, if all have headers. -/
theorem exists_stretches_of_readParts {boundary body : Bytes} {fuel : Nat} {f g : Form}
    (hheaders : ∀ stretches rest, Stretches boundary body stretches rest →
      ∀ stretch ∈ stretches, HasHeaders stretch)
    (h : readParts boundary fuel body f = .ok g) :
    ∃ stretches epilogue items, Stretches boundary body stretches (dashes ++ epilogue) ∧
      List.Forall₂ Holds stretches items ∧ g = joined f (formOf items) := by
  induction fuel generalizing body f with
  | zero => cases h
  | succ fuel ih =>
    rw [readParts] at h
    split at h
    · cases h
    · next hnext =>
      obtain rfl := Except.ok.inj h
      obtain ⟨epilogue, rfl⟩ := exists_epilogue_of_nextPart hnext
      exact ⟨[], epilogue, [], .nil _, .nil, by simp [joined, formOf]⟩
    · next p rest hnext =>
      split at h
      · cases h
      · next g' hadd =>
        have hown : ∀ stretch behind, FirstBehind (lineEnd ++ delimiter boundary) stretch →
            body = lineEnd ++ (stretch ++ (lineEnd ++ delimiter boundary) ++ behind) →
              HasHeaders stretch := by
          rintro stretch behind hfirst rfl
          exact hheaders [stretch] behind (.cons hfirst (.nil _)) stretch (List.mem_singleton_self _)
        obtain ⟨stretch, hfirst, rfl, hsplits⟩ := exists_splits_of_nextPart hown hnext
        obtain ⟨item, his, rfl⟩ := Part.addTo_eq_ok_iff.1 hadd
        obtain ⟨stretches, epilogue, items, hstretches, hitems, rfl⟩ :=
          ih (fun stretches rest hrest s hs =>
            hheaders (stretch :: stretches) rest (.cons hfirst hrest) s (List.mem_cons_of_mem _ hs)) h
        exact ⟨stretch :: stretches, epilogue, item :: items, .cons hfirst hstretches,
          .cons ⟨p, hsplits, his⟩ hitems, by rw [joined_assoc, ← formOf_cons]⟩

theorem Stretches.length_le {boundary body rest : Bytes} {stretches : List Bytes}
    (h : Stretches boundary body stretches rest) : stretches.length ≤ body.length := by
  induction h with
  | nil _ => exact Nat.zero_le _
  | cons _ _ ih =>
    simp only [lineEnd, List.length_cons, List.length_append]
    omega

/-- A body is read as the items that its stretches are. -/
theorem read_of_stretches {boundary : String} {body behind epilogue : Bytes}
    {stretches : List Bytes} {items : List Item} (hbegins : Begins (Bytes.ofText boundary) body behind)
    (h : Stretches (Bytes.ofText boundary) behind stretches (dashes ++ epilogue))
    (hitems : List.Forall₂ Holds stretches items) : read boundary body = .ok (formOf items) := by
  obtain ⟨preamble, hfirst, rfl⟩ := hbegins
  have hlength := h.length_le
  rw [read, Text.cut?_append (delimiter_ne_nil _) hfirst]
  exact h.readParts hitems (by omega) {}

/-- A body whose parts all have headers is read only as the items that its stretches are. -/
theorem exists_stretches_of_read {boundary : String} {body : Bytes} {form : Form}
    (hheaders : ∀ behind stretches rest, Begins (Bytes.ofText boundary) body behind →
      Stretches (Bytes.ofText boundary) behind stretches rest →
        ∀ stretch ∈ stretches, HasHeaders stretch)
    (h : read boundary body = .ok form) :
    ∃ behind stretches epilogue items, Begins (Bytes.ofText boundary) body behind ∧
      Stretches (Bytes.ofText boundary) behind stretches (dashes ++ epilogue) ∧
      List.Forall₂ Holds stretches items ∧ form = formOf items := by
  rw [read] at h
  split at h
  · cases h
  · next preamble behind hcut =>
    obtain ⟨hbody, hfirst⟩ := (Text.cut?_eq_some_iff (delimiter_ne_nil _)).1 hcut
    have hbegins : Begins (Bytes.ofText boundary) body behind := ⟨preamble, hfirst, hbody⟩
    obtain ⟨stretches, epilogue, items, hstretches, hitems, rfl⟩ :=
      exists_stretches_of_readParts (fun stretches rest => hheaders behind stretches rest hbegins) h
    exact ⟨behind, stretches, epilogue, items, hbegins, hstretches, hitems, rfl⟩

theorem Begins.unique {boundary body behind behind' : Bytes} (h : Begins boundary body behind)
    (h' : Begins boundary body behind') : behind = behind' := by
  obtain ⟨preamble, hfirst, rfl⟩ := h
  obtain ⟨preamble', hfirst', heq⟩ := h'
  exact (hfirst.unique (delimiter_ne_nil _) hfirst' heq).2

theorem Splits.unique {stretch : Bytes} {p p' : Part} (h : Splits stretch p)
    (h' : Splits stretch p') : p = p' := by
  obtain ⟨block, hdecode, hfirst, rfl⟩ := h.block
  obtain ⟨block', hdecode', hfirst', heq⟩ := h'.block
  obtain ⟨rfl, hcontent⟩ := hfirst.unique (lineEnd_append_ne_nil _) hfirst' heq
  rw [hdecode] at hdecode'
  cases p
  cases p'
  exact congrArg₂ Part.mk (Except.ok.inj hdecode') hcontent

theorem Part.Is.name_ne_none {p : Part} {item : Item} (h : p.Is item) :
    (Disposition.ofLines p.headers).name ≠ none := by
  cases h with
  | field hname _ _ => simp [hname]
  | file hname _ => simp [hname]

/-! ## Writing parts -/

/-- A part as it stands between two delimiters. -/
def Part.stretch (p : Part) : Bytes :=
  Bytes.ofText p.headers ++ (lineEnd ++ lineEnd) ++ p.content

/-- What a delimiter is followed by: the parts that are left, or the closing mark. -/
def behindParts (boundary epilogue : Bytes) : List Part → Bytes
  | [] => dashes ++ epilogue
  | p :: ps =>
    lineEnd ++ (p.stretch ++ (lineEnd ++ delimiter boundary) ++ behindParts boundary epilogue ps)

/-- A body of the given parts, between a preamble and an epilogue. -/
def writeParts (boundary preamble epilogue : Bytes) (ps : List Part) : Bytes :=
  preamble ++ delimiter boundary ++ behindParts boundary epilogue ps

theorem begins_writeParts {boundary preamble : Bytes}
    (h : FirstBehind (delimiter boundary) preamble) (epilogue : Bytes) (ps : List Part) :
    Begins boundary (writeParts boundary preamble epilogue ps) (behindParts boundary epilogue ps) :=
  ⟨preamble, h, rfl⟩

theorem stretches_behindParts {boundary : Bytes} (epilogue : Bytes) {ps : List Part}
    (h : ∀ p ∈ ps, FirstBehind (lineEnd ++ delimiter boundary) p.stretch) :
    Stretches boundary (behindParts boundary epilogue ps) (ps.map Part.stretch)
      (dashes ++ epilogue) := by
  induction ps with
  | nil => exact .nil _
  | cons p ps ih =>
    rw [List.forall_mem_cons] at h
    exact .cons h.1 (ih h.2)

theorem length_le_behindParts (boundary epilogue : Bytes) (ps : List Part) :
    ps.length ≤ (behindParts boundary epilogue ps).length := by
  induction ps with
  | nil => exact Nat.zero_le _
  | cons p ps ih =>
    simp only [behindParts, lineEnd, List.length_append, List.length_cons]
    omega

/-- Parts that end where they were written to end are read exactly if each of them is an item. -/
theorem readParts_behindParts {boundary : Bytes} (epilogue : Bytes) {ps : List Part}
    (hps : ∀ p ∈ ps, FirstBehind (lineEnd ++ lineEnd) (Bytes.ofText p.headers) ∧
      FirstBehind (lineEnd ++ delimiter boundary) p.content)
    {fuel : Nat} (hfuel : ps.length < fuel) {f g : Form} :
    readParts boundary fuel (behindParts boundary epilogue ps) f = .ok g ↔
      ∃ items, List.Forall₂ Part.Is ps items ∧ g = joined f (formOf items) := by
  induction ps generalizing fuel f with
  | nil =>
    obtain ⟨n, rfl⟩ : ∃ n, fuel = n + 1 := ⟨fuel - 1, by omega⟩
    simp [readParts, nextPart, behindParts, joined, formOf, eq_comm]
  | cons p ps ih =>
    obtain ⟨n, rfl⟩ : ∃ n, fuel = n + 1 := ⟨fuel - 1, by omega⟩
    rw [List.forall_mem_cons] at hps
    have hlength : ps.length < n := by simpa using hfuel
    rw [behindParts, Part.stretch, readParts,
      nextPart_of_firstBehind (Utf8.decode_ofText _) hps.1.1 hps.1.2]
    dsimp only
    cases hadd : p.addTo f with
    | error fault =>
      refine iff_of_false (by simp) ?_
      rintro ⟨items, hitems, -⟩
      cases hitems with
      | cons his _ =>
        rw [Part.addTo_eq_ok_iff.2 ⟨_, his, rfl⟩] at hadd
        cases hadd
    | ok f' =>
      dsimp only
      rw [ih hps.2 hlength]
      constructor
      · rintro ⟨items, hitems, rfl⟩
        obtain ⟨item, his, rfl⟩ := Part.addTo_eq_ok_iff.1 hadd
        exact ⟨item :: items, .cons his hitems, by rw [joined_assoc, ← formOf_cons]⟩
      · rintro ⟨items, hitems, rfl⟩
        cases hitems with
        | @cons _ item _ items his hitems =>
          rw [Part.addTo_eq_ok_iff.2 ⟨item, his, rfl⟩] at hadd
          obtain rfl := Except.ok.inj hadd
          exact ⟨items, hitems, by rw [joined_assoc, ← formOf_cons]⟩

/-- A written body is read exactly if each of its parts is an item, and as these items. -/
theorem read_writeParts {boundary : String} {preamble : Bytes}
    (hpreamble : FirstBehind (delimiter (Bytes.ofText boundary)) preamble) (epilogue : Bytes)
    {ps : List Part} (hps : ∀ p ∈ ps, FirstBehind (lineEnd ++ lineEnd) (Bytes.ofText p.headers) ∧
      FirstBehind (lineEnd ++ delimiter (Bytes.ofText boundary)) p.content) {form : Form} :
    read boundary (writeParts (Bytes.ofText boundary) preamble epilogue ps) = .ok form ↔
      ∃ items, List.Forall₂ Part.Is ps items ∧ form = formOf items := by
  have hlength := length_le_behindParts (Bytes.ofText boundary) epilogue ps
  rw [read, writeParts, Text.cut?_append (delimiter_ne_nil _) hpreamble]
  dsimp only
  rw [readParts_behindParts epilogue hps (by omega)]
  rfl

/-- A part that does not begin with an empty line is read off its stretch. -/
theorem Part.splits_stretch {p : Part} (hbegins : ¬lineEnd <+: p.stretch)
    (hblock : FirstBehind (lineEnd ++ lineEnd) (Bytes.ofText p.headers)) : Splits p.stretch p :=
  ⟨hbegins, _, Utf8.decode_ofText _, hblock, rfl⟩

end HttpApp.Multipart

namespace HttpApp.Form

open Multipart

/-- A form with files is read by the boundary that its type names. -/
theorem read_eq_mapError {type : MediaType} {boundary : String}
    (htype : type.sameEssence .multipart = true) (hparam : type.param? "boundary" = some boundary)
    (body : Bytes) :
    Form.read (some type) body = (Multipart.read boundary body).mapError fun fault =>
      .malformedBody type.essence fault.message := by
  have hform : type.sameEssence .form = false := by
    have hessence : type.essence.toList.map Char.toLower =
        MediaType.multipart.essence.toList.map Char.toLower := eq_of_beq htype
    rw [MediaType.sameEssence, Text.equalIgnoringAsciiCase, hessence]
    decide
  rw [Form.read]
  simp only [hform, htype, hparam, Bool.false_eq_true, if_false, if_true]

theorem read_of_toOption {type : MediaType} {boundary : String}
    (htype : type.sameEssence .multipart = true) (hparam : type.param? "boundary" = some boundary)
    {body : Bytes} {form : Form} (h : (Multipart.read boundary body).toOption = some form) :
    Form.read (some type) body = .ok form := by
  rw [read_eq_mapError htype hparam]
  cases hresult : Multipart.read boundary body with
  | error fault => simp [hresult, Except.toOption] at h
  | ok form' =>
    rw [hresult] at h
    exact congrArg Except.ok (Option.some.inj h)

/-- Parts are taken one by one.  Let every part of a body have header lines and an empty line in its
own stretch, which ends at the next delimiter.  Then the body is read exactly if the stretches go up
to a closing mark and each of them is one item, by its own header lines and with its own content;
and what is read are these items in their order.  A body with a part that has no name is refused. -/
theorem read_parts {type : MediaType} {boundary : String}
    (htype : type.sameEssence .multipart = true) (hparam : type.param? "boundary" = some boundary)
    {body : Bytes}
    (hheaders : ∀ behind stretches rest, Begins (Bytes.ofText boundary) body behind →
      Stretches (Bytes.ofText boundary) behind stretches rest →
        ∀ stretch ∈ stretches, HasHeaders stretch) :
    (∀ form, Form.read (some type) body = .ok form ↔
      ∃ behind stretches epilogue items, Begins (Bytes.ofText boundary) body behind ∧
        Stretches (Bytes.ofText boundary) behind stretches (dashes ++ epilogue) ∧
        List.Forall₂ Holds stretches items ∧ form = formOf items) ∧
    ∀ behind stretches rest stretch p, Begins (Bytes.ofText boundary) body behind →
      Stretches (Bytes.ofText boundary) behind stretches rest → stretch ∈ stretches →
      Splits stretch p → (Disposition.ofLines p.headers).name = none →
      ∃ reason, Form.read (some type) body = .error (.malformedBody type.essence reason) := by
  rw [read_eq_mapError htype hparam]
  refine ⟨fun form => ⟨fun h => ?_, ?_⟩, ?_⟩
  · cases hread : Multipart.read boundary body with
    | error fault => simp [hread, Except.mapError] at h
    | ok form' =>
      obtain rfl : form' = form := by simpa [hread, Except.mapError] using h
      exact exists_stretches_of_read hheaders hread
  · rintro ⟨behind, stretches, epilogue, items, hbegins, hstretches, hitems, rfl⟩
    rw [read_of_stretches hbegins hstretches hitems]
    rfl
  · intro behind stretches rest stretch p hbegins hstretches hmem hsplits hname
    cases hread : Multipart.read boundary body with
    | error fault => exact ⟨_, rfl⟩
    | ok form =>
      -- The stretch would be among those that were read, as an item with a name.
      obtain ⟨behind', stretches', epilogue, items, hbegins', hstretches', hitems, -⟩ :=
        exists_stretches_of_read hheaders hread
      obtain rfl := hbegins.unique hbegins'
      have hall : ∀ stretch ∈ stretches', ∃ item, Holds stretch item :=
        ((List.forall₂_and_left ..).1 (hitems.imp fun _ item h => ⟨⟨item, h⟩, h⟩)).1
      obtain ⟨item, p', hsplits', his⟩ :=
        hall stretch ((hstretches.isPrefix hstretches').subset hmem)
      obtain rfl := hsplits.unique hsplits'
      exact absurd hname his.name_ne_none

/-- The type of forms whose boundary is a letter. -/
def cardType : MediaType where
  shown := "multipart/form-data; boundary=B"
  type := "multipart"
  fullSubtype := "form-data"
  params := [("boundary", "B")]

/-- A text with an empty line and the back of a delimiter in it, and an empty file. -/
def cards : List Part :=
  [⟨"Content-Disposition: form-data; name=\"a\"", Bytes.ofText "1\r\n\r\n-B--B"⟩,
    ⟨"Content-Disposition: form-data; name=\"f\"; filename=\"g\"\r\nContent-Type: text/x", []⟩]

/-- Parts in front of an epilogue that has another delimiter line. -/
theorem read_parts_cards :
    cardType.sameEssence .multipart = true ∧ cardType.param? "boundary" = some "B" ∧
    Form.read (some cardType)
        (writeParts (Bytes.ofText "B") [45, 13, 10] (Bytes.ofText "\r\n--B\r\n") cards) =
      .ok { fields := [("a", "1\r\n\r\n-B--B")], files := [⟨"f", "g", "text/x", []⟩] } := by
  have htype : cardType.sameEssence .multipart = true := by decide
  have hparam : cardType.param? "boundary" = some "B" := by decide
  have hpreamble : Text.FirstBehind (delimiter (Bytes.ofText "B")) [45, 13, 10] := by decide
  have hparts : ∀ p ∈ cards, HasHeaders p.stretch ∧
      Text.FirstBehind (lineEnd ++ delimiter (Bytes.ofText "B")) p.stretch ∧
      Text.FirstBehind (lineEnd ++ lineEnd) (Bytes.ofText p.headers) := by
    simp only [cards, List.forall_mem_cons, List.not_mem_nil, false_imp_iff, implies_true, and_true]
    exact ⟨⟨⟨by decide +kernel, by decide +kernel⟩, by decide +kernel, by decide +kernel⟩,
      ⟨by decide +kernel, by decide +kernel⟩, by decide +kernel, by decide +kernel⟩
  have hsplits : ∀ p ∈ cards, Splits p.stretch p := fun p hp =>
    p.splits_stretch (hparts p hp).1.begins (hparts p hp).2.2
  have hbegins := begins_writeParts hpreamble (Bytes.ofText "\r\n--B\r\n") cards
  have hstretches := stretches_behindParts (Bytes.ofText "\r\n--B\r\n") fun p hp => (hparts p hp).2.1
  have hitems : List.Forall₂ Holds (cards.map Part.stretch)
      [.field "a" "1\r\n\r\n-B--B", .file "f" "g" (some "text/x") []] := by
    have hfile : Part.Is
        ⟨"Content-Disposition: form-data; name=\"f\"; filename=\"g\"\r\nContent-Type: text/x", []⟩
        (.file "f" "g" (some "text/x") []) := by
      have hcontentType : (Disposition.ofLines ("Content-Disposition: form-data; name=\"f\"; " ++
          "filename=\"g\"\r\nContent-Type: text/x")).contentType = some "text/x" := by
        decide +kernel
      exact hcontentType ▸ .file (by decide +kernel) (by decide +kernel)
    refine .cons ⟨_, hsplits _ (.head _), ?_⟩ (.cons ⟨_, hsplits _ (.tail _ (.head _)), hfile⟩ .nil)
    exact .field (by decide +kernel) (by decide +kernel) (Utf8.decode_ofText _)
  refine ⟨htype, hparam, ((read_parts htype hparam fun behind stretches rest hbehind h stretch hmem =>
    ?_).1 _).2 ⟨_, _, _, _, hbegins, hstretches, hitems, rfl⟩⟩
  obtain rfl := hbegins.unique hbehind
  obtain ⟨p, hp, rfl⟩ := List.mem_map.1 ((h.isPrefix hstretches).subset hmem)
  exact (hparts p hp).1

/-- A part without header lines: it begins with an empty line. -/
def hidden : Bytes := Bytes.ofText "\r\nhidden"

/-- A part that is a text. -/
def card : Part := ⟨"Content-Disposition: form-data; name=\"a\"", Bytes.ofText "x"⟩

/-- The hidden part and the text behind it, behind a delimiter. -/
def behindHidden : Bytes :=
  lineEnd ++ (hidden ++ (lineEnd ++ delimiter (Bytes.ofText "B")) ++
    behindParts (Bytes.ofText "B") [] [card])

/-- A part without header lines is not refused.  The first of two parts is no item, and yet the body
is read: the header lines of the second one count for both, and one text is all that is found. -/
theorem not_refused_hidden :
    cardType.sameEssence .multipart = true ∧ cardType.param? "boundary" = some "B" ∧
    Begins (Bytes.ofText "B") (delimiter (Bytes.ofText "B") ++ behindHidden) behindHidden ∧
    Stretches (Bytes.ofText "B") behindHidden [hidden, card.stretch] dashes ∧
    (¬∃ item, Holds hidden item) ∧
    Form.read (some cardType) (delimiter (Bytes.ofText "B") ++ behindHidden) =
      .ok { fields := [("a", "x")] } := by
  have htype : cardType.sameEssence .multipart = true := by decide
  have hparam : cardType.param? "boundary" = some "B" := by decide
  have hstretches : Stretches (Bytes.ofText "B") behindHidden [hidden, card.stretch] (dashes ++ []) := by
    refine .cons (by decide +kernel) (stretches_behindParts [] ?_)
    rw [List.forall_mem_singleton]
    decide +kernel
  refine ⟨htype, hparam, ⟨[], by decide, rfl⟩, hstretches, ?_, ?_⟩
  · rintro ⟨item, p, hsplits, -⟩
    obtain ⟨block, -, -, hhidden⟩ := hsplits.block
    have hnone : ¬lineEnd ++ lineEnd <:+: hidden := by decide +kernel
    exact hnone ⟨block, p.content, hhidden.symm⟩
  · exact read_of_toOption htype hparam (by decide +kernel)

end HttpApp.Form
