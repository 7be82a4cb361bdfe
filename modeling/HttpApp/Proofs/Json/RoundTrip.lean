/-
  HttpApp/Proofs/Json/RoundTrip.lean --- JSON values survive printing and reading.

  A value is printed compactly or over lines, and what separates its parts is blank in
  either style.  `ReadsBack` says of a value that it is read from its printed form, in
  front of any text that closes a token, with fuel for the characters it is printed
  with.  That is shown by induction on the value; lists and objects are read part by
  part, each part in front of those that follow it.  Members are read as they are
  written, and a value whose names ascend is canonical.  Main statement:
  `codecs_preserve`.
-/
import HttpApp.Codec
import HttpApp.Proofs.Json.Tokens

set_option autoImplicit false

namespace HttpApp.Json

/-! ## Values -/

/-- A value with whole numbers of 64 bits only: from `-2^63` on, and below `2^64`. -/
inductive Whole : Json → Prop where
  | null : Whole .null
  | bool (b : Bool) : Whole (.bool b)
  | integer (n : Int) (least : IntegerRange.int64.least ≤ n)
    (greatest : n ≤ IntegerRange.word64.greatest) : Whole (.integer n)
  | text (s : String) : Whole (.text s)
  | list {items : List Json} (h : ∀ v ∈ items, Whole v) : Whole (.list items)
  | object {members : List (String × Json)} (h : ∀ m ∈ members, Whole m.2) :
    Whole (.object members)

/-- A value in whose objects the names ascend strictly, so that each stands for one member. -/
inductive Ascending : Json → Prop where
  | null : Ascending .null
  | bool (b : Bool) : Ascending (.bool b)
  | integer (n : Int) : Ascending (.integer n)
  | real (x : Binary64) : Ascending (.real x)
  | text (s : String) : Ascending (.text s)
  | list {items : List Json} (h : ∀ v ∈ items, Ascending v) : Ascending (.list items)
  | object {members : List (String × Json)} (names : members.Pairwise fun m n => m.1 < n.1)
    (h : ∀ m ∈ members, Ascending m.2) : Ascending (.object members)

/-! ## Blanks -/

/-- A text of blanks. -/
def Blank (cs : List Char) : Prop := ∀ c ∈ cs, isSpace c = true

theorem blank_nil : Blank [] := fun _ hc => by cases hc

/-- A style in which parts are separated by punctuation and blanks. -/
structure Style.Spaced (style : Style) : Prop where
  lead : ∀ depth, Blank (style.lead depth)
  colon : ∃ blanks, style.colon = ':' :: blanks ∧ Blank blanks

theorem spaced_compactStyle : compactStyle.Spaced where
  lead := fun _ => blank_nil
  colon := ⟨[], rfl, blank_nil⟩

theorem spaced_indentedStyle : indentedStyle.Spaced where
  lead := by
    intro depth c hc
    rcases List.mem_cons.mp hc with rfl | hc
    · rfl
    · rw [List.eq_of_mem_replicate hc]
      rfl
  colon := ⟨[' '], rfl, by simp [Blank, isSpace]⟩

/-- Blanks are passed over up to a character that is none. -/
theorem skipSpaces_append {blanks : List Char} (hb : Blank blanks) {c : Char}
    (hc : isSpace c = false) (cs : List Char) (offset : Nat) :
    Place.skipSpaces ⟨offset, blanks ++ c :: cs⟩ = ⟨offset + blanks.length, c :: cs⟩ := by
  simp only [Place.skipSpaces, List.span_eq_takeWhile_dropWhile, List.takeWhile_append_of_pos hb,
    List.dropWhile_append_of_pos hb]
  simp [hc]

/-- Blanks in front of a character of lists and objects close a token. -/
theorem closes_append {blanks : List Char} (hb : Blank blanks) {c : Char}
    (hc : isStructural c = true) (cs : List Char) : Closes (blanks ++ c :: cs) := by
  intro d hd
  cases blanks with
  | nil =>
    obtain rfl : c = d := by simpa using hd
    simp [hc]
  | cons b bs =>
    obtain rfl : b = d := by simpa using hd
    simp [hb b (List.mem_cons_self)]

theorem isSpace_of_isStructural {c : Char} (h : isStructural c = true) : isSpace c = false := by
  simp only [isStructural, Bool.or_eq_true, beq_iff_eq] at h
  rcases h with ((((rfl | rfl) | rfl) | rfl) | rfl) | rfl <;> decide

/-! ## The first character -/

/-- What a printed value starts with: no blank, and nothing that closes a list or an object. -/
def Opens (c : Char) : Prop := isSpace c = false ∧ c ≠ ']' ∧ c ≠ '\x7d'

instance (c : Char) : Decidable (Opens c) := inferInstanceAs (Decidable (_ ∧ _ ∧ _))

/-- A printed value starts with a character that opens a value, and ends in front of the rest. -/
def Starts (cs rest : List Char) : Prop := ∃ c more, cs = c :: more ∧ rest <:+ more ∧ Opens c

theorem Starts.length_lt {cs rest : List Char} (h : Starts cs rest) : rest.length < cs.length := by
  obtain ⟨c, more, rfl, hm, -⟩ := h
  exact Nat.lt_succ_of_le hm.length_le

/-- Blanks in front of a printed value are passed over. -/
theorem Starts.skipSpaces {cs rest blanks : List Char} (h : Starts cs rest) (hb : Blank blanks)
    (offset : Nat) :
    Place.skipSpaces ⟨offset, blanks ++ cs⟩ = ⟨offset + blanks.length, cs⟩ := by
  obtain ⟨c, more, rfl, -, hc⟩ := h
  exact skipSpaces_append hb hc.1 more offset

/-! ## Reading back -/

/-- A value is read from its printed form, in front of any text that closes a token; there is
fuel for the characters that it is printed with. -/
structure ReadsBack (style : Style) (v : Json) : Prop where
  starts : ∀ depth rest, Starts (v.printBefore style depth rest) rest
  reads : ∀ {rest}, Closes rest → ∀ (outer : Bool) depth fuel offset,
    (v.printBefore style depth rest).length ≤ fuel + 1 + rest.length →
    ∃ later, readValue .bounded outer (fuel + 1) ⟨offset, v.printBefore style depth rest⟩ =
      .ok (v, ⟨later, rest⟩)

theorem readWord_append (letters : List Char) (v : Json) {rest : List Char} (h : Closes rest)
    (offset : Nat) :
    ∃ later, readWord .bounded letters v ⟨offset, letters ++ rest⟩ = .ok (v, ⟨later, rest⟩) := by
  have hx : ∃ later, Place.expect letters ⟨offset, letters ++ rest⟩ = .ok ⟨later, rest⟩ := by
    induction letters generalizing offset with
    | nil => exact ⟨offset, rfl⟩
    | cons c cs ih => simpa [Place.expect] using ih (offset + c.utf8Size)
  obtain ⟨later, hl⟩ := hx
  exact ⟨later, by simp [readWord, hl, Lexicon.bounded, endToken_of_closes h, bind, Except.bind]⟩

/-- A value that is printed as a word, and is read by its first letter, is read back. -/
theorem readsBack_word (style : Style) {v : Json} (c : Char) (letters : List Char) (hc : Opens c)
    (hprint : ∀ depth rest, v.printBefore style depth rest = c :: (letters ++ rest))
    (hread : ∀ outer fuel offset cs, readValue .bounded outer (fuel + 1) ⟨offset, c :: cs⟩ =
      readWord .bounded letters v ⟨offset + 1, cs⟩) : ReadsBack style v where
  starts := fun depth rest => ⟨c, _, hprint depth rest, List.suffix_append letters rest, hc⟩
  reads := fun {rest} hclosed outer depth fuel offset _ => by
    rw [hprint, hread]
    exact readWord_append letters v hclosed (offset + 1)

theorem readsBack_null (style : Style) : ReadsBack style .null :=
  readsBack_word style 'n' ['u', 'l', 'l'] (by decide) (by simp [printBefore]) (by simp [readValue])

theorem readsBack_bool (style : Style) (b : Bool) : ReadsBack style (.bool b) := by
  cases b with
  | true =>
    exact readsBack_word style 't' ['r', 'u', 'e'] (by decide) (by simp [printBefore])
      (by simp [readValue])
  | false =>
    exact readsBack_word style 'f' ['a', 'l', 's', 'e'] (by decide) (by simp [printBefore])
      (by simp [readValue])

theorem starts_printText (s : String) (rest : List Char) : Starts (printText s ++ rest) rest :=
  ⟨'"', _, rfl, List.suffix_append _ rest, by decide⟩

theorem readsBack_text (style : Style) (s : String) : ReadsBack style (.text s) where
  starts := fun depth rest => starts_printText s rest
  reads := fun {rest} hr outer depth fuel offset _ => by
    obtain ⟨later, hl⟩ := readText_escaped s rest (offset + 1)
    exact ⟨later, by
      simp [printBefore, printText, readValue, Lexicon.bounded, hl, bind, Except.bind]⟩

/-- A value that starts with a digit is a number. -/
theorem readValue_digit (lexicon : Lexicon) (outer : Bool) (fuel offset : Nat) {c : Char}
    (h : c.isDigit = true) (cs : List Char) :
    readValue lexicon outer (fuel + 1) ⟨offset, c :: cs⟩ = lexicon.number false ⟨offset, c :: cs⟩ := by
  simp only [readValue]
  split
  all_goals first
    | rfl
    | next heq => exact absurd h (by rw [(List.cons.inj heq).1]; decide)

theorem opens_of_isDigit {c : Char} (h : c.isDigit = true) : Opens c := by
  refine ⟨?_, ?_, ?_⟩
  · cases hs : isSpace c with
    | false => rfl
    | true => exact absurd h (by simp [not_isDigit_of_closes (c := c) (by simp [hs])])
  · rintro rfl
    exact absurd h (by decide)
  · rintro rfl
    exact absurd h (by decide)

theorem contains_iff {r : IntegerRange} {n : Int} :
    r.contains n = true ↔ r.least ≤ n ∧ n ≤ r.greatest := by
  simp [IntegerRange.contains]

theorem readsBack_integer (style : Style) {n : Int} (least : IntegerRange.int64.least ≤ n)
    (greatest : n ≤ IntegerRange.word64.greatest) : ReadsBack style (.integer n) := by
  by_cases hn : n < 0
  · have hp : ∀ depth rest, printBefore style depth rest (.integer n) =
        '-' :: (Nat.toDigits 10 n.natAbs ++ rest) := by
      intro depth rest
      simp [printBefore, printInteger, hn]
    refine ⟨fun depth rest => ⟨'-', _, hp depth rest, List.suffix_append _ rest, by decide⟩, ?_⟩
    intro rest hr outer depth fuel offset _
    have hz : n = if true then -Int.ofNat n.natAbs else Int.ofNat n.natAbs := by
      change n = -(n.natAbs : Int)
      omega
    have hg : (0 : Int) ≤ IntegerRange.int64.greatest := by decide
    have hc : (wholeRange true).contains n = true :=
      contains_iff.mpr ⟨least, Int.le_trans (Int.le_of_lt hn) hg⟩
    rw [hp]
    exact readBoundedNumber_toDigits hr hz hc (offset + 1)
  · have hp : ∀ depth rest, printBefore style depth rest (.integer n) =
        Nat.toDigits 10 n.natAbs ++ rest := by
      intro depth rest
      simp [printBefore, printInteger, hn]
    obtain ⟨c, cs, hcs⟩ : ∃ c cs, Nat.toDigits 10 n.natAbs = c :: cs :=
      List.exists_cons_of_ne_nil Nat.toDigits_ne_nil
    have hd : c.isDigit = true :=
      Nat.isDigit_of_mem_toDigits (by omega) (by omega) (hcs ▸ List.mem_cons_self)
    refine ⟨fun depth rest =>
      ⟨c, _, by rw [hp, hcs]; rfl, List.suffix_append cs rest, opens_of_isDigit hd⟩, ?_⟩
    intro rest hr outer depth fuel offset _
    have hz : n = if false then -Int.ofNat n.natAbs else Int.ofNat n.natAbs := by
      change n = (n.natAbs : Int)
      omega
    have hc : (wholeRange false).contains n = true :=
      contains_iff.mpr ⟨Int.not_lt.mp hn, greatest⟩
    obtain ⟨later, hl⟩ := readBoundedNumber_toDigits hr hz hc offset
    refine ⟨later, ?_⟩
    rw [hp, ← hl, hcs]
    exact readValue_digit .bounded outer fuel offset hd _

/-! ## Lists and objects -/

theorem ReadsBack.length_lt {style : Style} {v : Json} (h : ReadsBack style v) (depth : Nat)
    (rest : List Char) : rest.length < (v.printBefore style depth rest).length :=
  (h.starts depth rest).length_lt

theorem ReadsBack.suffix {style : Style} {v : Json} (h : ReadsBack style v) (depth : Nat)
    (rest : List Char) : rest <:+ v.printBefore style depth rest := by
  obtain ⟨c, more, hc, hm, -⟩ := h.starts depth rest
  exact hc ▸ hm.trans (List.suffix_cons c more)

/-- A part is read with the fuel that is left for it, up to the blanks and the character of lists
and objects behind it. -/
theorem ReadsBack.reads_part {style : Style} {v : Json} (h : ReadsBack style v)
    {blanks : List Char} (hb : Blank blanks) {c : Char} (hc : isStructural c = true)
    (more : List Char) (depth fuel offset : Nat)
    (hf : (v.printBefore style depth (blanks ++ c :: more)).length ≤ fuel + (more.length + 1)) :
    ∃ p later, readValue .bounded false fuel
        ⟨offset, v.printBefore style depth (blanks ++ c :: more)⟩ = .ok (v, p) ∧
      p.skipSpaces = ⟨later, c :: more⟩ := by
  have hl := h.length_lt depth (blanks ++ c :: more)
  have hlen : (blanks ++ c :: more).length = blanks.length + (more.length + 1) := by simp
  obtain ⟨f, rfl⟩ : ∃ f, fuel = f + 1 := ⟨fuel - 1, by omega⟩
  obtain ⟨mid, hm⟩ := h.reads (closes_append hb hc more) false depth f offset (by omega)
  exact ⟨_, _, hm, skipSpaces_append hb (isSpace_of_isStructural hc) more mid⟩

/-- The items behind the first one are printed in front of the rest. -/
theorem suffix_printItemsBefore {style : Style} {vs : List Json}
    (h : ∀ w ∈ vs, ReadsBack style w) (depth : Nat) (rest : List Char) :
    rest <:+ printItemsBefore style depth rest vs := by
  induction vs with
  | nil => exact List.suffix_refl rest
  | cons w ws ih =>
    have hws := ih fun x hx => h x (List.mem_cons_of_mem _ hx)
    have hw := (h w List.mem_cons_self).suffix depth (printItemsBefore style depth rest ws)
    exact ((hws.trans hw).trans (List.suffix_append _ _)).trans (List.suffix_cons ',' _)

/-- The items of a list are read one after the other, up to the closing bracket. -/
theorem readItems_print {style : Style} (hs : style.Spaced) {v : Json} (hv : ReadsBack style v)
    {vs : List Json} (hvs : ∀ w ∈ vs, ReadsBack style w) {blanks : List Char} (hb : Blank blanks)
    (done : List Json) (depth : Nat) (rest : List Char) (fuel offset : Nat)
    (hf : (v.printBefore style depth
        (printItemsBefore style depth (blanks ++ ']' :: rest) vs)).length ≤ fuel + rest.length) :
    ∃ later, readItems .bounded done fuel ⟨offset, v.printBefore style depth
        (printItemsBefore style depth (blanks ++ ']' :: rest) vs)⟩ =
      .ok (done.reverse ++ v :: vs, ⟨later, rest⟩) := by
  have hlen : (blanks ++ ']' :: rest).length = blanks.length + (rest.length + 1) := by simp
  induction vs generalizing v done fuel offset with
  | nil =>
    have hfirst := hv.length_lt depth (blanks ++ ']' :: rest)
    rw [printItemsBefore] at hf
    obtain ⟨f, rfl⟩ : ∃ f, fuel = f + 1 := ⟨fuel - 1, by omega⟩
    obtain ⟨p, later, hp, hsk⟩ := hv.reads_part hb (c := ']') (by decide) rest depth f
      offset (by omega)
    exact ⟨later + 1, by simp [readItems, printItemsBefore, hp, hsk, bind, Except.bind]⟩
  | cons w ws ih =>
    have hw := hvs w List.mem_cons_self
    have hws : ∀ x ∈ ws, ReadsBack style x := fun x hx => hvs x (List.mem_cons_of_mem _ hx)
    -- The first item stands in front of a comma and of the others, whatever these are.
    generalize htail : printItemsBefore style depth (blanks ++ ']' :: rest) ws = tail at ih
    have hlast : (blanks ++ ']' :: rest).length ≤ tail.length :=
      htail ▸ (suffix_printItemsBefore hws depth _).length_le
    have hnext := hw.length_lt depth tail
    have hmore : printItemsBefore style depth (blanks ++ ']' :: rest) (w :: ws) =
        ',' :: (style.lead depth ++ w.printBefore style depth tail) := by
      rw [printItemsBefore, htail]
      rfl
    have hfirst := hv.length_lt depth
      (',' :: (style.lead depth ++ w.printBefore style depth tail))
    rw [hmore] at hf ⊢
    simp only [List.length_cons, List.length_append] at hfirst
    obtain ⟨f, rfl⟩ : ∃ f, fuel = f + 1 := ⟨fuel - 1, by omega⟩
    obtain ⟨p, mid, hp, hsk⟩ := hv.reads_part blank_nil (c := ',') (by decide)
      (style.lead depth ++ w.printBefore style depth tail) depth f offset
      (by simp only [List.nil_append, List.length_append]; omega)
    have hskip := (hw.starts depth tail).skipSpaces (hs.lead depth) (mid + 1)
    obtain ⟨later, hl⟩ := ih hw hws (v :: done) f _ (by omega)
    refine ⟨later, ?_⟩
    rw [List.nil_append] at hp
    rw [readItems, hp]
    simp only [bind, Except.bind, hsk, hskip]
    simpa using hl

/-- A member of an object, in front of a text. -/
def printMember (style : Style) (depth : Nat) (rest : List Char) (m : String × Json) : List Char :=
  printText m.1 ++ (style.colon ++ m.2.printBefore style depth rest)

theorem value_suffix_printMember (style : Style) (m : String × Json) (depth : Nat)
    (rest : List Char) : m.2.printBefore style depth rest <:+ printMember style depth rest m :=
  (List.suffix_append _ _).trans (List.suffix_append _ _)

theorem suffix_printMember {style : Style} {m : String × Json} (h : ReadsBack style m.2)
    (depth : Nat) (rest : List Char) : rest <:+ printMember style depth rest m :=
  (h.suffix depth rest).trans (value_suffix_printMember style m depth rest)

/-- A printed name is read back. -/
theorem readName_print (outer : Bool) (name : String) (rest : List Char) (offset : Nat) :
    ∃ later, readName .bounded outer ⟨offset, printText name ++ rest⟩ =
      .ok (name, ⟨later, rest⟩) := by
  obtain ⟨later, hl⟩ := readText_escaped name rest (offset + 1)
  exact ⟨later, by simpa [readName, printText, Lexicon.bounded] using hl⟩

/-- The name of a member is read, and the colon and the blanks behind it are passed over. -/
theorem readName_printMember {style : Style} (hs : style.Spaced) {m : String × Json}
    (hm : ReadsBack style m.2) (outer : Bool) (depth : Nat) (rest : List Char) (offset : Nat) :
    ∃ p q gap later,
      readName .bounded outer ⟨offset, printMember style depth rest m⟩ = .ok (m.1, p) ∧
      p.skipSpaces = ⟨q, ':' :: gap⟩ ∧
      Place.skipSpaces ⟨q + 1, gap⟩ = ⟨later, m.2.printBefore style depth rest⟩ := by
  obtain ⟨blanks, hc, hb⟩ := hs.colon
  rw [printMember, hc]
  obtain ⟨mid, hn⟩ := readName_print outer m.1
    (':' :: blanks ++ m.2.printBefore style depth rest) offset
  have hcolon := skipSpaces_append blank_nil (c := ':') (by decide)
    (blanks ++ m.2.printBefore style depth rest) mid
  exact ⟨_, _, _, _, hn, hcolon, (hm.starts depth rest).skipSpaces hb _⟩

/-- The members behind the first one are printed in front of the rest. -/
theorem suffix_printMembersBefore {style : Style} {ms : List (String × Json)}
    (h : ∀ m ∈ ms, ReadsBack style m.2) (depth : Nat) (rest : List Char) :
    rest <:+ printMembersBefore style depth rest ms := by
  induction ms with
  | nil => exact List.suffix_refl rest
  | cons m ms ih =>
    have hms := ih fun x hx => h x (List.mem_cons_of_mem _ hx)
    have hm := suffix_printMember (h m List.mem_cons_self) depth
      (printMembersBefore style depth rest ms)
    exact ((hms.trans hm).trans (List.suffix_append _ _)).trans (List.suffix_cons ',' _)

/-- The members of an object are read one after the other, up to the closing brace. -/
theorem readMembers_print {style : Style} (hs : style.Spaced) {m : String × Json}
    (hm : ReadsBack style m.2) {ms : List (String × Json)} (hms : ∀ n ∈ ms, ReadsBack style n.2)
    {blanks : List Char} (hb : Blank blanks) (outer : Bool) (done : List (String × Json))
    (depth : Nat) (rest : List Char) (fuel offset : Nat)
    (hf : (printMember style depth
        (printMembersBefore style depth (blanks ++ '\x7d' :: rest) ms) m).length ≤
      fuel + rest.length) :
    ∃ later, readMembers .bounded outer done fuel ⟨offset, printMember style depth
        (printMembersBefore style depth (blanks ++ '\x7d' :: rest) ms) m⟩ =
      .ok (done.reverse ++ m :: ms, ⟨later, rest⟩) := by
  have hlen : (blanks ++ '\x7d' :: rest).length = blanks.length + (rest.length + 1) := by simp
  induction ms generalizing m done fuel offset with
  | nil =>
    obtain ⟨n, q, gap, start, hn, hq, hgap⟩ :=
      readName_printMember hs hm outer depth (blanks ++ '\x7d' :: rest) offset
    have hfirst := hm.length_lt depth (blanks ++ '\x7d' :: rest)
    have hvalue := (value_suffix_printMember style m depth (blanks ++ '\x7d' :: rest)).length_le
    rw [printMembersBefore] at hf
    obtain ⟨f, rfl⟩ : ∃ f, fuel = f + 1 := ⟨fuel - 1, by omega⟩
    obtain ⟨p, later, hp, hsk⟩ := hm.reads_part hb (c := '\x7d') (by decide) rest depth f
      start (by omega)
    exact ⟨later + 1, by
      simp [readMembers, printMembersBefore, hn, hq, hgap, hp, hsk, bind, Except.bind]⟩
  | cons n ms ih =>
    have hn := hms n List.mem_cons_self
    have hms' : ∀ x ∈ ms, ReadsBack style x.2 := fun x hx => hms x (List.mem_cons_of_mem _ hx)
    -- As for items, but the name and the colon are read before the value.
    generalize htail : printMembersBefore style depth (blanks ++ '\x7d' :: rest) ms = tail at ih
    have hlast : (blanks ++ '\x7d' :: rest).length ≤ tail.length :=
      htail ▸ (suffix_printMembersBefore hms' depth _).length_le
    have hnext := (suffix_printMember hn depth tail).length_le
    have hmore : printMembersBefore style depth (blanks ++ '\x7d' :: rest) (n :: ms) =
        ',' :: (style.lead depth ++ printMember style depth tail n) := by
      rw [printMembersBefore, htail]
      rfl
    have hfirst := hm.length_lt depth
      (',' :: (style.lead depth ++ printMember style depth tail n))
    have hvalue := (value_suffix_printMember style m depth
      (',' :: (style.lead depth ++ printMember style depth tail n))).length_le
    rw [hmore] at hf ⊢
    simp only [List.length_cons, List.length_append] at hfirst
    obtain ⟨f, rfl⟩ : ∃ f, fuel = f + 1 := ⟨fuel - 1, by omega⟩
    obtain ⟨name, q, gap, start, hname, hq, hgap⟩ := readName_printMember hs hm outer depth
      (',' :: (style.lead depth ++ printMember style depth tail n)) offset
    obtain ⟨p, mid, hp, hsk⟩ := hm.reads_part blank_nil (c := ',') (by decide)
      (style.lead depth ++ printMember style depth tail n) depth f start
      (by simp only [List.nil_append, List.length_append]; omega)
    have hstart : Starts (printMember style depth tail n) _ := starts_printText n.1 _
    have hskip := hstart.skipSpaces (hs.lead depth) (mid + 1)
    obtain ⟨later, hl⟩ := ih hn hms' (m :: done) f _ (by omega)
    refine ⟨later, ?_⟩
    rw [List.nil_append] at hp
    rw [readMembers, hname]
    simp only [bind, Except.bind, hq, hgap, hp, hsk, hskip]
    simpa using hl

theorem readsBack_list {style : Style} (hs : style.Spaced) {items : List Json}
    (h : ∀ v ∈ items, ReadsBack style v) : ReadsBack style (.list items) := by
  cases items with
  | nil =>
    refine ⟨fun depth rest => ⟨'[', _, rfl, List.suffix_cons ']' rest, by decide⟩, ?_⟩
    intro rest _ outer depth fuel offset _
    have hskip := skipSpaces_append blank_nil (c := ']') (by decide) rest (offset + 1)
    rw [List.nil_append] at hskip
    exact ⟨_, by simp [printBefore, readValue, hskip]; rfl⟩
  | cons v vs =>
    have hv := h v List.mem_cons_self
    have hvs : ∀ w ∈ vs, ReadsBack style w := fun w hw => h w (List.mem_cons_of_mem _ hw)
    refine ⟨fun depth rest => ⟨'[', _, rfl, ?_, by decide⟩, ?_⟩
    · have hc : rest <:+ style.lead depth ++ ']' :: rest :=
        (List.suffix_cons ']' rest).trans (List.suffix_append _ _)
      exact ((hc.trans (suffix_printItemsBefore hvs _ _)).trans (hv.suffix _ _)).trans
        (List.suffix_append _ _)
    · intro rest _ outer depth fuel offset hf
      simp only [printBefore, List.cons_append, List.length_cons, List.length_append] at hf ⊢
      obtain ⟨later, hl⟩ := readItems_print hs hv hvs (hs.lead depth) [] (depth + 1) rest
        fuel (offset + 1 + (style.lead (depth + 1)).length) (by omega)
      obtain ⟨c, more, hc, -, hopen⟩ := hv.starts (depth + 1)
        (printItemsBefore style (depth + 1) (style.lead depth ++ ']' :: rest) vs)
      have hskip := skipSpaces_append (hs.lead (depth + 1)) hopen.1 more (offset + 1)
      rw [hc] at hl ⊢
      refine ⟨later, ?_⟩
      simp only [readValue, hskip]
      split
      next heq => exact absurd (List.cons.inj heq).1 hopen.2.1
      next => simp [hl, bind, Except.bind]

theorem readsBack_object {style : Style} (hs : style.Spaced) {members : List (String × Json)}
    (h : ∀ m ∈ members, ReadsBack style m.2) : ReadsBack style (.object members) := by
  cases members with
  | nil =>
    refine ⟨fun depth rest => ⟨'\x7b', _, rfl, List.suffix_cons '\x7d' rest, by decide⟩, ?_⟩
    intro rest _ outer depth fuel offset _
    have hskip := skipSpaces_append blank_nil (c := '\x7d') (by decide) rest (offset + 1)
    rw [List.nil_append] at hskip
    exact ⟨_, by simp [printBefore, readValue, hskip]; rfl⟩
  | cons m ms =>
    have hm := h m List.mem_cons_self
    have hms : ∀ n ∈ ms, ReadsBack style n.2 := fun n hn => h n (List.mem_cons_of_mem _ hn)
    have hp : ∀ depth rest, printBefore style depth rest (.object (m :: ms)) =
        '\x7b' :: (style.lead (depth + 1) ++ printMember style (depth + 1)
          (printMembersBefore style (depth + 1) (style.lead depth ++ '\x7d' :: rest) ms) m) := by
      intro depth rest
      rw [printBefore]
      rfl
    refine ⟨fun depth rest => ⟨'\x7b', _, hp depth rest, ?_, by decide⟩, ?_⟩
    · have hc : rest <:+ style.lead depth ++ '\x7d' :: rest :=
        (List.suffix_cons '\x7d' rest).trans (List.suffix_append _ _)
      exact ((hc.trans (suffix_printMembersBefore hms _ _)).trans (suffix_printMember hm _ _)).trans
        (List.suffix_append _ _)
    · intro rest _ outer depth fuel offset hf
      rw [hp] at hf ⊢
      simp only [List.length_cons, List.length_append] at hf
      obtain ⟨later, hl⟩ := readMembers_print hs hm hms (hs.lead depth) outer [] (depth + 1) rest
        fuel (offset + 1 + (style.lead (depth + 1)).length) (by omega)
      obtain ⟨c, more, hc, -, hopen⟩ : Starts (printMember style (depth + 1)
          (printMembersBefore style (depth + 1) (style.lead depth ++ '\x7d' :: rest) ms) m) _ :=
        starts_printText m.1 _
      have hskip := skipSpaces_append (hs.lead (depth + 1)) hopen.1 more (offset + 1)
      rw [hc] at hl ⊢
      refine ⟨later, ?_⟩
      simp only [readValue, hskip]
      split
      next heq => exact absurd (List.cons.inj heq).1 hopen.2.2
      next => simp [hl, bind, Except.bind]

/-! ## All values -/

theorem Whole.readsBack {style : Style} (hs : style.Spaced) {v : Json} (h : Whole v) :
    ReadsBack style v := by
  induction h with
  | null => exact readsBack_null style
  | bool b => exact readsBack_bool style b
  | integer n least greatest => exact readsBack_integer style least greatest
  | text s => exact readsBack_text style s
  | list _ ih => exact readsBack_list hs ih
  | object _ ih => exact readsBack_object hs ih

/-- A printed value is the value that is read, with its members as they were printed. -/
theorem Whole.readWith_print {style : Style} (hs : style.Spaced) {v : Json} (h : Whole v) :
    readWith .bounded (v.printBefore style 0 []) = .ok v := by
  have hb := h.readsBack hs
  have hskip := (hb.starts 0 []).skipSpaces blank_nil 0
  have hclosed : Closes [] := fun _ hc => by cases hc
  obtain ⟨later, hl⟩ := hb.reads hclosed true 0 (v.printBefore style 0 []).length 0 (by simp)
  rw [List.nil_append] at hskip
  simp only [readWith, hskip, List.length_nil, Nat.add_zero, hl, bind, Except.bind]
  rfl

/-- A member whose name lies behind all others is put behind them. -/
theorem setMember_of_lt {name : String} (v : Json) {ms : List (String × Json)}
    (h : ∀ m ∈ ms, m.1 < name) : setMember name v ms = ms ++ [(name, v)] := by
  induction ms with
  | nil => rfl
  | cons m ms ih =>
    have hm : m.1 < name := h m List.mem_cons_self
    have hne : name ≠ m.1 := fun he => String.lt_irrefl _ (he ▸ hm)
    rw [setMember, if_neg hne, if_neg (String.lt_asymm hm),
      ih fun n hn => h n (List.mem_cons_of_mem _ hn)]
    rfl

theorem canonicalItems_eq_self {vs : List Json} (h : ∀ v ∈ vs, v.canonical = v) :
    canonicalItems vs = vs := by
  induction vs with
  | nil => rfl
  | cons v vs ih =>
    rw [canonicalItems, h v List.mem_cons_self, ih fun w hw => h w (List.mem_cons_of_mem _ hw)]

theorem canonicalMembers_eq_append {done ms : List (String × Json)}
    (hn : (done ++ ms).Pairwise fun m n => m.1 < n.1) (h : ∀ m ∈ ms, m.2.canonical = m.2) :
    canonicalMembers done ms = done ++ ms := by
  induction ms generalizing done with
  | nil => simp [canonicalMembers]
  | cons m ms ih =>
    have hlt : ∀ n ∈ done, n.1 < m.1 :=
      fun n hnd => (List.pairwise_append.mp hn).2.2 n hnd m List.mem_cons_self
    rw [canonicalMembers, h m List.mem_cons_self, setMember_of_lt m.2 hlt,
      ih (by simpa using hn) fun n hnm => h n (List.mem_cons_of_mem _ hnm)]
    simp

/-- A value in whose objects the names ascend is canonical. -/
theorem Ascending.canonical_eq_self {v : Json} (h : Ascending v) : v.canonical = v := by
  induction h with
  | list _ ih => rw [canonical, canonicalItems_eq_self ih]
  | object names _ ih => rw [canonical, canonicalMembers_eq_append (by simpa using names) ih]; rfl
  | _ => rw [canonical]

/-- JSON values survive rendering and parsing.

Both renderers render every value with whole numbers of 64 bits, and the parser takes the bytes
back: to the canonical form of the value, in which of several members with one name the last is
kept, and so to the value itself if its names ascend. -/
theorem codecs_preserve {v : Json} (h : Whole v) :
    ∀ r ∈ [Renderer.json, Renderer.indentedJson], ∃ body,
      r.render (.structured v) = .ok (some body) ∧
      Parser.json.parse body = .ok v.canonical ∧
      (Ascending v → Parser.json.parse body = .ok v) := by
  have hstyle : ∀ style : Style, style.Spaced →
      Parser.json.parse (Bytes.ofText (v.print style)) = .ok v.canonical := by
    intro style hs
    have hr : Json.read (Bytes.ofText (v.print style)) = .ok v.canonical := by
      rw [Json.read, Utf8.decode_ofText]
      simp only [Json.print, String.toList_ofList, h.readWith_print hs, Except.map]
    simp only [Parser.json, hr]
  intro r hr
  have hs : ∃ style : Style, style.Spaced ∧
      r.render (.structured v) = .ok (some (Bytes.ofText (v.print style))) := by
    rcases List.mem_cons.mp hr with rfl | hr
    · exact ⟨compactStyle, spaced_compactStyle, rfl⟩
    · obtain rfl := List.mem_singleton.mp hr
      exact ⟨indentedStyle, spaced_indentedStyle, rfl⟩
  obtain ⟨style, hs, hbody⟩ := hs
  refine ⟨_, hbody, hstyle style hs, ?_⟩
  intro ha
  rw [hstyle style hs, ha.canonical_eq_self]

/-- The least and the greatest number, empty parts, and characters that are escaped. -/
def edges : Json :=
  .object [
    ("", .list [.integer (-9223372036854775808), .integer 18446744073709551615, .list []]),
    ("\x1f\"é", .object [("\\", .text "\n\x00😀"), ("a", .object [])])]

theorem whole_edges : Whole edges := by
  refine .object (List.forall_mem_cons.mpr ⟨.list ?_, List.forall_mem_singleton.mpr (.object ?_)⟩)
  · exact List.forall_mem_cons.mpr ⟨.integer _ (by decide) (by decide),
      List.forall_mem_cons.mpr ⟨.integer _ (by decide) (by decide),
        List.forall_mem_singleton.mpr (.list fun _ h => by cases h)⟩⟩
  · exact List.forall_mem_cons.mpr ⟨.text _,
      List.forall_mem_singleton.mpr (.object fun _ h => by cases h)⟩

theorem ascending_edges : Ascending edges := by
  refine .object (by decide)
    (List.forall_mem_cons.mpr ⟨.list ?_, List.forall_mem_singleton.mpr (.object (by decide) ?_)⟩)
  · exact List.forall_mem_cons.mpr ⟨.integer _, List.forall_mem_cons.mpr ⟨.integer _,
      List.forall_mem_singleton.mpr (.list fun _ h => by cases h)⟩⟩
  · exact List.forall_mem_cons.mpr ⟨.text _,
      List.forall_mem_singleton.mpr (.object (by decide) fun _ h => by cases h)⟩

theorem codecs_preserve_edges :
    Whole edges ∧
      (∃ body, Renderer.json.render (.structured edges) = .ok (some body) ∧
        Parser.json.parse body = .ok edges) ∧
      ∃ body, Renderer.indentedJson.render (.structured edges) = .ok (some body) ∧
        Parser.json.parse body = .ok edges := by
  obtain ⟨compact, hcompact, -, hc⟩ :=
    codecs_preserve whole_edges Renderer.json List.mem_cons_self
  obtain ⟨indented, hindented, -, hi⟩ :=
    codecs_preserve whole_edges Renderer.indentedJson (List.mem_cons_of_mem _ List.mem_cons_self)
  exact ⟨whole_edges, ⟨compact, hcompact, hc ascending_edges⟩,
    indented, hindented, hi ascending_edges⟩

end HttpApp.Json
