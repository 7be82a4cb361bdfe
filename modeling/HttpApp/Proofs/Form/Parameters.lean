/-
  HttpApp/Proofs/Form/Parameters.lean --- the parameters of a disposition.

  A disposition is cut at its semicolons, and every piece behind the first is taken for
  one parameter, whose value loses the quotes at its ends.  The quotes do not keep a
  semicolon from being a cut: what is read as a name has no semicolon.  Where no value
  has one, the pieces are the parameters, in whatever order they stand.  Main statement:
  parts with quoted parameters are read with the names that were written exactly if these
  have no semicolon.
-/
import HttpApp.Proofs.Form.Parts
import HttpApp.Proofs.Media.Reading

set_option autoImplicit false

namespace HttpApp.Multipart

open Text (FirstBehind)

/-! ## Parts with quoted parameters -/

/-- The parameters of a disposition, each behind a semicolon and with its value in quotes. -/
def quotedParams : List (String × String) → String
  | [] => ""
  | (key, value) :: params => "; " ++ key ++ "=\"" ++ value ++ "\"" ++ quotedParams params

/-- A part whose disposition has the given parameters, in their order. -/
structure QuotedPart where
  params : List (String × String)
  contentType : Option String
  content : Bytes
  deriving DecidableEq, Repr, Inhabited

/-- The header lines of a part. -/
def QuotedPart.headers (q : QuotedPart) : String :=
  "Content-Disposition: form-data" ++ quotedParams q.params ++
    match q.contentType with
    | some type => "\r\nContent-Type: " ++ type
    | none => ""

def QuotedPart.part (q : QuotedPart) : Part := ⟨q.headers, q.content⟩

/-- A text that can stand between quotes in a header line. -/
def IsQuotable (text : String) : Prop := IsLine text ∧ '"' ∉ text.toList

/-- The header lines of a part can be written: the keys of its parameters are tokens, their values
can stand between quotes, and of the other ones than the names no value has a semicolon. -/
structure QuotedPart.Plain (q : QuotedPart) : Prop where
  key : ∀ p ∈ q.params, Text.isToken p.1 = true
  value : ∀ p ∈ q.params, IsQuotable p.2
  others : ∀ p ∈ q.params, p.1 ≠ "name" → p.1 ≠ "filename" → ';' ∉ p.2.toList
  contentType : ∀ type ∈ q.contentType, IsLine type ∧ Text.trim type = type

/-- What the parameters of a part say: a file if a filename is among them, and else a text
field. -/
inductive QuotedPart.Says (q : QuotedPart) : Item → Prop where
  | field {name text : String} : Urlencoded.valuesOf "name" q.params = [name] →
    Urlencoded.valuesOf "filename" q.params = [] → q.content = Bytes.ofText text →
    Says q (.field name text)
  | file {name filename : String} : Urlencoded.valuesOf "name" q.params = [name] →
    Urlencoded.valuesOf "filename" q.params = [filename] →
    Says q (.file name filename q.contentType q.content)

/-- The names of an item. -/
def Item.names : Item → List String
  | .field name _ => [name]
  | .file name filename _ _ => [name, filename]

/-! ## Names have no semicolon -/

/-- No name in a disposition has a semicolon. -/
structure Disposition.IsCut (d : Disposition) : Prop where
  name : ∀ name ∈ d.name, ';' ∉ name.toList
  filename : ∀ filename ∈ d.filename, ';' ∉ filename.toList

theorem Disposition.IsCut.addParam {d : Disposition} (h : d.IsCut) {param : List Char}
    (hparam : ';' ∉ param) : (d.addParam param).IsCut := by
  rw [Disposition.addParam]
  cases hcut : Text.cutAt? '=' (Text.trimBlanks param) with
  | none => exact h
  | some p =>
    obtain ⟨key, value⟩ := p
    have hvalue : ';' ∉ Text.trimEnds (· == '"') (Text.trimBlanks value) := by
      intro hc
      have hmem : ';' ∈ value := Text.trimEnds_subset _ _ (Text.trimEnds_subset _ _ hc)
      have hwhole := (Text.cutAt?_eq_some hcut).1
      exact hparam (Text.trimEnds_subset Text.isBlank _ (by
        change ';' ∈ Text.trimBlanks param
        simp [hwhole, hmem]))
    dsimp only
    split
    · exact ⟨by simpa using hvalue, h.filename⟩
    · split
      · exact ⟨h.name, by simpa using hvalue⟩
      · exact h

theorem Disposition.IsCut.addLine {d : Disposition} (h : d.IsCut) (line : List Char) :
    (d.addLine line).IsCut := by
  rw [Disposition.addLine]
  cases Text.cutAt? ':' line with
  | none => exact h
  | some p =>
    dsimp only
    split
    · have hpieces : ∀ w ∈ (Text.pieces ';' (Text.trimBlanks p.2)).tail, ';' ∉ w :=
        fun w hw => Text.sep_notMem_of_mem_pieces (List.mem_of_mem_tail hw)
      exact List.foldlRecOn (motive := IsCut) _ _ h fun d hd w hw => hd.addParam (hpieces w hw)
    · split
      · exact ⟨h.name, h.filename⟩
      · exact h

/-- Whatever header lines say, the names in them have no semicolon. -/
theorem Disposition.isCut_ofLines (text : String) : (Disposition.ofLines text).IsCut :=
  List.foldlRecOn (motive := IsCut) _ _ ⟨by simp, by simp⟩ fun _ hd line _ => hd.addLine line

/-- The names of what is read have no semicolon. -/
theorem Part.Is.notMem_names {p : Part} {item : Item} (h : p.Is item) :
    ∀ name ∈ item.names, ';' ∉ name.toList := by
  have hcut := Disposition.isCut_ofLines p.headers
  cases h with
  | field hname _ _ => simpa [Item.names] using hcut.name _ hname
  | file hname hfilename =>
    simpa [Item.names] using ⟨hcut.name _ hname, hcut.filename _ hfilename⟩

/-! ## Reading quoted parameters -/

/-- A parameter as it is written, behind its semicolon. -/
def written (p : String × String) : List Char := writtenParam p.1.toList p.2

/-- The header lines of a part, one by one. -/
def QuotedPart.lines (q : QuotedPart) : List (List Char) :=
  headerLines (q.params.map written) q.contentType

theorem toList_quotedParams (params : List (String × String)) :
    (quotedParams params).toList = params.flatMap fun p => ';' :: written p := by
  have hsemicolon : "; ".toList = [';', ' '] := by rfl
  have hopen : "=\"".toList = ['=', '"'] := by rfl
  have hclose : "\"".toList = ['"'] := by rfl
  induction params with
  | nil => rfl
  | cons p params ih =>
    change (_ ++ p.1 ++ _ ++ p.2 ++ _ ++ quotedParams params).toList = _
    simp [ih, written, writtenParam, hsemicolon, hopen, hclose]

theorem QuotedPart.toList_headers (q : QuotedPart) :
    q.headers.toList = ['\r', '\n'].intercalate q.lines := by
  have hdisposition : "Content-Disposition: form-data".toList =
      dispositionKey ++ ':' :: ' ' :: formData := by rfl
  have htype : "\r\nContent-Type: ".toList = '\r' :: '\n' :: (typeKey ++ [':', ' ']) := by rfl
  have hparams : [';'].intercalate (formData :: q.params.map written) =
      formData ++ (quotedParams q.params).toList := by
    rw [Text.intercalate_cons_eq_append_flatMap, toList_quotedParams, List.flatMap_map]
  obtain ⟨params, contentType, content⟩ := q
  cases contentType with
  | none =>
    change (_ ++ quotedParams params ++ "").toList = _
    simp [lines, headerLines, hparams, hdisposition]
  | some type =>
    change (_ ++ quotedParams params ++ (_ ++ type)).toList = _
    simp [lines, headerLines, hparams, hdisposition, htype, List.intercalate_cons_cons]

theorem notMem_of_isToken {key : String} (h : Text.isToken key = true) {c : Char}
    (hc : Text.isTokenChar c = false) : c ∉ key.toList := by
  intro hmem
  rw [Text.isToken, Bool.and_eq_true, List.all_eq_true] at h
  rw [h.2 c hmem] at hc
  cases hc

/-- A quoted parameter is read back: a name or a filename takes the place of an earlier one. -/
theorem Disposition.addParam_written (d : Disposition) {p : String × String}
    (hkey : Text.isToken p.1 = true) (hvalue : IsQuotable p.2) :
    d.addParam (written p) =
      if p.1 = "name" then { d with name := some p.2 }
      else if p.1 = "filename" then { d with filename := some p.2 }
      else d := by
  have hblank : ∀ c ∈ p.1.toList, Text.isBlank c = false := by
    rw [Text.isToken, Bool.and_eq_true, List.all_eq_true] at hkey
    exact fun c hc => Text.not_isBlank_of_isTokenChar (hkey.2 c hc)
  have heq : '=' ∉ p.1.toList := notMem_of_isToken hkey (by decide)
  obtain ⟨first, key, hlist⟩ : ∃ first key, p.1.toList = first :: key := by
    refine List.exists_cons_of_ne_nil fun hnil => ?_
    simp [Text.isToken, String.toList_eq_nil_iff.1 hnil] at hkey
  rw [hlist] at hblank heq
  have htrim : Text.trimBlanks (first :: key) = first :: key :=
    Text.trimEnds_of_ends (fun c hc => hblank c (List.mem_of_head? hc)) fun c hc =>
      hblank c (List.mem_of_getLast? hc)
  rw [written, hlist, d.addParam_writtenParam (hblank _ List.mem_cons_self) htrim heq hvalue.2,
    ← hlist, String.ofList_toList]

/-- Of several names the last one counts, and so for filenames. -/
theorem Disposition.foldl_addParam {params : List (String × String)}
    (hkey : ∀ p ∈ params, Text.isToken p.1 = true) (hvalue : ∀ p ∈ params, IsQuotable p.2)
    (d : Disposition) :
    (params.map written).foldl addParam d =
      { d with
        name := (Urlencoded.valuesOf "name" params).getLast?.or d.name
        filename := (Urlencoded.valuesOf "filename" params).getLast?.or d.filename } := by
  induction params generalizing d with
  | nil => rfl
  | cons p params ih =>
    rw [List.forall_mem_cons] at hkey hvalue
    rw [List.map_cons, List.foldl_cons, d.addParam_written hkey.1 hvalue.1, ih hkey.2 hvalue.2]
    by_cases hname : p.1 = "name"
    · simp [Urlencoded.valuesOf, hname, List.getLast?_cons]
    · by_cases hfilename : p.1 = "filename"
      · simp [Urlencoded.valuesOf, hfilename, List.getLast?_cons]
      · simp [Urlencoded.valuesOf, hname, hfilename]

/-- A parameter has no carriage return, and no semicolon if its value has none. -/
theorem QuotedPart.Plain.notMem_written {q : QuotedPart} (h : q.Plain) {p : String × String}
    (hp : p ∈ q.params) : '\r' ∉ written p ∧ (';' ∉ p.2.toList → ';' ∉ written p) :=
  ⟨notMem_writtenParam (notMem_of_isToken (h.key p hp) (by decide)) (h.value p hp).1.notMem
      (by decide),
    fun hvalue => notMem_writtenParam (notMem_of_isToken (h.key p hp) (by decide)) hvalue (by decide)⟩

/-- Header lines are cut off at the empty line that is written behind them. -/
theorem QuotedPart.Plain.firstBehind_headers {q : QuotedPart} (h : q.Plain) :
    FirstBehind (lineEnd ++ lineEnd) (Bytes.ofText q.headers) := by
  have hlines : ∀ w ∈ q.lines, w ≠ [] ∧ '\r' ∉ w := fun w hw =>
    of_mem_headerLines (List.forall_mem_map.2 fun p hp => (h.notMem_written hp).1)
      (fun type htype => (h.contentType type htype).1) hw
  have hcut := cut?_ofText_lines q.toList_headers (List.cons_ne_nil _ _) hlines []
  rw [List.append_nil] at hcut
  exact (Text.firstBehind_iff (lineEnd_append_ne_nil _)).2 hcut

/-- Where no value has a semicolon, the header lines of a part say what its parameters say. -/
theorem QuotedPart.Plain.ofLines_headers {q : QuotedPart} (h : q.Plain) (hne : q.params ≠ [])
    (hsemicolon : ∀ p ∈ q.params, ';' ∉ p.2.toList) :
    Disposition.ofLines q.headers = {
      name := (Urlencoded.valuesOf "name" q.params).getLast?
      filename := (Urlencoded.valuesOf "filename" q.params).getLast?
      contentType := q.contentType } := by
  refine Disposition.ofLines_eq q.toList_headers (by simpa using hne) ?_ h.contentType ?_
  · refine List.forall_mem_map.2 fun p hp => ⟨(h.notMem_written hp).1, ?_⟩
    exact ⟨(h.notMem_written hp).2 (hsemicolon p hp), getLast?_writtenParam _ _⟩
  · rw [Disposition.foldl_addParam h.key h.value]
    simp

/-! ## Parts and items -/

theorem eq_of_valuesOf {key value : String} {params : List (String × String)}
    (h : Urlencoded.valuesOf key params = [value]) : ∀ p ∈ params, p.1 = key → p.2 = value := by
  intro p hp hkey
  have hmem : p.2 ∈ Urlencoded.valuesOf key params :=
    List.mem_map_of_mem (List.mem_filter.2 ⟨hp, by simp [hkey]⟩)
  simpa [h] using hmem

theorem ne_of_valuesOf {key : String} {params : List (String × String)}
    (h : Urlencoded.valuesOf key params = []) : ∀ p ∈ params, p.1 ≠ key := by
  intro p hp hkey
  have hmem : p.2 ∈ Urlencoded.valuesOf key params :=
    List.mem_map_of_mem (List.mem_filter.2 ⟨hp, by simp [hkey]⟩)
  rw [h] at hmem
  cases hmem

/-- Where no name has a semicolon, no value has one. -/
theorem QuotedPart.Says.notMem_values {q : QuotedPart} {item : Item} (h : q.Says item)
    (hplain : q.Plain) (hnames : ∀ name ∈ item.names, ';' ∉ name.toList) :
    ∀ p ∈ q.params, ';' ∉ p.2.toList := by
  intro p hp
  by_cases hname : p.1 = "name"
  · cases h with
    | field hvalues _ _ => exact eq_of_valuesOf hvalues p hp hname ▸ hnames _ List.mem_cons_self
    | file hvalues _ => exact eq_of_valuesOf hvalues p hp hname ▸ hnames _ List.mem_cons_self
  by_cases hfilename : p.1 = "filename"
  · cases h with
    | field _ hvalues _ => exact absurd hfilename (ne_of_valuesOf hvalues p hp)
    | file _ hvalues =>
      exact eq_of_valuesOf hvalues p hp hfilename ▸ hnames _ (List.mem_cons_of_mem _ (.head _))
  exact hplain.others p hp hname hfilename

theorem QuotedPart.Says.params_ne_nil {q : QuotedPart} {item : Item} (h : q.Says item) :
    q.params ≠ [] := by
  intro hnil
  cases h <;> simp_all [Urlencoded.valuesOf]

/-- A part is the item that its parameters say exactly if no name of that has a semicolon. -/
theorem QuotedPart.Says.is_iff {q : QuotedPart} {item : Item} (h : q.Says item)
    (hplain : q.Plain) : q.part.Is item ↔ ∀ name ∈ item.names, ';' ∉ name.toList := by
  refine ⟨Part.Is.notMem_names, fun hnames => ?_⟩
  have hlines := hplain.ofLines_headers h.params_ne_nil (h.notMem_values hplain hnames)
  cases h with
  | @field name text hname hfilename hcontent =>
    refine .field ?_ ?_ ?_
    · simp [part, hlines, hname]
    · simp [part, hlines, hfilename]
    · rw [part, hcontent, Utf8.decode_ofText]
  | @file name filename hname hfilename =>
    have his : q.part.Is (.file name filename (Disposition.ofLines q.headers).contentType q.content) :=
      .file (by simp [part, hlines, hname]) (by simp [part, hlines, hfilename])
    rwa [hlines] at his

theorem notMem_names_of_forall₂ {ps : List Part} {items : List Item}
    (h : List.Forall₂ Part.Is ps items) :
    ∀ item ∈ items, ∀ name ∈ item.names, ';' ∉ name.toList := by
  induction h with
  | nil => simp
  | cons his _ ih => exact List.forall_mem_cons.2 ⟨his.notMem_names, ih⟩

theorem QuotedPart.forall₂_is_iff {parts : List QuotedPart} {items : List Item}
    (hplain : ∀ q ∈ parts, q.Plain) (h : List.Forall₂ Says parts items) :
    List.Forall₂ Part.Is (parts.map part) items ↔
      ∀ item ∈ items, ∀ name ∈ item.names, ';' ∉ name.toList := by
  induction h with
  | nil => simp
  | cons hsaid _ ih =>
    rw [List.forall_mem_cons] at hplain
    rw [List.map_cons, List.forall₂_cons, hsaid.is_iff hplain.1, ih hplain.2, List.forall_mem_cons]

/-- The names of the items in a form are those of its fields and files. -/
theorem forall_names_formOf {P : String → Prop} {items : List Item} :
    (∀ item ∈ items, ∀ name ∈ item.names, P name) ↔
      (∀ p ∈ (formOf items).fields, P p.1) ∧
        ∀ file ∈ (formOf items).files, P file.name ∧ P file.filename := by
  induction items with
  | nil => simp [formOf]
  | cons item items ih =>
    rw [formOf_cons, List.forall_mem_cons, ih]
    cases item with
    | field name text => simp [Item.names, joined, formOf, and_assoc]
    | file name filename contentType bytes =>
      simp [Item.names, joined, formOf]
      tauto

end HttpApp.Multipart

namespace HttpApp.Form

open Multipart

/-- Quoted parameters are read back whole if no name has a semicolon.  Let parts be written whose
dispositions have quoted parameters in any order, among them one name and perhaps one filename.
Each of them is then read as the file of that name and filename, or as the text field of that
name, exactly if there is no semicolon in any name. -/
theorem read_quoted {type : MediaType} {boundary : String}
    (htype : type.sameEssence .multipart = true) (hparam : type.param? "boundary" = some boundary)
    {preamble : Bytes} (hpreamble : Text.FirstBehind (delimiter (Bytes.ofText boundary)) preamble)
    (epilogue : Bytes) {parts : List QuotedPart} (hplain : ∀ q ∈ parts, q.Plain)
    (hcontent : ∀ q ∈ parts,
      Text.FirstBehind (lineEnd ++ delimiter (Bytes.ofText boundary)) q.content)
    {items : List Item} (hsaid : List.Forall₂ QuotedPart.Says parts items) :
    Form.read (some type) (writeParts (Bytes.ofText boundary) preamble epilogue
        (parts.map QuotedPart.part)) = .ok (formOf items) ↔
      ∀ item ∈ items, ∀ name ∈ item.names, ';' ∉ name.toList := by
  have hparts : ∀ p ∈ parts.map QuotedPart.part,
      Text.FirstBehind (lineEnd ++ lineEnd) (Bytes.ofText p.headers) ∧
        Text.FirstBehind (lineEnd ++ delimiter (Bytes.ofText boundary)) p.content := by
    intro p hp
    obtain ⟨q, hq, rfl⟩ := List.mem_map.1 hp
    exact ⟨(hplain q hq).firstBehind_headers, hcontent q hq⟩
  have hread : ∀ form, Multipart.read boundary (writeParts (Bytes.ofText boundary) preamble epilogue
      (parts.map QuotedPart.part)) = .ok form ↔
        ∃ items, List.Forall₂ Part.Is (parts.map QuotedPart.part) items ∧ form = formOf items :=
    fun _ => read_writeParts hpreamble epilogue hparts
  rw [read_eq_mapError htype hparam, ← QuotedPart.forall₂_is_iff hplain hsaid]
  constructor
  · intro h
    cases hresult : Multipart.read boundary (writeParts (Bytes.ofText boundary) preamble epilogue
        (parts.map QuotedPart.part)) with
    | error fault => simp [hresult, Except.mapError] at h
    | ok form =>
      obtain rfl : form = formOf items := by simpa [hresult, Except.mapError] using h
      obtain ⟨items', hitems, hform⟩ := (hread _).1 hresult
      have hnames := forall_names_formOf.1 (notMem_names_of_forall₂ hitems)
      rw [← hform] at hnames
      exact (QuotedPart.forall₂_is_iff hplain hsaid).2 (forall_names_formOf.2 hnames)
  · intro hitems
    rw [(hread _).2 ⟨items, hitems, rfl⟩]
    rfl

/-- A file whose name stands behind its filename, with another parameter between them, and a text
with a parameter that is no filename. -/
def quotedCards : List QuotedPart :=
  [⟨[("filename", " a=b: é.png"), ("size", "name=1"), ("name", "photo, no. 1")],
      some "image/png", [13, 10]⟩,
    ⟨[("name", "note"), ("filename*", "f")], none, Bytes.ofText "n"⟩]

theorem read_quoted_cards :
    cardType.sameEssence .multipart = true ∧ cardType.param? "boundary" = some "B" ∧
    Form.read (some cardType) (writeParts (Bytes.ofText "B") [45] [] (quotedCards.map QuotedPart.part)) =
      .ok {
        fields := [("note", "n")]
        files := [⟨"photo, no. 1", " a=b: é.png", "image/png", [13, 10]⟩] } := by
  have htype : cardType.sameEssence .multipart = true := by decide
  have hparam : cardType.param? "boundary" = some "B" := by decide
  have hplain : ∀ q ∈ quotedCards, q.Plain := by
    have htrim : Text.trim "image/png" = "image/png" := by decide
    simp only [quotedCards, List.forall_mem_cons, List.not_mem_nil, false_imp_iff, implies_true,
      and_true]
    refine ⟨⟨by decide, ?_, ?_, ?_⟩, by decide, ?_, ?_, ?_⟩ <;> simp [IsQuotable, IsLine, htrim]
  have hsaid : List.Forall₂ QuotedPart.Says quotedCards
      [.file "photo, no. 1" " a=b: é.png" (some "image/png") [13, 10], .field "note" "n"] :=
    .cons (.file (by decide) (by decide)) (.cons (.field (by decide) (by decide) rfl) .nil)
  have hcontent : ∀ q ∈ quotedCards,
      Text.FirstBehind (lineEnd ++ delimiter (Bytes.ofText "B")) q.content := by
    simp only [quotedCards, List.forall_mem_cons, List.not_mem_nil, false_imp_iff, implies_true,
      and_true]
    exact ⟨by decide, by decide⟩
  have hpreamble : Text.FirstBehind (delimiter (Bytes.ofText "B")) [45] := by decide
  have hread := read_quoted htype hparam hpreamble [] hplain hcontent hsaid
  exact ⟨htype, hparam, hread.2 (by simp [Item.names])⟩

/-- A file whose filename has a semicolon. -/
def semicolonCard : QuotedPart := ⟨[("name", "f"), ("filename", "a;b.txt")], none, Bytes.ofText "x"⟩

/-- A filename with a semicolon is not read back: it ends in front of that. -/
theorem not_read_quoted_semicolon :
    cardType.sameEssence .multipart = true ∧ cardType.param? "boundary" = some "B" ∧
    semicolonCard.Plain ∧ semicolonCard.Says (.file "f" "a;b.txt" none (Bytes.ofText "x")) ∧
    Text.FirstBehind (lineEnd ++ delimiter (Bytes.ofText "B")) semicolonCard.content ∧
    Form.read (some cardType) (writeParts (Bytes.ofText "B") [] [] [semicolonCard.part]) =
      .ok { files := [⟨"f", "a", "application/octet-stream", Bytes.ofText "x"⟩] } := by
  have htype : cardType.sameEssence .multipart = true := by decide
  have hparam : cardType.param? "boundary" = some "B" := by decide
  have hplain : semicolonCard.Plain := by
    refine ⟨by decide, ?_, ?_, ?_⟩ <;> simp [semicolonCard, IsQuotable, IsLine]
  exact ⟨htype, hparam, hplain, .file (by decide) (by decide), by decide,
    read_of_toOption htype hparam (by decide +kernel)⟩

end HttpApp.Form
