/-
  HttpApp/Proofs/Form/Multipart.lean --- reading forms with files undoes writing them.

  Reading is a chain of searches: for a delimiter, for the empty line behind header
  lines, for the line end and delimiter behind a content.  Each of them has to end at
  the marker that was written.  A carriage return stands only at the front of a line
  end, so that no marker can begin in what stands before it and end in the marker
  itself.  A preamble is different: it can end with the front of a delimiter and run
  into the one that follows.  Main statement: the items of a form are read back from
  what is written of them, if the first delimiter is the one behind the preamble.
-/
import HttpApp.Form.Reader

set_option autoImplicit false

namespace HttpApp.Multipart

/-! ## Items that can be written -/

/-- A text that can stand in a header line. -/
def IsLine (text : String) : Prop := ∀ c ∈ text.toList, c ≠ '\r' ∧ c ≠ '\n'

/-- A text that can stand between quotes in a header line. -/
def IsName (text : String) : Prop := IsLine text ∧ ∀ c ∈ text.toList, c ≠ '"' ∧ c ≠ ';'

/-- The texts in the headers of an item can stand there. -/
inductive Item.Plain : Item → Prop where
  | field {name : String} (text : String) : IsName name → Plain (.field name text)
  | file {name filename : String} {contentType : Option String} (bytes : Bytes) :
    IsName name → IsName filename →
    (∀ type ∈ contentType, IsLine type ∧ Text.trim type = type) →
    Plain (.file name filename contentType bytes)

/-! ## Header lines -/

def dispositionKey : List Char := "Content-Disposition".toList
def typeKey : List Char := "Content-Type".toList
def formData : List Char := "form-data".toList
def nameKey : List Char := "name".toList
def filenameKey : List Char := "filename".toList

/-- A parameter of a disposition, as it is written behind a semicolon. -/
def writtenParam (key : List Char) (value : String) : List Char :=
  ' ' :: (key ++ '=' :: '"' :: (value.toList ++ ['"']))

def Item.params : Item → List (List Char)
  | .field name _ => [writtenParam nameKey name]
  | .file name filename _ _ => [writtenParam nameKey name, writtenParam filenameKey filename]

def Item.contentType? : Item → Option String
  | .field .. => none
  | .file _ _ contentType _ => contentType

/-- What the headers of an item say. -/
def Item.disposition : Item → Disposition
  | .field name _ => { name := some name }
  | .file name filename contentType _ =>
    { name := some name, filename := some filename, contentType }

/-- The lines of a disposition with parameters and of a content type. -/
def headerLines (params : List (List Char)) (contentType : Option String) : List (List Char) :=
  (dispositionKey ++ ':' :: ' ' :: [';'].intercalate (formData :: params)) ::
    contentType.toList.map fun type => typeKey ++ ':' :: ' ' :: type.toList

/-- The header lines of an item, one by one. -/
def Item.lines (item : Item) : List (List Char) := headerLines item.params item.contentType?

theorem Item.toList_headers (item : Item) :
    item.headers.toList = ['\r', '\n'].intercalate item.lines := by
  have hname : "Content-Disposition: form-data; name=\"".toList =
      dispositionKey ++ ':' :: ' ' :: (formData ++ ';' :: ' ' :: (nameKey ++ ['=', '"'])) := by rfl
  have hfilename : "\"; filename=\"".toList = '"' :: ';' :: ' ' :: (filenameKey ++ ['=', '"']) := by
    rfl
  have htype : "\r\nContent-Type: ".toList = '\r' :: '\n' :: (typeKey ++ [':', ' ']) := by rfl
  have hquote : "\"".toList = ['"'] := by rfl
  match item with
  | .field name text =>
    change (_ ++ name ++ _).toList = _
    simp [lines, headerLines, params, contentType?, writtenParam, hname, hquote, List.intercalate_cons_cons]
  | .file name filename none bytes =>
    change (_ ++ name ++ _ ++ filename ++ _ ++ "").toList = _
    simp [lines, headerLines, params, contentType?, writtenParam, hname, hfilename, hquote,
      List.intercalate_cons_cons]
  | .file name filename (some type) bytes =>
    change (_ ++ name ++ _ ++ filename ++ _ ++ (_ ++ type)).toList = _
    simp [lines, headerLines, params, contentType?, writtenParam, hname, hfilename, htype, hquote,
      List.intercalate_cons_cons]

theorem IsLine.notMem {text : String} (h : IsLine text) : '\r' ∉ text.toList :=
  fun hc => (h _ hc).1 rfl

theorem notMem_writtenParam {key : List Char} {value : String} {c : Char} (hkey : c ∉ key)
    (hvalue : c ∉ value.toList) (hc : c ≠ ' ' ∧ c ≠ '=' ∧ c ≠ '"') : c ∉ writtenParam key value := by
  simp [writtenParam, hkey, hvalue, hc]

/-- What is written for a name has neither a carriage return nor a semicolon. -/
theorem IsName.notMem_writtenParam {name : String} (h : IsName name) {key : List Char}
    (hkey : '\r' ∉ key ∧ ';' ∉ key) :
    '\r' ∉ writtenParam key name ∧ ';' ∉ writtenParam key name :=
  ⟨Multipart.notMem_writtenParam hkey.1 h.1.notMem (by decide),
    Multipart.notMem_writtenParam hkey.2 (fun hc => (h.2 _ hc).2 rfl) (by decide)⟩

theorem Item.Plain.notMem_params {item : Item} (h : item.Plain) :
    ∀ w ∈ item.params, '\r' ∉ w ∧ ';' ∉ w := by
  have hnameKey : '\r' ∉ nameKey ∧ ';' ∉ nameKey := by decide
  have hfilenameKey : '\r' ∉ filenameKey ∧ ';' ∉ filenameKey := by decide
  cases h with
  | field text hname =>
    simp only [params, List.forall_mem_singleton]
    exact hname.notMem_writtenParam hnameKey
  | file bytes hname hfilename _ =>
    simp only [params, List.forall_mem_cons, List.not_mem_nil, false_imp_iff, implies_true, and_true]
    exact ⟨hname.notMem_writtenParam hnameKey, hfilename.notMem_writtenParam hfilenameKey⟩

theorem Item.Plain.isLine_of_contentType {item : Item} (h : item.Plain) {type : String}
    (htype : type ∈ item.contentType?) : IsLine type ∧ Text.trim type = type := by
  cases h with
  | field text _ => simp [contentType?] at htype
  | file bytes _ _ htypes => exact htypes type htype

/-- Nothing that stands in no part of a joined whole stands in the whole. -/
theorem notMem_intercalate {α : Type} {x : α} {sep : List α} {ws : List (List α)} (hsep : x ∉ sep)
    (h : ∀ w ∈ ws, x ∉ w) : x ∉ sep.intercalate ws := by
  have hne : ∀ a ∈ sep.intercalate ws, a ≠ x :=
    Text.forall_mem_intercalate (fun a ha hax => hsep (hax ▸ ha))
      fun w hw a ha hax => h w hw (hax ▸ ha)
  exact fun hx => hne x hx rfl

/-- Header lines are not empty and have no carriage return. -/
theorem of_mem_headerLines {params : List (List Char)} {contentType : Option String}
    (hparams : ∀ w ∈ params, '\r' ∉ w) (htypes : ∀ type ∈ contentType, IsLine type) {w : List Char}
    (hw : w ∈ headerLines params contentType) : w ≠ [] ∧ '\r' ∉ w := by
  rw [headerLines, List.mem_cons, List.mem_map] at hw
  obtain rfl | ⟨type, htype, rfl⟩ := hw
  · have hkey : '\r' ∉ dispositionKey := by decide
    have hwhole : '\r' ∉ [';'].intercalate (formData :: params) :=
      notMem_intercalate (by decide) (List.forall_mem_cons.2 ⟨by decide, hparams⟩)
    exact ⟨by simp, by simp [hkey, hwhole]⟩
  · have hkey : '\r' ∉ typeKey := by decide
    have hline := (htypes type (Option.mem_toList.1 htype)).notMem
    exact ⟨by simp, by simp [hkey, hline]⟩

theorem Item.Plain.of_mem_lines {item : Item} (h : item.Plain) {w : List Char}
    (hw : w ∈ item.lines) : w ≠ [] ∧ '\r' ∉ w :=
  of_mem_headerLines (fun w hw => (h.notMem_params w hw).1)
    (fun _ htype => (h.isLine_of_contentType htype).1) hw

/-! ## Reading header lines -/

/-- A text between two characters that are no blanks is trimmed as it is, and a blank in front of
it is taken away. -/
theorem trimBlanks_between {first last : Char} (w : List Char)
    (hfirst : Text.isBlank first = false) (hlast : Text.isBlank last = false) :
    Text.trimBlanks (first :: (w ++ [last])) = first :: (w ++ [last]) ∧
      Text.trimBlanks (' ' :: first :: (w ++ [last])) = first :: (w ++ [last]) := by
  have htrim : Text.trimBlanks (first :: (w ++ [last])) = first :: (w ++ [last]) := by
    refine Text.trimEnds_of_ends (fun c hc => ?_) fun c hc => ?_
    · obtain rfl := Option.some.inj hc
      exact hfirst
    · rw [← List.cons_append, List.getLast?_concat] at hc
      obtain rfl := Option.some.inj hc
      exact hlast
  exact ⟨htrim, (Text.trimEnds_cons (by decide) _).trans htrim⟩

/-- A parameter is read back from between its quotes. -/
theorem Disposition.addParam_writtenParam (d : Disposition) {first : Char} {key : List Char}
    {value : String} (hfirst : Text.isBlank first = false)
    (hkey : Text.trimBlanks (first :: key) = first :: key) (heq : '=' ∉ first :: key)
    (hvalue : '"' ∉ value.toList) :
    d.addParam (writtenParam (first :: key) value) =
      if String.ofList (first :: key) = "name" then { d with name := some value }
      else if String.ofList (first :: key) = "filename" then { d with filename := some value }
      else d := by
  have hparam : Text.trimBlanks (writtenParam (first :: key) value) =
      (first :: key) ++ '=' :: '"' :: (value.toList ++ ['"']) := by
    have h := (trimBlanks_between (key ++ '=' :: '"' :: value.toList) hfirst
      (show Text.isBlank '"' = false by decide)).2
    simpa [writtenParam] using h
  have hquoted : Text.trimBlanks ('"' :: (value.toList ++ ['"'])) = '"' :: (value.toList ++ ['"']) :=
    (trimBlanks_between value.toList (by decide) (by decide)).1
  have hunquoted : Text.trimEnds (· == '"') ('"' :: (value.toList ++ ['"'])) = value.toList := by
    refine Text.trimEnds_between rfl rfl fun c hc => ?_
    exact beq_false_of_ne fun h => hvalue (h ▸ hc)
  rw [addParam, hparam, Text.cutAt?_append _ heq]
  dsimp only
  rw [hquoted, hunquoted, String.ofList_toList, hkey]

/-- The parameters of an item say what its disposition says, the content type aside. -/
theorem Item.Plain.foldl_params {item : Item} (h : item.Plain) :
    item.params.foldl Disposition.addParam {} =
      { item.disposition with contentType := none } := by
  have hname : ∀ (d : Disposition) {name : String}, IsName name →
      d.addParam (writtenParam nameKey name) = { d with name := some name } := by
    intro d name hname
    exact d.addParam_writtenParam (by decide) (by decide) (by decide) fun hc => (hname.2 _ hc).1 rfl
  have hfilename : ∀ (d : Disposition) {filename : String}, IsName filename →
      d.addParam (writtenParam filenameKey filename) = { d with filename := some filename } := by
    intro d filename hname
    exact d.addParam_writtenParam (by decide) (by decide) (by decide) fun hc => (hname.2 _ hc).1 rfl
  cases h with
  | field text h => simp only [params, disposition, List.foldl_cons, List.foldl_nil, hname _ h]
  | file bytes h h' _ =>
    simp only [params, disposition, List.foldl_cons, List.foldl_nil, hname _ h, hfilename _ h']

theorem getLast?_writtenParam (key : List Char) (value : String) :
    (writtenParam key value).getLast? = some '"' := by
  simp [writtenParam, List.getLast?_cons]

/-- The line of a disposition is read as its parameters, one after the other. -/
theorem Disposition.addLine_disposition (d : Disposition) {params : List (List Char)}
    (hne : params ≠ []) (h : ∀ w ∈ params, ';' ∉ w ∧ w.getLast? = some '"') :
    d.addLine (dispositionKey ++ ':' :: ' ' :: [';'].intercalate (formData :: params)) =
      params.foldl addParam d := by
  have hkey : Text.toAsciiLowercase (String.ofList (Text.trimBlanks dispositionKey)) =
      "content-disposition" := by
    apply String.toList_inj.1
    rw [Text.toAsciiLowercase, String.toList_map, String.toList_ofList]
    rfl
  -- The whole stands between a letter and a quote, so that only the blank in front is trimmed.
  have htrim : Text.trimBlanks (' ' :: [';'].intercalate (formData :: params)) =
      [';'].intercalate (formData :: params) := by
    obtain ⟨front, hfront⟩ : ∃ front, formData = 'f' :: front := ⟨_, rfl⟩
    obtain ⟨params, w, rfl⟩ := (List.eq_nil_or_concat params).resolve_left hne
    obtain ⟨w, rfl⟩ := List.getLast?_eq_some_iff.1 (h w (by simp)).2
    have hends := (trimBlanks_between (front ++ params.flatMap (fun v => ';' :: v) ++ ';' :: w)
      (show Text.isBlank 'f' = false by decide) (show Text.isBlank '"' = false by decide)).2
    rw [Text.intercalate_cons_eq_append_flatMap, hfront]
    simpa using hends
  have hpieces : Text.pieces ';' ([';'].intercalate (formData :: params)) = formData :: params :=
    Text.pieces_intercalate (List.cons_ne_nil _ _)
      (List.forall_mem_cons.2 ⟨by decide, fun w hw => (h w hw).1⟩)
  rw [addLine, Text.cutAt?_append _ (by decide)]
  dsimp only
  rw [hkey, if_pos rfl, htrim, hpieces, List.tail_cons]

theorem Disposition.addLine_contentType (d : Disposition) {type : String}
    (h : Text.trim type = type) :
    d.addLine (typeKey ++ ':' :: ' ' :: type.toList) = { d with contentType := some type } := by
  have hkey : Text.toAsciiLowercase (String.ofList (Text.trimBlanks typeKey)) = "content-type" := by
    apply String.toList_inj.1
    rw [Text.toAsciiLowercase, String.toList_map, String.toList_ofList]
    rfl
  have htrim : Text.trimBlanks (' ' :: type.toList) = type.toList := by
    have htype : Text.trimBlanks type.toList = type.toList := by
      rw [← String.toList_ofList (l := Text.trimBlanks type.toList)]
      exact congrArg String.toList h
    exact (Text.trimEnds_cons (by decide) _).trans htype
  rw [addLine, Text.cutAt?_append _ (by decide)]
  dsimp only
  rw [hkey, htrim, String.ofList_toList, if_neg (by decide), if_pos rfl]

/-- Header lines say what their parameters say, and the content type. -/
theorem Disposition.ofLines_eq {text : String} {params : List (List Char)} {d : Disposition}
    (htext : text.toList = ['\r', '\n'].intercalate (headerLines params d.contentType))
    (hne : params ≠ []) (hparams : ∀ w ∈ params, '\r' ∉ w ∧ ';' ∉ w ∧ w.getLast? = some '"')
    (htypes : ∀ type ∈ d.contentType, IsLine type ∧ Text.trim type = type)
    (hfold : params.foldl addParam {} = { d with contentType := none }) :
    Disposition.ofLines text = d := by
  have hlines : Text.crlfLines text.toList = headerLines params d.contentType := by
    rw [htext]
    exact Text.crlfLines_intercalate (List.cons_ne_nil _ _) fun w hw =>
      (of_mem_headerLines (fun w hw => (hparams w hw).1) (fun type h => (htypes type h).1) hw).2
  rw [ofLines, hlines, headerLines, List.foldl_cons,
    addLine_disposition {} hne fun w hw => (hparams w hw).2, hfold]
  obtain ⟨name, filename, contentType⟩ := d
  cases contentType with
  | none => rfl
  | some type =>
    rw [Option.toList_some, List.map_singleton, List.foldl_cons, List.foldl_nil,
      addLine_contentType _ (htypes type rfl).2]

/-- The headers of an item say what it is. -/
theorem Item.Plain.ofLines_headers {item : Item} (h : item.Plain) :
    Disposition.ofLines item.headers = item.disposition := by
  have htype : item.disposition.contentType = item.contentType? := by cases item <;> rfl
  have hparams : ∀ w ∈ item.params, w.getLast? = some '"' := by
    cases item <;> simp [params, getLast?_writtenParam]
  refine Disposition.ofLines_eq ?_ ?_ ?_ ?_ h.foldl_params
  · rw [item.toList_headers, htype, lines]
  · cases item <;> exact List.cons_ne_nil _ _
  · exact fun w hw => ⟨(h.notMem_params w hw).1, (h.notMem_params w hw).2, hparams w hw⟩
  · rw [htype]
    exact fun type htype => h.isLine_of_contentType htype

/-! ## Searching bytes -/

theorem flatMap_intercalate {α β : Type} (f : α → List β) (sep : List α) (ws : List (List α)) :
    (sep.intercalate ws).flatMap f = (sep.flatMap f).intercalate (ws.map fun w => w.flatMap f) := by
  induction ws with
  | nil => rfl
  | cons w ws ih =>
    cases ws with
    | nil => simp
    | cons w' ws => simpa [List.intercalate_cons_cons] using ih

/-- The byte of a carriage return stands only for a carriage return. -/
theorem notMem_flatMap_utf8EncodeChar {w : List Char} (h : '\r' ∉ w) :
    13 ∉ w.flatMap String.utf8EncodeChar := by
  intro hmem
  obtain ⟨c, hc, hx⟩ := List.mem_flatMap.1 hmem
  have hnat : c.toNat = '\r'.toNat := Bytes.toNat_eq_of_mem_utf8EncodeChar hx (by decide)
  exact h (Char.toNat_inj.1 hnat ▸ hc)

theorem notMem_delimiter {boundary : String} (h : IsLine boundary) :
    13 ∉ delimiter (Bytes.ofText boundary) := by
  have hboundary : 13 ∉ Bytes.ofText boundary := notMem_flatMap_utf8EncodeChar h.notMem
  simp [delimiter, dashes, hboundary]

/-- A line is passed over if no empty line follows. -/
theorem cut?_line_append {w l : Bytes} (hw : 13 ∉ w) (hl : l.head? ≠ some 13) :
    Text.cut? (lineEnd ++ lineEnd) (w ++ lineEnd ++ l) =
      (Text.cut? (lineEnd ++ lineEnd) l).map fun p => (w ++ lineEnd ++ p.1, p.2) := by
  have hafter : Text.after? [13, 10, 13, 10] (13 :: 10 :: l) = none := by
    cases l with
    | nil => rfl
    | cons b l =>
      have hb : 13 ≠ b := fun h => hl (congrArg some h.symm)
      simp [Text.after?, hb]
  have hpass : ∀ v : Bytes, 13 ∉ v → ∀ l, Text.cut? [13, 10, 13, 10] (v ++ l) =
      (Text.cut? [13, 10, 13, 10] l).map fun p => (v ++ p.1, p.2) :=
    fun v hv => Text.cut?_append_of_notMem hv
  have hfeed := hpass [10] (by decide) l
  simp only [List.cons_append, List.nil_append] at hfeed
  simp only [lineEnd, List.append_assoc, List.cons_append, List.nil_append]
  rw [hpass w hw, Text.cut?, if_neg (List.cons_ne_nil _ _), hafter]
  dsimp only
  rw [hfeed, Option.map_map, Option.map_map]
  rfl

/-- Lines that are not empty are cut off at the empty line behind them. -/
theorem cut?_intercalate_lineEnd {lines : List Bytes} (hne : lines ≠ [])
    (h : ∀ w ∈ lines, w ≠ [] ∧ 13 ∉ w) (rest : Bytes) :
    Text.cut? (lineEnd ++ lineEnd) (lineEnd.intercalate lines ++ (lineEnd ++ lineEnd) ++ rest) =
      some (lineEnd.intercalate lines, rest) := by
  induction lines with
  | nil => exact absurd rfl hne
  | cons w lines ih =>
    have hw := h w List.mem_cons_self
    cases lines with
    | nil =>
      have hhere : Text.cut? [13, 10, 13, 10] (13 :: 10 :: 13 :: 10 :: rest) = some ([], rest) := by
        rw [Text.cut?, if_neg (List.cons_ne_nil _ _)]
        rfl
      simp only [lineEnd, List.intercalate_singleton, List.append_assoc, List.cons_append,
        List.nil_append]
      rw [Text.cut?_append_of_notMem hw.2, hhere, Option.map_some, List.append_nil]
    | cons w' lines =>
      have hrest := ih (List.cons_ne_nil _ _) fun v hv => h v (List.mem_cons_of_mem _ hv)
      have hw' := h w' (List.mem_cons_of_mem _ List.mem_cons_self)
      have hhead : (lineEnd.intercalate (w' :: lines) ++ (lineEnd ++ lineEnd) ++ rest).head? ≠
          some 13 := by
        obtain ⟨b, v, rfl⟩ := List.exists_cons_of_ne_nil hw'.1
        have hb : b ≠ 13 := fun heq => hw'.2 (heq ▸ List.mem_cons_self)
        cases lines <;> simpa [List.intercalate_cons_cons] using hb
      have hline := cut?_line_append hw.2 hhead
      rw [hrest] at hline
      simpa only [List.intercalate_cons_cons, List.append_assoc, Option.map_some] using hline

/-- A text of lines that are not empty is cut off at the empty line behind it. -/
theorem cut?_ofText_lines {text : String} {lines : List (List Char)}
    (htext : text.toList = ['\r', '\n'].intercalate lines) (hne : lines ≠ [])
    (h : ∀ w ∈ lines, w ≠ [] ∧ '\r' ∉ w) (rest : Bytes) :
    Text.cut? (lineEnd ++ lineEnd) (Bytes.ofText text ++ (lineEnd ++ lineEnd) ++ rest) =
      some (Bytes.ofText text, rest) := by
  have hbytes : Bytes.ofText text =
      lineEnd.intercalate (lines.map fun w => w.flatMap String.utf8EncodeChar) := by
    rw [Bytes.ofText, htext, flatMap_intercalate]
    rfl
  have hlines : ∀ v ∈ lines.map fun w => w.flatMap String.utf8EncodeChar, v ≠ [] ∧ 13 ∉ v := by
    intro v hv
    obtain ⟨w, hw, rfl⟩ := List.mem_map.1 hv
    obtain ⟨hne, hreturn⟩ := h w hw
    refine ⟨fun hnil => ?_, notMem_flatMap_utf8EncodeChar hreturn⟩
    obtain ⟨c, w, rfl⟩ := List.exists_cons_of_ne_nil hne
    simp [List.flatMap_cons] at hnil
  rw [hbytes]
  exact cut?_intercalate_lineEnd (by simpa using hne) hlines rest

/-! ## Reading parts -/

theorem Item.Plain.cut?_headers {item : Item} (h : item.Plain) (rest : Bytes) :
    Text.cut? (lineEnd ++ lineEnd) (Bytes.ofText item.headers ++ (lineEnd ++ lineEnd) ++ rest) =
      some (Bytes.ofText item.headers, rest) :=
  cut?_ofText_lines item.toList_headers (List.cons_ne_nil _ _) (fun _ hw => h.of_mem_lines hw) rest

/-- A content is cut off at the delimiter behind it if it has none in it. -/
theorem cut?_content {boundary : String} (hboundary : IsLine boundary) {content : Bytes}
    (hcontent : ¬lineEnd ++ delimiter (Bytes.ofText boundary) <:+: content) (rest : Bytes) :
    Text.cut? (lineEnd ++ delimiter (Bytes.ofText boundary))
        (content ++ (lineEnd ++ delimiter (Bytes.ofText boundary)) ++ rest) =
      some (content, rest) := by
  have hreturn : 13 ∉ 10 :: delimiter (Bytes.ofText boundary) := by
    simp [notMem_delimiter hboundary]
  exact Text.cut?_append (List.cons_ne_nil _ _) (Text.eq_nil_of_not_infix hreturn hcontent) rest

/-- What a delimiter is followed by in a written body: the items that are left, or the end. -/
def behindDelimiter (boundary epilogue : Bytes) : List Item → Bytes
  | [] => dashes ++ epilogue
  | item :: items =>
    lineEnd ++ (Bytes.ofText item.headers ++ (lineEnd ++ lineEnd) ++
      (item.content ++ (lineEnd ++ delimiter boundary) ++ behindDelimiter boundary epilogue items))

theorem write_eq (boundary : String) (preamble epilogue : Bytes) (items : List Item) :
    write boundary preamble epilogue items = preamble ++ delimiter (Bytes.ofText boundary) ++
      behindDelimiter (Bytes.ofText boundary) epilogue items := by
  have hitems : items.flatMap (Item.write (Bytes.ofText boundary)) ++
      delimiter (Bytes.ofText boundary) ++ (dashes ++ epilogue) =
        delimiter (Bytes.ofText boundary) ++
          behindDelimiter (Bytes.ofText boundary) epilogue items := by
    induction items with
    | nil => rfl
    | cons item items ih =>
      simp only [List.append_assoc] at ih
      simp only [List.flatMap_cons, Item.write, behindDelimiter, List.append_assoc, ih]
  simp only [write, List.append_assoc] at hitems ⊢
  rw [hitems]

theorem length_le_behindDelimiter (boundary epilogue : Bytes) (items : List Item) :
    items.length ≤ (behindDelimiter boundary epilogue items).length := by
  induction items with
  | nil => exact Nat.zero_le _
  | cons item items ih =>
    simp only [behindDelimiter, lineEnd, List.length_append, List.length_cons]
    omega

theorem Item.Plain.nextPart_behindDelimiter {item : Item} (h : item.Plain) {boundary : String}
    (hboundary : IsLine boundary)
    (hcontent : ¬lineEnd ++ delimiter (Bytes.ofText boundary) <:+: item.content)
    (epilogue : Bytes) (items : List Item) :
    nextPart (Bytes.ofText boundary)
        (behindDelimiter (Bytes.ofText boundary) epilogue (item :: items)) =
      .ok (some (⟨item.headers, item.content⟩,
        behindDelimiter (Bytes.ofText boundary) epilogue items)) := by
  have hopen : ∀ l : Bytes, Text.after? dashes (lineEnd ++ l) = none := fun _ => rfl
  simp only [nextPart, behindDelimiter, hopen, Option.isSome_none, Bool.false_eq_true, if_false,
    Text.after?_append, h.cut?_headers, Utf8.decode_ofText, cut?_content hboundary hcontent]

/-- One form behind another. -/
def joined (f g : Form) : Form := ⟨f.fields ++ g.fields, f.files ++ g.files⟩

theorem joined_assoc (f g h : Form) : joined (joined f g) h = joined f (joined g h) := by
  simp [joined]

theorem formOf_cons (item : Item) (items : List Item) :
    formOf (item :: items) = joined (formOf [item]) (formOf items) := by
  cases item <;> rfl

/-- What is read of an item is added to a form as the item itself. -/
theorem Item.Plain.addTo {item : Item} (h : item.Plain) (f : Form) :
    (⟨item.headers, item.content⟩ : Part).addTo f = .ok (joined f (formOf [item])) := by
  rw [Part.addTo, h.ofLines_headers]
  cases h with
  | field text _ => simp [disposition, content, joined, formOf]
  | file bytes _ _ _ => simp [disposition, content, joined, formOf]

/-- The items that are written behind a delimiter are added to a form. -/
theorem readParts_behindDelimiter {boundary : String} (hboundary : IsLine boundary)
    (epilogue : Bytes) {items : List Item} (hplain : ∀ item ∈ items, item.Plain)
    (hcontent : ∀ item ∈ items, ¬lineEnd ++ delimiter (Bytes.ofText boundary) <:+: item.content)
    {fuel : Nat} (hfuel : items.length < fuel) (f : Form) :
    readParts (Bytes.ofText boundary) fuel
        (behindDelimiter (Bytes.ofText boundary) epilogue items) f =
      .ok (joined f (formOf items)) := by
  induction items generalizing fuel f with
  | nil =>
    obtain ⟨n, rfl⟩ : ∃ n, fuel = n + 1 := ⟨fuel - 1, by omega⟩
    simp [readParts, nextPart, behindDelimiter, joined, formOf]
  | cons item items ih =>
    obtain ⟨n, rfl⟩ : ∃ n, fuel = n + 1 := ⟨fuel - 1, by omega⟩
    rw [List.forall_mem_cons] at hplain hcontent
    have hlength : items.length < n := by simpa using hfuel
    rw [readParts, hplain.1.nextPart_behindDelimiter hboundary hcontent.1]
    dsimp only
    rw [hplain.1.addTo]
    dsimp only
    rw [ih hplain.2 hcontent.2 hlength, joined_assoc, ← formOf_cons]

/-- Reading undoes writing, where the boundary is known. -/
theorem read_eq_formOf {boundary : String} (hboundary : IsLine boundary) {preamble : Bytes}
    (hpreamble : ∀ front behind, preamble ++ delimiter (Bytes.ofText boundary) =
      front ++ delimiter (Bytes.ofText boundary) ++ behind → behind = [])
    (epilogue : Bytes) {items : List Item} (hplain : ∀ item ∈ items, item.Plain)
    (hcontent : ∀ item ∈ items, ¬lineEnd ++ delimiter (Bytes.ofText boundary) <:+: item.content) :
    read boundary (write boundary preamble epilogue items) = .ok (formOf items) := by
  have hlength := length_le_behindDelimiter (Bytes.ofText boundary) epilogue items
  have hne : delimiter (Bytes.ofText boundary) ≠ [] := List.cons_ne_nil _ _
  have hcut := Text.cut?_append hne hpreamble
    (behindDelimiter (Bytes.ofText boundary) epilogue items)
  rw [read, write_eq, hcut]
  exact readParts_behindDelimiter hboundary epilogue hplain hcontent (by omega) {}

end HttpApp.Multipart

namespace HttpApp.Form

open Multipart

/-- Reading undoes writing.  A form is read back from what its items are written as, with the
bytes of each file as they were and `application/octet-stream` for its type where none was
written, if no content has a line end with a delimiter behind it, and if the first delimiter in
the preamble and the delimiter behind it is that one. -/
theorem read_write {type : MediaType} {boundary : String}
    (htype : type.sameEssence .multipart = true) (hparam : type.param? "boundary" = some boundary)
    (hboundary : IsLine boundary) {preamble : Bytes}
    (hpreamble : ∀ front behind, preamble ++ delimiter (Bytes.ofText boundary) =
      front ++ delimiter (Bytes.ofText boundary) ++ behind → behind = [])
    (epilogue : Bytes) {items : List Item} (hplain : ∀ item ∈ items, item.Plain)
    (hcontent : ∀ item ∈ items, ¬lineEnd ++ delimiter (Bytes.ofText boundary) <:+: item.content) :
    Form.read (some type) (Multipart.write boundary preamble epilogue items) = .ok (formOf items) := by
  have hform : type.sameEssence .form = false := by
    have hessence : type.essence.toList.map Char.toLower =
        MediaType.multipart.essence.toList.map Char.toLower := eq_of_beq htype
    rw [MediaType.sameEssence, Text.equalIgnoringAsciiCase, hessence]
    decide
  rw [Form.read]
  simp only [hform, htype, hparam, Bool.false_eq_true, if_false, if_true]
  rw [read_eq_formOf hboundary hpreamble epilogue hplain hcontent]
  rfl

def albumType : MediaType where
  shown := "multipart/form-data; boundary=Xy-"
  type := "multipart"
  fullSubtype := "form-data"
  params := [("boundary", "Xy-")]

/-- A text that begins with a delimiter and ends with the front of one, and files with line ends
only, or with nothing. -/
def album : List Item :=
  [.field "note" "--Xy-\r\n\r\nnot yet\r\n--Xy",
    .file "photo" "a=b: c.png" (some "image/png") [137, 13, 10, 13, 10],
    .file "empty" "" none []]

theorem read_write_album :
    albumType.sameEssence .multipart = true ∧ albumType.param? "boundary" = some "Xy-" ∧
    (∀ item ∈ album, item.Plain ∧
      ¬lineEnd ++ delimiter (Bytes.ofText "Xy-") <:+: item.content) ∧
    Form.read (some albumType) (Multipart.write "Xy-" [45, 45, 88, 13, 10] [13, 10, 45] album) =
      .ok {
        fields := [("note", "--Xy-\r\n\r\nnot yet\r\n--Xy")]
        files := [⟨"photo", "a=b: c.png", "image/png", [137, 13, 10, 13, 10]⟩,
          ⟨"empty", "", "application/octet-stream", []⟩] } := by
  have htype : albumType.sameEssence .multipart = true := by decide
  have hparam : albumType.param? "boundary" = some "Xy-" := by decide
  have hboundary : IsLine "Xy-" := by simp [IsLine]
  have hname : ∀ name ∈ ["note", "photo", "a=b: c.png", "empty", ""], IsName name := by
    simp [IsName, IsLine]
  have hplain : ∀ item ∈ album, item.Plain := by
    simp only [album, List.forall_mem_cons, List.not_mem_nil, false_imp_iff, implies_true, and_true]
    refine ⟨.field _ (hname _ (by decide)),
      .file _ (hname _ (by decide)) (hname _ (by decide)) fun type htype => ?_,
      .file _ (hname _ (by decide)) (hname _ (by decide)) (by simp)⟩
    obtain rfl := Option.some.inj htype
    exact ⟨by simp [IsLine], by decide⟩
  have hcontent : ∀ item ∈ album,
      ¬lineEnd ++ delimiter (Bytes.ofText "Xy-") <:+: item.content := by
    decide +kernel
  have hcut : Text.cut? (delimiter (Bytes.ofText "Xy-"))
      ([45, 45, 88, 13, 10] ++ delimiter (Bytes.ofText "Xy-")) =
        some ([45, 45, 88, 13, 10], []) := by
    decide
  have hpreamble := Text.eq_nil_of_cut? hcut
  exact ⟨htype, hparam, fun item h => ⟨hplain item h, hcontent item h⟩,
    read_write htype hparam hboundary hpreamble _ hplain hcontent⟩

/-- The type of forms whose boundary is a dash. -/
def dashType : MediaType where
  shown := "multipart/form-data; boundary=-"
  type := "multipart"
  fullSubtype := "form-data"
  params := [("boundary", "-")]

/-- It is not enough that the preamble has no delimiter in it: a dash in front of three dashes
makes the first delimiter begin one dash too early, and the body cannot be read. -/
theorem not_read_write_dash :
    ("-" ≠ "" ∧ IsLine "-" ∧ ¬delimiter (Bytes.ofText "-") <:+: [45] ∧
      (Item.field "a" "b").Plain ∧
      ¬lineEnd ++ delimiter (Bytes.ofText "-") <:+: (Item.field "a" "b").content) ∧
    dashType.sameEssence .multipart = true ∧ dashType.param? "boundary" = some "-" ∧
    Form.read (some dashType) (Multipart.write "-" [45] [] [.field "a" "b"]) =
      .error (.malformedBody "multipart/form-data" "expected CRLF after boundary") := by
  have hline : IsLine "-" := by simp [IsLine]
  have hname : IsName "a" := by simp [IsName, IsLine]
  refine ⟨⟨by decide, hline, by decide, .field "b" hname, by decide⟩, by decide, by decide, ?_⟩
  rfl

end HttpApp.Form
