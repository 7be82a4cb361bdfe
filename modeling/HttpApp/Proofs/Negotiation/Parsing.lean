/-
  HttpApp/Proofs/Negotiation/Parsing.lean --- which parser reads a body.

  The first line of the content type chooses among the parsers that apply.  Without any line
  the body is a text; with one that no parser is for, or that is no media type, no parser
  reads it.  A line that is no visible text counts as absent, so its body is a text as well,
  whatever bytes the line has.  Main statement: `Context.body_firstOf`.
-/
import HttpApp.Context

set_option autoImplicit false

namespace HttpApp

/-! ## The first parser of a media type -/

/-- The first parser of a media type, parameters and the case of letters aside. -/
def Parser.FirstOf (parsers : List Parser) (type : MediaType) (p : Parser) : Prop :=
  ∃ front back, parsers = front ++ p :: back ∧ p.mediaType.sameEssence type = true ∧
    ∀ q ∈ front, q.mediaType.sameEssence type = false

namespace Negotiation

theorem find?_eq_some_iff {parsers : List Parser} {type : MediaType} {p : Parser} :
    find? parsers type = some p ↔ Parser.FirstOf parsers type p := by
  rw [find?, List.find?_eq_some_iff_append]
  constructor
  · rintro ⟨hp, front, back, hparsers, hfront⟩
    exact ⟨front, back, hparsers, hp, fun q hq => by simpa using hfront q hq⟩
  · rintro ⟨front, back, hparsers, hp, hfront⟩
    exact ⟨hp, front, back, hparsers, fun q hq => by simp [hfront q hq]⟩

theorem find?_eq_none {parsers : List Parser} {type : MediaType}
    (h : ∀ p ∈ parsers, p.mediaType.sameEssence type = false) : find? parsers type = none := by
  rw [find?, List.find?_eq_none]
  exact fun p hp => by simp [h p hp]

end Negotiation

/-! ## The body -/

namespace Context

/-- The body as a value of a shape, by one parser. -/
def bodyBy {α : Type} (c : Context) (p : Parser) (shape : Json.Shape α) : Except Error α := do
  (shape (← p.parse c.request.body)).mapError fun m => .json (.mismatch m)

/-- The body is read by the first of the parsers that has a media type; where none has it, it
comes out as told. -/
structure BodyOf {α : Type} (c : Context) (shape : Json.Shape α) (type : MediaType)
    (otherwise : Except Error α) : Prop where
  first : ∀ p, Parser.FirstOf c.activeParsers type p → c.body shape = c.bodyBy p shape
  none : (∀ p ∈ c.activeParsers, p.mediaType.sameEssence type = false) → c.body shape = otherwise

section

variable {α : Type} {c : Context} {shape : Json.Shape α}

theorem body_eq_bodyBy {p : Parser}
    (h : Negotiation.parserFor c.activeParsers (c.request.header "content-type") = .ok p) :
    c.body shape = c.bodyBy p shape := by
  rw [body, bodyValue, h]
  rfl

theorem body_eq_error {e : Error}
    (h : Negotiation.parserFor c.activeParsers (c.request.header "content-type") = .error e) :
    c.body shape = .error e := by
  rw [body, bodyValue, h]
  rfl

/-- Without a readable content type the body is a text. -/
theorem bodyOf_text (h : c.request.header "content-type" = none) :
    c.BodyOf shape .text (c.bodyBy .text shape) where
  first p hp := body_eq_bodyBy (by
    rw [h, Negotiation.parserFor, Negotiation.find?_eq_some_iff.mpr hp, Option.getD_some])
  none hnone := body_eq_bodyBy (by
    rw [h, Negotiation.parserFor, Negotiation.find?_eq_none hnone, Option.getD_none])

theorem bodyOf_type {raw : String} {type : MediaType}
    (h : c.request.header "content-type" = some raw) (htype : MediaType.read? raw = some type) :
    c.BodyOf shape type (.error (.unsupportedMediaType raw)) := by
  have hread : Negotiation.mediaType raw = .ok type := by rw [Negotiation.mediaType, htype]
  constructor
  · intro p hp
    apply body_eq_bodyBy
    rw [h, Negotiation.parserFor, hread]
    simp only [bind, Except.bind, Negotiation.find?_eq_some_iff.mpr hp]
  · intro hnone
    apply body_eq_error
    rw [h, Negotiation.parserFor, hread]
    simp only [bind, Except.bind, Negotiation.find?_eq_none hnone]

theorem body_of_malformed {raw : String} (h : c.request.header "content-type" = some raw)
    (hraw : MediaType.read? raw = none) :
    c.body shape = .error (.unsupportedMediaType raw) := by
  apply body_eq_error
  rw [h, Negotiation.parserFor, Negotiation.mediaType, hraw]
  rfl

end

/-- The first line of the content type chooses the parser of a body: without a line, and where
its bytes are no visible text, the first parser of texts or else the built-in one; where it is a
media type, the first parser of its essence, and none where there is no such parser; where it is
text but no media type, none. -/
theorem body_firstOf {α : Type} (c : Context) (shape : Json.Shape α) :
    (c.request.headers.getAll "content-type" = [] →
      c.BodyOf shape .text (c.bodyBy .text shape)) ∧
    ∀ line later, c.request.headers.getAll "content-type" = line :: later →
      (line.text? = none → c.BodyOf shape .text (c.bodyBy .text shape)) ∧
      ∀ raw, line.text? = some raw →
        (∀ type, MediaType.read? raw = some type →
          c.BodyOf shape type (.error (.unsupportedMediaType raw))) ∧
        (MediaType.read? raw = none → c.body shape = .error (.unsupportedMediaType raw)) := by
  have hheader : c.request.header "content-type" =
      (c.request.headers.getAll "content-type").head?.bind HeaderValue.text? := rfl
  constructor
  · intro hlines
    exact bodyOf_text (by rw [hheader, hlines, List.head?_nil, Option.bind_none])
  · intro line later hlines
    rw [hlines, List.head?_cons, Option.bind_some] at hheader
    refine ⟨fun hline => bodyOf_text (hheader.trans hline), fun raw hline => ?_⟩
    exact ⟨fun type htype => bodyOf_type (hheader.trans hline) htype,
      fun hraw => body_of_malformed (hheader.trans hline) hraw⟩

/-- A request with a body and lines of its content type. -/
def ofTypeLines (lines : List HeaderValue) (parsers : List Parser) (body : String) : Context where
  request := {
    method := .post, path := "/", headers := ⟨[("content-type", lines)]⟩, body := Bytes.ofText body }
  parsers

theorem getAll_ofTypeLines (lines : List HeaderValue) (parsers : List Parser) (body : String) :
    (ofTypeLines lines parsers body).request.headers.getAll "content-type" = lines :=
  Headers.getAll_singleton (by decide +kernel) lines

/-- Letters in upper case and a second line change nothing. -/
theorem body_firstOf_json :
    MediaType.read? "Application/JSON" = some .json ∧
      (ofTypeLines [Bytes.ofText "Application/JSON", [255]] [.text, .json, .form] "1").body .any =
        .ok (.integer 1) := by
  have hread : MediaType.read? "Application/JSON" = some .json := by decide +kernel
  have hline : HeaderValue.text? (Bytes.ofText "Application/JSON") = some "Application/JSON" := by
    decide +kernel
  have hfirst : Parser.FirstOf [.text, .json, .form] .json .json :=
    ⟨[.text], [.form], rfl, by decide +kernel, List.forall_mem_singleton.mpr (by decide +kernel)⟩
  refine ⟨hread, ?_⟩
  rw [((((body_firstOf _ Json.Shape.any).2 _ _ (getAll_ofTypeLines _ _ _)).2 _ hline).1 _ hread).first
    .json hfirst]
  rfl

/-- A body goes to the parser of texts although its content type, which is no visible text, names
none. -/
theorem not_refused_unreadable :
    ¬∀ (c : Context) (line : HeaderValue), c.request.headers.getAll "content-type" = [line] →
      line.text? = none → ∃ raw, c.body Json.Shape.text = .error (.unsupportedMediaType raw) := by
  intro h
  obtain ⟨raw, hraw⟩ := h (ofTypeLines [[0xC3, 0xA9]] [.text] "x") _ (getAll_ofTypeLines _ _ _)
    (by decide)
  have hheader : (ofTypeLines [[0xC3, 0xA9]] [.text] "x").request.header "content-type" = none := by
    decide +kernel
  have hfirst : Parser.FirstOf [.text] .text .text := ⟨[], [], rfl, by decide +kernel, by simp⟩
  have hbody : (ofTypeLines [[0xC3, 0xA9]] [.text] "x").body Json.Shape.text = .ok "x" :=
    ((bodyOf_text hheader).first .text hfirst).trans rfl
  rw [hbody] at hraw
  cases hraw

end Context

end HttpApp
