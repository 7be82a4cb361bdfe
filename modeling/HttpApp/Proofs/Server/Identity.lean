/-
  HttpApp/Proofs/Server/Identity.lean --- identifiers of requests.

  A server looks for the identifier of a request in the first value of its header.  If
  there is none that can be read, a new one is put behind the others, and then the server
  looks once more.  Main statement: what comes back in the response, however the request
  ends (`Server.respond_id`).
-/
import HttpApp.Proofs.App.Givens
import HttpApp.Proofs.App.Sparing
import HttpApp.Proofs.Server.Respond
import HttpApp.Proofs.Session.Staging

set_option autoImplicit false

namespace HttpApp

open Session (Bears)

namespace Server

/-! ## New identifiers -/

theorem visible_digitChar : ∀ k < 16, 32 ≤ (Nat.digitChar k).toNat ∧ (Nat.digitChar k).toNat < 127 := by
  decide

theorem visible_hex (n : Nat) : ∀ c ∈ (hex n).toList, 32 ≤ c.toNat ∧ c.toNat < 127 := by
  unfold hex
  rw [String.toList_ofList]
  induction n using Nat.strongRecOn with
  | ind n ih =>
    intro c hc
    by_cases hn : n < 16
    · rw [Nat.toDigits_of_lt_base hn, List.mem_singleton] at hc
      exact hc ▸ visible_digitChar n hn
    · rw [Nat.toDigits_of_base_le (by omega) (by omega), List.mem_append, List.mem_singleton] at hc
      rcases hc with hc | rfl
      · exact ih (n / 16) (by omega) c hc
      · exact visible_digitChar _ (Nat.mod_lt n (by omega))

/-- A new identifier is made of visible characters. -/
theorem visible_freshId (nanoseconds count : Nat) :
    ∀ c ∈ (freshId nanoseconds count).toList, 32 ≤ c.toNat ∧ c.toNat < 127 := by
  intro c hc
  simp only [freshId, String.toList_append, List.mem_append] at hc
  rcases hc with (hc | hc) | hc
  · exact visible_hex nanoseconds c hc
  · obtain rfl : c = '-' := by simpa using hc
    decide
  · exact visible_hex count c hc

theorem freshId_ne_empty (nanoseconds count : Nat) : freshId nanoseconds count ≠ "" := by
  intro hempty
  have hdash : '-' ∈ (freshId nanoseconds count).toList := by simp [freshId]
  simp [hempty] at hdash

/-! ## Requests with an identifier -/

variable (request : Request) (nanoseconds count : Nat)

theorem identified_of_header {id : String} (h : request.header idHeader = some id) (newId : String) :
    identified request newId = request :=
  if_pos (by rw [h]; rfl)

/-- A new identifier stands behind the values that cannot be read. -/
theorem getAll_identified (h : request.header idHeader = none) :
    (identified request (freshId nanoseconds count)).headers.getAll idHeader =
      request.headers.getAll idHeader ++ [Bytes.ofText (freshId nanoseconds count)] := by
  have hvalue := HeaderValue.ofText?_of_visible (visible_freshId nanoseconds count)
  rw [identified, if_neg (by rw [h]; simp), Request.withHeader, Headers.appendText, name?_idHeader,
    hvalue, Headers.getAll_of_name? name?_idHeader, Headers.getAll_of_name? name?_idHeader,
    Headers.valuesOf_append, if_pos rfl]

/-- The identifier that a server goes on with: that of the request if it can be read, the new one if
the request has none, and no text if it has one that cannot be read. -/
theorem header_identified :
    (identified request (freshId nanoseconds count)).header idHeader =
      match request.headers.getAll idHeader with
      | [] => some (freshId nanoseconds count)
      | v :: _ => v.text? := by
  cases hid : request.header idHeader with
  | some id =>
    rw [identified_of_header request hid]
    cases hvalues : request.headers.getAll idHeader with
    | nil => simp [Request.header, Headers.text?, Headers.get?, hvalues] at hid
    | cons v vs => simp [Request.header, Headers.text?, Headers.get?, hvalues]
  | none =>
    rw [Request.header, Headers.text?, Headers.get?, getAll_identified request _ _ hid]
    cases request.headers.getAll idHeader with
    | nil => exact HeaderValue.text?_ofText (visible_freshId nanoseconds count)
    | cons v vs => rfl

end Server

/-! ## Responses without an identifier -/

theorem Headers.getAll_of_fieldsOf {h : Headers} {name : String} (hname : name? name = some name)
    (hfields : h.fieldsOf name = []) : h.getAll name = [] := by
  rw [getAll_of_name? hname, valuesOf]
  cases hlookup : h.fields.lookup name with
  | none => rfl
  | some values =>
    cases values with
    | nil => rfl
    | cons v vs =>
      -- A value that is found is among the fields of the name.
      obtain ⟨before, after, heq, -⟩ := List.lookup_eq_some_iff.1 hlookup
      have hmem : (name, v) ∈ h.fieldsOf name := by
        simp [fieldsOf, toList, heq]
      simp [hfields] at hmem

theorem Session.answer_of_delivery {s : Session} {r : Response} (h : s.delivery = .answered r) :
    s.channel.answer = some r := by
  unfold delivery at h
  split at h
  · simp at h
  · split at h
    · next r' hanswer => rw [hanswer, Delivery.answered.inj h]
    · split at h <;> simp at h

namespace Server

theorem getAll_bare (status : Status) :
    (Response.bare status).headers.getAll idHeader = [] := by
  change (Response.withHeader {} "content-type" "text/plain; charset=utf-8").headers.getAll
    idHeader = []
  decide +kernel

/-- Whatever becomes of the answer of an application that sets no identifier, there is none. -/
theorem getAll_responseTo {a : App} (ha : a.Only (Op.Spares idHeader)) (inside : Request)
    (limit : Option Nat) (poolStarted : Bool) :
    (responseTo (a.answer (a.session inside .held limit poolStarted)).2.delivery).headers.getAll
      idHeader = [] := by
  have hbegin : Bears idHeader [] (fun _ => True) (a.session inside .held limit poolStarted) :=
    ⟨fun _ => ⟨rfl, trivial⟩, fun x hx => by cases hx⟩
  have hend := ha.bears_answer (by decide) (by decide) hbegin
  cases hdelivery : (a.answer (a.session inside .held limit poolStarted)).2.delivery with
  | answered r =>
    exact Headers.getAll_of_fieldsOf name?_idHeader
      (hend.sent r (Session.answer_of_delivery hdelivery)).1
  | dropped | pending | abandoned => exact getAll_bare _

/-- The response has one identifier, with which the server went on. -/
theorem getAll_respond {a : App} (ha : a.Only (Op.Spares idHeader)) (request : Request)
    (timeout : Nat) (newId : String) (poolStarted : Bool) :
    (respond a request timeout newId poolStarted).1.headers.getAll idHeader =
      [Bytes.ofText (((identified request newId).header idHeader).getD "")] := by
  have hnone := getAll_responseTo ha (identified request newId) (some timeout) poolStarted
  obtain ⟨v, hvalue, -⟩ := exists_value (identified request newId)
  rw [respond_fst, withId, if_neg (by simp [Response.header, Headers.text?, Headers.get?, hnone]),
    Headers.getAll_of_name? name?_idHeader]
  exact Headers.valuesOf_insertText_self name?_idHeader (by rw [hvalue]; rfl) _

/-- Wherever an application comes to, the request is the one that it was given. -/
theorem request_of_point {a : App} {inside : Request} {limit : Option Nat} {poolStarted : Bool}
    {p : Session} (h : a.Point (a.session inside .held limit poolStarted) p) :
    p.context.request = inside := by
  rcases h.given with hgiven | ⟨r, captures, -, hgiven⟩
  · exact congrArg Context.request hgiven
  · exact congrArg Context.request hgiven

/-! ## Identifiers -/

/-- Requests keep their identifiers.  Let an application set no identifier in its responses, and let
a server give it a request, however that ends: with an answer or without one, in time or not, by
a panic or not.  The response has one identifier.

* If the first identifier of the request can be read, it is that one, and wherever the application
  comes to, the request is as it was received.
* If the request has none, it is the new one, which is not empty, and the application sees it.
* If the first identifier of the request cannot be read, it is the empty text, although the new one
  was put behind it. -/
theorem respond_id (a : App) (ha : a.Only (Op.Spares idHeader)) (request : Request)
    (timeout nanoseconds count : Nat) (poolStarted : Bool) :
    let newId := freshId nanoseconds count
    let inside := identified request newId
    let ids := (respond a request timeout newId poolStarted).1.headers.getAll idHeader
    newId ≠ "" ∧
    (∀ p, a.Point (a.session inside .held (some timeout) poolStarted) p →
      p.context.request = inside) ∧
    (∀ id, request.header idHeader = some id → ids = [Bytes.ofText id] ∧ inside = request) ∧
    (request.headers.getAll idHeader = [] →
      ids = [Bytes.ofText newId] ∧ inside.headers.getAll idHeader = [Bytes.ofText newId]) ∧
    (∀ v vs, request.headers.getAll idHeader = v :: vs → v.text? = none →
      ids = [[]] ∧ inside.headers.getAll idHeader = v :: vs ++ [Bytes.ofText newId]) := by
  intro newId inside ids
  have hids : ids = [Bytes.ofText ((inside.header idHeader).getD "")] :=
    getAll_respond ha request timeout newId poolStarted
  refine ⟨freshId_ne_empty _ _, fun p hp => request_of_point hp, fun id hid => ?_,
    fun hnone => ?_, fun v vs hvalues hv => ?_⟩
  · have hinside : inside = request := identified_of_header request hid newId
    refine ⟨?_, hinside⟩
    rw [hids, hinside, hid]
    rfl
  · have hid : request.header idHeader = none := by
      simp [Request.header, Headers.text?, Headers.get?, hnone]
    have hheader : inside.header idHeader = some newId := by
      rw [header_identified, hnone]
    refine ⟨?_, ?_⟩
    · rw [hids, hheader]
      rfl
    · rw [getAll_identified request _ _ hid, hnone, List.nil_append]
  · have hid : request.header idHeader = none := by
      simp [Request.header, Headers.text?, Headers.get?, hvalues, hv]
    have hheader : inside.header idHeader = none := by
      rw [header_identified, hvalues]
      exact hv
    refine ⟨?_, ?_⟩
    · rw [hids, hheader]
      rfl
    · rw [getAll_identified request _ _ hid, hvalues]

/-- The application whose handler sends an answer and panics sets no identifier. -/
theorem only_parting : parting.Only (Op.Spares idHeader) :=
  App.only_plain (fun _ hop => by simp [Op.Spares, hop])
    (.ask (by simp [Op.Spares, Op.header?]) fun _ => .panic)

/-- An identifier comes back although the handler panics, and so does a new one. -/
theorem respond_id_parting :
    parting.Only (Op.Spares idHeader) ∧
      tagged.header idHeader = some "r" ∧
      (respond parting tagged 30000 (freshId 255 1) false).1.headers.getAll idHeader =
        [Bytes.ofText "r"] ∧
      Request.plain.headers.getAll idHeader = [] ∧
      (respond parting .plain 30000 (freshId 255 1) false).1.headers.getAll idHeader =
        [Bytes.ofText "ff-1"] := by
  obtain ⟨-, -, hreadable, -⟩ := respond_id parting only_parting tagged 30000 255 1 false
  obtain ⟨-, -, -, hnone, -⟩ := respond_id parting only_parting .plain 30000 255 1 false
  have htagged : tagged.header idHeader = some "r" := by decide +kernel
  have hplain : Request.plain.headers.getAll idHeader = [] := by decide +kernel
  refine ⟨only_parting, htagged, (hreadable "r" htagged).1, hplain, ?_⟩
  exact (hnone hplain).1.trans (by decide +kernel)

/-- A request with an identifier that is no visible text. -/
def smudged : Request := Request.plain.withHeader idHeader "é"

/-- Not every response has an identifier of use: that of a request whose own one cannot be read is
empty. -/
theorem not_identified_smudged :
    parting.Only (Op.Spares idHeader) ∧
      smudged.headers.getAll idHeader = [[195, 169]] ∧ smudged.header idHeader = none ∧
      (respond parting smudged 30000 (freshId 255 1) false).1.header idHeader = some "" ∧
      (respond parting smudged 30000 (freshId 255 1) false).1.header idHeader ≠
        some (freshId 255 1) := by
  have hempty : (respond parting smudged 30000 (freshId 255 1) false).1.header idHeader =
      some "" := by decide +kernel
  refine ⟨only_parting, by decide +kernel, by decide +kernel, hempty, fun hfresh => ?_⟩
  exact freshId_ne_empty 255 1 (Option.some.inj (hfresh.symm.trans hempty))

end Server

end HttpApp
