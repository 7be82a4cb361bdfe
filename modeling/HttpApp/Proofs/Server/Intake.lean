/-
  HttpApp/Proofs/Server/Intake.lean --- bodies without a declared length.

  The frames of a body are collected one after the other, and its length is looked at when
  they have ended.  So there are four cases: a body that has neither ended nor failed, one
  that has ended within the limit, one that has ended above it, and one that has failed.
  Main statement: each of them has its own result (`RequestHead.receive_exact`).  A limit
  does not cut a body off (`RequestHead.not_cutOff_upload`).
-/
import HttpApp.Server.Connection

set_option autoImplicit false

namespace HttpApp

/-! ## Arrivals -/

/-- The arrivals of a body are frames, behind which it has ended or failed, or nothing has come. -/
theorem Arrival.exists_frames (arrivals : List Arrival) :
    ∃ frames : List Bytes, arrivals = frames.map .frame ∨
      (∃ late, arrivals = frames.map .frame ++ .ended :: late) ∨
      ∃ reason late, arrivals = frames.map .frame ++ .failed reason :: late := by
  induction arrivals with
  | nil => exact ⟨[], .inl rfl⟩
  | cons arrival arrivals ih =>
    cases arrival with
    | ended => exact ⟨[], .inr (.inl ⟨arrivals, rfl⟩)⟩
    | failed reason => exact ⟨[], .inr (.inr ⟨reason, arrivals, rfl⟩)⟩
    | frame bytes =>
      obtain ⟨frames, rfl | ⟨late, rfl⟩ | ⟨reason, late, rfl⟩⟩ := ih
      · exact ⟨bytes :: frames, .inl rfl⟩
      · exact ⟨bytes :: frames, .inr (.inl ⟨late, rfl⟩)⟩
      · exact ⟨bytes :: frames, .inr (.inr ⟨reason, late, rfl⟩)⟩

namespace Intake

variable (limit : Nat)

/-- Frames are collected, however many bytes they have. -/
theorem foldl_next_frames (received : Bytes) (frames : List Bytes) :
    (frames.map Arrival.frame).foldl (next limit) (.receiving received) =
      .receiving (received ++ frames.flatten) := by
  induction frames generalizing received with
  | nil => rw [List.flatten_nil, List.append_nil, List.map_nil, List.foldl_nil]
  | cons bytes frames ih =>
    rw [List.map_cons, List.foldl_cons, next, ih, List.flatten_cons, List.append_assoc]

/-- What comes behind the end or the failure of a body changes nothing. -/
theorem foldl_next_of_settled {i : Intake} (h : ∀ received, i ≠ .receiving received)
    (late : List Arrival) : late.foldl (next limit) i = i := by
  induction late with
  | nil => rfl
  | cons arrival late ih =>
    cases i with
    | receiving received => exact absurd rfl (h received)
    | complete body => exact ih
    | refused e => exact ih

theorem after_frames (frames : List Bytes) :
    after limit (frames.map .frame) = .receiving frames.flatten :=
  foldl_next_frames limit [] frames

/-- A body that has ended or failed is settled by that. -/
theorem after_settled (frames : List Bytes) {last : Arrival} (late : List Arrival)
    (h : ∀ received, next limit (.receiving frames.flatten) last ≠ .receiving received) :
    after limit (frames.map .frame ++ last :: late) =
      next limit (.receiving frames.flatten) last := by
  have hframes : (frames.map Arrival.frame).foldl (next limit) (.receiving []) = _ :=
    after_frames limit frames
  rw [after, List.foldl_append, List.foldl_cons, hframes, foldl_next_of_settled limit h]

theorem after_ended (frames : List Bytes) (late : List Arrival) :
    after limit (frames.map .frame ++ .ended :: late) =
      if limit < frames.flatten.length then
        .refused (.payloadTooLarge limit frames.flatten.length)
      else .complete frames.flatten := by
  refine after_settled limit frames late fun received => ?_
  rw [next]
  split <;> simp

theorem after_failed (frames : List Bytes) (reason : String) (late : List Arrival) :
    after limit (frames.map .frame ++ .failed reason :: late) = .refused (.http reason) :=
  after_settled limit frames late fun received => by simp [next]

end Intake

/-! ## Requests -/

namespace RequestHead

section
variable {h : RequestHead} {method : Method} (hmethod : Method.read h.method = .ok method)
  (hlength : h.declaredLength? = none) (limit : Nat) (remote : Option Address)
include hmethod hlength

/-- A head without a declared length is accepted by its method alone. -/
theorem acceptedMethod_of_undeclared : h.acceptedMethod limit = .ok method := by
  rw [acceptedMethod, hmethod, hlength]
  rfl

theorem receive_frames (frames : List Bytes) :
    h.receive limit remote (frames.map .frame) = none := by
  rw [receive, settle, acceptedMethod_of_undeclared hmethod hlength, Intake.after_frames]

theorem receive_ended (frames : List Bytes) (late : List Arrival) :
    h.receive limit remote (frames.map .frame ++ .ended :: late) =
      some (if limit < frames.flatten.length then
        .error (.payloadTooLarge limit frames.flatten.length)
      else .ok (h.request method frames.flatten remote)) := by
  rw [receive, settle, acceptedMethod_of_undeclared hmethod hlength, Intake.after_ended]
  by_cases hlimit : limit < frames.flatten.length
  · rw [if_pos hlimit, if_pos hlimit]
  · rw [if_neg hlimit, if_neg hlimit]

theorem receive_failed (frames : List Bytes) (reason : String) (late : List Arrival) :
    h.receive limit remote (frames.map .frame ++ .failed reason :: late) =
      some (.error (.http reason)) := by
  rw [receive, settle, acceptedMethod_of_undeclared hmethod hlength, Intake.after_failed]

end

/-- What is made of a body without a declared length.  However many bytes its frames have, all of
them are collected.  Nothing is decided as long as it has neither ended nor failed.  It is handed
over exactly if it has ended and its frames have at most as many bytes as the limit allows.  It is
refused exactly if it has ended and its frames have more bytes, which is answered by 413, or if it
has failed, which is answered by 400, however many bytes have come before. -/
theorem receive_exact {h : RequestHead} {method : Method}
    (hmethod : Method.read h.method = .ok method) (hlength : h.declaredLength? = none)
    (limit : Nat) (remote : Option Address) :
    (∀ frames : List Bytes,
      Intake.after limit (frames.map .frame) = .receiving frames.flatten) ∧
    (∀ arrivals, h.receive limit remote arrivals = none ↔
      ∃ frames : List Bytes, arrivals = frames.map .frame) ∧
    (∀ arrivals request, h.receive limit remote arrivals = some (.ok request) ↔
      ∃ (frames : List Bytes) (late : List Arrival),
        arrivals = frames.map .frame ++ .ended :: late ∧ frames.flatten.length ≤ limit ∧
        request = h.request method frames.flatten remote) ∧
    (∀ arrivals e, h.receive limit remote arrivals = some (.error e) ↔
      (∃ (frames : List Bytes) (late : List Arrival),
        arrivals = frames.map .frame ++ .ended :: late ∧ limit < frames.flatten.length ∧
        e = .payloadTooLarge limit frames.flatten.length) ∨
      ∃ (frames : List Bytes) (reason : String) (late : List Arrival),
        arrivals = frames.map .frame ++ .failed reason :: late ∧ e = .http reason) ∧
    (∀ received, Server.refusalStatus (.payloadTooLarge limit received) = .payloadTooLarge) ∧
    ∀ reason, Server.refusalStatus (.http reason) = .badRequest := by
  have hframes := receive_frames hmethod hlength limit remote
  have hended := receive_ended hmethod hlength limit remote
  have hfailed := receive_failed hmethod hlength limit remote
  refine ⟨Intake.after_frames limit, fun arrivals => ⟨fun hnone => ?_, ?_⟩,
    fun arrivals request => ⟨fun hok => ?_, ?_⟩, fun arrivals e => ⟨fun herror => ?_, ?_⟩,
    fun received => rfl, fun reason => rfl⟩
  · obtain ⟨frames, rfl | ⟨late, rfl⟩ | ⟨reason, late, rfl⟩⟩ := Arrival.exists_frames arrivals
    · exact ⟨frames, rfl⟩
    · simp [hended] at hnone
    · simp [hfailed] at hnone
  · rintro ⟨frames, rfl⟩
    exact hframes frames
  · obtain ⟨frames, rfl | ⟨late, rfl⟩ | ⟨reason, late, rfl⟩⟩ := Arrival.exists_frames arrivals
    · simp [hframes] at hok
    · rw [hended] at hok
      split at hok
      · cases hok
      · next hle =>
        obtain rfl := Except.ok.inj (Option.some.inj hok)
        exact ⟨frames, late, rfl, Nat.le_of_not_lt hle, rfl⟩
    · simp [hfailed] at hok
  · rintro ⟨frames, late, rfl, hle, rfl⟩
    rw [hended, if_neg (Nat.not_lt.2 hle)]
  · obtain ⟨frames, rfl | ⟨late, rfl⟩ | ⟨reason, late, rfl⟩⟩ := Arrival.exists_frames arrivals
    · simp [hframes] at herror
    · rw [hended] at herror
      split at herror
      · next hlt =>
        obtain rfl := Except.error.inj (Option.some.inj herror)
        exact .inl ⟨frames, late, rfl, hlt, rfl⟩
      · cases herror
    · rw [hfailed] at herror
      obtain rfl := Except.error.inj (Option.some.inj herror)
      exact .inr ⟨frames, reason, late, rfl, rfl⟩
  · rintro (⟨frames, late, rfl, hlt, rfl⟩ | ⟨frames, reason, late, rfl, rfl⟩)
    · rw [hended, if_pos hlt]
    · exact hfailed frames reason late

/-- A head without a declared length. -/
def upload : RequestHead := { method := "POST", target := "/" }

/-- A body of exactly the limit is handed over, and one of a byte more is refused. -/
theorem receive_exact_upload :
    Method.read upload.method = .ok .post ∧ upload.declaredLength? = none ∧
    upload.receive 4 none [.frame [1, 2], .frame [3, 4], .ended] =
      some (.ok (upload.request .post [1, 2, 3, 4] none)) ∧
    upload.receive 4 none [.frame [1, 2], .frame [3, 4, 5], .ended] =
      some (.error (.payloadTooLarge 4 5)) := by
  have hmethod : Method.read upload.method = .ok .post := by rfl
  have hlength : upload.declaredLength? = none := by decide +kernel
  obtain ⟨-, -, hhanded, hrefused, -⟩ := receive_exact hmethod hlength 4 none
  exact ⟨hmethod, hlength, (hhanded _ _).2 ⟨[[1, 2], [3, 4]], [], rfl, by decide, rfl⟩,
    (hrefused _ _).2 (.inl ⟨[[1, 2], [3, 4, 5]], [], rfl, by decide, rfl⟩)⟩

/-- A limit does not cut a body off.  When five bytes have come where four are allowed, nothing is
decided, and the next frame is collected, too, which makes more bytes than the limit and a frame;
and if the transfer fails then, the answer is another one than 413. -/
theorem not_cutOff_upload :
    Method.read upload.method = .ok .post ∧ upload.declaredLength? = none ∧
    upload.receive 4 none [.frame [1, 2, 3, 4, 5]] = none ∧
    Intake.after 4 [.frame [1, 2, 3, 4, 5], .frame [6, 7, 8, 9, 10]] =
      .receiving [1, 2, 3, 4, 5, 6, 7, 8, 9, 10] ∧
    upload.receive 4 none [.frame [1, 2, 3, 4, 5], .failed "reset"] =
      some (.error (.http "reset")) ∧
    Server.refusalStatus (.http "reset") ≠ .payloadTooLarge := by
  have hmethod : Method.read upload.method = .ok .post := by rfl
  have hlength : upload.declaredLength? = none := by decide +kernel
  exact ⟨hmethod, hlength, receive_frames hmethod hlength 4 none [[1, 2, 3, 4, 5]], rfl,
    receive_failed hmethod hlength 4 none [[1, 2, 3, 4, 5]] "reset" [], by decide⟩

end RequestHead

end HttpApp
