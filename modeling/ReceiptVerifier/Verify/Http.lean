import ReceiptVerifier.Go.Host
import ReceiptVerifier.Server.Http
import ReceiptVerifier.Verify.Clock

/-!
# Cut inputs

An input over every size cap is answered the same however much of it is there, so a host may cut it
to one byte over the largest cap. The server's read of a body, which may stop before the body ends,
hands on exactly such a cut.
-/

namespace ReceiptVerifier

open Openssl

variable {ssl : OpenSsl} {jiff : Jiff} {base64 : Base64} {serde : SerdeJson}
  {roots : List TrustAnchor}

/-! ## Inputs over every cap -/

theorem maxReceiptBytes_lt_maxInputBytes : maxReceiptBytes < maxInputBytes := by decide

theorem maxRequestBytes_lt_maxInputBytes : maxRequestBytes < maxInputBytes := by decide

theorem maxJwsBytes_lt_maxInputBytes : maxJwsBytes < maxInputBytes := by decide

/-- Two inputs over every cap get the same answer. -/
theorem answer_over {input input' : Bytes} (long : maxInputBytes ≤ input.length)
    (long' : maxInputBytes ≤ input'.length) (op : Op) :
    op.answer base64 ssl jiff serde roots input = op.answer base64 ssl jiff serde roots input' := by
  cases op with
  | verifyReceipt nowMs =>
    have large := Nat.lt_of_lt_of_le maxReceiptBytes_lt_maxInputBytes long
    have large' := Nat.lt_of_lt_of_le maxReceiptBytes_lt_maxInputBytes long'
    have same : verifyReceipt ssl jiff base64 input roots =
        verifyReceipt ssl jiff base64 input' roots := by
      funext clock
      rw [verifyReceipt, verifyReceipt, if_pos large, if_pos large']
    simp only [Op.answer, Verifier.verifyReceiptBytesAt, Verifier.receipt, same]
  | verifySignedData nowMs =>
    have large := Nat.lt_of_lt_of_le maxJwsBytes_lt_maxInputBytes long
    have large' := Nat.lt_of_lt_of_le maxJwsBytes_lt_maxInputBytes long'
    have same : verifyJws ssl base64 serde input roots =
        verifyJws ssl base64 serde input' roots := by
      funext clock
      rw [verifyJws, verifyJws, readOuter, readOuter, if_pos large, if_pos large']
    simp only [Op.answer, Verifier.verifySignedDataBytesAt, Verifier.signedData, same]
  | endpoint environment nowMs =>
    have large := Nat.lt_of_lt_of_le maxRequestBytes_lt_maxInputBytes long
    have large' := Nat.lt_of_lt_of_le maxRequestBytes_lt_maxInputBytes long'
    have same : receiptData serde input = receiptData serde input' := by
      rw [receiptData, receiptData, if_pos large, if_pos large']
    simp only [Op.answer, Verifier.verifyReceiptEndpointBytesAt, Verifier.endpoint, respond, same]

/-- Cutting an input to the stated length or more changes no answer. -/
theorem answer_take {input : Bytes} {n : Nat} (enough : maxInputBytes ≤ n) (op : Op) :
    op.answer base64 ssl jiff serde roots (input.take n) =
      op.answer base64 ssl jiff serde roots input := by
  by_cases within : input.length ≤ n
  · rw [List.take_of_length_le within]
  · have cut : (input.take n).length = n := List.length_take_of_le (by omega)
    exact answer_over (by omega) (by omega) op

theorem answer_cut (input : Bytes) (op : Op) :
    op.answer base64 ssl jiff serde roots (input.take (Go.cut maxInputBytes input.length)) =
      op.answer base64 ssl jiff serde roots input := by
  unfold Go.cut
  split
  · exact answer_take (Nat.le_refl _) op
  · rw [List.take_length]

/-! ## The server's read of a body -/

namespace Server

/-- The bytes of a body whose frames all arrive. -/
def bodyBytes (frames : List Frame) : Bytes := frames.flatMap Frame.bytes

/-- What a read of a body may hand on: its first `keep` bytes, whether it has so many, and the
connection closed only then. -/
structure Hands (keep : Nat) (body : Bytes) (capped : Capped) : Prop where
  bytes : capped.bytes = body.take keep
  overCap : capped.overCap = decide (keep ≤ body.length)
  close : capped.close = true → capped.overCap = true

/-- The bytes kept and counted after some of a body was read. -/
structure ReadSoFar (keep : Nat) (consumed buf : Bytes) (total : Nat) : Prop where
  buf_eq : buf = consumed.take keep
  total_eq : total = min consumed.length usizeMax

variable {keep : Nat} {consumed buf : Bytes} {total : Nat}

theorem ReadSoFar.keep_le_total (h : ReadSoFar keep consumed buf total) (limit : keep ≤ maxDrain) :
    keep ≤ total ↔ keep ≤ consumed.length := by
  have small : maxDrain ≤ usizeMax := by decide
  rw [h.total_eq]
  omega

/-- One data frame. -/
theorem ReadSoFar.data (h : ReadSoFar keep consumed buf total) (data : Bytes) :
    buf.length ≤ keep ∧ ReadSoFar keep (consumed ++ data)
      (buf ++ data.take (min data.length (keep - buf.length)))
      (min (total + data.length) usizeMax) := by
  have length : buf.length = min keep consumed.length := by rw [h.buf_eq, List.length_take]
  refine ⟨by omega, ?_, ?_⟩
  · rw [List.take_append, ← h.buf_eq, List.append_cancel_left_eq, List.take_eq_take_iff]
    omega
  · rw [h.total_eq, List.length_append]
    omega

theorem ReadSoFar.hands (h : ReadSoFar keep consumed buf total) (limit : keep ≤ maxDrain)
    {rest : Bytes} {close : Bool} (enough : close = true → keep ≤ total)
    (whole : close = false → rest = []) :
    Hands keep (consumed ++ rest) { bytes := buf, overCap := keep ≤ total, close := close } := by
  have counted := h.keep_le_total limit
  cases close with
  | false =>
    rw [whole rfl, List.append_nil]
    exact ⟨h.buf_eq, by simp [counted], by simp⟩
  | true =>
    have full : keep ≤ consumed.length := counted.mp (enough rfl)
    refine ⟨?_, ?_, fun _ => by simp [enough rfl]⟩
    · rw [List.take_append_of_le_length full]
      exact h.buf_eq
    · rw [decide_eq_true (enough rfl), List.length_append, eq_comm, decide_eq_true_eq]
      omega

/-- The loop hands on a cut of the body, wherever it stops. -/
theorem readFrames_spec (announcedBig : Bool) (limit : keep ≤ maxDrain) : ∀ (frames : List Frame)
    (consumed buf : Bytes) (total : Nat), ReadSoFar keep consumed buf total →
    ∃ capped, readFrames keep announcedBig (frames.map .ok) buf total = .ok capped ∧
      Hands keep (consumed ++ bodyBytes frames) capped := by
  intro frames
  induction frames with
  | nil =>
    intro consumed buf total h
    exact ⟨_, rfl, h.hands limit (by simp) (fun _ => rfl)⟩
  | cons frame frames ih =>
    intro consumed buf total h
    cases frame with
    | trailers => exact ih consumed buf total h
    | data data =>
      obtain ⟨room, read⟩ := h.data data
      rw [List.map_cons, readFrames, if_neg (Nat.not_lt.mpr room)]
      have body : consumed ++ bodyBytes (.data data :: frames) =
          (consumed ++ data) ++ bodyBytes frames := by
        rw [List.append_assoc]
        rfl
      rw [body]
      dsimp only
      split
      next stops =>
        refine ⟨_, rfl, read.hands limit (fun _ => ?_) (by simp)⟩
        simp only [Bool.or_eq_true, Bool.and_eq_true, decide_eq_true_eq] at stops
        omega
      · exact ih _ _ _ read

theorem readCapped_spec (contentLength : Option Bytes) (frames : List Frame)
    (limit : keep ≤ maxDrain) :
    ∃ capped, readCapped contentLength (frames.map .ok) keep = .ok capped ∧
      Hands keep (bodyBytes frames) capped := by
  have start : ReadSoFar keep [] [] 0 := ⟨by simp, by simp⟩
  exact readFrames_spec ((announced contentLength).any (maxDrain < ·)) limit frames [] [] 0 start

/-- No read of a body runs `keep - buf.len()` below zero, also when a frame fails. -/
theorem readFrames_ne_underflow (announcedBig : Bool) : ∀ (frames : List (Except String Frame))
    (consumed buf : Bytes) (total : Nat), ReadSoFar keep consumed buf total →
    readFrames keep announcedBig frames buf total ≠ .error .underflow := by
  intro frames
  induction frames with
  | nil =>
    intro consumed buf total _
    simp [readFrames]
  | cons frame frames ih =>
    intro consumed buf total h
    cases frame with
    | error err => simp [readFrames]
    | ok frame =>
      cases frame with
      | trailers => exact ih consumed buf total h
      | data data =>
        obtain ⟨room, read⟩ := h.data data
        rw [readFrames, if_neg (Nat.not_lt.mpr room)]
        dsimp only
        split
        · simp
        · exact ih _ _ _ read

theorem readCapped_ne_underflow (contentLength : Option Bytes)
    (body : List (Except String Frame)) (keep : Nat) :
    readCapped contentLength body keep ≠ .error .underflow :=
  readFrames_ne_underflow _ body [] [] 0 ⟨by simp, by simp⟩

/-! ## The length the module states -/

/-- A length the server takes is one it reads to. -/
theorem maxInputBytes_le {json : SerdeJson} {answer : String}
    (h : maxInputBytes json answer = .ok (some keep)) : 0 < keep ∧ keep ≤ maxDrain := by
  unfold maxInputBytes at h
  split at h
  · split at h
    · split at h
      · cases h
      next max stated =>
        split at h
        · cases h
        · split at h
          · cases h
          next within =>
            obtain rfl : max = keep := Option.some.inj (Except.ok.inj h)
            obtain ⟨-, positive⟩ := Option.filter_eq_some_iff.mp stated
            exact ⟨by simpa using positive, Nat.not_lt.mp within⟩
    · cases h
  · cases h

/-- The members of the module's accepting answer, as `serde_json` orders them. -/
def initMembers : JsonMap :=
  [("max_input_bytes", .number ReceiptVerifier.maxInputBytes), ("ok", .bool true)]

theorem maxInputBytes_initResult {json : SerdeJson}
    (reads : json.value (initResult (.ok ())) = .ok (.object initMembers)) :
    maxInputBytes json (initResult (.ok ())) = .ok (some ReceiptVerifier.maxInputBytes) := by
  unfold maxInputBytes
  rw [reads]
  decide

/-! ## A request -/

/-- A response that is the module's answer is one to what the read of the body handed on. -/
theorem run_answer {app : App} {nowHeader contentLength : Option Bytes}
    {body : List (Except String Frame)} {op : Int → Op} {status : Nat} {json : String}
    {close : Bool}
    (h : run app nowHeader contentLength body op = .ok (.answer status json close)) :
    ∃ now capped, nowMs app nowHeader = .ok now ∧
      readCapped contentLength body app.keep = .ok capped ∧
      app.invoke (op now) capped.bytes = .ok json ∧ status = (if capped.overCap then 413 else 200) ∧
      close = capped.close := by
  unfold run at h
  split at h
  · cases h
  next now given =>
    split at h
    · cases h
    · split at h
      · cases h
      · split at h
        · cases h
        · cases h
        next capped read =>
          split at h
          · cases h
          · unfold respondTo at h
            split at h
            · cases h
            · split at h
              next answered =>
                cases h
                exact ⟨now, capped, given, read, answered, rfl, rfl⟩
              all_goals cases h

end Server

/-- **Cutting an over-long input changes no answer.** An input over the stated length cut to that
length or more, by the Go host among others, is answered as the whole. The server's read of a body
hands on its first `keep` bytes and says whether there were so many, whatever the body's frames and
its announced length, never runs below zero, and closes the connection only over the cap; so with
the length the module's `init` states, what the server answers is the module's answer for the whole
body. -/
theorem cut_changes_nothing (ssl : OpenSsl) (jiff : Jiff) (base64 : Base64) (serde : SerdeJson)
    (roots : List TrustAnchor)
    (reads : serde.value (initResult (.ok ())) = .ok (.object Server.initMembers)) :
    (∀ (op : Op) (input : Bytes) (n : Nat), maxInputBytes < input.length → maxInputBytes ≤ n →
      op.answer base64 ssl jiff serde roots (input.take n) =
        op.answer base64 ssl jiff serde roots input) ∧
    (∀ (op : Op) (input : Bytes),
      op.answer base64 ssl jiff serde roots (input.take (Go.cut maxInputBytes input.length)) =
        op.answer base64 ssl jiff serde roots input) ∧
    (∀ contentLength frames keep, 0 < keep → keep ≤ Server.maxDrain →
      ∃ capped, Server.readCapped contentLength (frames.map .ok) keep = .ok capped ∧
        Server.Hands keep (Server.bodyBytes frames) capped) ∧
    (∀ contentLength body keep,
      Server.readCapped contentLength body keep ≠ .error .underflow) ∧
    ∀ (app : Server.App),
      Server.maxInputBytes serde (initResult (.ok ())) = .ok (some app.keep) →
      (∀ op input json, app.invoke op input = .ok json →
        json = op.answer base64 ssl jiff serde roots input) →
      ∀ nowHeader contentLength frames op status json close,
        Server.run app nowHeader contentLength (frames.map .ok) op =
          .ok (.answer status json close) →
        ∃ now, Server.nowMs app nowHeader = .ok now ∧
          json = (op now).answer base64 ssl jiff serde roots (Server.bodyBytes frames) ∧
          status = if maxInputBytes ≤ (Server.bodyBytes frames).length then 413 else 200 := by
  refine ⟨fun op input n _ enough => answer_take enough op, fun op input => answer_cut input op,
    fun contentLength frames keep _ limit => Server.readCapped_spec contentLength frames limit,
    Server.readCapped_ne_underflow, ?_⟩
  intro app stated module nowHeader contentLength frames op status json close response
  have keep : maxInputBytes = app.keep := by
    have own := Server.maxInputBytes_initResult reads
    rw [stated] at own
    exact (Option.some.inj (Except.ok.inj own)).symm
  obtain ⟨now, capped, given, read, answered, status_eq, -⟩ := Server.run_answer response
  obtain ⟨own, read', hands⟩ := Server.readCapped_spec contentLength frames
    (Server.maxInputBytes_le stated).2
  obtain rfl : own = capped := Except.ok.inj (read'.symm.trans read)
  refine ⟨now, given, ?_, ?_⟩
  · rw [module _ _ _ answered, hands.bytes, ← keep]
    exact answer_take (Nat.le_refl _) (op now)
  · rw [status_eq, hands.overCap, keep]
    simp

/-! ## A body in three frames -/

namespace Sample

/-- A reader of the module's accepting answer and of nothing else. -/
def initJson : SerdeJson where
  wholeObject _ := none
  leadingObject _ := none
  value text :=
    if text = initResult (.ok ()) then .ok (.object Server.initMembers)
    else .error "expected value at line 1 column 1"
  string _ := none
  strings _ := none
  double _ := none

/-- A server whose workers run the module over the sample root. -/
def app : Server.App where
  keep := maxInputBytes
  clockMs := 0
  admitsUploads := true
  bodyTimeoutMs := 30000
  bodyInTime := true
  admitsCalls := true
  invoke op input := .ok (op.answer receiptBase64 datedSsl .gregorian initJson anchors input)
  workerLost := none

/-- `MAA=` in two data frames, with trailers. -/
def frames : List Server.Frame := [.data (utf8 "MA"), .data (utf8 "A="), .trailers]

end Sample

theorem cut_changes_nothing_frames : ∃ json,
    Server.run Sample.app none (some (utf8 "20000000")) (Sample.frames.map .ok) .verifyReceipt =
      .ok (.answer 200 json false) ∧
    json = (Op.verifyReceipt 0).answer Sample.receiptBase64 Sample.datedSsl .gregorian
      Sample.initJson Sample.anchors (utf8 "MAA=") := by
  have reads : Sample.initJson.value (initResult (.ok ())) = .ok (.object Server.initMembers) := by
    simp only [Sample.initJson, ↓reduceIte]
  have response : Server.run Sample.app none (some (utf8 "20000000")) (Sample.frames.map .ok)
      .verifyReceipt = .ok (.answer 200 ((Op.verifyReceipt 0).answer Sample.receiptBase64
        Sample.datedSsl .gregorian Sample.initJson Sample.anchors (utf8 "MAA=")) false) := rfl
  refine ⟨_, response, ?_⟩
  obtain ⟨now, given, answer, -⟩ := (cut_changes_nothing Sample.datedSsl .gregorian
    Sample.receiptBase64 Sample.initJson Sample.anchors reads).2.2.2.2 Sample.app
    (Server.maxInputBytes_initResult reads)
      (fun _ _ _ answered => (Except.ok.inj answered).symm) _ _
    _ _ _ _ _ response
  obtain rfl : 0 = now := Except.ok.inj given
  exact answer

end ReceiptVerifier
