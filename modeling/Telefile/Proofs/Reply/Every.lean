import Telefile.Proofs.Frames
import Telefile.Proofs.Reply.Fitting
import Telefile.Proofs.Room
import Telefile.Proofs.Samples

/-!
# Every request is answered, but for two kinds

A connection that is between two frames answers the next one with one reply and is then between two
frames again. Where a failure always fits, which takes a limit of 13 bytes, two answers alone cannot
be sent, and end the connection: the attributes of an entry whose time lies before the epoch, and a
body within the limit whose length is beyond four bytes.

* `Connection.receive_frame` — a frame's body is replied to, or ends the connection;
* `Session.encode_answer_eq_error_iff` — which answers have no body;
* `BreaksOff`, `Connection.receive?_frame` — which frames break off;
* **`Connection.receive_frame_answered`** — when a frame is answered;
* **`not_every_frame_answered`** — a time before the epoch is not.
-/

namespace Telefile

/-! ## 1. One frame -/

namespace Connection

/-- A connection between two frames. -/
def idle (c : Session) : Connection := ⟨c, .fresh, false⟩

variable {limit : Nat} {c : Session} {s : Service} {body : List UInt8}

/-- A frame that arrives at an idle connection is acted on, and the connection's next byte is the
first of a frame again. -/
theorem receive_frame (h : Frame.Carries limit body) :
    (idle c).receive limit s (Frame.header body.length ++ body) =
      act limit ⟨idle c, s, []⟩ (.frame body) := by
  unfold receive
  rw [show (idle c).incoming = .fresh from rfl, FrameState.feed_frame h]
  rfl

section Act

variable {p : Progress} {reply : List UInt8}

/-- A body whose reply can be sent is replied to. -/
theorem act_frame_of_some (hlive : p.connection.ended = false)
    (h : (replyTo limit p.connection.session p.service body).answer = some reply) :
    act limit p (.frame body) =
      let r := replyTo limit p.connection.session p.service body
      ⟨{ p.connection with session := r.state.1 }, r.state.2, p.replies ++ [reply]⟩ := by
  simp only [act, hlive, Bool.false_eq_true, if_false, h]

/-- A body whose reply cannot be sent ends the connection. -/
theorem act_frame_of_none (hlive : p.connection.ended = false)
    (h : (replyTo limit p.connection.session p.service body).answer = none) :
    act limit p (.frame body) =
      let r := replyTo limit p.connection.session p.service body
      ⟨{ p.connection with session := r.state.1, ended := true }, r.state.2, p.replies⟩ := by
  simp only [act, hlive, Bool.false_eq_true, if_false, h]

theorem act_of_some (h : (replyTo limit c s body).answer = some reply) :
    act limit ⟨idle c, s, []⟩ (.frame body) =
      ⟨idle (replyTo limit c s body).state.1, (replyTo limit c s body).state.2, [reply]⟩ :=
  act_frame_of_some rfl h

theorem act_of_none (h : (replyTo limit c s body).answer = none) :
    act limit ⟨idle c, s, []⟩ (.frame body) =
      ⟨{ idle (replyTo limit c s body).state.1 with ended := true },
        (replyTo limit c s body).state.2, []⟩ :=
  act_frame_of_none rfl h

end Act

end Connection

/-! ## 2. Answers without a body -/

/-- The attributes of an entry whose time lies before the epoch have no body, and nothing else an
answer may hold is without one. -/
theorem Session.encode_answer_eq_error_iff {c : Session} {s : Service} {q : Request} :
    (∃ cause, (c.answer s q).answer.encode = .error cause) ↔
      ∃ path a, q = .stat path ∧ s.stat path = .ok a ∧ a.modified.seconds < 0 := by
  cases q with
  | stat path =>
    have hanswer : (c.answer s (.stat path)).answer =
        .attr (codeOf (fun _ => 0) (s.stat path)) (s.stat path).toOption := rfl
    rw [hanswer]
    cases hs : s.stat path with
    | error e =>
      constructor
      · rintro ⟨cause, h⟩
        cases h
      · rintro ⟨p, a, hq, ha, -⟩
        cases hq
        rw [hs] at ha
        cases ha
    | ok a =>
      simp only [Except.toOption, Response.encode, Option.any_some, decide_eq_true_eq]
      constructor
      · rintro ⟨cause, h⟩
        split at h
        · next ht => exact ⟨path, a, rfl, hs, ht⟩
        · cases h
      · rintro ⟨p, a', hq, ha, ht⟩
        cases hq
        rw [hs] at ha
        cases ha
        exact ⟨.timeBeforeEpoch, if_pos ht⟩
  | openPath path raw =>
    refine ⟨?_, fun ⟨_, _, hq, _⟩ => by cases hq⟩
    rintro ⟨cause, h⟩
    cases hraw : OpenMode.ofRaw? raw with
    | ok mode => rw [answer_openPath_of_ok _ _ _ hraw] at h; cases h
    | error u => rw [answer_openPath_of_error _ _ _ hraw] at h; cases h
  | seek fd offset raw =>
    refine ⟨?_, fun ⟨_, _, hq, _⟩ => by cases hq⟩
    rintro ⟨cause, h⟩
    cases hraw : Whence.ofRaw? raw with
    | ok whence => rw [answer_seek_of_ok _ _ _ _ hraw] at h; cases h
    | error u => rw [answer_seek_of_error _ _ _ _ hraw] at h; cases h
  | _ =>
    refine ⟨?_, fun ⟨_, _, hq, _⟩ => by cases hq⟩
    rintro ⟨cause, h⟩
    cases h

/-! ## 3. What is answered -/

/-- The body asks for the attributes of an entry whose time lies before the epoch. -/
def StatsBeforeEpoch (s : Service) (body : List UInt8) : Prop :=
  ∃ path a, Request.decode body = .ok (.stat path) ∧ s.stat path = .ok a ∧ a.modified.seconds < 0

/-- The answer to the body is within the limit, but its length is more than four bytes can say. -/
def OutgrowsFrame (limit : Nat) (c : Session) (s : Service) (body : List UInt8) : Prop :=
  ∃ q out, Request.decode body = .ok q ∧ (c.answer s q).answer.encode = .ok out ∧
    out.length ≤ limit ∧ Frame.maxLength < out.length

theorem replyTo_eq_none_iff {limit : Nat} (hlimit : 13 ≤ limit) {c : Session} {s : Service}
    {body : List UInt8} :
    (replyTo limit c s body).answer = none ↔
      StatsBeforeEpoch s body ∨ OutgrowsFrame limit c s body := by
  unfold replyTo
  cases hq : Request.decode body with
  | error e =>
    -- the refusal of an undecodable body is three bytes long, and goes into every such frame
    have hfit : fitReply limit undecodable undecodable = some [0, 43] := by
      have hcarries : Frame.Carries limit [0, 43] := by
        refine ⟨?_, by decide⟩
        simp only [List.length_cons, List.length_nil]
        omega
      have hbody : undecodable.encode = .ok [0, 43] := rfl
      rw [fitReply_of_le hbody hcarries.1, sendable_of_carries hcarries]
    simp only [hfit, reduceCtorEq, false_iff, not_or]
    constructor
    · rintro ⟨path, a, h, -⟩
      rw [hq] at h
      cases h
    · rintro ⟨q, out, h, -⟩
      rw [hq] at h
      cases h
  | ok q =>
    have hio : Errno.inputOutput ∈ Errno.known := by simp [Errno.known]
    simp only [fitReply_failure_eq_none_iff hlimit q hio, Session.encode_answer_eq_error_iff]
    constructor
    · rintro (⟨path, a, rfl, ha, ht⟩ | ⟨out, hout, hle, hlt⟩)
      · exact .inl ⟨path, a, hq, ha, ht⟩
      · exact .inr ⟨q, out, hq, hout, hle, hlt⟩
    · rintro (⟨path, a, h, ha, ht⟩ | ⟨q', out, h, hout, hle, hlt⟩)
      · rw [hq] at h
        cases h
        exact .inl ⟨path, a, rfl, ha, ht⟩
      · rw [hq] at h
        cases h
        exact .inr ⟨out, hout, hle, hlt⟩

theorem carries_of_replyTo {limit : Nat} {c : Session} {s : Service} {body reply : List UInt8}
    (h : (replyTo limit c s body).answer = some reply) : Frame.Carries limit reply := by
  unfold replyTo at h
  split at h
  · have hfit : fitReply limit undecodable undecodable = some reply := h
    exact carries_of_fitReply hfit
  · exact carries_of_fitReply h

/-- The body asks for a read that does not get its buffer. -/
def BreaksOff (room : Nat) (s : Service) (body : List UInt8) : Prop :=
  ∃ q, Request.decode body = .ok q ∧ ¬ s.HasRoom room q

theorem Connection.bufferOf_le_iff {room : Nat} {c : Session} {s : Service} {body : List UInt8} :
    bufferOf ⟨idle c, s, []⟩ (.frame body) ≤ min room maxBuffer ↔ ¬ BreaksOff room s body := by
  unfold bufferOf BreaksOff
  dsimp only
  rw [show (idle c).ended = false from rfl]
  cases hq : Request.decode body with
  | error e =>
    refine iff_of_true (Nat.zero_le _) ?_
    rintro ⟨q, h, -⟩
    cases h
  | ok q =>
    constructor
    · rintro hroom ⟨q', h, hnot⟩
      cases h
      exact hnot hroom
    · exact fun hnot => Decidable.byContradiction fun hroom => hnot ⟨q, rfl, hroom⟩

/-- A frame that arrives at an idle connection is taken as with room for everything, or breaks off
before anything is done. -/
theorem Connection.receive?_frame {limit : Nat} (room : Nat) (c : Session) (s : Service)
    {body : List UInt8} (h : Frame.Carries limit body) :
    let frame := Frame.header body.length ++ body
    (BreaksOff room s body → (idle c).receive? room limit s frame = .error ⟨idle c, s, []⟩) ∧
    (¬ BreaksOff room s body →
      (idle c).receive? room limit s frame = .ok ((idle c).receive limit s frame)) := by
  intro frame
  have hact : (idle c).receive? room limit s frame =
      act? room limit ⟨idle c, s, []⟩ (.frame body) := by
    unfold receive?
    rw [show (idle c).incoming = .fresh from rfl, FrameState.feed_frame h]
    exact bind_pure _
  rw [hact, receive_frame h]
  exact ⟨fun hbreaks => if_neg fun hroom => bufferOf_le_iff.mp hroom hbreaks,
    fun hnot => if_pos (bufferOf_le_iff.mpr hnot)⟩

theorem decode_openF : Request.decode [0, 1, 1, 0x66, 1] = .ok .openF := rfl

/-- The body of an open of `f` is replied to with the next number. -/
theorem replyTo_openF (limit : Nat) {c : Session} {s : Service} (hscope : s.scope = .everything)
    (hhost : s.host = Host.fourBytes) (hlast : s.table.last < maxDescriptor) :
    let r := replyTo limit c s [0, 1, 1, 0x66, 1]
    r.answer = fitReply limit (.status (s.table.last + 1)) (Request.openF.failure .inputOutput) ∧
      r.state = ({ c with opened := c.opened ++ [s.table.last + 1] }, s.openedF) := by
  obtain ⟨hanswer, hstate⟩ := Session.answer_openF (c := c) hscope hhost hlast
  unfold replyTo
  rw [decode_openF]
  dsimp only
  rw [hanswer, hstate]
  exact ⟨rfl, rfl⟩

/-- **A frame is answered by one frame**, and the connection waits for the next, unless the body is
of one of the two kinds; then nothing is sent, and the connection has ended. A body that breaks off
is not answered either. -/
theorem Connection.receive_frame_answered {limit : Nat} (hlimit : 13 ≤ limit) (c : Session)
    (s : Service) {body : List UInt8} (h : Frame.Carries limit body) (room : Nat) :
    let frame := Frame.header body.length ++ body
    let p := (idle c).receive limit s frame
    (BreaksOff room s body → (idle c).receive? room limit s frame = .error ⟨idle c, s, []⟩) ∧
    (¬ BreaksOff room s body → (idle c).receive? room limit s frame = .ok p) ∧
    (StatsBeforeEpoch s body ∨ OutgrowsFrame limit c s body →
      p.replies = [] ∧ p.connection.ended = true) ∧
    (¬ (StatsBeforeEpoch s body ∨ OutgrowsFrame limit c s body) →
      ∃ reply, p.replies = [reply] ∧ Frame.Carries limit reply ∧
        p.connection = idle (replyTo limit c s body).state.1) := by
  obtain ⟨hbreaks, htaken⟩ := receive?_frame room c s h
  refine ⟨hbreaks, htaken, ?_⟩
  rw [receive_frame h, ← replyTo_eq_none_iff hlimit]
  refine ⟨fun hnone => ?_, fun hsome => ?_⟩
  · rw [act_of_none hnone]
    exact ⟨rfl, rfl⟩
  · obtain ⟨reply, hreply⟩ := Option.ne_none_iff_exists'.mp hsome
    have hcarries : Frame.Carries limit reply := carries_of_replyTo hreply
    rw [act_of_some hreply]
    exact ⟨reply, rfl, hcarries, rfl⟩

/-- An open of `f` is answered, by memory however small, and the session has a descriptor. -/
theorem Connection.receive_frame_answered_open :
    let s := Hub.serviceAfter .default Host.fourBytes [.join]
    let body : List UInt8 := [0, 1, 1, 0x66, 1]
    let p := (idle ⟨1, []⟩).receive 13 s (Frame.header body.length ++ body)
    13 ≤ 13 ∧ Frame.Carries 13 body ∧
      (idle ⟨1, []⟩).receive? 0 13 s (Frame.header body.length ++ body) = .ok p ∧
      p.connection = idle ⟨1, [1001]⟩ ∧
      ∃ reply, p.replies = [reply] ∧ Frame.Carries 13 reply := by
  intro s body p
  have hlimit : 13 ≤ 13 := by decide
  have hcarries : Frame.Carries 13 body := by decide
  have hlast : s.table.last < maxDescriptor := show (1000 : Int) < 2147483647 by decide
  obtain ⟨hanswer, -⟩ := Session.answer_openF (c := ⟨1, []⟩) rfl rfl hlast
  obtain ⟨-, hstate⟩ := replyTo_openF 13 (c := ⟨1, []⟩) rfl rfl hlast
  obtain ⟨-, htaken, -, hanswered⟩ := receive_frame_answered hlimit ⟨1, []⟩ s hcarries 0
  have hroom : ¬ BreaksOff 0 s body := by
    rintro ⟨q, hq, hnot⟩
    cases decode_openF.symm.trans hq
    exact hnot (Nat.zero_le _)
  have hsent : ¬ (StatsBeforeEpoch s body ∨ OutgrowsFrame 13 ⟨1, []⟩ s body) := by
    rintro (⟨path, a, hq, -⟩ | ⟨q, out, hq, hout, -, hlong⟩)
    · cases decode_openF.symm.trans hq
    · cases decode_openF.symm.trans hq
      rw [hanswer] at hout
      cases hout
      exact absurd hlong (by decide)
  obtain ⟨reply, hreplies, hfits, hconnection⟩ := hanswered hsent
  have hidle : p.connection = idle ⟨1, [1001]⟩ :=
    hconnection.trans (congrArg (fun state => idle state.1) hstate)
  exact ⟨hlimit, hcarries, htaken hroom, hidle, reply, hreplies, hfits⟩

/-! ## 4. An entry from before the epoch -/

/-- A host with a directory `old` whose time is one second before the epoch. -/
def Host.aged : Host :=
  (Host.fresh [Utf8.encode "srv"] ⟨0, 0⟩ none).setEntry [Utf8.encode "srv", Utf8.encode "old"]
    (.directory .newDirectory ⟨-1, 0⟩)

theorem Host.lookup_aged : aged.lookup .entry (Path.ofString "old") =
    .ok ([Utf8.encode "srv", Utf8.encode "old"], .directory .newDirectory ⟨-1, 0⟩) := by
  have hpath : Path.ofString "old" = ⟨[0x6f, 0x6c, 0x64]⟩ := by decide
  rw [hpath]
  unfold lookup arrive
  rw [walk.eq_def]
  rfl

/-- **Not every frame is answered**: asked for the attributes of `old`, a new service sends nothing
and ends the connection. -/
theorem not_every_frame_answered :
    ¬ ∀ (limit : Nat) (settings : Settings) (host : Host) (history : List HubEvent) (c : Session)
      (body : List UInt8), 13 ≤ limit → Frame.Carries limit body →
      let s := Hub.serviceAfter settings host history
      let p := (Connection.idle c).receive limit s (Frame.header body.length ++ body)
      (∃ reply, p.replies = [reply]) ∧ p.connection.ended = false := by
  intro h
  have hcarries : Frame.Carries 13 [6, 1, 3, 0x6f, 0x6c, 0x64] := by decide
  let old : Location := [Utf8.encode "srv", Utf8.encode "old"]
  obtain ⟨⟨reply, hreply⟩, -⟩ := h 13 .default Host.aged [] ⟨1, []⟩ _ (by decide) hcarries
  have hstat : StatsBeforeEpoch (Hub.serviceAfter .default Host.aged [])
      [6, 1, 3, 0x6f, 0x6c, 0x64] := by
    refine ⟨some "old", (Host.aged.attr old (.directory .newDirectory ⟨-1, 0⟩)).capLinks, rfl, ?_,
      (by decide : (-1 : Int) < 0)⟩
    show ((Host.aged.look .entry (Path.ofString "old")).map FileAttr.capLinks).mapError
      (FileError.ofLookup "old") = _
    unfold Host.look
    rw [Host.lookup_aged]
    rfl
  have hnone := (replyTo_eq_none_iff (c := ⟨1, []⟩) (by decide : 13 ≤ 13)).mpr (.inl hstat)
  have hact := Connection.act_of_none hnone
  rw [Connection.receive_frame hcarries] at hreply
  cases hreply.symm.trans (congrArg Connection.Progress.replies hact)

end Telefile
