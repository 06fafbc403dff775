/-!
# Frames

A frame is a body behind its length in four bytes, the most significant first. Both sides refuse
bodies over a limit: the sender before a byte is written, the receiver as soon as the length is
there. A limit beyond what four bytes can say is as good as that.

* `Frame.Carries` says which bodies a frame carries, `Frame.encode` frames them;
* `FrameState.step` takes one byte, `FrameState.feed` a chunk; since a chunk is taken byte by byte,
  how a stream is cut does not matter (`feed_append`);
* `FrameState.finish` says what the end of the stream means.
-/

namespace Telefile

/-- What is wrong with a frame or a stream of frames. -/
inductive FrameError
  /-- A body over the limit was to be sent. -/
  | bodyTooBig
  /-- A length over the limit was received. -/
  | lengthTooBig
  /-- The stream ended inside a frame. -/
  | bytesLeft
  deriving DecidableEq, Repr

/-- The wording of a frame error. -/
def FrameError.message : FrameError → String
  | .bodyTooBig | .lengthTooBig => "frame size too big"
  | .bytesLeft => "bytes remaining on stream"

/-! ## 1. Writing -/

namespace Frame

/-- The largest length that four bytes can say. -/
def maxLength : Nat := 4294967295

/-- Whether a frame carries a body: its length is within the limit, and four bytes can say it. -/
def Carries (limit : Nat) (body : List UInt8) : Prop :=
  body.length ≤ limit ∧ body.length ≤ maxLength

instance (limit : Nat) (body : List UInt8) : Decidable (Carries limit body) :=
  inferInstanceAs (Decidable (_ ∧ _))

/-- The length of a body as four bytes. -/
def header (n : Nat) : List UInt8 :=
  [UInt8.ofNat (n / 16777216), UInt8.ofNat (n / 65536), UInt8.ofNat (n / 256), UInt8.ofNat n]

/-- The length that four bytes hold. -/
def length (b : List UInt8) : Nat := b.foldl (fun n x => n * 256 + x.toNat) 0

/-- A body behind its length. -/
def encode (limit : Nat) (body : List UInt8) : Except FrameError (List UInt8) :=
  if Carries limit body then .ok (header body.length ++ body) else .error .bodyTooBig

end Frame

/-! ## 2. Reading -/

/-- What a receiver of frames holds between two bytes. -/
inductive FrameState
  /-- Fewer than four bytes of a length. -/
  | head (seen : List UInt8)
  /-- A body that lacks some bytes; those seen, the last one first. -/
  | body (lacking : Nat) (seen : List UInt8)
  /-- A length over the limit; nothing is read any more. -/
  | refused
  deriving DecidableEq, Repr

/-- What a byte completes. -/
inductive FrameEvent
  | frame (body : List UInt8)
  | oversized
  deriving DecidableEq, Repr

namespace FrameState

/-- Before the first byte of a stream. -/
def fresh : FrameState := head []

/-- What follows a length: an empty body is there at once. -/
def begin (limit n : Nat) : FrameState × Option FrameEvent :=
  if limit < n then (refused, some .oversized)
  else if n = 0 then (fresh, some (.frame []))
  else (body n [], none)

/-- One byte. -/
def step (limit : Nat) (s : FrameState) (b : UInt8) : FrameState × Option FrameEvent :=
  match s with
  | head seen =>
    let seen' := seen ++ [b]
    if seen'.length < 4 then (head seen', none) else begin limit (Frame.length seen')
  | body lacking seen =>
    if lacking ≤ 1 then (fresh, some (.frame (b :: seen).reverse))
    else (body (lacking - 1) (b :: seen), none)
  | refused => (refused, none)

/-- One byte, with the events so far, the last one first. -/
def stepLog (limit : Nat) (st : FrameState × List FrameEvent) (b : UInt8) :
    FrameState × List FrameEvent :=
  match step limit st.1 b with
  | (s, some e) => (s, e :: st.2)
  | (s, none) => (s, st.2)

/-- A chunk: the state after it and what it completes, in order. -/
def feed (limit : Nat) (s : FrameState) (chunk : List UInt8) : FrameState × List FrameEvent :=
  let r := chunk.foldl (stepLog limit) (s, [])
  (r.1, r.2.reverse)

/-- The end of the stream: an error if bytes of a length, or of a body, are left over. -/
def finish : FrameState → Except FrameError Unit
  | head [] | body _ [] | refused => .ok ()
  | head (_ :: _) | body _ (_ :: _) => .error .bytesLeft

/-! ## 3. Cutting does not matter -/

theorem foldl_stepLog (limit : Nat) (chunk : List UInt8) (s : FrameState)
    (log : List FrameEvent) :
    chunk.foldl (stepLog limit) (s, log) =
      ((chunk.foldl (stepLog limit) (s, [])).1,
        (chunk.foldl (stepLog limit) (s, [])).2 ++ log) := by
  induction chunk generalizing s log with
  | nil => simp
  | cons b rest ih =>
    simp only [List.foldl_cons]
    rcases h : step limit s b with ⟨s', e⟩
    cases e with
    | none => simp only [stepLog, h]; exact ih s' log
    | some e =>
      simp only [stepLog, h]
      rw [ih s' (e :: log), ih s' [e]]
      simp

/-- **Two chunks are read as their concatenation is.** -/
theorem feed_append (limit : Nat) (s : FrameState) (a b : List UInt8) :
    feed limit s (a ++ b) =
      ((feed limit (feed limit s a).1 b).1,
        (feed limit s a).2 ++ (feed limit (feed limit s a).1 b).2) := by
  simp only [feed, List.foldl_append]
  rw [foldl_stepLog limit b]
  simp

end FrameState

end Telefile
