import Telefile.Proofs.Directories.Paging
import Telefile.Proofs.Failures
import Telefile.Proofs.Reply.Reads
import Telefile.Proofs.Wire.Widths

/-!
# One shape for each request

What an operation comes to is told in one place, and what a failure looks like in another. They
agree: a request that fails is answered by its failure, and one that succeeds by a response of the
same shape, whose result no client takes for a failure and whose payload is what the result says.

* `Response.shape`, `Response.Agrees` — the shape of a response, and a payload that goes with its
  result;
* `Service.outcome` — what the operation behind a request comes to; `Request.told` — how that is
  told; **`Session.answer_eq_told`** — and so a session answers;
* `Service.Gives` — the values that operations give; `Service.Gives.agrees` — every one has the
  shape of its request; `Service.Gives.fits` — and a result that is not cut by the word it travels
  in;
* **`Hub.replies_keep_their_shape`** — in every state that a history leads to.
-/

namespace Telefile

/-! ## 1. Shapes -/

namespace Response

/-- The shapes of responses. -/
inductive Shape
  | status
  | data
  | attr
  | entries
  | tree
  deriving DecidableEq, Repr

/-- The shape of a response. -/
def shape : Response → Shape
  | status _ => .status
  | data .. => .data
  | attr .. => .attr
  | entries .. => .entries
  | tree .. => .tree

/-- The payload of a success goes with its result: as many bytes as it says, records of as many
bytes, or a result of 0 and a value. -/
def Agrees : Response → Prop
  | status _ => True
  | data r b => r = b.length
  | attr r a => r = 0 ∧ a.isSome
  | entries r _ es => r = Service.recordBytes es
  | tree r t => r = 0 ∧ t.isSome

end Response

/-! ## 2. Outcomes -/

/-- What the operation behind a request comes to: its error, or the response to its value. A number
that names no mode or origin stands for no operation. -/
def Service.outcome (s : Service) :
    Request → Except UnknownNumber (Except FileError Response)
  | .openPath path raw =>
    (OpenMode.ofRaw? raw).map fun mode => (s.openPath path mode).answer.map Response.status
  | .close fd => .ok ((s.close fd).answer.map fun _ => .status 0)
  | .write fd data => .ok ((s.write fd data).answer.map fun n : Nat => .status (n : Int))
  | .read fd capacity => .ok ((s.read fd capacity).answer.map fun b => .data b.length b)
  | .seek fd offset raw =>
    (Whence.ofRaw? raw).map fun whence =>
      (s.seek fd offset whence).answer.map fun n : Nat => .status (n : Int)
  | .unlink path => .ok ((s.unlink path).answer.map fun _ => .status 0)
  | .stat path => .ok ((s.stat path).map fun a => .attr 0 (some a))
  | .listDir fd nbytes base =>
    .ok ((s.listDir fd nbytes base).map fun page => .entries page.bytes page.nextBase page.entries)
  | .dirTree path => .ok ((s.dirTree path).1.map fun t => .tree 0 (some t))

/-- How an outcome is told to whoever made the request. -/
def Request.told (q : Request) : Except UnknownNumber (Except FileError Response) → Response
  | .error _ => q.failure .invalid
  | .ok (.error e) => q.failure e.errno
  | .ok (.ok r) => r

namespace Session

variable (c : Session) (s : Service)

/-- **A session tells the outcome** of every request. -/
theorem answer_eq_told (q : Request) : (c.answer s q).answer = q.told (s.outcome q) := by
  cases q with
  | openPath path raw =>
    cases hraw : OpenMode.ofRaw? raw with
    | error u =>
      rw [c.answer_openPath_of_error s path hraw]
      simp only [Service.outcome, hraw]
      rfl
    | ok mode =>
      rw [c.answer_openPath_of_ok s path hraw]
      unfold respond openPath
      simp only [Service.outcome, hraw, Except.map]
      cases (s.openPath path mode).answer <;> rfl
  | close fd =>
    show Response.status (codeOf (fun _ => 0) (s.close fd).answer) = _
    simp only [Service.outcome]
    cases (s.close fd).answer <;> rfl
  | write fd data =>
    show Response.status (codeOfCount (s.write fd data).answer) = _
    simp only [Service.outcome]
    cases (s.write fd data).answer <;> rfl
  | read fd capacity =>
    show Response.data (codeOf (fun b => (b.length : Int)) (s.read fd capacity).answer)
      ((s.read fd capacity).answer.toOption.getD []) = _
    simp only [Service.outcome]
    cases (s.read fd capacity).answer <;> rfl
  | seek fd offset raw =>
    cases hraw : Whence.ofRaw? raw with
    | error u =>
      rw [c.answer_seek_of_error s fd offset hraw]
      simp only [Service.outcome, hraw]
      rfl
    | ok whence =>
      rw [c.answer_seek_of_ok s fd offset hraw]
      show Response.status (codeOfCount (s.seek fd offset whence).answer) = _
      simp only [Service.outcome, hraw, Except.map]
      cases (s.seek fd offset whence).answer <;> rfl
  | unlink path =>
    show Response.status (codeOf (fun _ => 0) (s.unlink path).answer) = _
    simp only [Service.outcome]
    cases (s.unlink path).answer <;> rfl
  | stat path =>
    show Response.attr (codeOf (fun _ => 0) (s.stat path)) (s.stat path).toOption = _
    simp only [Service.outcome]
    cases s.stat path <;> rfl
  | listDir fd nbytes base =>
    show Response.entries (c.listDir s fd nbytes base).answer.1
      (c.listDir s fd nbytes base).answer.2.1 (c.listDir s fd nbytes base).answer.2.2 = _
    rw [c.answer_listDir s fd nbytes base]
    simp only [Service.outcome]
    cases s.listDir fd nbytes base <;> rfl
  | dirTree path =>
    show Response.tree (codeOf (fun _ => 0) (s.dirTree path).1) (s.dirTree path).1.toOption = _
    simp only [Service.outcome]
    cases (s.dirTree path).1 <;> rfl

/-- A number that names nothing reaches nothing. -/
theorem state_answer_of_unknown {q : Request} {u : UnknownNumber} (h : s.outcome q = .error u) :
    (c.answer s q).state = (c, s) := by
  cases q with
  | openPath path raw =>
    cases hraw : OpenMode.ofRaw? raw with
    | error u =>
      rw [c.answer_openPath_of_error s path hraw]
      rfl
    | ok mode =>
      simp only [Service.outcome, hraw] at h
      cases h
  | seek fd offset raw =>
    cases hraw : Whence.ofRaw? raw with
    | error u =>
      rw [c.answer_seek_of_error s fd offset hraw]
      rfl
    | ok whence =>
      simp only [Service.outcome, hraw] at h
      cases h
  | _ => cases h

end Session

/-! ## 3. Values -/

namespace Service

variable {s : Service} {q : Request} {r : Response}

/-- `r` is the response to a value that the operation behind `q` gives. -/
inductive Gives (s : Service) : Request → Response → Prop
  | descriptor {path raw mode fd} (h : (s.openPath path mode).answer = .ok fd) :
    Gives s (.openPath path raw) (.status fd)
  | closed {fd} : Gives s (.close fd) (.status 0)
  | count {fd data} {n : Nat} (h : (s.write fd data).answer = .ok n) :
    Gives s (.write fd data) (.status n)
  | bytes {fd capacity bytes} (h : (s.read fd capacity).answer = .ok bytes) :
    Gives s (.read fd capacity) (.data bytes.length bytes)
  | position {fd offset raw whence} {n : Nat} (h : (s.seek fd offset whence).answer = .ok n) :
    Gives s (.seek fd offset raw) (.status n)
  | unlinked {path} : Gives s (.unlink path) (.status 0)
  | attr {path} (a : FileAttr) : Gives s (.stat path) (.attr 0 (some a))
  | page {fd nbytes base page} (h : s.listDir fd nbytes base = .ok page) :
    Gives s (.listDir fd nbytes base) (.entries page.bytes page.nextBase page.entries)
  | tree {path} (t : DirTree) : Gives s (.dirTree path) (.tree 0 (some t))

theorem exists_of_map_ok {ε α β : Type} {f : α → β} {x : Except ε α} {b : β}
    (h : x.map f = .ok b) : ∃ a, x = .ok a ∧ f a = b := by
  cases x with
  | error e => cases h
  | ok a => exact ⟨a, rfl, Except.ok.inj h⟩

theorem gives_of_outcome (h : s.outcome q = .ok (.ok r)) : s.Gives q r := by
  cases q with
  | openPath path raw =>
    obtain ⟨mode, -, hmode⟩ := exists_of_map_ok h
    obtain ⟨fd, hfd, rfl⟩ := exists_of_map_ok hmode
    exact .descriptor hfd
  | close fd =>
    obtain ⟨_, -, rfl⟩ := exists_of_map_ok (Except.ok.inj h)
    exact .closed
  | write fd data =>
    obtain ⟨n, hn, rfl⟩ := exists_of_map_ok (Except.ok.inj h)
    exact .count hn
  | read fd capacity =>
    obtain ⟨bytes, hbytes, rfl⟩ := exists_of_map_ok (Except.ok.inj h)
    exact .bytes hbytes
  | seek fd offset raw =>
    obtain ⟨whence, -, hwhence⟩ := exists_of_map_ok h
    obtain ⟨n, hn, rfl⟩ := exists_of_map_ok hwhence
    exact .position hn
  | unlink path =>
    obtain ⟨_, -, rfl⟩ := exists_of_map_ok (Except.ok.inj h)
    exact .unlinked
  | stat path =>
    obtain ⟨a, -, rfl⟩ := exists_of_map_ok (Except.ok.inj h)
    exact .attr a
  | listDir fd nbytes base =>
    obtain ⟨page, hpage, rfl⟩ := exists_of_map_ok (Except.ok.inj h)
    exact .page hpage
  | dirTree path =>
    obtain ⟨t, -, rfl⟩ := exists_of_map_ok (Except.ok.inj h)
    exact .tree t

/-- **Every value has the shape of its request**, a result that is no code, and a payload that goes
with it. -/
theorem Gives.agrees (h : s.Gives q r) (hs : s.Issued) :
    0 ≤ r.result ∧ (∀ e, r.shape = (q.failure e).shape) ∧ r.Agrees := by
  have hzero : (0 : Int) ≤ 0 := Int.le_refl 0
  cases h with
  | descriptor h =>
    have hbase : (0 : Int) ≤ descriptorBase := by decide
    obtain ⟨hlow, -⟩ := openPath_ok_bounds hs h
    exact ⟨Int.le_trans hbase (Int.le_of_lt hlow), fun _ => rfl, trivial⟩
  | closed => exact ⟨hzero, fun _ => rfl, trivial⟩
  | count h => exact ⟨Int.natCast_nonneg _, fun _ => rfl, trivial⟩
  | bytes h => exact ⟨Int.natCast_nonneg _, fun _ => rfl, rfl⟩
  | position h => exact ⟨Int.natCast_nonneg _, fun _ => rfl, trivial⟩
  | unlinked => exact ⟨hzero, fun _ => rfl, trivial⟩
  | attr a => exact ⟨hzero, fun _ => rfl, rfl, rfl⟩
  | page h =>
    exact ⟨Int.natCast_nonneg _, fun _ => rfl, congrArg Int.ofNat (listDir_bytes h).1⟩
  | tree t => exact ⟨hzero, fun _ => rfl, rfl, rfl⟩

theorem seek_ok {fd : Fd} {offset : Int} {whence : Whence} {n : Nat}
    (h : (s.seek fd offset whence).answer = .ok n) : (n : Int) ≤ maxPosition := by
  cases hh : s.handle fd with
  | error e =>
    unfold seek at h
    rw [hh] at h
    cases h
  | ok hd =>
    rw [seek_of_handle hh] at h
    cases htarget : seekTarget (s.baseOf hd whence) offset with
    | error e =>
      rw [htarget] at h
      cases h
    | ok pos =>
      rw [htarget] at h
      cases h
      refine Int.le_trans ?_ (seekTarget_ok htarget)
      cases hd.object with
      | file id => exact Int.le_refl _
      | device d => exact Int.natCast_nonneg _

/-- **No result is cut** by its word, as long as no data and no transfer is longer than memory. -/
theorem Gives.fits (h : s.Gives q r) (hs : s.Issued)
    (hdata : ∀ fd data, q = .write fd data → data.length < 2 ^ 63)
    (hmax : s.settings.maxTransfer < 2 ^ 63) : FitsSigned 64 r.result := by
  obtain ⟨hlow, -⟩ := h.agrees hs
  have hlow : (-2 ^ 63 : Int) ≤ r.result := Int.le_trans (by decide) hlow
  refine ⟨hlow, ?_⟩
  show r.result < 2 ^ 63
  cases h with
  | descriptor h =>
    obtain ⟨-, hhigh⟩ := openPath_ok_bounds hs h
    exact Int.lt_of_le_of_lt hhigh (by decide)
  | closed => exact (by decide : (0 : Int) < 2 ^ 63)
  | @count fd data n h =>
    have hlength := hdata fd data rfl
    rcases s.write_cases fd data with ⟨e, hr⟩ | ⟨_, _, -, -, hn, hr⟩ <;> rw [hr] at h
    · cases h
    · rw [hn n h]
      exact Int.ofNat_lt.mpr hlength
  | @bytes fd capacity bytes h =>
    obtain ⟨hlength, -⟩ := read_ok h
    have hshort : bytes.length < 2 ^ 63 :=
      Nat.lt_of_le_of_lt (Nat.le_trans hlength (Nat.min_le_left _ _)) hmax
    exact Int.ofNat_lt.mpr hshort
  | position h => exact Int.lt_of_le_of_lt (seek_ok h) (by decide)
  | unlinked => exact (by decide : (0 : Int) < 2 ^ 63)
  | attr a => exact (by decide : (0 : Int) < 2 ^ 63)
  | page h =>
    obtain ⟨-, hbytes⟩ := listDir_bytes h
    exact Int.ofNat_lt.mpr (Nat.lt_of_le_of_lt hbytes hmax)
  | tree t => exact (by decide : (0 : Int) < 2 ^ 63)

end Service

/-! ## 4. Every state -/

/-- **Replies keep their shape.** In every state that a history leads to, for every request: if its
operation fails, the answer is just the failure of the request, and its result is read back as the
error; and so it is for a number that names nothing, with an invalid argument, and neither session
nor service is touched. If its operation succeeds, the answer is the value in the shape that a
failure would have, with a result that is read as no error and a payload that goes with it; and no
word cuts the result, as long as no data and no transfer is longer than memory. -/
theorem Hub.replies_keep_their_shape {settings : Settings} {host : Host} {notes : List Note}
    {b : Hub} (h : Recorded settings host notes b) (c : Session) (q : Request) :
    let step := c.answer b.service q
    (∀ u, b.service.outcome q = .error u → step.answer = q.failure .invalid ∧
      Errno.ofResult? step.answer.result = some .invalid ∧ step.state = (c, b.service)) ∧
    (∀ e, b.service.outcome q = .ok (.error e) → step.answer = q.failure e.errno ∧
      Errno.ofResult? step.answer.result = some e.errno) ∧
    (∀ r, b.service.outcome q = .ok (.ok r) → step.answer = r ∧ 0 ≤ r.result ∧
      Errno.ofResult? r.result = none ∧ (∀ e, r.shape = (q.failure e).shape) ∧ r.Agrees ∧
      ((∀ fd data, q = .write fd data → data.length < 2 ^ 63) → settings.maxTransfer < 2 ^ 63 →
        FitsSigned 64 r.result)) := by
  intro step
  have htold : step.answer = q.told (b.service.outcome q) := c.answer_eq_told b.service q
  refine ⟨fun u hu => ?_, fun e he => ?_, fun r hr => ?_⟩
  · rw [hu] at htold
    refine ⟨htold, ?_, c.state_answer_of_unknown b.service hu⟩
    rw [htold]
    show Errno.ofResult? (q.failure .invalid).result = _
    rw [Request.result_failure]
    exact Errno.ofResult?_neg (by decide)
  · rw [he] at htold
    refine ⟨htold, ?_⟩
    rw [htold]
    show Errno.ofResult? (q.failure e.errno).result = _
    rw [Request.result_failure]
    exact Errno.ofResult?_neg e.errno_known
  · rw [hr] at htold
    have hgives := Service.gives_of_outcome hr
    obtain ⟨hlow, hshape, hagrees⟩ := hgives.agrees h.issued
    refine ⟨htold, hlow, Errno.ofResult?_of_nonneg hlow, hshape, hagrees, fun hdata hmax => ?_⟩
    refine hgives.fits h.issued hdata ?_
    rwa [h.settings_eq]

/-- A seek from an origin that is none, a close of what is closed, and a read. -/
theorem Hub.replies_keep_their_shape_sharing :
    let s := sharing.service
    Recorded ⟨none, 4, false⟩ Host.fourBytes recordOfSharing sharing ∧ ∀ c : Session,
      (c.answer s (.seek 1002 0 9)).answer = .status (-22) ∧
      (c.answer s (.close 1001)).answer = .status (-9) ∧
      (c.answer s (.read 1002 (some 3))).answer = .data 3 [0x61, 0x62, 0x63] ∧
      Errno.ofResult? 3 = none := by
  intro s
  refine ⟨recorded_sharing, fun c => ?_⟩
  obtain ⟨hunknown, -⟩ := replies_keep_their_shape recorded_sharing c (.seek 1002 0 9)
  obtain ⟨-, hfails, -⟩ := replies_keep_their_shape recorded_sharing c (.close 1001)
  obtain ⟨-, -, hgives⟩ := replies_keep_their_shape recorded_sharing c (.read 1002 (some 3))
  obtain ⟨hanswer, -, hresult, -⟩ := hgives (.data 3 [0x61, 0x62, 0x63]) rfl
  exact ⟨(hunknown ⟨"whence", 9⟩ rfl).1, (hfails (.badDescriptor 1001) rfl).1, hanswer, hresult⟩

end Telefile
