import Telefile.Service.Naming
import Telefile.Service.Transfer

/-!
# Sessions

A session is one client's view of the service. Each call runs the operation, logs the call and its
outcome, and answers with a result code; no error crosses this boundary.

* a session knows which descriptors it opened and has not itself closed;
* `Session.finish` ends it, closing what it still holds if the settings say so;
* **`Session.answer`** answers a request as it comes from the wire; a number that names no mode or
  origin is refused before the service is touched.
-/

namespace Telefile

/-- One client's view of the service. -/
structure Session where
  id : Nat
  /-- Descriptors opened and not closed by this session, in the order they were issued. -/
  opened : List Fd
  deriving DecidableEq, Repr

namespace Session

/-- The state that a call works on: the session and the service. -/
abbrev State := Session × Service

/-- A new session of the service. -/
def start (s : Service) : Step Service Session :=
  let session : Session := ⟨s.nextSession, []⟩
  ⟨session, { s with nextSession := s.nextSession + 1 },
    [LogLine.info "session started" [("session", toString session.id)]]⟩

/-! ## 1. Codes and lines -/

/-- The result code of an outcome. -/
def codeOf {α : Type} (ok : α → Int) : Except FileError α → Int
  | .ok a => ok a
  | .error e => e.code

/-- The line that starts a call. -/
def called (c : Session) (op : String) (fields : List (String × String)) : LogLine :=
  LogLine.debug op (("session", toString c.id) :: fields)

/-- The line that ends a call on `subject`. -/
def ended {α : Type} (c : Session) (op subject : String) (ok : α → Int)
    (r : Except FileError α) : LogLine :=
  match r with
  | .ok a => LogLine.debug s!"{op} -> {ok a}" [("session", toString c.id), ("subject", subject)]
  | .error e =>
    LogLine.debug s!"{op} failed: {e.message}"
      [("session", toString c.id), ("subject", subject), ("errno", e.errno.describe)]

/-! ## 2. Calls -/

/-- A descriptor, or the code of the failure. -/
def openPath (c : Session) (s : Service) (path : Option String) (mode : OpenMode) :
    Step State Int :=
  let r := s.openPath path mode
  let before := c.called "open" [("path", quotedPath path), ("mode", mode.name)]
  match r.answer with
  | .ok fd =>
    ⟨fd, ({ c with opened := c.opened ++ [fd] }, r.state), before :: r.log ++
      [LogLine.debug s!"open -> {fd}" [("session", toString c.id), ("fd", toString fd)]]⟩
  | .error e =>
    ⟨e.code, (c, r.state), before :: r.log ++
      [LogLine.debug s!"open failed: {e.message}"
        [("session", toString c.id), ("path", quotedPath path), ("errno", e.errno.describe)]]⟩

/-- 0, or the code of the failure. -/
def close (c : Session) (s : Service) (fd : Fd) : Step State Int :=
  let r := s.close fd
  let c' : Session :=
    match r.answer with
    | .ok _ => { c with opened := c.opened.filter fun q => decide (q ≠ fd) }
    | .error _ => c
  ⟨codeOf (fun _ => 0) r.answer, (c', r.state),
    [c.called "close" [("fd", toString fd)],
      c.ended "close" (toString fd) (fun _ => 0) r.answer]⟩

/-- The number of bytes written, or the code of the failure. -/
def write (c : Session) (s : Service) (fd : Fd) (data : List UInt8) : Step State Int :=
  let r := s.write fd data
  ⟨codeOf (fun n => (n : Int)) r.answer, (c, r.state),
    [c.called "write" [("fd", toString fd), ("len", toString data.length)],
      c.ended "write" (toString fd) (fun n => (n : Int)) r.answer]⟩

/-- The number of bytes read and the bytes, or the code of the failure and none. -/
def read (c : Session) (s : Service) (fd : Fd) (capacity : Option Nat) :
    Step State (Int × List UInt8) :=
  let r := s.read fd capacity
  let count : List UInt8 → Int := fun b => (b.length : Int)
  ⟨(codeOf count r.answer, r.answer.toOption.getD []), (c, r.state),
    [c.called "read" [("fd", toString fd), ("capacity", Quoted.optional toString capacity)],
      c.ended "read" (toString fd) count r.answer]⟩

/-- The new position, or the code of the failure. -/
def seek (c : Session) (s : Service) (fd : Fd) (offset : Int) (whence : Whence) :
    Step State Int :=
  let r := s.seek fd offset whence
  ⟨codeOf (fun n => (n : Int)) r.answer, (c, r.state),
    [c.called "lseek"
        [("fd", toString fd), ("offset", toString offset), ("whence", whence.name)],
      c.ended "lseek" (toString fd) (fun n => (n : Int)) r.answer]⟩

/-- 0, or the code of the failure. -/
def unlink (c : Session) (s : Service) (path : Option String) : Step State Int :=
  let r := s.unlink path
  ⟨codeOf (fun _ => 0) r.answer, (c, r.state),
    [c.called "unlink" [("path", quotedPath path)],
      c.ended "unlink" (quotedPath path) (fun _ => 0) r.answer]⟩

/-- 0 and the attributes, or the code of the failure. -/
def stat (c : Session) (s : Service) (path : Option String) :
    Step State (Int × Option FileAttr) :=
  let r := s.stat path
  ⟨(codeOf (fun _ => 0) r, r.toOption), (c, s),
    [c.called "stat" [("path", quotedPath path)],
      c.ended "stat" (quotedPath path) (fun _ => 0) r]⟩

/-- The record bytes, the base of the next page and the entries; or the code of the failure, the
base unchanged, and none. -/
def listDir (c : Session) (s : Service) (fd : Fd) (nbytes base : Nat) :
    Step State (Int × Nat × List DirEntry) :=
  let r := s.listDir fd nbytes base
  let count : DirPage → Int := fun p => (p.bytes : Int)
  let answer : Int × Nat × List DirEntry :=
    match r with
    | .ok page => (page.bytes, page.nextBase, page.entries)
    | .error e => (e.code, base, [])
  ⟨answer, (c, s),
    [c.called "getdirentries"
        [("fd", toString fd), ("nbytes", toString nbytes), ("base", toString base)],
      c.ended "getdirentries" (toString fd) count r]⟩

/-- 0 and the hierarchy, or the code of the failure. -/
def dirTree (c : Session) (s : Service) (path : Option String) :
    Step State (Int × Option DirTree) :=
  let (r, log) := s.dirTree path
  ⟨(codeOf (fun _ => 0) r, r.toOption), (c, s),
    c.called "getdirtree" [("path", quotedPath path)] :: log ++
      [c.ended "getdirtree" (quotedPath path) (fun _ => 0) r]⟩

/-! ## 3. The end of a session -/

/-- Closes the descriptors that are still open, and counts them. -/
def closeAll (s : Service) (fds : List Fd) : Nat × Service :=
  fds.foldl
    (fun acc fd =>
      let r := acc.2.close fd
      match r.answer with
      | .ok _ => (acc.1 + 1, r.state)
      | .error _ => acc)
    (0, s)

/-- The client is gone. Descriptors outlive it unless the settings say that it takes them along;
those that another session closed already are passed over. -/
def finish (c : Session) (s : Service) : Step Service Unit :=
  if s.settings.closeOnSessionEnd then
    let (closed, s') := closeAll s c.opened
    ⟨(), s', [LogLine.info "session ended, descriptors released"
      [("session", toString c.id), ("closed", toString closed)]]⟩
  else
    ⟨(), s, [LogLine.info "session ended"
      [("session", toString c.id), ("held", toString c.opened.length)]]⟩

/-! ## 4. Requests -/

/-- A step with its answer put into the shape of a response. -/
def respond {α : Type} (shape : α → Response) (r : Step State α) : Step State Response :=
  ⟨shape r.answer, r.state, r.log⟩

/-- The refusal of a request whose number names nothing. -/
def rejected (c : Session) (s : Service) (q : Request) (u : UnknownNumber)
    (field : String × String) : Step State Response :=
  ⟨q.failure .invalid, (c, s),
    [LogLine.debug s!"{q.name} rejected: {u.message}" [("session", toString c.id), field]]⟩

/-- The response to a request. -/
def answer (c : Session) (s : Service) (q : Request) : Step State Response :=
  match q with
  | .openPath path raw =>
    match OpenMode.ofRaw? raw with
    | .ok mode => respond .status (c.openPath s path mode)
    | .error u => c.rejected s q u ("path", quotedPath path)
  | .close fd => respond .status (c.close s fd)
  | .write fd data => respond .status (c.write s fd data)
  | .read fd capacity => respond (fun r => .data r.1 r.2) (c.read s fd capacity)
  | .seek fd offset raw =>
    match Whence.ofRaw? raw with
    | .ok whence => respond .status (c.seek s fd offset whence)
    | .error u => c.rejected s q u ("fd", toString fd)
  | .unlink path => respond .status (c.unlink s path)
  | .stat path => respond (fun r => .attr r.1 r.2) (c.stat s path)
  | .listDir fd nbytes base =>
    respond (fun r => .entries r.1 r.2.1 r.2.2) (c.listDir s fd nbytes base)
  | .dirTree path => respond (fun r => .tree r.1 r.2) (c.dirTree s path)

section Numbers

variable (c : Session) (s : Service) {raw : Nat} {u : UnknownNumber}

theorem answer_openPath_of_ok (path : Option String) {mode : OpenMode}
    (h : OpenMode.ofRaw? raw = .ok mode) :
    c.answer s (.openPath path raw) = respond .status (c.openPath s path mode) := by
  simp only [answer, h]

theorem answer_openPath_of_error (path : Option String) (h : OpenMode.ofRaw? raw = .error u) :
    c.answer s (.openPath path raw) =
      c.rejected s (.openPath path raw) u ("path", quotedPath path) := by
  simp only [answer, h]

theorem answer_seek_of_ok (fd : Fd) (offset : Int) {whence : Whence}
    (h : Whence.ofRaw? raw = .ok whence) :
    c.answer s (.seek fd offset raw) = respond .status (c.seek s fd offset whence) := by
  simp only [answer, h]

theorem answer_seek_of_error (fd : Fd) (offset : Int) (h : Whence.ofRaw? raw = .error u) :
    c.answer s (.seek fd offset raw) =
      c.rejected s (.seek fd offset raw) u ("fd", toString fd) := by
  simp only [answer, h]

end Numbers

end Session

end Telefile
