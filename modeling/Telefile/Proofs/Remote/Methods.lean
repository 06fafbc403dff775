import Telefile.Client
import Telefile.Proofs.Descriptors
import Telefile.Proofs.Wire.Widths

/-!
# Methods of a client, and the calls of a session they stand for

Every method of a client sends one request and unwraps one response. It stands for a call of a
session; a raw number that names no mode and no origin stands for a refusal that touches nothing.

* `Method` — the methods with their arguments, `Method.call` what each does over a connection,
  `Method.onSession` what it stands for;
* `Method.state_answer` — the request and the call change a session and its service alike;
* **`Method.take_answer`** — the response unwraps to what the call gives. The 32 bits a client
  keeps of some results are all there is to them.
-/

namespace Telefile

/-! ## 1. Methods -/

/-- A method of a client with its arguments. -/
inductive Method
  | raw (q : Request)
  | openPath (path : Option String) (mode : OpenMode)
  | openRaw (path : Option String) (mode : Nat)
  | close (fd : Fd)
  | write (fd : Fd) (data : List UInt8)
  | read (fd : Fd) (capacity : Nat)
  | readInto (fd : Fd) (capacity : Option Nat)
  | seek (fd : Fd) (offset : Int) (whence : Whence)
  | seekRaw (fd : Fd) (offset : Int) (whence : Nat)
  | unlink (path : Option String)
  | stat (path : Option String)
  | listDir (fd : Fd) (nbytes base : Nat)
  | dirTree (path : Option String)
  deriving DecidableEq, Repr

namespace Method

/-- What a method gives. -/
def Result : Method → Type
  | raw _ => Response
  | openPath .. | openRaw .. | close _ | write .. | seek .. | seekRaw .. | unlink _ => Int
  | read .. | readInto .. => Int × List UInt8
  | stat _ => Int × Option FileAttr
  | listDir .. => Int × Nat × List DirEntry
  | dirTree _ => Int × Option DirTree

/-- The method over a connection. -/
def call : (m : Method) → Call m.Result
  | raw q => Call.raw q
  | openPath path mode => Call.openPath path mode
  | openRaw path mode => Call.openRaw path mode
  | close fd => Call.close fd
  | write fd data => Call.write fd data
  | read fd capacity => Call.read fd capacity
  | readInto fd capacity => Call.readInto fd capacity
  | seek fd offset whence => Call.seek fd offset whence
  | seekRaw fd offset whence => Call.seekRaw fd offset whence
  | unlink path => Call.unlink path
  | stat path => Call.stat path
  | listDir fd nbytes base => Call.listDir fd nbytes base
  | dirTree path => Call.dirTree path

/-- The request that the method sends. -/
def request (m : Method) : Request := m.call.request

/-- The call of a session that the method stands for. -/
def onSession (c : Session) (s : Service) : (m : Method) → Step Session.State m.Result
  | raw q => c.answer s q
  | openPath path mode => c.openPath s path mode
  | openRaw path mode =>
    match OpenMode.ofRaw? mode with
    | .ok mode => c.openPath s path mode
    | .error _ => .stay (c, s) Errno.invalid.neg
  | close fd => c.close s fd
  | write fd data => c.write s fd data
  | read fd capacity => c.read s fd (some capacity)
  | readInto fd capacity => c.read s fd capacity
  | seek fd offset whence => c.seek s fd offset whence
  | seekRaw fd offset whence =>
    match Whence.ofRaw? whence with
    | .ok whence => c.seek s fd offset whence
    | .error _ => .stay (c, s) Errno.invalid.neg
  | unlink path => c.unlink s path
  | stat path => c.stat s path
  | listDir fd nbytes base => c.listDir s fd nbytes base
  | dirTree path => c.dirTree s path

end Method

/-! ## 2. What 32 bits keep -/

theorem Call.narrow_of_fits {i : Int} (h : FitsSigned 32 i) : narrow i = i := by
  obtain ⟨hlow, hhigh⟩ := h
  exact Int.bmod_eq_of_le hlow hhigh

theorem Errno.fits_neg (e : Errno) : FitsSigned 32 e.neg := by
  have hvalue : e.value.toNat < 256 := e.value.toNat_lt
  unfold FitsSigned Errno.neg
  constructor <;> omega

theorem FileError.fits_code (e : FileError) : FitsSigned 32 e.code := e.errno.fits_neg

theorem Session.fits_codeOf_zero {α : Type} (r : Except FileError α) :
    FitsSigned 32 (codeOf (fun _ => 0) r) := by
  cases r with
  | ok a =>
    have hzero : FitsSigned 32 0 := by decide
    exact hzero
  | error e => exact e.fits_code

theorem Session.fits_openPath (c : Session) {s : Service} (hs : s.Issued) (path : Option String)
    (mode : OpenMode) : FitsSigned 32 (c.openPath s path mode).answer := by
  unfold Session.openPath
  cases hr : (s.openPath path mode).answer with
  | error e =>
    simp only [hr]
    exact e.fits_code
  | ok fd =>
    obtain ⟨hlow, hhigh⟩ := Service.openPath_ok_bounds hs hr
    simp only [hr]
    unfold descriptorBase at hlow
    unfold maxDescriptor at hhigh
    exact ⟨Int.le_trans (by decide) (Int.le_of_lt hlow), Int.lt_of_le_of_lt hhigh (by decide)⟩

/-! ## 3. A method and its call -/

namespace Method

section Numbers

variable (c : Session) (s : Service)

theorem onSession_openPath (path : Option String) (mode : OpenMode) :
    (openPath path mode).onSession c s = (openRaw path mode.toRaw).onSession c s := by
  cases mode <;> rfl

theorem onSession_seek (fd : Fd) (offset : Int) (whence : Whence) :
    (seek fd offset whence).onSession c s = (seekRaw fd offset whence.toRaw).onSession c s := by
  cases whence <;> rfl

/-- Whether the number names a mode or not, the status is that of the call. -/
theorem answer_openRaw (path : Option String) (raw : Nat) :
    (c.answer s (.openPath path raw)).answer =
        .status ((openRaw path raw).onSession c s).answer ∧
      (c.answer s (.openPath path raw)).state = ((openRaw path raw).onSession c s).state := by
  cases hraw : OpenMode.ofRaw? raw with
  | ok mode =>
    rw [c.answer_openPath_of_ok s path hraw]
    simp only [onSession, hraw]
    exact ⟨rfl, rfl⟩
  | error u =>
    rw [c.answer_openPath_of_error s path hraw]
    simp only [onSession, hraw]
    exact ⟨rfl, rfl⟩

/-- Whether the number names an origin or not, the status is that of the call. -/
theorem answer_seekRaw (fd : Fd) (offset : Int) (raw : Nat) :
    (c.answer s (.seek fd offset raw)).answer =
        .status ((seekRaw fd offset raw).onSession c s).answer ∧
      (c.answer s (.seek fd offset raw)).state =
        ((seekRaw fd offset raw).onSession c s).state := by
  cases hraw : Whence.ofRaw? raw with
  | ok whence =>
    rw [c.answer_seek_of_ok s fd offset hraw]
    simp only [onSession, hraw]
    exact ⟨rfl, rfl⟩
  | error u =>
    rw [c.answer_seek_of_error s fd offset hraw]
    simp only [onSession, hraw]
    exact ⟨rfl, rfl⟩

theorem fits_openRaw {s : Service} (hs : s.Issued) (path : Option String) (raw : Nat) :
    FitsSigned 32 ((openRaw path raw).onSession c s).answer := by
  cases hraw : OpenMode.ofRaw? raw with
  | ok mode =>
    simp only [onSession, hraw]
    exact c.fits_openPath hs path mode
  | error u =>
    have hinvalid : FitsSigned 32 Errno.invalid.neg := by decide
    simp only [onSession, hraw]
    exact hinvalid

end Numbers

variable (c : Session) (m : Method)

/-- The request leaves a session and its service as the call does. -/
theorem state_answer (s : Service) :
    (c.answer s m.request).state = (m.onSession c s).state := by
  cases m with
  | openPath path mode =>
    rw [onSession_openPath]
    exact (answer_openRaw c s path mode.toRaw).2
  | openRaw path raw => exact (answer_openRaw c s path raw).2
  | seek fd offset whence =>
    rw [onSession_seek]
    exact (answer_seekRaw c s fd offset whence.toRaw).2
  | seekRaw fd offset raw => exact (answer_seekRaw c s fd offset raw).2
  | _ => rfl

/-- The narrowed code of a status that fits 32 bits is the code. -/
theorem takeNarrow_status {op : String} {r : Int} (h : FitsSigned 32 r) :
    Call.takeNarrow op (.status r) = .ok r := by
  show Except.ok (Call.narrow r) = _
  rw [Call.narrow_of_fits h]

/-- **The response unwraps to what the call gives.** -/
theorem take_answer {s : Service} (hs : s.Issued) :
    m.call.take (c.answer s m.request).answer = .ok (m.onSession c s).answer := by
  cases m with
  | openPath path mode =>
    rw [onSession_openPath]
    show Call.takeNarrow "open" (c.answer s (.openPath path mode.toRaw)).answer = _
    rw [(answer_openRaw c s path mode.toRaw).1]
    exact takeNarrow_status (fits_openRaw c hs path mode.toRaw)
  | openRaw path raw =>
    show Call.takeNarrow "open" (c.answer s (.openPath path raw)).answer = _
    rw [(answer_openRaw c s path raw).1]
    exact takeNarrow_status (fits_openRaw c hs path raw)
  | seek fd offset whence =>
    rw [onSession_seek]
    show Call.takeStatus "lseek" (c.answer s (.seek fd offset whence.toRaw)).answer = _
    rw [(answer_seekRaw c s fd offset whence.toRaw).1]
    rfl
  | seekRaw fd offset raw =>
    show Call.takeStatus "lseek" (c.answer s (.seek fd offset raw)).answer = _
    rw [(answer_seekRaw c s fd offset raw).1]
    rfl
  | close fd => exact takeNarrow_status (Session.fits_codeOf_zero (s.close fd).answer)
  | unlink path => exact takeNarrow_status (Session.fits_codeOf_zero (s.unlink path).answer)
  | stat path =>
    have hcode := Call.narrow_of_fits (Session.fits_codeOf_zero (s.stat path))
    show Except.ok (Call.narrow (Session.codeOf (fun _ => 0) (s.stat path)), _) = _
    rw [hcode]
    rfl
  | dirTree path =>
    have hcode := Call.narrow_of_fits (Session.fits_codeOf_zero (s.dirTree path).1)
    show Except.ok (Call.narrow (Session.codeOf (fun _ => 0) (s.dirTree path).1), _) = _
    rw [hcode]
    rfl
  | _ => rfl

end Method

end Telefile
