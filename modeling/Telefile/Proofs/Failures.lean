import Telefile.Proofs.Lifetime.Accounts
import Telefile.Proofs.Samples

/-!
# What fails changes nothing

A call that answers with a failure has not changed anything: every refusal comes before the first
effect. A write that the host stops on the way is the exception, and leaves the bytes that went in.

* `Service.Stopped` — what such a write leaves; `Host.writeAt_eq` — what the host has written;
* `Session.state_answer_of_neg`, `Session.stopped_of_busy` — one call of a session;
* **`failed_calls_change_nothing`** — every call in every state that a history leads to.
-/

namespace Telefile

/-! ## 1. A write that is stopped -/

/-- `s'` is what a write of `data` to the descriptor `fd` may leave of `s` when the host stops it.
Some of the bytes lie in the file behind `fd`, from the cursor on; a gap in front of them is filled
with zeros; and the cursor stands behind them. The file's time may be new, and nothing else is. -/
def Service.Stopped (s : Service) (fd : Fd) (data : List UInt8) (s' : Service) : Prop :=
  ∃ h n host, s.handle fd = .ok h ∧ n ≤ data.length ∧
    s' = ({ s with host } : Service).moveCursor fd h (h.cursor + n) ∧
    (host = s.host ∨ ∃ id f f', h.object = .file id ∧ s.host.file? id = some f ∧
      host = s.host.setFile id f' ∧ f'.perms = f.perms ∧
      f'.content.toList = f.content.toList.take h.cursor ++
        List.replicate (h.cursor - f.content.toList.length) 0 ++ data.take n ++
        f.content.toList.drop (h.cursor + n))

theorem Host.room_le (h : Host) (pos n : Nat) : h.room pos n ≤ n := by
  unfold room
  split
  · exact Nat.le_refl n
  · exact Nat.min_le_left _ _

/-- The host writes a front part of the bytes over one file, or nothing. -/
theorem Host.writeAt_eq (h : Host) (o : FileObject) (pos : Nat) (b : List UInt8) :
    (h.writeAt o pos b).1 ≤ b.length ∧
      ((h.writeAt o pos b).2.2 = h ∨ ∃ id, o = .file id ∧
        (h.writeAt o pos b).2.2 = h.overwrite id pos (b.take (h.writeAt o pos b).1)) := by
  unfold writeAt
  split
  · exact ⟨Nat.zero_le _, .inl rfl⟩
  · cases o with
    | device d =>
      cases d with
      | null => exact ⟨Nat.le_refl _, .inl rfl⟩
      | full => exact ⟨Nat.zero_le _, .inl rfl⟩
    | file id =>
      dsimp only
      split
      · exact ⟨Nat.zero_le _, .inl rfl⟩
      · exact ⟨h.room_le pos b.length, .inr ⟨id, rfl, rfl⟩⟩

theorem Service.stopped_of_write {s : Service} {fd : Fd} {data : List UInt8} {h : Handle}
    (hh : s.handle fd = .ok h) :
    s.Stopped fd data (({ s with host := (s.host.writeAt h.object h.cursor data).2.2 } :
      Service).moveCursor fd h (h.cursor + (s.host.writeAt h.object h.cursor data).1)) := by
  obtain ⟨hle, hhost⟩ := s.host.writeAt_eq h.object h.cursor data
  refine ⟨h, _, _, hh, hle, rfl, ?_⟩
  rcases hhost with hsame | ⟨id, hid, hover⟩
  · exact .inl hsame
  · rw [hover]
    unfold Host.overwrite
    cases hf : s.host.file? id with
    | none => exact .inl rfl
    | some f =>
      refine .inr ⟨id, f, _, hid, hf, rfl, rfl, ?_⟩
      dsimp only
      rw [Content.toList_write, List.length_take, Nat.min_eq_left hle]

/-! ## 2. One call -/

namespace Session

variable {c : Session} {s : Service} {q : Request}

/-- Where success has no negative code, a negative code comes from a failure. -/
theorem error_of_code_neg {α : Type} (code : Except FileError α → Int)
    (hok : ∀ a, 0 ≤ code (.ok a)) {r : Except FileError α} (h : code r < 0) :
    ∃ e, r = .error e := by
  cases r with
  | error e => exact ⟨e, rfl⟩
  | ok a => exact absurd (hok a) (Int.not_le.mpr h)

/-- The code of an outcome that counts. -/
def codeOfCount (r : Except FileError Nat) : Int := codeOf (fun n => (n : Int)) r

theorem state_openPath_of_neg (hissued : s.Issued) (hlast : s.table.last < maxDescriptor)
    {path : Option String} {mode : OpenMode} (hneg : (c.openPath s path mode).answer < 0) :
    (c.openPath s path mode).state = (c, s) := by
  rcases c.openPath_cases s path mode with ⟨e, -, -, -, hstate⟩ |
    ⟨-, -, -, hfull, -, -⟩ | ⟨f, host, fd, table, -, ht, hanswer, -⟩
  · exact hstate
  · exact absurd hlast (Int.not_lt.mpr hfull)
  · -- a descriptor that was issued is no failure
    obtain ⟨-, rfl, -⟩ := DescriptorTable.open?_eq_some_iff.mp ht
    rw [hanswer] at hneg
    exact absurd hissued.next_nonneg (Int.not_le.mpr hneg)

theorem state_close_of_neg {fd : Fd} (hneg : (c.close s fd).answer < 0) :
    (c.close s fd).state = (c, s) := by
  rcases c.close_cases s fd with ⟨-, -, hstate⟩ | ⟨f, table, -, hanswer, -⟩
  · exact hstate
  · rw [hanswer] at hneg
    exact absurd hneg (Int.lt_irrefl 0)

theorem answer_write_of_error {fd : Fd} {data : List UInt8} {e : FileError}
    (he : (s.write fd data).answer = .error e) : (c.write s fd data).answer = e.code := by
  show codeOfCount (s.write fd data).answer = _
  rw [he]
  rfl

theorem error_of_write_neg {fd : Fd} {data : List UInt8} (hneg : (c.write s fd data).answer < 0) :
    ∃ e, (s.write fd data).answer = .error e := by
  have hcode : codeOfCount (s.write fd data).answer < 0 := hneg
  exact error_of_code_neg codeOfCount Int.natCast_nonneg hcode

theorem state_write_of_neg {fd : Fd} {data : List UInt8} (hneg : (c.write s fd data).answer < 0)
    (hbusy : (c.write s fd data).answer ≠ -16) : (c.write s fd data).state = (c, s) := by
  show (c, (s.write fd data).state) = (c, s)
  obtain ⟨e, he⟩ := error_of_write_neg hneg
  rcases s.write_error_cases he with ⟨hstate, -⟩ | ⟨h, cause, rfl, -, -⟩
  · rw [hstate]
  · exact absurd (answer_write_of_error he) hbusy

theorem state_read_of_neg {fd : Fd} {capacity : Option Nat}
    (hneg : (c.read s fd capacity).answer.1 < 0) : (c.read s fd capacity).state = (c, s) := by
  show (c, (s.read fd capacity).state) = (c, s)
  have hcode : codeOf (fun b => (b.length : Int)) (s.read fd capacity).answer < 0 := hneg
  obtain ⟨e, he⟩ := error_of_code_neg _ (fun b => Int.natCast_nonneg b.length) hcode
  rcases s.read_cases fd capacity with ⟨e', hr⟩ | ⟨h, n, bytes, -, -, -, hr⟩
  · rw [hr]
    rfl
  · rw [hr] at he
    cases he

theorem state_seek_of_neg {fd : Fd} {offset : Int} {whence : Whence}
    (hneg : (c.seek s fd offset whence).answer < 0) :
    (c.seek s fd offset whence).state = (c, s) := by
  show (c, (s.seek fd offset whence).state) = (c, s)
  have hcode : codeOfCount (s.seek fd offset whence).answer < 0 := hneg
  obtain ⟨e, he⟩ := error_of_code_neg codeOfCount Int.natCast_nonneg hcode
  rcases s.seek_cases fd offset whence with ⟨e', hr⟩ | ⟨h, pos, -, hr⟩
  · rw [hr]
    rfl
  · rw [hr] at he
    cases he

theorem state_unlink_of_neg {path : Option String} (hneg : (c.unlink s path).answer < 0) :
    (c.unlink s path).state = (c, s) := by
  show (c, (s.unlink path).state) = (c, s)
  have hcode : codeOf (fun _ => 0) (s.unlink path).answer < 0 := hneg
  obtain ⟨e, he⟩ := error_of_code_neg _ (fun _ => Int.le_refl 0) hcode
  rcases s.unlink_cases path with ⟨e', -, hr⟩ | ⟨host, -, hr⟩
  · rw [hr]
    rfl
  · rw [hr] at he
    cases he

/-- **A call that fails leaves session and service as they were**, unless it is a write that the
host stopped. -/
theorem state_answer_of_neg (hissued : s.Issued) (hlast : s.table.last < maxDescriptor)
    (hneg : (c.answer s q).answer.result < 0)
    (hbusy : ∀ fd data, q = .write fd data → (c.answer s q).answer.result ≠ -16) :
    (c.answer s q).state = (c, s) := by
  cases q with
  | openPath path raw =>
    cases hraw : OpenMode.ofRaw? raw with
    | error u =>
      rw [answer_openPath_of_error c s path hraw]
      rfl
    | ok mode =>
      rw [answer_openPath_of_ok c s path hraw] at hneg ⊢
      exact state_openPath_of_neg hissued hlast hneg
  | seek fd offset raw =>
    cases hraw : Whence.ofRaw? raw with
    | error u =>
      rw [answer_seek_of_error c s fd offset hraw]
      rfl
    | ok whence =>
      rw [answer_seek_of_ok c s fd offset hraw] at hneg ⊢
      exact state_seek_of_neg hneg
  | close fd => exact state_close_of_neg hneg
  | write fd data => exact state_write_of_neg hneg (hbusy fd data rfl)
  | read fd capacity => exact state_read_of_neg hneg
  | unlink path => exact state_unlink_of_neg hneg
  | stat path => rfl
  | listDir fd nbytes base => rfl
  | dirTree path => rfl

/-- A write that answers that the descriptor is busy was stopped by the host. -/
theorem stopped_of_busy {fd : Fd} {data : List UInt8} (hbusy : (c.write s fd data).answer = -16) :
    s.Stopped fd data (s.write fd data).state := by
  have hneg : (c.write s fd data).answer < 0 := by
    rw [hbusy]
    decide
  obtain ⟨e, he⟩ := error_of_write_neg hneg
  rcases s.write_error_cases he with ⟨-, herrno⟩ | ⟨h, cause, -, hh, hstate⟩
  · have hsame : e.errno.neg = Errno.busy.neg := (answer_write_of_error he).symm.trans hbusy
    exact absurd (Errno.neg_inj hsame) herrno
  · rw [hstate]
    exact Service.stopped_of_write hh

end Session

/-! ## 3. Every state -/

/-- **What fails changes nothing.** In every state that a history leads to, with a descriptor left
to issue: a call that answers with a failure leaves the whole hub as it was, its host, its table and
the sessions, unless it is a write that answers -16. And that changes no more than the file it
writes, from the cursor on, and its own cursor. -/
theorem failed_calls_change_nothing {settings : Settings} {host : Host} {notes : List Note}
    {b : Hub} (h : Hub.Recorded settings host notes b)
    (hlast : b.service.table.last < maxDescriptor) (id : Nat) (q : Request) {r : Response}
    (hanswer : (b.call id q).answer = some r) (hneg : r.result < 0) :
    ((∀ fd data, q = .write fd data → r.result ≠ -16) → (b.call id q).state = b) ∧
    (∀ fd data, q = .write fd data → r.result = -16 →
      ∃ s', b.service.Stopped fd data s' ∧ (b.call id q).state = { b with service := s' }) := by
  cases hc : b.session? id with
  | none =>
    unfold Hub.call at hanswer
    rw [hc] at hanswer
    cases hanswer
  | some c =>
    have hcall := Hub.step_call hc q
    have hsome : some (c.answer b.service q).answer = some r :=
      (congrArg Prod.fst hcall).symm.trans hanswer
    obtain rfl := Option.some.inj hsome
    have hstate : (b.call id q).state = ⟨(c.answer b.service q).state.2,
        b.sessions.insert id (c.answer b.service q).state.1⟩ := congrArg Prod.snd hcall
    have hsame : b.sessions.insert id c = b.sessions := Dictionary.insert_of_get? hc
    refine ⟨fun hbusy => ?_, ?_⟩
    · rw [hstate, Session.state_answer_of_neg h.issued hlast hneg hbusy, hsame]
    · rintro fd data rfl hbusy
      have hcode : (c.write b.service fd data).answer = -16 := hbusy
      refine ⟨(b.service.write fd data).state, Session.stopped_of_busy hcode, hstate.trans ?_⟩
      show (⟨_, b.sessions.insert id c⟩ : Hub) = _
      rw [hsame]
      rfl

/-- The hub in which session 1 holds `f`, on a host that has no room behind the second byte. -/
def Hub.reopenedTight : Hub :=
  { reopened 4 false with
    service := { (reopened 4 false).service with
      host := { Host.fourBytes with writeLimit := some 2 } } }

/-- There, closing a descriptor that is closed changes nothing, and a write of four bytes leaves
two. -/
theorem failed_calls_change_nothing_tight :
    let b := Hub.reopenedTight
    let r := b.call 1 (.write 1002 [1, 2, 3, 4])
    (b.call 1 (.close 1001)).answer = some (.status (-9)) ∧ (b.call 1 (.close 1001)).state = b ∧
      r.answer = some (.status (-16)) ∧
      (∃ s', b.service.Stopped 1002 [1, 2, 3, 4] s' ∧ r.state = { b with service := s' }) ∧
      (r.state.service.host.contentOf 0).toList = [1, 2, 0x63, 0x64] := by
  intro b r
  have hrecorded := (recorded_reopening 4 false).outside
    { Host.fourBytes with writeLimit := some 2 }
  have hlast : b.service.table.last < maxDescriptor := by decide
  have hclose : (b.call 1 (.close 1001)).answer = some (.status (-9)) := rfl
  have hwrite : r.answer = some (.status (-16)) := rfl
  obtain ⟨hsame, -⟩ := failed_calls_change_nothing hrecorded hlast 1 _ hclose (by decide)
  obtain ⟨-, hstopped⟩ := failed_calls_change_nothing hrecorded hlast 1 _ hwrite (by decide)
  exact ⟨hclose, hsame fun _ _ hq => (by cases hq), hwrite, hstopped 1002 _ rfl rfl, rfl⟩

end Telefile
