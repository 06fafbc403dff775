import Telefile.Proofs.Events
import Telefile.Proofs.Files.Writing
import Telefile.Proofs.Samples

/-!
# Cursors are private

Where the cursor behind a descriptor stands can be told from the answers that were given on that
descriptor alone. Nothing done through another descriptor moves it, on the same file or not, and
nothing done by path.

* `Note.advance`, `cursorTold` — where a cursor stands, by what is on record of its descriptor;
* `Service.Traced` — where the handle behind a descriptor comes from, over one event;
* `Hub.traced_step` — every event traces every handle;
* **`Hub.cursors_are_private`** — a cursor stands where it is told to stand, and a seek says so;
* `Hub.cursors_are_private_sharing` — two descriptors on one file.
-/

namespace Telefile

/-! ## 1. What a record says of a cursor -/

/-- Where the cursor behind `fd` stands after an event, if it stood at `pos` before: at the start
when the descriptor is got, where a seek says, and further by what was read or written. What fails
does not move it. -/
def Note.advance (fd : Fd) (pos : Int) (n : Note) : Int :=
  match n.event, n.response with
  | .call _ (.openPath ..), some (.status r) => if r = fd then 0 else pos
  | .call _ (.seek q ..), some (.status r) => if q = fd ∧ 0 ≤ r then r else pos
  | .call _ (.read q _), some (.data r _) => if q = fd ∧ 0 ≤ r then pos + r else pos
  | .call _ (.write q _), some (.status r) => if q = fd ∧ 0 ≤ r then pos + r else pos
  | _, _ => pos

/-- Where the cursor behind `fd` stands, as a record tells it. -/
def cursorTold (fd : Fd) (notes : List Note) : Int := notes.foldl (Note.advance fd) 0

theorem cursorTold_snoc (fd : Fd) (notes : List Note) (n : Note) :
    cursorTold fd (notes ++ [n]) = n.advance fd (cursorTold fd notes) :=
  List.foldl_append ..

/-- The note of a write to `fd` that the host stopped. -/
def Note.Stopped (fd : Fd) (n : Note) : Prop :=
  ∃ id data, n = ⟨.call id (.write fd data), some (.status (-16))⟩

/-- The note of an open that issued `fd` under a mode. -/
def Note.Opens (fd : Fd) (mode : OpenMode) (n : Note) : Prop :=
  ∃ id path, n = ⟨.call id (.openPath path mode.toRaw), some (.status fd)⟩

/-! ## 2. Where a handle comes from -/

/-- Where the handle `h'` behind `fd` comes from, over an event at the service `s`: it has just been
opened, or it was there before, and its cursor has moved as the note tells. -/
inductive Service.Traced (s : Service) (fd : Fd) (n : Note) (h' : Handle) : Prop
  | opened {mode} (hn : n.Opens fd mode) (haccess : h'.access = mode.access)
    (hcursor : h'.cursor = 0)
  | kept {h} (hl : s.table.lookup fd = some (.file h)) (haccess : h'.access = h.access)
    (hobject : h'.object = h.object)
    (hcursor : ∀ id, h.object = .file id → ¬ n.Stopped fd →
      (h'.cursor : Int) = n.advance fd h.cursor)

section Trace

variable {s : Service} {fd : Fd} {n : Note} {h' : Handle}

/-- What is not touched stays. -/
theorem Service.Traced.same (hl : s.table.lookup fd = some (.file h'))
    (hn : ∀ pos, n.advance fd pos = pos) : s.Traced fd n h' :=
  .kept hl rfl rfl fun _ _ _ => (hn h'.cursor).symm

/-- The cursor behind `q` is sent to `pos`, and no other. -/
theorem Service.Traced.move {q : Fd} {h : Handle} {host : Host} {pos : Nat}
    (hh : s.handle q = .ok h)
    (hl : (({ s with host } : Service).moveCursor q h pos).table.lookup fd = some (.file h'))
    (hother : fd ≠ q → ∀ pos, n.advance fd pos = pos)
    (hself : ∀ id, h.object = .file id → ¬ n.Stopped q → (pos : Int) = n.advance q h.cursor) :
    s.Traced fd n h' := by
  rw [lookup_moveCursor] at hl
  by_cases hq : fd = q
  · subst hq
    rw [if_pos rfl] at hl
    cases hl
    refine .kept (handle_ok hh) rfl rfl fun id hid hstopped => ?_
    rw [← hself id hid hstopped]
    exact congrArg Int.ofNat (settle_file hid pos)
  · rw [if_neg hq] at hl
    exact .same hl (hother hq)

/-- What a file is opened with under a mode. -/
theorem Service.fresh_of_prepare {path : Option String} {mode : OpenMode} {after : Host}
    (hp : s.prepare path mode = .ok (.file h', after)) :
    h'.access = mode.access ∧ h'.cursor = 0 := by
  obtain ⟨given, full, -, -, hopen⟩ := prepare_ok hp
  rcases openAs_cases hopen with ⟨_, -, -, hf, -⟩ | ⟨o, -, hf, -⟩ | ⟨_, o, -, haccess, hf⟩
  · cases hf
  · cases hf
    exact ⟨rfl, rfl⟩
  · cases hf
    exact ⟨haccess.symm, rfl⟩

end Trace

/-! ## 3. Every event -/

namespace Session

variable {c : Session} {s : Service} {fd : Fd} {h' : Handle} {id : Nat}

/-- A code of a failure does not move a cursor. -/
theorem advance_write_of_error (q : Fd) (data : List UInt8) (e : FileError) (pos : Int) :
    Note.advance fd pos ⟨.call id (.write q data), some (.status e.code)⟩ = pos :=
  if_neg fun hand => Int.not_le.mpr e.code_neg hand.2

theorem traced_openPath (hfd : 0 ≤ fd) (path : Option String) (raw : Nat)
    (hl : (c.answer s (.openPath path raw)).state.2.table.lookup fd = some (.file h')) :
    s.Traced fd ⟨.call id (.openPath path raw), some (c.answer s (.openPath path raw)).answer⟩
      h' := by
  have hfailed : ∀ {r : Int}, r < 0 → ∀ pos,
      Note.advance fd pos ⟨.call id (.openPath path raw), some (.status r)⟩ = pos := by
    intro r hr pos
    exact if_neg fun hand : r = fd => Int.not_le.mpr hr (hand ▸ hfd)
  cases hraw : OpenMode.ofRaw? raw with
  | error u =>
    rw [answer_openPath_of_error c s path hraw] at hl ⊢
    exact .same hl (hfailed (by decide))
  | ok mode =>
    rw [answer_openPath_of_ok c s path hraw] at hl ⊢
    unfold respond at hl ⊢
    rcases c.openPath_cases s path mode with ⟨e, -, -, hanswer, hstate⟩ |
      ⟨-, host, -, -, hanswer, hstate⟩ | ⟨f, host, q, table, hp, ht, hanswer, hstate⟩
    · rw [hstate] at hl
      rw [hanswer]
      exact .same hl (hfailed e.code_neg)
    · rw [hstate] at hl
      rw [hanswer]
      exact .same hl (hfailed FileError.descriptorsExhausted.code_neg)
    · rw [hstate] at hl
      rw [hanswer]
      obtain ⟨-, rfl, rfl⟩ := DescriptorTable.open?_eq_some_iff.mp ht
      have hlookup : (if fd = s.table.last + 1 then some f else s.table.lookup fd) =
          some (.file h') := (DescriptorTable.lookup_insert _ _ fd f).symm.trans hl
      by_cases hq : fd = s.table.last + 1
      · rw [if_pos hq] at hlookup
        cases hlookup
        obtain ⟨haccess, hcursor⟩ := Service.fresh_of_prepare hp
        refine .opened ⟨id, path, ?_⟩ haccess hcursor
        rw [← hq, OpenMode.eq_toRaw_of_ofRaw? hraw]
      · rw [if_neg hq] at hlookup
        exact .same hlookup fun pos => if_neg (Ne.symm hq)

theorem traced_write (q : Fd) (data : List UInt8)
    (hl : (s.write q data).state.table.lookup fd = some (.file h')) :
    s.Traced fd ⟨.call id (.write q data), some (c.answer s (.write q data)).answer⟩ h' := by
  show s.Traced fd ⟨_, some (.status (codeOfCount (s.write q data).answer))⟩ h'
  have hother : fd ≠ q → ∀ (r pos : Int),
      Note.advance fd pos ⟨.call id (.write q data), some (.status r)⟩ = pos :=
    fun hne _ _ => if_neg fun hand => hne hand.1.symm
  rcases s.write_cases q data with ⟨e, hr⟩ | ⟨h, -, hh, ha, -, -⟩
  · rw [hr] at hl ⊢
    exact .same hl (advance_write_of_error q data e)
  · rcases hw : s.host.writeAt h.object h.cursor data with ⟨n, _ | cause, host⟩
    · rw [Service.write_of_done hh ha hw] at hl ⊢
      refine .move hh hl (fun hne => hother hne _) fun id hid _ => ?_
      rw [hid] at hw
      rw [Host.length_of_writeAt_done hw]
      exact (if_pos ⟨rfl, Int.natCast_nonneg _⟩).symm
    · rw [Service.write_of_stopped hh ha hw] at hl ⊢
      refine .move hh hl (fun hne => hother hne _) fun _ _ hstopped => ?_
      exact absurd ⟨id, data, rfl⟩ hstopped

theorem traced_read (q : Fd) (capacity : Option Nat)
    (hl : (s.read q capacity).state.table.lookup fd = some (.file h')) :
    s.Traced fd ⟨.call id (.read q capacity), some (c.answer s (.read q capacity)).answer⟩ h' := by
  show s.Traced fd ⟨_, some (.data (codeOf (fun b => (b.length : Int)) (s.read q capacity).answer)
    _)⟩ h'
  rcases s.read_cases q capacity with ⟨e, hr⟩ | ⟨h, n, bytes, hh, -, -, hr⟩ <;> rw [hr] at hl ⊢
  · exact .same hl fun pos => if_neg fun hand => Int.not_le.mpr e.code_neg hand.2
  · refine .move hh hl (fun hne pos => if_neg fun hand => hne hand.1.symm) fun _ _ _ => ?_
    exact (if_pos ⟨rfl, Int.natCast_nonneg _⟩).symm

theorem traced_seek (q : Fd) (offset : Int) (raw : Nat)
    (hl : (c.answer s (.seek q offset raw)).state.2.table.lookup fd = some (.file h')) :
    s.Traced fd ⟨.call id (.seek q offset raw), some (c.answer s (.seek q offset raw)).answer⟩
      h' := by
  have hfailed : ∀ {r : Int}, r < 0 → ∀ pos,
      Note.advance fd pos ⟨.call id (.seek q offset raw), some (.status r)⟩ = pos :=
    fun hr _ => if_neg fun hand => Int.not_le.mpr hr hand.2
  cases hraw : Whence.ofRaw? raw with
  | error u =>
    rw [answer_seek_of_error c s q offset hraw] at hl ⊢
    exact .same hl (hfailed (by decide))
  | ok whence =>
    rw [answer_seek_of_ok c s q offset hraw] at hl ⊢
    have hl : (s.seek q offset whence).state.table.lookup fd = some (.file h') := hl
    show s.Traced fd ⟨_, some (.status (codeOfCount (s.seek q offset whence).answer))⟩ h'
    rcases s.seek_cases q offset whence with ⟨e, hr⟩ | ⟨h, pos, hh, hr⟩ <;> rw [hr] at hl ⊢
    · exact .same hl (hfailed e.code_neg)
    · refine .move hh hl (fun hne pos => if_neg fun hand => hne hand.1.symm)
        fun id' hid _ => ?_
      rw [hid]
      exact (if_pos ⟨rfl, Int.natCast_nonneg _⟩).symm

theorem traced_close (q : Fd) (hl : (s.close q).state.table.lookup fd = some (.file h'))
    (r : Option Response) : s.Traced fd ⟨.call id (.close q), r⟩ h' := by
  refine .same ?_ fun _ => rfl
  have hreleased := (released_close s q).lookup fd
  rw [hl] at hreleased
  split at hreleased
  · cases hreleased
  · exact hreleased.symm

theorem traced_unlink (path : Option String)
    (hl : (s.unlink path).state.table.lookup fd = some (.file h')) (r : Option Response) :
    s.Traced fd ⟨.call id (.unlink path), r⟩ h' := by
  rcases s.unlink_cases path with ⟨e, -, hr⟩ | ⟨host, -, hr⟩ <;> rw [hr] at hl <;>
    exact .same hl fun _ => rfl

theorem traced_finish (hl : (c.finish s).state.table.lookup fd = some (.file h')) :
    s.Traced fd ⟨.leave id, none⟩ h' := by
  refine .same ?_ fun _ => rfl
  cases hcleanup : s.settings.closeOnSessionEnd with
  | false =>
    rw [c.finish_of_no_cleanup s hcleanup] at hl
    exact hl
  | true =>
    have hreleased := (c.finish_of_cleanup s hcleanup).lookup fd
    rw [hl] at hreleased
    split at hreleased
    · cases hreleased
    · exact hreleased.symm

end Session

namespace Hub

variable {settings : Settings} {host : Host} {notes : List Note} {b : Hub} {fd : Fd} {hd : Handle}

/-- **Every event traces every handle.** -/
theorem traced_step (hfd : 0 ≤ fd) (e : HubEvent)
    (hl : (b.step e).2.service.table.lookup fd = some (.file hd)) :
    b.service.Traced fd ⟨e, (b.step e).1⟩ hd := by
  cases e with
  | join => exact .same hl fun _ => rfl
  | leave id =>
    have hl : (b.leave id).state.service.table.lookup fd = some (.file hd) := hl
    cases hc : b.session? id with
    | none =>
      rw [leave_of_ended hc] at hl
      exact .same hl fun _ => rfl
    | some c =>
      rw [leave_of_session hc] at hl
      exact Session.traced_finish hl
  | call id q =>
    cases hc : b.session? id with
    | none =>
      rw [step_call_ended hc] at hl ⊢
      refine .same hl fun _ => ?_
      cases q <;> rfl
    | some c =>
      rw [step_call hc] at hl ⊢
      cases q with
      | openPath path raw => exact Session.traced_openPath hfd path raw hl
      | close q => exact Session.traced_close q hl _
      | write q data => exact Session.traced_write q data hl
      | read q capacity => exact Session.traced_read q capacity hl
      | seek q offset raw => exact Session.traced_seek q offset raw hl
      | unlink path => exact Session.traced_unlink path hl _
      | stat path => exact .same hl fun _ => rfl
      | listDir q nbytes base => exact .same hl fun _ => rfl
      | dirTree path => exact .same hl fun _ => rfl

theorem Recorded.live_nonneg (h : Recorded settings host notes b) {f : OpenFile}
    (hl : b.service.table.lookup fd = some f) : 0 ≤ fd := by
  have hlive : (b.service.table.lookup fd).isSome := by
    rw [hl]
    rfl
  obtain ⟨id, hheld⟩ := h.accounts.live.mp hlive
  have hissued : fd ∈ issuedIn (effects notes) := List.mem_filterMap.mpr ⟨_, hheld.issued_mem, rfl⟩
  have hbase : (0 : Int) ≤ descriptorBase := by decide
  exact Int.le_trans hbase (Int.le_of_lt (h.accounts.above hissued))

/-! ## 4. Over histories -/

/-- A cursor stands where the record tells it to stand. -/
theorem Recorded.cursor_eq (h : Recorded settings host notes b) :
    ∀ {hd : Handle} {id : FileId}, b.service.table.lookup fd = some (.file hd) →
      hd.object = .file id → (∀ n ∈ notes, ¬ n.Stopped fd) →
      (hd.cursor : Int) = cursorTold fd notes := by
  induction h with
  | start =>
    intro hd id hl
    rw [lookup_start] at hl
    cases hl
  | @event notes b e h ih =>
    intro hd id hl hid hstopped
    have hfd := (h.event e).live_nonneg hl
    rw [cursorTold_snoc]
    cases traced_step hfd e hl with
    | opened hn _ hcursor =>
      obtain ⟨_, _, hn⟩ := hn
      rw [hn, hcursor]
      exact (if_pos rfl).symm
    | kept hl' _ hobject hcursor =>
      rw [hobject] at hid
      have hnow := hstopped _ (List.mem_append_right _ List.mem_cons_self)
      rw [hcursor id hid hnow, ih hl' hid fun n hn => hstopped n (List.mem_append_left _ hn)]
  | outside other _ ih => exact ih

/-- What a seek by nothing from where it stands says of a cursor. -/
theorem answer_seek_current (c : Session) {s : Service} {id : FileId}
    (hl : s.table.lookup fd = some (.file hd)) (hid : hd.object = .file id) :
    (c.seek s fd 0 .current).answer =
      if (hd.cursor : Int) ≤ Service.maxPosition then (hd.cursor : Int) else -22 := by
  have hh := Service.handle_of_file hl
  show Session.codeOfCount (s.seek fd 0 .current).answer = _
  by_cases hmax : (hd.cursor : Int) ≤ Service.maxPosition
  · have htarget : Service.seekTarget (s.baseOf hd .current) 0 = .ok hd.cursor :=
      Service.seekTarget_of_le hmax (Int.add_zero _) hmax
    rw [Service.seek_of_handle hh, htarget, if_pos hmax, hid]
    rfl
  · have htarget : Service.seekTarget (s.baseOf hd .current) 0 = .error _ :=
      Service.seekTarget_of_lt 0 (Int.not_le.mp hmax)
    rw [Service.seek_of_handle hh, htarget, if_neg hmax]
    rfl

/-- **Cursors are private.** In every state that a history leads to, the cursor behind a descriptor
of a file on which no write was stopped stands where the answers on that descriptor tell: at the
start after its open, where a seek said, and further by what reads and writes said. Any session that
asks by a seek gets just that, as far as positions go. -/
theorem cursors_are_private (h : Recorded settings host notes b) {id : FileId}
    (hl : b.service.table.lookup fd = some (.file hd)) (hid : hd.object = .file id)
    (hstopped : ∀ n ∈ notes, ¬ n.Stopped fd) :
    (hd.cursor : Int) = cursorTold fd notes ∧ ∀ c : Session,
      (c.seek b.service fd 0 .current).answer =
        if cursorTold fd notes ≤ Service.maxPosition then cursorTold fd notes else -22 := by
  have hcursor := h.cursor_eq hl hid hstopped
  refine ⟨hcursor, fun c => ?_⟩
  rw [← hcursor]
  exact answer_seek_current c hl hid

end Hub

/-! ## 5. Two descriptors on one file -/

/-- The cursor behind 1002 stands where its read left it. -/
theorem Hub.cursors_are_private_sharing :
    let notes := recordOfSharing ++ sharing.notesOf sharedUse
    let s := (sharing.run sharedUse).2.service
    Recorded ⟨none, 4, false⟩ Host.fourBytes notes (sharing.run sharedUse).2 ∧
      s.table.lookup 1002 =
        some (.file ⟨Path.ofString "f", .readWrite, .file 0, 3⟩) ∧
      (∀ n ∈ notes, ¬ n.Stopped 1002) ∧ cursorTold 1002 notes = 3 ∧
      ∀ c : Session, (c.seek s 1002 0 .current).answer = 3 := by
  intro notes s
  have hrecorded := recorded_sharing.run sharedUse
  have hnotes : notes = [⟨.join, none⟩, ⟨.join, none⟩, ⟨.call 1 .openF, some (.status 1001)⟩,
      ⟨.call 2 (.close 1001), some (.status 0)⟩, ⟨.call 1 .openF, some (.status 1002)⟩,
      ⟨.call 1 .openF, some (.status 1003)⟩, ⟨.call 2 (.write 1003 [1, 2]), some (.status 2)⟩,
      ⟨.call 1 (.read 1002 (some 3)), some (.data 3 [1, 2, 0x63])⟩,
      ⟨.call 2 (.seek 1002 (-5) Whence.current.toRaw), some (.status (-16))⟩] := by
    show recordOfSharing ++ _ = _
    unfold recordOfSharing recordOfReopening Hub.notesOf
    rw [run_reopening]
    rfl
  have hl : s.table.lookup 1002 = some (.file ⟨Path.ofString "f", .readWrite, .file 0, 3⟩) := rfl
  have hstopped : ∀ n ∈ notes, ¬ n.Stopped 1002 := by
    rw [hnotes]
    rintro n hn ⟨id, data, rfl⟩
    simp [Request.openF] at hn
  have htold : cursorTold 1002 notes = 3 := by
    rw [hnotes]
    rfl
  obtain ⟨-, hseek⟩ := cursors_are_private hrecorded hl rfl hstopped
  rw [htold] at hseek
  exact ⟨hrecorded, hl, hstopped, htold, hseek⟩

end Telefile
