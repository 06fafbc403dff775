import Telefile.Proofs.Lifetime.Holdings

/-!
# Where what a descriptor stands for comes from

A descriptor stands for what it was opened as. Calls on it may move its cursor, and nothing else
that happens changes what it stands for, as long as it is live.

* `Service.Kept` — what a descriptor stands for, but for its cursor, it stood for before;
* **`Hub.stands_step`** — over every event that is so, or the event was an open that issued it.
-/

namespace Telefile

/-- What `fd` stands for now is the file `f`: the same as at the service `s`, or with another
cursor. -/
inductive Service.Kept (s : Service) (fd : Fd) (f : OpenFile) : Prop
  | same (hl : s.table.lookup fd = some f)
  | moved {h : Handle} {pos : Nat} (hl : s.table.lookup fd = some (.file h))
    (hf : f = .file { h with cursor := Host.settle h.object pos })

namespace Service

variable {s : Service} {fd : Fd} {f : OpenFile}

theorem kept_of_moveCursor {q : Fd} {h : Handle} {host : Host} {pos : Nat}
    (hh : s.handle q = .ok h)
    (hl : (({ s with host } : Service).moveCursor q h pos).table.lookup fd = some f) :
    s.Kept fd f := by
  rw [lookup_moveCursor] at hl
  by_cases hq : fd = q
  · rw [if_pos hq] at hl
    exact .moved (hq ▸ handle_ok hh) (Option.some.inj hl).symm
  · rw [if_neg hq] at hl
    exact .same hl

theorem kept_of_released {s' : Service} {fds : List Fd} (h : Session.Released fds s s')
    (hl : s'.table.lookup fd = some f) : s.Kept fd f := by
  have hreleased := h.lookup fd
  rw [hl] at hreleased
  split at hreleased
  · cases hreleased
  · exact .same hreleased.symm

theorem kept_write (q : Fd) (data : List UInt8)
    (hl : (s.write q data).state.table.lookup fd = some f) : s.Kept fd f := by
  rcases s.write_cases q data with ⟨e, hr⟩ | ⟨h, answer, hh, -, -, hr⟩ <;> rw [hr] at hl
  · exact .same hl
  · exact kept_of_moveCursor hh hl

theorem kept_read (q : Fd) (capacity : Option Nat)
    (hl : (s.read q capacity).state.table.lookup fd = some f) : s.Kept fd f := by
  rcases s.read_cases q capacity with ⟨e, hr⟩ | ⟨h, n, bytes, hh, -, -, hr⟩ <;> rw [hr] at hl
  · exact .same hl
  · exact kept_of_moveCursor hh hl

theorem kept_seek (q : Fd) (offset : Int) (whence : Whence)
    (hl : (s.seek q offset whence).state.table.lookup fd = some f) : s.Kept fd f := by
  rcases s.seek_cases q offset whence with ⟨e, hr⟩ | ⟨h, pos, hh, hr⟩ <;> rw [hr] at hl
  · exact .same hl
  · exact kept_of_moveCursor hh hl

theorem kept_unlink (path : Option String)
    (hl : (s.unlink path).state.table.lookup fd = some f) : s.Kept fd f := by
  rcases s.unlink_cases path with ⟨e, -, hr⟩ | ⟨host, -, hr⟩ <;> rw [hr] at hl <;> exact .same hl

theorem kept_finish (c : Session) (hl : (c.finish s).state.table.lookup fd = some f) :
    s.Kept fd f := by
  cases hcleanup : s.settings.closeOnSessionEnd with
  | false =>
    rw [c.finish_of_no_cleanup s hcleanup] at hl
    exact .same hl
  | true => exact kept_of_released (c.finish_of_cleanup s hcleanup) hl

end Service

/-- An open issues a descriptor of what it has prepared, and keeps the others. -/
theorem Session.stands_openPath {c : Session} {s : Service} {fd : Fd} {f : OpenFile}
    (path : Option String) (raw : Nat)
    (hl : (c.answer s (.openPath path raw)).state.2.table.lookup fd = some f) :
    s.Kept fd f ∨ (c.answer s (.openPath path raw)).answer = .status fd ∧
      ∃ mode after, OpenMode.ofRaw? raw = .ok mode ∧ s.prepare path mode = .ok (f, after) := by
  cases hraw : OpenMode.ofRaw? raw with
  | error u =>
    rw [answer_openPath_of_error c s path hraw] at hl
    exact .inl (.same hl)
  | ok mode =>
    rw [answer_openPath_of_ok c s path hraw] at hl ⊢
    unfold respond at hl ⊢
    rcases c.openPath_cases s path mode with ⟨e, -, -, -, hstate⟩ |
      ⟨-, host, -, -, -, hstate⟩ | ⟨g, host, q, table, hp, ht, hanswer, hstate⟩
    · rw [hstate] at hl
      exact .inl (.same hl)
    · rw [hstate] at hl
      exact .inl (.same hl)
    · rw [hstate] at hl
      rw [hanswer]
      obtain ⟨-, rfl, rfl⟩ := DescriptorTable.open?_eq_some_iff.mp ht
      have hlookup : (if fd = s.table.last + 1 then some g else s.table.lookup fd) = some f :=
        (DescriptorTable.lookup_insert _ _ fd g).symm.trans hl
      by_cases hq : fd = s.table.last + 1
      · rw [if_pos hq] at hlookup
        cases hlookup
        exact .inr ⟨congrArg Response.status hq.symm, mode, host, rfl, hp⟩
      · rw [if_neg hq] at hlookup
        exact .inl (.same hlookup)

/-- **What a live descriptor stands for** it stood for before an event, but for its cursor, or the
event was an open that issued it. -/
theorem Hub.stands_step {b : Hub} {fd : Fd} {f : OpenFile} (e : HubEvent)
    (hl : (b.step e).2.service.table.lookup fd = some f) :
    b.service.Kept fd f ∨ (b.step e).1 = some (.status fd) ∧
      ∃ id path raw mode after, e = .call id (.openPath path raw) ∧
        OpenMode.ofRaw? raw = .ok mode ∧ b.service.prepare path mode = .ok (f, after) := by
  cases e with
  | join => exact .inl (.same hl)
  | leave id =>
    have hl : (b.leave id).state.service.table.lookup fd = some f := hl
    cases hc : b.session? id with
    | none =>
      rw [leave_of_ended hc] at hl
      exact .inl (.same hl)
    | some c =>
      rw [leave_of_session hc] at hl
      exact .inl (Service.kept_finish c hl)
  | call id q =>
    cases hc : b.session? id with
    | none =>
      rw [step_call_ended hc] at hl
      exact .inl (.same hl)
    | some c =>
      rw [step_call hc] at hl ⊢
      cases q with
      | openPath path raw =>
        rcases Session.stands_openPath path raw hl with hkept | ⟨hanswer, mode, after, hraw, hp⟩
        · exact .inl hkept
        · exact .inr ⟨congrArg some hanswer, id, path, raw, mode, after, rfl, hraw, hp⟩
      | close q => exact .inl (Service.kept_of_released (Session.released_close b.service q) hl)
      | write q data => exact .inl (Service.kept_write q data hl)
      | read q capacity => exact .inl (Service.kept_read q capacity hl)
      | seek q offset raw =>
        cases hraw : Whence.ofRaw? raw with
        | error u =>
          rw [c.answer_seek_of_error b.service q offset hraw] at hl
          exact .inl (.same hl)
        | ok whence =>
          rw [c.answer_seek_of_ok b.service q offset hraw] at hl
          exact .inl (Service.kept_seek q offset whence hl)
      | unlink path => exact .inl (Service.kept_unlink path hl)
      | stat path => exact .inl (.same hl)
      | listDir q nbytes base => exact .inl (.same hl)
      | dirTree path => exact .inl (.same hl)

end Telefile
