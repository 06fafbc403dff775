import Telefile.Proofs.Confinement.Operations
import Telefile.Proofs.Lifetime.Holdings

/-!
# What one event does to the host

An open may add a file, an unlink removes an entry that is no directory, a write goes to one file,
and nothing else that clients do changes the host.

* `Hub.Tends` — what becomes of the host, one constructor for each kind of change;
* **`Hub.tends_step`** — every event does one of these.
-/

namespace Telefile

/-- What the event `e` at the hub `b`, answered by `r`, makes of the host. -/
inductive Hub.Tends (b : Hub) : HubEvent → Option Response → Host → Prop
  | same {e r} : Tends b e r b.service.host
  /-- An open adds an empty file where nothing was. -/
  | added {id path raw r dir n} (hvacant : b.service.host.entryAt? (dir ++ [n]) = none) :
    Tends b (.call id (.openPath path raw)) r
      ((b.service.host.addFile (dir ++ [n])).2.touch dir)
  /-- An unlink that succeeds removes an entry. -/
  | removed {id path l x} (hx : b.service.host.entryAt? l = some x) (hfile : x.isDir = false) :
    Tends b (.call id (.unlink path)) (some (.status 0))
      ((b.service.host.eraseEntry l).touch l.dropLast)
  /-- A write goes to what was opened for writing. -/
  | written {id fd data r h} (hh : b.service.handle fd = .ok h) (ha : h.access = .readWrite) :
    Tends b (.call id (.write fd data)) r (b.service.host.writeAt h.object h.cursor data).2.2

theorem Session.host_finish (c : Session) (s : Service) : (c.finish s).state.host = s.host := by
  cases hcleanup : s.settings.closeOnSessionEnd with
  | false => rw [c.finish_of_no_cleanup s hcleanup]
  | true => rw [(c.finish_of_cleanup s hcleanup).same]

namespace Hub

variable {b : Hub} {id : Nat} {c : Session}

theorem tends_of_prepare {path : Option String} {raw : Nat} {mode : OpenMode} {f : OpenFile}
    {after : Host} {r : Option Response} (hp : b.service.prepare path mode = .ok (f, after)) :
    b.Tends (.call id (.openPath path raw)) r after := by
  obtain ⟨given, full, -, hopening⟩ := Service.opening_of_prepare hp
  cases hopening with
  | found _ _ _ => exact .same
  | created _ hvacant => exact .added hvacant

theorem tends_openPath (path : Option String) (raw : Nat) :
    b.Tends (.call id (.openPath path raw))
      (some (c.answer b.service (.openPath path raw)).answer)
      (c.answer b.service (.openPath path raw)).state.2.host := by
  cases hraw : OpenMode.ofRaw? raw with
  | error u =>
    rw [c.answer_openPath_of_error b.service path hraw]
    exact .same
  | ok mode =>
    rw [c.answer_openPath_of_ok b.service path hraw]
    show b.Tends _ _ (c.openPath b.service path mode).state.2.host
    rw [Session.openPath_service]
    rcases b.service.openPath_cases path mode with ⟨e, log, -, hr⟩ | ⟨f, host, hp, -, hr⟩ |
      ⟨f, host, fd, table, hp, -, hr⟩ <;> rw [hr]
    · exact .same
    · exact tends_of_prepare hp
    · exact tends_of_prepare hp

theorem tends_unlink (path : Option String) :
    b.Tends (.call id (.unlink path)) (some (c.answer b.service (.unlink path)).answer)
      (c.answer b.service (.unlink path)).state.2.host := by
  show b.Tends _ (some (.status (Session.codeOf (fun _ => 0) (b.service.unlink path).answer)))
    (b.service.unlink path).state.host
  rcases b.service.unlink_cases path with ⟨e, -, hr⟩ | ⟨host, hremoved, hr⟩ <;> rw [hr]
  · exact .same
  · obtain ⟨given, full, l, x, -, -, hl, hfile, -, rfl⟩ := Service.removed_ok hremoved
    exact .removed (Host.entryAt?_of_lookup hl) hfile

theorem tends_write (fd : Fd) (data : List UInt8) :
    b.Tends (.call id (.write fd data)) (some (c.answer b.service (.write fd data)).answer)
      (c.answer b.service (.write fd data)).state.2.host := by
  show b.Tends _ _ (b.service.write fd data).state.host
  rcases b.service.write_cases fd data with ⟨e, hr⟩ | ⟨h, answer, hh, ha, -, hr⟩ <;> rw [hr]
  · exact .same
  · exact .written hh ha

/-- **Every event** tends the host in one of these ways. -/
theorem tends_step (b : Hub) (e : HubEvent) :
    b.Tends e (b.step e).1 (b.step e).2.service.host := by
  cases e with
  | join => exact .same
  | leave id =>
    show b.Tends _ _ (b.leave id).state.service.host
    cases hc : b.session? id with
    | none =>
      rw [leave_of_ended hc]
      exact .same
    | some c =>
      rw [leave_of_session hc]
      show b.Tends _ _ (c.finish b.service).state.host
      rw [c.host_finish b.service]
      exact .same
  | call id q =>
    cases hc : b.session? id with
    | none =>
      rw [step_call_ended hc]
      exact .same
    | some c =>
      rw [step_call hc]
      show b.Tends _ (some (c.answer b.service q).answer) (c.answer b.service q).state.2.host
      cases q with
      | openPath path raw => exact tends_openPath path raw
      | unlink path => exact tends_unlink path
      | write fd data => exact tends_write fd data
      | read fd capacity =>
        show b.Tends _ _ (b.service.read fd capacity).state.host
        rcases b.service.read_cases fd capacity with ⟨e, hr⟩ | ⟨h, n, bytes, -, -, -, hr⟩ <;>
          rw [hr] <;> exact .same
      | seek fd offset raw =>
        cases hraw : Whence.ofRaw? raw with
        | error u =>
          rw [c.answer_seek_of_error b.service fd offset hraw]
          exact .same
        | ok whence =>
          rw [c.answer_seek_of_ok b.service fd offset hraw]
          show b.Tends _ _ (b.service.seek fd offset whence).state.host
          rcases b.service.seek_cases fd offset whence with ⟨e, hr⟩ | ⟨h, pos, -, hr⟩ <;>
            rw [hr] <;> exact .same
      | close fd =>
        show b.Tends _ _ (b.service.close fd).state.host
        rcases b.service.close_cases fd with ⟨-, hr⟩ | ⟨f, table, -, hr⟩ <;> rw [hr] <;>
          exact .same
      | stat path => exact .same
      | listDir fd nbytes base => exact .same
      | dirTree path => exact .same

end Hub

end Telefile
