import Telefile.Hub
import Telefile.Proofs.Steps

/-!
# Histories

A history is run event by event, and an event changes the service only through its operations. So
what holds of a new service, and is kept by every operation, holds after every history.

* `Service.Keeps P` — every operation of the service keeps `P`;
* `Session.keeps_answer`, `Hub.keeps_step` — so do the answer to a request and an event;
* **`Hub.keeps_run`** — and so does a history;
* `Hub.serviceAfter` is the service that a history of a new hub leads to;
* `Service.keeps_settings`, `Service.keeps_scope`, `Hub.settings_serviceAfter` — no history changes
  the settings, nor the scope.
-/

namespace Telefile

/-- Every operation of the service keeps `P`. -/
structure Service.Keeps (P : Service → Prop) : Prop where
  openPath : ∀ {s} path mode, P s → P (s.openPath path mode).state
  close : ∀ {s} fd, P s → P (s.close fd).state
  write : ∀ {s} fd data, P s → P (s.write fd data).state
  read : ∀ {s} fd capacity, P s → P (s.read fd capacity).state
  seek : ∀ {s} fd offset whence, P s → P (s.seek fd offset whence).state
  unlink : ∀ {s} path, P s → P (s.unlink path).state
  /-- A session is counted. -/
  join : ∀ {s : Service}, P s → P { s with nextSession := s.nextSession + 1 }

/-! ## 1. The service behind a call -/

namespace Session

variable (c : Session) (s : Service)

theorem openPath_service (path : Option String) (mode : OpenMode) :
    (c.openPath s path mode).state.2 = (s.openPath path mode).state := by
  unfold openPath
  cases h : (s.openPath path mode).answer <;> simp only [h]

end Session

/-! ## 2. What is kept -/

section Kept

variable {P : Service → Prop}

theorem Session.keeps_answer (hP : Service.Keeps P) (c : Session) {s : Service} (q : Request)
    (h : P s) : P (c.answer s q).state.2 := by
  cases q with
  | openPath path raw =>
    cases hraw : OpenMode.ofRaw? raw with
    | ok mode =>
      rw [c.answer_openPath_of_ok s path hraw]
      show P (c.openPath s path mode).state.2
      rw [openPath_service]
      exact hP.openPath path mode h
    | error u =>
      rw [c.answer_openPath_of_error s path hraw]
      exact h
  | close fd => exact hP.close fd h
  | write fd data => exact hP.write fd data h
  | read fd capacity => exact hP.read fd capacity h
  | seek fd offset raw =>
    cases hraw : Whence.ofRaw? raw with
    | ok whence =>
      rw [c.answer_seek_of_ok s fd offset hraw]
      exact hP.seek fd offset whence h
    | error u =>
      rw [c.answer_seek_of_error s fd offset hraw]
      exact h
  | unlink path => exact hP.unlink path h
  | stat path => exact h
  | listDir fd nbytes base => exact h
  | dirTree path => exact h

theorem Session.keeps_closeAll (hP : Service.Keeps P) (fds : List Fd) {s : Service} (h : P s) :
    P (closeAll s fds).2 := by
  unfold closeAll
  -- the count of closed descriptors runs along and says nothing about the service
  refine List.foldlRecOn (motive := fun acc : Nat × Service => P acc.2) fds _ h ?_
  intro acc hacc fd _
  dsimp only
  cases (acc.2.close fd).answer with
  | ok p => exact hP.close fd hacc
  | error e => exact hacc

theorem Session.keeps_finish (hP : Service.Keeps P) (c : Session) {s : Service} (h : P s) :
    P (c.finish s).state := by
  unfold finish
  split
  · exact keeps_closeAll hP c.opened h
  · exact h

namespace Hub

/-- Nothing is open at a new hub. -/
theorem lookup_start (settings : Settings) (host : Host) (fd : Fd) :
    (Hub.start settings host).answer.service.table.lookup fd = none :=
  DescriptorTable.lookup_startingAfter descriptorBase fd

/-- The service of a new hub after a history. -/
def serviceAfter (settings : Settings) (host : Host) (history : List HubEvent) : Service :=
  ((Hub.start settings host).answer.run history).2.service

theorem keeps_step (hP : Service.Keeps P) {b : Hub} (e : HubEvent) (h : P b.service) :
    P (b.step e).2.service := by
  cases e with
  | join => exact hP.join h
  | call id q =>
    show P (b.call id q).state.service
    unfold call
    cases hc : b.session? id with
    | none => exact h
    | some c => exact Session.keeps_answer hP c q h
  | leave id =>
    show P (b.leave id).state.service
    unfold leave
    cases hc : b.session? id with
    | none => exact h
    | some c => exact Session.keeps_finish hP c h

theorem run_cons (b : Hub) (e : HubEvent) (es : List HubEvent) :
    (b.run (e :: es)).2 = ((b.step e).2.run es).2 := rfl

/-- **What every operation keeps, every history keeps.** -/
theorem keeps_run (hP : Service.Keeps P) (es : List HubEvent) :
    ∀ {b : Hub}, P b.service → P (b.run es).2.service := by
  induction es with
  | nil => exact fun h => h
  | cons e es ih =>
    intro b h
    rw [run_cons]
    exact ih (keeps_step hP e h)

/-- What a new service has, and every operation keeps, is there after every history. -/
theorem serviceAfter_of_start (hP : Service.Keeps P) {settings : Settings} {host : Host}
    (h : P (Service.start settings host).answer) (history : List HubEvent) :
    P (serviceAfter settings host history) :=
  keeps_run hP history h

end Hub

end Kept

/-! ## 3. The settings and the scope stay -/

/-- No operation changes what is said of the settings and the scope alone. -/
theorem Service.keeps_setup (P : Settings → Scope → Prop) :
    Service.Keeps fun s => P s.settings s.scope where
  openPath {s} path mode h := by
    rcases s.openPath_cases path mode with ⟨e, log, -, hr⟩ | ⟨f, host, -, -, hr⟩ |
      ⟨f, host, fd, table, -, -, hr⟩ <;> rw [hr] <;> exact h
  close {s} fd h := by
    rcases s.close_cases fd with ⟨-, hr⟩ | ⟨f, table, -, hr⟩ <;> rw [hr] <;> exact h
  write {s} fd data h := by
    rcases s.write_cases fd data with ⟨e, hr⟩ | ⟨hd, answer, -, -, -, hr⟩ <;> rw [hr] <;> exact h
  read {s} fd capacity h := by
    rcases s.read_cases fd capacity with ⟨e, hr⟩ | ⟨hd, n, bytes, -, -, -, hr⟩ <;> rw [hr] <;>
      exact h
  seek {s} fd offset whence h := by
    rcases s.seek_cases fd offset whence with ⟨e, hr⟩ | ⟨hd, pos, -, hr⟩ <;> rw [hr] <;> exact h
  unlink {s} path h := by
    rcases s.unlink_cases path with ⟨e, -, hr⟩ | ⟨host, -, hr⟩ <;> rw [hr] <;> exact h
  join h := h

theorem Service.keeps_settings (settings : Settings) :
    Service.Keeps fun s => s.settings = settings :=
  keeps_setup fun given _ => given = settings

theorem Service.keeps_scope (scope : Scope) : Service.Keeps fun s => s.scope = scope :=
  keeps_setup fun _ given => given = scope

theorem Hub.settings_serviceAfter (settings : Settings) (host : Host)
    (history : List HubEvent) : (serviceAfter settings host history).settings = settings :=
  serviceAfter_of_start (Service.keeps_settings settings) rfl history

end Telefile
