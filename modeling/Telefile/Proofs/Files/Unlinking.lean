import Telefile.Proofs.Files.Opening

/-!
# What an unlink takes away

An unlink that succeeds takes one name away, and nothing else. Calls on descriptors do not look at
names, so they are answered as if it had not been.

* `Hub.withEntries` — the same hub, with other entries on its host;
  `Hub.run_withEntries` — **calls on descriptors do not see the entries**, whatever these are;
* `Host.Removes` — one entry less; `Service.removes_of_removed` — what the service removes;
* **`Hub.unlink_exact`** — what an unlink removes, and what comes after it.
-/

namespace Telefile

/-! ## 1. Calls on descriptors -/

/-- A step whose state is seen through `f`. -/
def Step.mapState {σ τ α : Type} (f : σ → τ) (r : Step σ α) : Step τ α :=
  ⟨r.answer, f r.state, r.log⟩

/-- The host with other entries. -/
def Host.withEntries (h : Host) (d : Dictionary Place Entry) : Host := { h with entries := d }

/-- The service with other entries on its host. -/
def Service.withEntries (s : Service) (d : Dictionary Place Entry) : Service :=
  { s with host := s.host.withEntries d }

/-- The hub with other entries on its host. -/
def Hub.withEntries (b : Hub) (d : Dictionary Place Entry) : Hub :=
  { b with service := b.service.withEntries d }

/-- A request to read, write, seek or close. -/
def Request.OnDescriptor : Request → Prop
  | .close _ | .read .. | .write .. | .seek .. => True
  | .openPath .. | .unlink _ | .stat _ | .listDir .. | .dirTree _ => False

/-- A call on a descriptor, or that a client comes or goes. -/
def HubEvent.OnDescriptor : HubEvent → Prop
  | .call _ q => q.OnDescriptor
  | .join | .leave _ => True

theorem Host.writeAt_withEntries (h : Host) (d : Dictionary Place Entry) (o : FileObject)
    (pos : Nat) (b : List UInt8) : (h.withEntries d).writeAt o pos b =
      ((h.writeAt o pos b).1, (h.writeAt o pos b).2.1, (h.writeAt o pos b).2.2.withEntries d) := by
  have hover : ∀ id b,
      (h.withEntries d).overwrite id pos b = (h.overwrite id pos b).withEntries d := by
    intro id b
    unfold overwrite
    rw [show (h.withEntries d).file? id = h.file? id from rfl]
    cases h.file? id <;> rfl
  unfold writeAt
  split
  · rfl
  cases o with
  | device v => cases v <;> rfl
  | file id =>
    dsimp only
    rw [show (h.withEntries d).room pos b.length = h.room pos b.length from rfl, hover]
    split <;> rfl

namespace Service

variable (s : Service) (d : Dictionary Place Entry) (fd : Fd)

theorem handle_withEntries : (s.withEntries d).handle fd = s.handle fd := rfl

theorem close_withEntries :
    (s.withEntries d).close fd = (s.close fd).mapState fun s => s.withEntries d := by
  unfold close
  rw [show (s.withEntries d).table = s.table from rfl]
  cases s.table.remove fd <;> rfl

theorem read_withEntries (capacity : Option Nat) :
    (s.withEntries d).read fd capacity =
      (s.read fd capacity).mapState fun s => s.withEntries d := by
  unfold read
  rw [handle_withEntries]
  cases s.handle fd with
  | error e => rfl
  | ok h =>
    cases capacity with
    | none => rfl
    | some n => rfl

theorem write_withEntries (data : List UInt8) :
    (s.withEntries d).write fd data = (s.write fd data).mapState fun s => s.withEntries d := by
  unfold write
  rw [handle_withEntries]
  cases s.handle fd with
  | error e => rfl
  | ok h =>
    cases ha : h.access with
    | readOnly =>
      simp only [ha]
      rfl
    | readWrite =>
      simp only [ha]
      rw [show (s.withEntries d).host = s.host.withEntries d from rfl, Host.writeAt_withEntries]
      rcases s.host.writeAt h.object h.cursor data with ⟨n, _ | cause, host⟩ <;> rfl

theorem seek_withEntries (offset : Int) (whence : Whence) :
    (s.withEntries d).seek fd offset whence =
      (s.seek fd offset whence).mapState fun s => s.withEntries d := by
  cases hh : s.handle fd with
  | error e =>
    unfold seek
    rw [handle_withEntries, hh]
    rfl
  | ok h =>
    have hh' : (s.withEntries d).handle fd = .ok h := hh
    rw [seek_of_handle hh, seek_of_handle hh',
      show (s.withEntries d).baseOf h whence = s.baseOf h whence from by cases whence <;> rfl]
    cases seekTarget (s.baseOf h whence) offset <;> rfl

end Service

namespace Session

variable (c : Session) (s : Service) (d : Dictionary Place Entry)

/-- A call on a descriptor does not see the entries. -/
theorem answer_withEntries {q : Request} (hq : q.OnDescriptor) :
    c.answer (s.withEntries d) q = (c.answer s q).mapState fun r => (r.1, r.2.withEntries d) := by
  cases q with
  | close fd =>
    show respond .status (c.close (s.withEntries d) fd) = _
    unfold close
    rw [s.close_withEntries]
    rfl
  | read fd capacity =>
    show respond (fun r => .data r.1 r.2) (c.read (s.withEntries d) fd capacity) = _
    unfold read
    rw [s.read_withEntries]
    rfl
  | write fd data =>
    show respond _ (c.write (s.withEntries d) fd data) = _
    unfold write
    rw [s.write_withEntries]
    rfl
  | seek fd offset raw =>
    cases hraw : Whence.ofRaw? raw with
    | error u =>
      rw [c.answer_seek_of_error _ fd offset hraw, c.answer_seek_of_error _ fd offset hraw]
      rfl
    | ok whence =>
      rw [c.answer_seek_of_ok _ fd offset hraw, c.answer_seek_of_ok _ fd offset hraw]
      unfold seek
      rw [s.seek_withEntries]
      rfl
  | openPath _ _ => cases hq
  | unlink _ => cases hq
  | stat _ => cases hq
  | listDir _ _ _ => cases hq
  | dirTree _ => cases hq

theorem closeAll_withEntries (fds : List Fd) :
    closeAll (s.withEntries d) fds =
      ((closeAll s fds).1, (closeAll s fds).2.withEntries d) := by
  unfold closeAll
  -- the count runs along, from any number
  generalize hn : 0 = n
  clear hn
  induction fds generalizing n s with
  | nil => rfl
  | cons fd fds ih =>
    rw [List.foldl_cons, List.foldl_cons]
    dsimp only
    rw [s.close_withEntries]
    unfold Step.mapState
    dsimp only
    cases (s.close fd).answer with
    | error e => exact ih s n
    | ok path => exact ih (s.close fd).state (n + 1)

theorem finish_withEntries :
    c.finish (s.withEntries d) = (c.finish s).mapState fun s => s.withEntries d := by
  unfold finish
  rw [show (s.withEntries d).settings = s.settings from rfl, closeAll_withEntries]
  split <;> rfl

end Session

namespace Hub

variable (b : Hub) (d : Dictionary Place Entry)

theorem step_withEntries {e : HubEvent} (he : e.OnDescriptor) :
    (b.withEntries d).step e = ((b.step e).1, (b.step e).2.withEntries d) := by
  cases e with
  | join => rfl
  | call i q =>
    cases hc : b.session? i with
    | none =>
      have hc' : (b.withEntries d).session? i = none := hc
      rw [step_call_ended hc, step_call_ended hc']
    | some c =>
      have hc' : (b.withEntries d).session? i = some c := hc
      rw [step_call hc, step_call hc',
        show (b.withEntries d).service = b.service.withEntries d from rfl, c.answer_withEntries b.service d he]
      rfl
  | leave i =>
    show (none, ((b.withEntries d).leave i).state) = (none, (b.leave i).state.withEntries d)
    unfold leave
    rw [show (b.withEntries d).session? i = b.session? i from rfl]
    cases hc : b.session? i with
    | none => rfl
    | some c =>
      dsimp only
      rw [show (b.withEntries d).service = b.service.withEntries d from rfl,
        c.finish_withEntries b.service d]
      rfl

/-- **Calls on descriptors do not see the entries**: they are answered the same, whatever these are,
and leave the same behind but for them. -/
theorem run_withEntries (es : List HubEvent) :
    ∀ b : Hub, (∀ e ∈ es, e.OnDescriptor) →
      (b.withEntries d).run es = ((b.run es).1, (b.run es).2.withEntries d) := by
  induction es with
  | nil => exact fun b _ => rfl
  | cons e es ih =>
    intro b hes
    obtain ⟨he, hes⟩ := List.forall_mem_cons.mp hes
    unfold run
    rw [b.step_withEntries d he]
    dsimp only
    rw [ih (b.step e).2 hes]

end Hub

/-! ## 2. What is removed -/

namespace Host

variable {h : Host} {l : Location} {e : Entry}

/-- One entry less: the one at `l`, which is no directory, has gone, and the time of the directory
that it was in is recent. -/
structure Removes (h : Host) (l : Location) (h' : Host) : Prop where
  entry : ∃ e, h.entryAt? l = some e ∧ e.isDir = false
  gone : h'.entryAt? l = none
  directory : ∃ perms t, h.entryAt? l.dropLast = some (.directory perms t) ∧
    h'.entryAt? l.dropLast = some (.directory perms h.now)
  others : ∀ m, m ≠ l → m ≠ l.dropLast → h'.entryAt? m = h.entryAt? m
  rest : h' = h.withEntries h'.entries

theorem removes_eraseEntry (he : h.entryAt? l = some e) (hfile : e.isDir = false)
    (hdir : ∃ perms t, h.entryAt? l.dropLast = some (.directory perms t)) :
    h.Removes l ((h.eraseEntry l).touch l.dropLast) := by
  obtain ⟨perms, t, hdir⟩ := hdir
  have hne : l.dropLast ≠ l := by
    intro hself
    rw [hself, he] at hdir
    cases hdir
    cases hfile
  have hstill : (h.eraseEntry l).entryAt? l.dropLast = some (.directory perms t) := by
    rw [entryAt?_eraseEntry, if_neg hne, hdir]
  rw [touch_directory hstill]
  refine ⟨⟨e, he, hfile⟩, ?_, ⟨perms, t, hdir, ?_⟩, fun m hm hm' => ?_, rfl⟩
  · rw [entryAt?_setEntry, if_neg hne.symm, entryAt?_eraseEntry, if_pos rfl]
  · rw [entryAt?_setEntry, if_pos rfl]
    rfl
  · rw [entryAt?_setEntry, if_neg hm', entryAt?_eraseEntry, if_neg hm]

end Host

theorem Service.removes_of_removed {s : Service} {path : Option String} {after : Host}
    (hr : s.removed path = .ok after) :
    ∃ given full l e, path = some given ∧ s.scope.resolveEntry s.host given = .ok full ∧
      s.host.lookup .entry full = .ok (l, e) ∧ s.host.Removes l after := by
  obtain ⟨given, full, l, e, hgiven, hres, hl, hfile, hdir, rfl⟩ := removed_ok hr
  exact ⟨given, full, l, e, hgiven, hres, hl,
    Host.removes_eraseEntry (Host.entryAt?_of_lookup hl) hfile hdir⟩

/-- An unlink that answered success, as the service sees it. -/
theorem Hub.removed_of_unlink {b : Hub} {i : Nat} {path : Option String}
    (hanswer : (b.call i (.unlink path)).answer = some (.status 0)) :
    ∃ after, b.service.removed path = .ok after ∧
      (b.call i (.unlink path)).state = { b with service := { b.service with host := after } } := by
  cases hc : b.session? i with
  | none =>
    unfold call at hanswer
    rw [hc] at hanswer
    cases hanswer
  | some c =>
    have hsame : b.sessions.insert i c = b.sessions := Dictionary.insert_of_get? hc
    unfold call at hanswer ⊢
    rw [hc] at hanswer ⊢
    dsimp only at hanswer ⊢
    have hunlink : c.answer b.service (.unlink path) =
      Session.respond .status (c.unlink b.service path) := rfl
    rw [hunlink] at hanswer ⊢
    unfold Session.unlink at hanswer ⊢
    rcases b.service.unlink_cases path with ⟨e, -, hr⟩ | ⟨after, hremoved, hr⟩
    · rw [hr] at hanswer
      have hcode : e.code = 0 := by
        injection hanswer with hanswer
        injection hanswer
      have hneg := e.code_neg
      rw [hcode] at hneg
      exact absurd hneg (by decide)
    · rw [hr]
      refine ⟨after, hremoved, ?_⟩
      show (⟨{ b.service with host := after }, b.sessions.insert i c⟩ : Hub) = _
      rw [hsame]

/-! ## 3. What is left -/

/-- **An unlink that succeeds removes one name and nothing else**: the entry that the path names, a
link at its end not followed, which is no directory. All other entries stay, but for the time of the
directory; so do the files, the descriptors and the sessions. And whatever clients do with
descriptors from then on, they are answered as if the name had not been removed. -/
theorem Hub.unlink_exact {b : Hub} {i : Nat} {path : Option String}
    (hanswer : (b.call i (.unlink path)).answer = some (.status 0)) :
    let unlinked := (b.call i (.unlink path)).state
    ∃ given full l e after, path = some given ∧
      b.service.scope.resolveEntry b.service.host given = .ok full ∧
      b.service.host.lookup .entry full = .ok (l, e) ∧ b.service.host.Removes l after ∧
      unlinked = { b with service := { b.service with host := after } } ∧
      ∀ es : List HubEvent, (∀ x ∈ es, x.OnDescriptor) → (unlinked.run es).1 = (b.run es).1 := by
  intro unlinked
  obtain ⟨after, hremoved, hstate⟩ := removed_of_unlink hanswer
  obtain ⟨given, full, l, e, hgiven, hres, hl, hremoves⟩ := Service.removes_of_removed hremoved
  refine ⟨given, full, l, e, after, hgiven, hres, hl, hremoves, hstate, fun es hes => ?_⟩
  have hentries : unlinked = b.withEntries after.entries := by
    rw [show unlinked = _ from hstate]
    unfold withEntries Service.withEntries
    rw [← hremoves.rest]
  rw [hentries, b.run_withEntries after.entries es hes]

/-- Session 1 unlinks `f`; the descriptors that it holds on it are used as before. -/
theorem Hub.unlink_exact_sharing :
    let unlinked := (sharing.call 1 (.unlink (some "f"))).state
    (sharing.call 1 (.unlink (some "f"))).answer = some (.status 0) ∧
      unlinked.service.host.entryAt? [Utf8.encode "srv", Utf8.encode "f"] = none ∧
      (unlinked.run sharedUse).1 =
        [some (.status 2), some (.data 3 [1, 2, 0x63]), some (.status (-16))] := by
  intro unlinked
  have hanswer : (sharing.call 1 (.unlink (some "f"))).answer = some (.status 0) := by
    have hunlink := Service.unlink_fourBytes (s := sharing.service) rfl rfl
    unfold call
    rw [show sharing.session? 1 = some ⟨1, [1001, 1002, 1003]⟩ from rfl]
    dsimp only
    show some (Session.respond .status (Session.unlink _ sharing.service (some "f"))).answer = _
    unfold Session.unlink
    rw [hunlink]
    rfl
  have hon : ∀ x ∈ sharedUse, x.OnDescriptor := by
    intro x hx
    simp only [sharedUse, List.mem_cons, List.not_mem_nil, or_false] at hx
    rcases hx with rfl | rfl | rfl <;> trivial
  obtain ⟨given, full, l, e, after, hgiven, hres, hl, hremoves, hstate, hrun⟩ :=
    unlink_exact hanswer
  cases hgiven
  cases hres
  cases (Host.lookup_fourBytes (.inr rfl)).symm.trans hl
  refine ⟨hanswer, ?_, hrun sharedUse hon⟩
  rw [show unlinked = _ from hstate]
  exact hremoves.gone

end Telefile
