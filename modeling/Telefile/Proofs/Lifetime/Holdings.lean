import Telefile.Proofs.Lifetime.Records
import Telefile.Proofs.SessionSteps

/-!
# Who holds which descriptor

Of a hub, only the counter, the live descriptors and what its sessions hold matter to the life of a
descriptor. `Holdings` is that much of it, and what an event does to the holdings is determined by
what its note says.

* `Service.SameDescriptors` — operations that neither issue nor remove a descriptor;
* `Hub.holdings` — the holdings of a hub; `Holdings.after` — what an effect makes of them, and
  `Holdings.Allows` — when it can come about;
* **`Hub.holdings_step`** — an event changes the holdings as its note says.
-/

namespace Telefile

/-! ## 1. Operations that leave descriptors alone -/

namespace Service

/-- Both services have issued the same descriptors, and the same ones are live. -/
structure SameDescriptors (s s' : Service) : Prop where
  last : s'.table.last = s.table.last
  live : ∀ fd, (s'.table.lookup fd).isSome = (s.table.lookup fd).isSome
  next : s'.nextSession = s.nextSession

theorem SameDescriptors.refl (s : Service) : SameDescriptors s s := ⟨rfl, fun _ => rfl, rfl⟩

variable (s : Service)

theorem sameDescriptors_moveCursor {fd : Fd} {h : Handle} (hh : s.handle fd = .ok h)
    (host : Host) (pos : Nat) :
    SameDescriptors s (({ s with host } : Service).moveCursor fd h pos) where
  last := rfl
  live q := by
    rw [lookup_moveCursor]
    split
    · next hq => rw [hq, handle_ok hh]; rfl
    · rfl
  next := rfl

theorem sameDescriptors_write (fd : Fd) (data : List UInt8) :
    SameDescriptors s (s.write fd data).state := by
  rcases s.write_cases fd data with ⟨e, hr⟩ | ⟨h, answer, hh, -, -, hr⟩ <;> rw [hr]
  · exact .refl s
  · exact s.sameDescriptors_moveCursor hh _ _

theorem sameDescriptors_read (fd : Fd) (capacity : Option Nat) :
    SameDescriptors s (s.read fd capacity).state := by
  rcases s.read_cases fd capacity with ⟨e, hr⟩ | ⟨h, n, bytes, hh, -, -, hr⟩ <;> rw [hr]
  · exact .refl s
  · exact s.sameDescriptors_moveCursor hh s.host _

theorem sameDescriptors_seek (fd : Fd) (offset : Int) (whence : Whence) :
    SameDescriptors s (s.seek fd offset whence).state := by
  rcases s.seek_cases fd offset whence with ⟨e, hr⟩ | ⟨h, pos, hh, hr⟩ <;> rw [hr]
  · exact .refl s
  · exact s.sameDescriptors_moveCursor hh s.host _

theorem sameDescriptors_unlink (path : Option String) :
    SameDescriptors s (s.unlink path).state := by
  rcases s.unlink_cases path with ⟨e, -, hr⟩ | ⟨host, -, hr⟩ <;> rw [hr]
  · exact .refl s
  · exact ⟨rfl, fun _ => rfl, rfl⟩

end Service

/-! ## 2. Holdings -/

/-- The last descriptor issued, the live ones, the number of the next session, and what each session
that has not ended knows to have opened. -/
@[ext]
structure Holdings where
  last : Fd
  live : Fd → Prop
  next : Nat
  held : Nat → Option (List Fd)

/-- The holdings of a hub. -/
def Hub.holdings (b : Hub) : Holdings where
  last := b.service.table.last
  live fd := (b.service.table.lookup fd).isSome = true
  next := b.service.nextSession
  held id := (b.session? id).map Session.opened

namespace Holdings

/-- When an effect can come about: what is issued comes next and goes to a session, what is closed
is live. -/
def Allows (s : Holdings) : Effect → Prop
  | .issued id fd => fd = s.last + 1 ∧ ∃ fds, s.held id = some fds
  | .closed _ fd => s.live fd
  | .ended _ | .begun | .other => True

/-- What an effect makes of the holdings. A session that ends takes along what it knows to have
opened, if `cleanup` says so. -/
def after (cleanup : Bool) (s : Holdings) : Effect → Holdings
  | .issued id fd =>
    { s with
      last := fd
      live := fun q => q = fd ∨ s.live q
      held := fun i => if i = id then (s.held i).map fun fds => fds ++ [fd] else s.held i }
  | .closed id fd =>
    { s with
      live := fun q => q ≠ fd ∧ s.live q
      held := fun i =>
        if i = id then (s.held i).map fun fds => fds.filter fun q => decide (q ≠ fd)
        else s.held i }
  | .ended id =>
    { s with
      live := fun q => s.live q ∧ ¬ (cleanup = true ∧ ∃ fds, s.held id = some fds ∧ q ∈ fds)
      held := fun i => if i = id then none else s.held i }
  | .begun =>
    { s with
      next := s.next + 1
      held := fun i => if i = s.next then some [] else s.held i }
  | .other => s

end Holdings

/-! ## 3. What an event does to them -/

namespace Hub

variable {b : Hub} {id : Nat} {c : Session}

theorem held_of_session (hc : b.session? id = some c) : b.holdings.held id = some c.opened := by
  show (b.session? id).map Session.opened = _
  rw [hc]
  rfl

/-- A call after which session `id` holds `fds` and `s` is the service. -/
theorem held_insert (c' : Session) (s : Service) (i : Nat) :
    (⟨s, b.sessions.insert id c'⟩ : Hub).holdings.held i =
      if i = id then some c'.opened else b.holdings.held i := by
  show ((b.sessions.insert id c').get? i).map Session.opened = _
  rw [Dictionary.get?_insert]
  split <;> rfl

theorem holdings_of_sameDescriptors {s : Service} (hc : b.session? id = some c)
    (hs : Service.SameDescriptors b.service s) :
    (⟨s, b.sessions.insert id c⟩ : Hub).holdings = b.holdings := by
  refine Holdings.ext hs.last (funext fun q => ?_) hs.next (funext fun i => ?_)
  · exact congrArg (· = true) (hs.live q)
  · rw [held_insert]
    split
    · next hi =>
      rw [hi]
      exact (held_of_session hc).symm
    · rfl

/-- The note of a call of a session that has not ended. -/
theorem step_call (hc : b.session? id = some c) (q : Request) :
    b.step (.call id q) = (some (c.answer b.service q).answer,
      ⟨(c.answer b.service q).state.2,
        b.sessions.insert id (c.answer b.service q).state.1⟩) := by
  simp only [step, call, hc]

/-- A call that leaves its session as it is changes nothing but the service. -/
theorem step_call_same {s : Service} {q : Request} (hc : b.session? id = some c)
    (hstate : (c.answer b.service q).state = (c, s)) :
    b.step (.call id q) = (some (c.answer b.service q).answer, { b with service := s }) := by
  rw [step_call hc, hstate]
  dsimp only
  rw [show b.sessions.insert id c = b.sessions from Dictionary.insert_of_get? hc]

theorem step_call_ended (hc : b.session? id = none) (q : Request) :
    b.step (.call id q) = (none, b) := by
  simp only [step, call, hc]
  rfl

theorem leave_of_session (hc : b.session? id = some c) :
    (b.leave id).state = ⟨(c.finish b.service).state, b.sessions.erase id⟩ := by
  simp only [leave, hc]

theorem leave_of_ended (hc : b.session? id = none) : (b.leave id).state = b := by
  simp only [leave, hc]
  rfl

/-- The event `e` changes the holdings as its note says. -/
def AsNoted (b : Hub) (e : HubEvent) : Prop :=
  b.holdings.Allows (Note.effect ⟨e, (b.step e).1⟩) ∧
    (b.step e).2.holdings =
      b.holdings.after b.service.settings.closeOnSessionEnd (Note.effect ⟨e, (b.step e).1⟩)

theorem asNoted_of_other {e : HubEvent} (hnote : Note.effect ⟨e, (b.step e).1⟩ = .other)
    (hsame : (b.step e).2.holdings = b.holdings) : b.AsNoted e := by
  unfold AsNoted
  rw [hnote]
  exact ⟨trivial, hsame⟩

/-- A call that leaves descriptors alone, and is noted as such. -/
theorem asNoted_of_still (hc : b.session? id = some c) {q : Request}
    (hnote : Note.effect ⟨.call id q, some (c.answer b.service q).answer⟩ = .other)
    (hsession : (c.answer b.service q).state.1 = c)
    (hsame : Service.SameDescriptors b.service (c.answer b.service q).state.2) :
    b.AsNoted (.call id q) := by
  refine asNoted_of_other ?_ ?_
  · rw [step_call hc]
    exact hnote
  · rw [step_call hc, hsession]
    exact holdings_of_sameDescriptors hc hsame

theorem asNoted_join : b.AsNoted .join := by
  refine ⟨trivial, Holdings.ext rfl rfl rfl (funext fun i => ?_)⟩
  exact held_insert ⟨b.service.nextSession, []⟩ _ i

theorem asNoted_openPath (hissued : b.service.Issued) (hc : b.session? id = some c)
    (path : Option String) (raw : Nat) : b.AsNoted (.call id (.openPath path raw)) := by
  cases hraw : OpenMode.ofRaw? raw with
  | error u =>
    refine asNoted_of_still hc ?_ ?_ ?_ <;> rw [c.answer_openPath_of_error b.service path hraw]
    · rfl
    · rfl
    · exact .refl b.service
  | ok mode =>
    have hrespond := c.answer_openPath_of_ok b.service path hraw
    rcases c.openPath_cases b.service path mode with ⟨e, -, -, hanswer, hstate⟩ |
      ⟨-, host, -, -, hanswer, hstate⟩ | ⟨f, host, fd, table, -, ht, hanswer, hstate⟩
    · refine asNoted_of_still hc ?_ ?_ ?_ <;>
        simp only [hrespond, Session.respond, hanswer, hstate]
      · exact if_neg (Int.not_le.mpr e.code_neg)
      · exact .refl b.service
    · refine asNoted_of_still hc ?_ ?_ ?_ <;>
        simp only [hrespond, Session.respond, hanswer, hstate]
      · rfl
      · exact ⟨rfl, fun _ => rfl, rfl⟩
    · have hstep := step_call hc (.openPath path raw)
      simp only [hrespond, Session.respond, hanswer, hstate] at hstep
      obtain ⟨-, rfl, rfl⟩ := DescriptorTable.open?_eq_some_iff.mp ht
      have hnote : Note.effect ⟨.call id (.openPath path raw),
          (b.step (.call id (.openPath path raw))).1⟩ = .issued id (b.service.table.last + 1) := by
        rw [hstep]
        exact if_pos hissued.next_nonneg
      unfold AsNoted
      rw [hnote, hstep]
      refine ⟨⟨rfl, c.opened, held_of_session hc⟩, ?_⟩
      refine Holdings.ext rfl (funext fun q => ?_) rfl (funext fun i => ?_)
      · show (((DescriptorTable.insert _ _ f).lookup q).isSome = true) = _
        rw [DescriptorTable.lookup_insert]
        by_cases hq : q = b.service.table.last + 1
        · simp [Holdings.after, hq]
        · rw [if_neg hq]
          simp [Holdings.after, hq, holdings, DescriptorTable.lookup]
      · rw [held_insert]
        by_cases hi : i = id
        · simp [Holdings.after, hi, holdings, hc]
        · simp [Holdings.after, hi]

theorem asNoted_close (hc : b.session? id = some c) (fd : Fd) :
    b.AsNoted (.call id (.close fd)) := by
  have hrespond : c.answer b.service (.close fd) =
      Session.respond .status (c.close b.service fd) := rfl
  rcases c.close_cases b.service fd with ⟨hnone, hanswer, hstate⟩ |
    ⟨f, table, hremove, hanswer, hstate⟩
  · refine asNoted_of_still hc ?_ ?_ ?_ <;> simp only [hrespond, Session.respond, hanswer, hstate]
    · rfl
    · exact .refl b.service
  · have hstep := step_call hc (.close fd)
    simp only [hrespond, Session.respond, hanswer, hstate] at hstep
    have hnote : Note.effect ⟨.call id (.close fd), (b.step (.call id (.close fd))).1⟩ =
        .closed id fd := by
      rw [hstep]
      rfl
    unfold AsNoted
    rw [hnote, hstep]
    refine ⟨?_, Holdings.ext (DescriptorTable.last_of_remove hremove) (funext fun q => ?_) rfl
      (funext fun i => ?_)⟩
    · obtain ⟨g, hg, -⟩ := Option.map_eq_some_iff.mp hremove
      show (b.service.table.lookup fd).isSome = true
      rw [hg]
      rfl
    · show ((table.lookup q).isSome = true) = _
      rw [DescriptorTable.lookup_of_remove hremove]
      by_cases hq : q = fd <;> simp [Holdings.after, hq, holdings]
    · rw [held_insert]
      by_cases hi : i = id
      · simp [Holdings.after, hi, holdings, hc]
      · simp [Holdings.after, hi]

theorem asNoted_leave (id : Nat) : b.AsNoted (.leave id) := by
  refine ⟨trivial, ?_⟩
  show (b.leave id).state.holdings = b.holdings.after _ (.ended id)
  cases hc : b.session? id with
  | none =>
    rw [leave_of_ended hc]
    have hheld : b.holdings.held id = none := congrArg (Option.map Session.opened) hc
    refine Holdings.ext rfl (funext fun q => ?_) rfl (funext fun i => ?_)
    · simp [Holdings.after, hheld]
    · by_cases hi : i = id
      · simp [Holdings.after, hi, hheld]
      · simp [Holdings.after, hi]
  | some c =>
    rw [leave_of_session hc]
    have hheld : ∀ i, (⟨(c.finish b.service).state, b.sessions.erase id⟩ : Hub).holdings.held i =
        (b.holdings.after b.service.settings.closeOnSessionEnd (.ended id)).held i := by
      intro i
      show ((b.sessions.erase id).get? i).map Session.opened = _
      rw [Dictionary.get?_erase]
      by_cases hi : i = id <;> simp [Holdings.after, hi, holdings, session?]
    cases hcleanup : b.service.settings.closeOnSessionEnd with
    | false =>
      rw [c.finish_of_no_cleanup b.service hcleanup]
      rw [c.finish_of_no_cleanup b.service hcleanup, hcleanup] at hheld
      refine Holdings.ext rfl (funext fun q => ?_) rfl (funext hheld)
      simp [Holdings.after, holdings]
    | true =>
      have hreleased := c.finish_of_cleanup b.service hcleanup
      rw [hcleanup] at hheld
      refine Holdings.ext hreleased.last (funext fun q => ?_) ?_ (funext hheld)
      · show (((c.finish b.service).state.table.lookup q).isSome = true) = _
        rw [hreleased.lookup]
        by_cases hq : q ∈ c.opened <;> simp [Holdings.after, hq, holdings, hc]
      · show (c.finish b.service).state.nextSession = _
        rw [hreleased.same]
        rfl

/-- **An event changes the holdings as its note says.** -/
theorem holdings_step (hissued : b.service.Issued) (e : HubEvent) : b.AsNoted e := by
  cases e with
  | join => exact asNoted_join
  | leave id => exact asNoted_leave id
  | call id q =>
    cases hc : b.session? id with
    | none =>
      refine asNoted_of_other ?_ ?_
      · rw [step_call_ended hc]
        cases q <;> rfl
      · rw [step_call_ended hc]
    | some c =>
      have hrefl := Service.SameDescriptors.refl b.service
      cases q with
      | openPath path raw => exact asNoted_openPath hissued hc path raw
      | close fd => exact asNoted_close hc fd
      | seek fd offset raw =>
        cases hraw : Whence.ofRaw? raw with
        | error u =>
          refine asNoted_of_still hc ?_ ?_ ?_ <;>
            rw [c.answer_seek_of_error b.service fd offset hraw]
          · rfl
          · rfl
          · exact hrefl
        | ok whence =>
          refine asNoted_of_still hc ?_ ?_ ?_ <;> rw [c.answer_seek_of_ok b.service fd offset hraw]
          · rfl
          · rfl
          · exact b.service.sameDescriptors_seek fd offset whence
      | write fd data =>
        exact asNoted_of_still hc rfl rfl (b.service.sameDescriptors_write fd data)
      | read fd capacity =>
        exact asNoted_of_still hc rfl rfl (b.service.sameDescriptors_read fd capacity)
      | unlink path => exact asNoted_of_still hc rfl rfl (b.service.sameDescriptors_unlink path)
      | stat path => exact asNoted_of_still hc rfl rfl hrefl
      | listDir fd nbytes base => exact asNoted_of_still hc rfl rfl hrefl
      | dirTree path => exact asNoted_of_still hc rfl rfl hrefl

end Hub

end Telefile
