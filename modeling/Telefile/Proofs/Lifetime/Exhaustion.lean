import Telefile.Proofs.Lifetime.Holdings

/-!
# Descriptors run out

An open that finds what it opens and leaves the host as it is can be made again. Every time it takes
the next number, until the counter stands at the largest; from then on it is told that none is left.

* `Service.prepare_congr` — what an open looks at;
* `Session.openPath_of_prepare`, `Session.openPath_of_exhausted` — an open that finds what it opens,
  with a number left and without; `Session.openPath_of_refused` — one that does not;
* `Hub.Advanced`, `Hub.step_again` — one open more, and the next one as before;
* **`Hub.run_again`** — opens in a row, up to the last number.
-/

namespace Telefile

/-- An open looks at the scope and the host, and at nothing else of the service. -/
theorem Service.prepare_congr {s s' : Service} (hscope : s'.scope = s.scope)
    (hhost : s'.host = s.host) (path : Option String) (mode : OpenMode) :
    s'.prepare path mode = s.prepare path mode := by
  unfold prepare
  rw [hscope, hhost]

/-! ## 1. One open -/

namespace Session

variable {c : Session} {s : Service} {path : Option String} {mode : OpenMode} {f : OpenFile}
  {host : Host}

/-- An open takes the next number, and the session has one descriptor more. -/
theorem openPath_of_prepare (hp : s.prepare path mode = .ok (f, host))
    (hlast : s.table.last < maxDescriptor) :
    (c.openPath s path mode).answer = s.table.last + 1 ∧ (c.openPath s path mode).state =
      ({ c with opened := c.opened ++ [s.table.last + 1] },
        { s with
          table := ⟨s.table.last + 1, s.table.files.insert (s.table.last + 1) f⟩, host }) := by
  rcases c.openPath_cases s path mode with ⟨e, log, herror, -⟩ | ⟨-, -, -, hnone, -⟩ |
    ⟨f', host', fd, table, hok, ht, hanswer, hstate⟩
  · cases hp.symm.trans herror
  · exact absurd hlast (Int.not_lt.mpr hnone)
  · cases hp.symm.trans hok
    obtain ⟨-, rfl, rfl⟩ := DescriptorTable.open?_eq_some_iff.mp ht
    exact ⟨hanswer, hstate⟩

/-- Without a number left the open fails, though it found what it opens. -/
theorem openPath_of_exhausted (hp : s.prepare path mode = .ok (f, host))
    (hlast : maxDescriptor ≤ s.table.last) :
    (c.openPath s path mode).answer = -5 ∧
      (c.openPath s path mode).state = (c, { s with host }) := by
  rcases c.openPath_cases s path mode with ⟨e, log, herror, -⟩ |
    ⟨f', host', hok, -, hanswer, hstate⟩ | ⟨f', host', fd, table, -, ht, -⟩
  · cases hp.symm.trans herror
  · cases hp.symm.trans hok
    exact ⟨hanswer, hstate⟩
  · obtain ⟨hlt, -⟩ := DescriptorTable.open?_eq_some_iff.mp ht
    exact absurd hlt (Int.not_lt.mpr hlast)

/-- An open that does not find what it opens is answered by the cause, whatever numbers are left. -/
theorem openPath_of_refused {e : FileError} {log : List LogLine}
    (hp : s.prepare path mode = .error (e, log)) : (c.openPath s path mode).answer = e.code := by
  rcases c.openPath_cases s path mode with ⟨e', log', herror, hanswer, -⟩ | ⟨f', host', hok, -⟩ |
    ⟨f', host', fd, table, hok, -⟩
  · cases hp.symm.trans herror
    exact hanswer
  · cases hp.symm.trans hok
  · cases hp.symm.trans hok

theorem answer_of_prepare (hp : s.prepare path mode = .ok (f, host))
    (hlast : s.table.last < maxDescriptor) :
    (c.answer s (.openPath path mode.toRaw)).answer = .status (s.table.last + 1) ∧
      (c.answer s (.openPath path mode.toRaw)).state =
        ({ c with opened := c.opened ++ [s.table.last + 1] },
          { s with
            table := ⟨s.table.last + 1, s.table.files.insert (s.table.last + 1) f⟩, host }) := by
  obtain ⟨hanswer, hstate⟩ := openPath_of_prepare (c := c) hp hlast
  rw [c.answer_openPath_of_ok s path (OpenMode.ofRaw?_toRaw mode)]
  exact ⟨congrArg Response.status hanswer, hstate⟩

end Session

/-! ## 2. Opens in a row -/

namespace Hub

/-- `b'` has issued `k` descriptors more than `b`. Session `id` is still there, and an open finds
what it found. -/
structure Advanced (id k : Nat) (b b' : Hub) : Prop where
  last : b'.service.table.last = b.service.table.last + k
  scope : b'.service.scope = b.service.scope
  host : b'.service.host = b.service.host
  session : (b'.session? id).isSome

namespace Advanced

variable {id j k : Nat} {b b' b'' : Hub}

theorem refl (hc : (b.session? id).isSome) : Advanced id 0 b b :=
  ⟨(Int.add_zero _).symm, rfl, rfl, hc⟩

theorem trans (h : Advanced id j b b') (h' : Advanced id k b' b'') : Advanced id (j + k) b b'' where
  last := by
    rw [h'.last, h.last, Int.add_assoc]
    rfl
  scope := h'.scope.trans h.scope
  host := h'.host.trans h.host
  session := h'.session

/-- The open of a path comes to the same. -/
theorem prepare (h : Advanced id k b b') {path : Option String} {mode : OpenMode} {f : OpenFile}
    (hp : b.service.prepare path mode = .ok (f, b.service.host)) :
    b'.service.prepare path mode = .ok (f, b'.service.host) := by
  rw [Service.prepare_congr h.scope h.host, hp, h.host]

end Advanced

variable {b : Hub} {id : Nat} {path : Option String} {mode : OpenMode} {f : OpenFile}

/-- **One open more.** -/
theorem step_again (hc : (b.session? id).isSome)
    (hp : b.service.prepare path mode = .ok (f, b.service.host))
    (hlast : b.service.table.last < maxDescriptor) :
    let r := b.step (.call id (.openPath path mode.toRaw))
    r.1 = some (.status (b.service.table.last + 1)) ∧ Advanced id 1 b r.2 := by
  obtain ⟨c, hc⟩ := Option.isSome_iff_exists.mp hc
  obtain ⟨hanswer, hstate⟩ := Session.answer_of_prepare (c := c) hp hlast
  rw [step_call hc, hanswer, hstate]
  refine ⟨rfl, rfl, rfl, rfl, ?_⟩
  unfold session?
  rw [Dictionary.get?_insert_self]
  rfl

/-- **Opens in a row** take one number after the other, as long as there are so many. -/
theorem run_again (hc : (b.session? id).isSome)
    (hp : b.service.prepare path mode = .ok (f, b.service.host)) (k : Nat)
    (hlast : b.service.table.last + k ≤ maxDescriptor) :
    let r := b.run (List.replicate k (.call id (.openPath path mode.toRaw)))
    r.1 = (List.range k).map (fun j : Nat => some (.status (b.service.table.last + j + 1))) ∧
      Advanced id k b r.2 := by
  induction k with
  | zero => exact ⟨rfl, .refl hc⟩
  | succ k ih =>
    have hbefore : b.service.table.last + k < maxDescriptor := by
      unfold Fd at *
      omega
    obtain ⟨hanswers, hadvanced⟩ := ih (Int.le_of_lt hbefore)
    obtain ⟨hanswer, hnext⟩ := step_again hadvanced.session (hadvanced.prepare hp)
      (hadvanced.last ▸ hbefore)
    rw [List.replicate_succ', run_append]
    refine ⟨?_, hadvanced.trans hnext⟩
    rw [hanswers, List.range_succ, List.map_append, List.map_singleton, ← hadvanced.last]
    exact congrArg (_ ++ [·]) hanswer

end Hub

end Telefile
