import Telefile.Proofs.Descriptors

/-!
# What a call of a session can do

The calls that change what a session holds, with their cases; and what the end of a session does to
the table.

* `Session.openPath_cases`, `Session.close_cases` — what is answered, and the session and the
  service after it;
* `Session.Released`, `Session.released_closeAll` — descriptors are closed one after the other, and
  those that are not live are passed over.
-/

namespace Telefile

namespace Session

variable (c : Session) (s : Service)

theorem openPath_cases (path : Option String) (mode : OpenMode) :
    (∃ e log, s.prepare path mode = .error (e, log) ∧ (c.openPath s path mode).answer = e.code ∧
      (c.openPath s path mode).state = (c, s)) ∨
    (∃ f host, s.prepare path mode = .ok (f, host) ∧ maxDescriptor ≤ s.table.last ∧
      (c.openPath s path mode).answer = FileError.descriptorsExhausted.code ∧
      (c.openPath s path mode).state = (c, { s with host })) ∨
    (∃ f host fd table, s.prepare path mode = .ok (f, host) ∧ s.table.open? f = some (fd, table) ∧
      (c.openPath s path mode).answer = fd ∧
      (c.openPath s path mode).state =
        ({ c with opened := c.opened ++ [fd] }, { s with table, host })) := by
  unfold openPath
  rcases s.openPath_cases path mode with ⟨e, log, hp, hr⟩ | ⟨f, host, hp, hnone, hr⟩ |
    ⟨f, host, fd, table, hp, ht, hr⟩
  · refine .inl ⟨e, log, hp, ?_, ?_⟩ <;> rw [hr]
  · refine .inr (.inl ⟨f, host, hp, ?_, ?_, ?_⟩)
    · refine Int.not_lt.mp fun hlt => ?_
      rw [DescriptorTable.open?_eq_some_iff.mpr ⟨hlt, rfl, rfl⟩] at hnone
      cases hnone
    · rw [hr]
    · rw [hr]
  · refine .inr (.inr ⟨f, host, fd, table, hp, ht, ?_, ?_⟩) <;> rw [hr]

theorem close_cases (fd : Fd) :
    (s.table.lookup fd = none ∧ (c.close s fd).answer = (FileError.badDescriptor fd).code ∧
      (c.close s fd).state = (c, s)) ∨
    (∃ f table, s.table.remove fd = some (f, table) ∧ (c.close s fd).answer = 0 ∧
      (c.close s fd).state =
        ({ c with opened := c.opened.filter fun q => decide (q ≠ fd) }, { s with table })) := by
  unfold close
  rcases s.close_cases fd with ⟨hnone, hr⟩ | ⟨f, table, hremove, hr⟩
  · rw [hr]
    exact .inl ⟨hnone, rfl, rfl⟩
  · rw [hr]
    exact .inr ⟨f, table, hremove, rfl, rfl⟩

/-! ## The end of a session -/

/-- `s'` is `s` without the descriptors `fds`. -/
structure Released (fds : List Fd) (s s' : Service) : Prop where
  same : s' = { s with table := s'.table }
  last : s'.table.last = s.table.last
  lookup : ∀ q, s'.table.lookup q = if q ∈ fds then none else s.table.lookup q

theorem closeAll_state (fds : List Fd) :
    (closeAll s fds).2 = fds.foldl (fun s fd => (s.close fd).state) s := by
  unfold closeAll
  -- the count runs along, and the service does not depend on where it starts
  generalize hn : 0 = n
  clear hn
  induction fds generalizing n s with
  | nil => rfl
  | cons fd fds ih =>
    rw [List.foldl_cons, List.foldl_cons]
    dsimp only
    rcases s.close_cases fd with ⟨-, hr⟩ | ⟨f, table, -, hr⟩
    · rw [hr]
      exact ih s n
    · rw [hr]
      exact ih _ (n + 1)

theorem released_close (fd : Fd) : Released [fd] s (s.close fd).state := by
  rcases s.close_cases fd with ⟨hnone, hr⟩ | ⟨f, table, hremove, hr⟩
  · rw [hr]
    refine ⟨rfl, rfl, fun q => ?_⟩
    split
    · next hq =>
      rw [List.mem_singleton.mp hq]
      exact hnone
    · rfl
  · rw [hr]
    refine ⟨rfl, DescriptorTable.last_of_remove hremove, fun q => ?_⟩
    simp only [DescriptorTable.lookup_of_remove hremove, List.mem_singleton]

theorem Released.trans {s s' s'' : Service} {fds more : List Fd} (h : Released fds s s')
    (h' : Released more s' s'') : Released (fds ++ more) s s'' where
  same := by
    rw [h'.same, h.same]
  last := h'.last.trans h.last
  lookup q := by
    rw [h'.lookup, h.lookup]
    by_cases hmore : q ∈ more <;> simp [hmore]

/-- **Descriptors are closed one after the other**; nothing else changes. -/
theorem released_closeAll (fds : List Fd) : Released fds s (closeAll s fds).2 := by
  rw [closeAll_state]
  induction fds generalizing s with
  | nil => exact ⟨rfl, rfl, fun q => rfl⟩
  | cons fd fds ih => exact (released_close s fd).trans (ih (s.close fd).state)

theorem finish_of_cleanup (h : s.settings.closeOnSessionEnd = true) :
    Released c.opened s (c.finish s).state := by
  unfold finish
  rw [if_pos h]
  exact released_closeAll s c.opened

theorem finish_of_no_cleanup (h : s.settings.closeOnSessionEnd = false) :
    (c.finish s).state = s := by
  unfold finish
  rw [h]
  rfl

end Session

end Telefile
