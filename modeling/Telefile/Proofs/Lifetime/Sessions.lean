import Telefile.Proofs.Lifetime.Accounts

/-!
# What sessions hold

A session knows the descriptors that it got and has not itself closed. Where sessions take their
descriptors along, that is enough to leave none behind: other sessions' closes make the knowledge
stale, but what is closed never comes back under the same number.

* `Hub.Owns` — a session that has not ended knows to have opened a descriptor;
* `Recorded.opened_eq`, `Recorded.opened_increasing` — what a session knows;
* `Recorded.owner` — a live descriptor has one owner, the session that got it;
* `Recorded.lookup_leave` — the end of a session takes along what it got, and nothing else;
* `Recorded.isEmpty_of_ended` — without sessions, nothing is live.
-/

namespace Telefile

namespace Hub

/-- Session `id` has not ended, and `fd` is among the descriptors it knows to have opened. -/
def Owns (b : Hub) (id : Nat) (fd : Fd) : Prop :=
  ∃ c, b.session? id = some c ∧ fd ∈ c.opened

variable {settings : Settings} {host : Host} {notes : List Note} {b : Hub} {id : Nat} {fd : Fd}
  {c : Session}

/-! ## 1. What a session knows -/

/-- A session knows what it got and has not itself closed. -/
theorem Recorded.opened_eq (h : Recorded settings host notes b) (hc : b.session? id = some c) :
    c.opened = openedBy id (effects notes) :=
  h.accounts.held (held_of_session hc)

/-- A session knows its descriptors in the order in which they were issued. -/
theorem Recorded.opened_increasing (h : Recorded settings host notes b)
    (hc : b.session? id = some c) : c.opened.Pairwise (· < ·) := by
  rw [h.opened_eq hc]
  exact h.accounts.increasing.sublist (openedBy_sublist id _)

/-! ## 2. Where sessions take their descriptors along -/

/-- A live descriptor has one owner: the session that got it. -/
theorem Recorded.owner (h : Recorded settings host notes b)
    (hcleanup : settings.closeOnSessionEnd = true)
    (hlive : (b.service.table.lookup fd).isSome) :
    ∃ id, .issued id fd ∈ effects notes ∧ ∀ i, b.Owns i fd ↔ i = id := by
  have haccounts := h.accounts
  obtain ⟨id, hheld⟩ := haccounts.live.mp hlive
  refine ⟨id, hheld.issued_mem, fun i => ⟨?_, ?_⟩⟩
  · rintro ⟨c, hc, hfd⟩
    exact haccounts.sole (haccounts.issued_mem (held_of_session hc) hfd) hheld.issued_mem
  · rintro rfl
    obtain ⟨fds, hfds, hfd⟩ := haccounts.holder hcleanup hheld
    obtain ⟨c, hc, rfl⟩ := Option.map_eq_some_iff.mp hfds
    exact ⟨c, hc, hfd⟩

/-- The end of a session takes along those of its descriptors that are still live, and no descriptor
that another session got. -/
theorem Recorded.lookup_leave (h : Recorded settings host notes b)
    (hcleanup : settings.closeOnSessionEnd = true) (hc : b.session? id = some c) (fd : Fd) :
    (b.leave id).state.service.table.lookup fd =
      if .issued id fd ∈ effects notes then none else b.service.table.lookup fd := by
  have haccounts := h.accounts
  have hreleased : Session.Released c.opened b.service (c.finish b.service).state :=
    c.finish_of_cleanup b.service (h.settings_eq ▸ hcleanup)
  rw [leave_of_session hc, hreleased.lookup]
  by_cases hfd : fd ∈ c.opened
  · rw [if_pos hfd, if_pos (haccounts.issued_mem (held_of_session hc) hfd)]
  · rw [if_neg hfd]
    split
    · next hissued =>
      -- what the session got and does not know any more is not live
      refine Option.not_isSome_iff_eq_none.mp fun hlive => ?_
      obtain ⟨id', hissued', howns⟩ := h.owner hcleanup hlive
      obtain ⟨c', hc', hfd'⟩ := (howns id).mpr (haccounts.sole hissued hissued')
      obtain rfl : c = c' := Option.some.inj (hc.symm.trans hc')
      exact hfd hfd'
    · rfl

/-- Without sessions, nothing is live. -/
theorem Recorded.isEmpty_of_ended (h : Recorded settings host notes b)
    (hcleanup : settings.closeOnSessionEnd = true) (hended : ∀ id, b.session? id = none) :
    b.service.table.isEmpty := by
  refine DescriptorTable.isEmpty_of_lookup fun fd => ?_
  refine Option.not_isSome_iff_eq_none.mp fun hlive => ?_
  obtain ⟨id, -, howns⟩ := h.owner hcleanup hlive
  obtain ⟨c, hc, -⟩ := (howns id).mpr rfl
  rw [hended] at hc
  cases hc

end Hub

end Telefile
