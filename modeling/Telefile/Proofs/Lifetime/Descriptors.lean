import Telefile.Proofs.Lifetime.Accounts
import Telefile.Proofs.Samples

/-!
# The life of a descriptor

A descriptor is issued once, is live until someone closes it or its session takes it along, and
means nothing before and after.

* `Session.Refuses`, `Session.refuses_of_lookup` — what a session answers on a descriptor that means
  nothing;
* **`Hub.descriptor_lifetime`** — which descriptors are issued, when they are live, and that all
  others are refused;
* `Hub.descriptor_lifetime_reopened` — a descriptor that another session closed is not issued again.
-/

namespace Telefile

/-! ## 1. What means nothing is refused -/

/-- The operations on the descriptor `fd` answer that it is bad, and leave session and service as
they were. -/
structure Session.Refuses (c : Session) (s : Service) (fd : Fd) : Prop where
  close : (c.close s fd).answer = -9 ∧ (c.close s fd).state = (c, s)
  write : ∀ data, (c.write s fd data).answer = -9 ∧ (c.write s fd data).state = (c, s)
  read : ∀ capacity,
    (c.read s fd capacity).answer = (-9, []) ∧ (c.read s fd capacity).state = (c, s)
  seek : ∀ offset whence,
    (c.seek s fd offset whence).answer = -9 ∧ (c.seek s fd offset whence).state = (c, s)
  listDir : ∀ nbytes base, (c.listDir s fd nbytes base).answer = (-9, base, []) ∧
    (c.listDir s fd nbytes base).state = (c, s)

theorem Service.openFile_of_lookup {s : Service} {fd : Fd} (h : s.table.lookup fd = none) :
    s.openFile fd = .error (.badDescriptor fd) := by
  unfold openFile
  rw [h]

theorem Service.handle_of_lookup {s : Service} {fd : Fd} (h : s.table.lookup fd = none) :
    s.handle fd = .error (.badDescriptor fd) := by
  unfold handle
  rw [openFile_of_lookup h]

theorem Session.refuses_of_lookup (c : Session) {s : Service} {fd : Fd}
    (h : s.table.lookup fd = none) : c.Refuses s fd where
  close := by
    have hclose : s.close fd = .stay s (.error (.badDescriptor fd)) := by
      rcases s.close_cases fd with ⟨-, hr⟩ | ⟨f, table, hremove, -⟩
      · exact hr
      · unfold DescriptorTable.remove at hremove
        rw [h] at hremove
        cases hremove
    unfold Session.close
    rw [hclose]
    exact ⟨rfl, rfl⟩
  write data := by
    unfold Session.write Service.write
    rw [Service.handle_of_lookup h]
    exact ⟨rfl, rfl⟩
  read capacity := by
    unfold Session.read Service.read
    rw [Service.handle_of_lookup h]
    exact ⟨rfl, rfl⟩
  seek offset whence := by
    unfold Session.seek Service.seek
    rw [Service.handle_of_lookup h]
    exact ⟨rfl, rfl⟩
  listDir nbytes base := by
    unfold Session.listDir Service.listDir
    rw [Service.openFile_of_lookup h]
    exact ⟨rfl, rfl⟩

/-! ## 2. Over histories -/

/-- **The life of a descriptor.** Successful opens issue descriptors in increasing order, all above
1000, so none is issued twice. A descriptor is live exactly if a session got it and nothing that
removes it has come since, neither a close by any session nor the end of its own session where
sessions take their descriptors along. On everything else, every session refuses every operation on
descriptors and changes nothing. -/
theorem Hub.descriptor_lifetime {settings : Settings} {host : Host} {notes : List Note} {b : Hub}
    (h : Recorded settings host notes b) :
    (issuedIn (effects notes)).Pairwise (· < ·) ∧
    (∀ fd ∈ issuedIn (effects notes), 1000 < fd) ∧
    (∀ fd, (b.service.table.lookup fd).isSome ↔
      ∃ id, HeldBy settings.closeOnSessionEnd (effects notes) id fd) ∧
    ∀ fd, (¬ ∃ id, HeldBy settings.closeOnSessionEnd (effects notes) id fd) →
      ∀ c : Session, c.Refuses b.service fd := by
  have haccounts := h.accounts
  refine ⟨haccounts.increasing, fun fd => haccounts.above, fun fd => haccounts.live, ?_⟩
  intro fd hnone c
  have hdead : ¬ (b.service.table.lookup fd).isSome := fun hlive => hnone (haccounts.live.mp hlive)
  exact c.refuses_of_lookup (Option.not_isSome_iff_eq_none.mp hdead)

/-! ## 3. A descriptor closed by another session -/

/-- The descriptor that session 2 closed means nothing any more, and the next one is live. -/
theorem Hub.descriptor_lifetime_reopened :
    let notes := recordOfReopening 4 false
    let s := (reopened 4 false).service
    Recorded ⟨none, 4, false⟩ Host.fourBytes notes (reopened 4 false) ∧
      issuedIn (effects notes) = [1001, 1002] ∧ (s.table.lookup 1002).isSome ∧
      ∀ c : Session, c.Refuses s 1001 := by
  intro notes s
  have hrecorded := recorded_reopening 4 false
  obtain ⟨-, -, hlive, hrefused⟩ := descriptor_lifetime hrecorded
  rw [effects_reopening] at hlive hrefused
  refine ⟨hrecorded, by rw [effects_reopening]; rfl, ?_, hrefused 1001 ?_⟩
  · rw [hlive]
    exact ⟨1, heldBy_snoc.mpr (.inl rfl)⟩
  · rintro ⟨id, hheld⟩
    rw [heldBy_snoc, heldBy_snoc] at hheld
    obtain he | ⟨he | ⟨-, hkept⟩, -⟩ := hheld
    · cases he
    · cases he
    · exact hkept rfl

end Telefile
