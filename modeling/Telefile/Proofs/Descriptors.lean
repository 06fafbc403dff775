import Telefile.Proofs.Histories
import Telefile.Proofs.Steps

/-!
# Issued descriptors

The counter of a descriptor table only goes up, from `descriptorBase` to `maxDescriptor`, and what
is issued lies between. So a descriptor fits 32 bits and no result code is mistaken for one.

* `DescriptorTable.open?_eq_some_iff`, `DescriptorTable.last_of_remove` — what storing and taking out
  a file do to the counter; `DescriptorTable.isEmpty_of_lookup` — a table in which nothing is found;
* `Service.keeps_issued`, `Hub.issued_serviceAfter` — where the counter stands;
* `Service.openPath_ok_bounds` — where a fresh descriptor lies.
-/

namespace Telefile

namespace DescriptorTable

variable {φ : Type}

theorem open?_eq_some_iff {t t' : DescriptorTable φ} {f : φ} {fd : Fd} :
    t.open? f = some (fd, t') ↔ t.last < maxDescriptor ∧ fd = t.last + 1 ∧
      t' = ({ t with last := t.last + 1 } : DescriptorTable φ).insert fd f := by
  unfold open? allocate
  by_cases h : t.last < maxDescriptor
  · rw [if_pos h]
    simp only [Option.map_some, Option.some.injEq, Prod.mk.injEq, h, true_and]
    constructor
    · rintro ⟨rfl, rfl⟩
      exact ⟨rfl, rfl⟩
    · rintro ⟨rfl, rfl⟩
      exact ⟨rfl, rfl⟩
  · rw [if_neg h]
    simp [h]

theorem last_of_remove {t t' : DescriptorTable φ} {fd : Fd} {f : φ}
    (h : t.remove fd = some (f, t')) : t'.last = t.last := by
  unfold remove at h
  obtain ⟨g, -, hg⟩ := Option.map_eq_some_iff.mp h
  cases hg
  rfl

theorem isEmpty_of_lookup {t : DescriptorTable φ} (h : ∀ fd, t.lookup fd = none) :
    t.isEmpty = true := by
  obtain ⟨last, pairs, nodup⟩ := t
  cases pairs with
  | nil => rfl
  | cons p rest =>
    have hp := h p.1
    simp [lookup, Dictionary.get?, Dictionary.find] at hp

end DescriptorTable

namespace Service

/-- The counter stands where it starts or above, and not beyond the largest descriptor. -/
def Issued (s : Service) : Prop :=
  descriptorBase ≤ s.table.last ∧ s.table.last ≤ maxDescriptor

/-- The next descriptor is no result code of a failure. -/
theorem Issued.next_nonneg {s : Service} (h : s.Issued) : (0 : Int) ≤ s.table.last + 1 := by
  have hbase : (0 : Int) ≤ descriptorBase := by decide
  exact Int.le_add_one (Int.le_trans hbase h.1)

theorem keeps_issued : Keeps Issued where
  openPath {s} path mode h := by
    rcases s.openPath_cases path mode with ⟨e, log, -, hr⟩ | ⟨f, host, -, -, hr⟩ |
      ⟨f, host, fd, table, -, ht, hr⟩
    · rw [hr]
      exact h
    · rw [hr]
      exact h
    · obtain ⟨hlt, -, rfl⟩ := DescriptorTable.open?_eq_some_iff.mp ht
      rw [hr]
      obtain ⟨hlow, -⟩ := h
      have habove : descriptorBase < s.table.last + 1 := Int.lt_add_one_of_le hlow
      exact ⟨Int.le_of_lt habove, Int.add_one_le_of_lt hlt⟩
  close {s} fd h := by
    rcases s.close_cases fd with ⟨-, hr⟩ | ⟨f, table, hremove, hr⟩
    · rw [hr]
      exact h
    · rw [hr]
      unfold Issued
      rw [show table.last = s.table.last from DescriptorTable.last_of_remove hremove]
      exact h
  write {s} fd data h := by
    rcases s.write_cases fd data with ⟨e, hr⟩ | ⟨hd, answer, -, -, -, hr⟩ <;> rw [hr] <;> exact h
  read {s} fd capacity h := by
    rcases s.read_cases fd capacity with ⟨e, hr⟩ | ⟨hd, n, bytes, -, -, -, hr⟩ <;> rw [hr] <;>
      exact h
  seek {s} fd offset whence h := by
    rcases s.seek_cases fd offset whence with ⟨e, hr⟩ | ⟨hd, pos, -, hr⟩ <;> rw [hr] <;> exact h
  unlink {s} path h := by
    rcases s.unlink_cases path with ⟨e, -, hr⟩ | ⟨host, -, hr⟩ <;> rw [hr] <;> exact h
  join h := h

/-- A fresh descriptor lies above the base, and is not beyond the largest. -/
theorem openPath_ok_bounds {s : Service} (hs : s.Issued) {path : Option String} {mode : OpenMode}
    {fd : Fd} (h : (s.openPath path mode).answer = .ok fd) :
    descriptorBase < fd ∧ fd ≤ maxDescriptor := by
  rcases s.openPath_cases path mode with ⟨e, log, -, hr⟩ | ⟨f, host, -, -, hr⟩ |
    ⟨f, host, fd', table, -, ht, hr⟩
  · rw [hr] at h
    cases h
  · rw [hr] at h
    cases h
  · rw [hr] at h
    cases h
    obtain ⟨hlt, rfl, -⟩ := DescriptorTable.open?_eq_some_iff.mp ht
    exact ⟨Int.lt_add_one_of_le hs.1, Int.add_one_le_of_lt hlt⟩

end Service

theorem Hub.issued_serviceAfter (settings : Settings) (host : Host) (history : List HubEvent) :
    (serviceAfter settings host history).Issued := by
  have hstart : (Service.start settings host).answer.Issued := by
    have hbase : descriptorBase ≤ descriptorBase ∧ descriptorBase ≤ maxDescriptor := by decide
    exact hbase
  exact serviceAfter_of_start Service.keeps_issued hstart history

end Telefile
