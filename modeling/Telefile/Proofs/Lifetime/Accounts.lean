import Telefile.Proofs.Lifetime.Holdings

/-!
# A record accounts for the holdings

From the record of a history it can be told which descriptors are live and what each session holds:
the service keeps no more and no less.

* `Counted` — the counter against the record: descriptors are issued one after the other, each once;
* `Accounts` — the live descriptors and those of the sessions against the record;
* `Accounts.issued`, `Accounts.closed`, `Accounts.ended`, `Accounts.begun` — each effect keeps that;
* **`Hub.Recorded.accounts`** — and so do histories.
-/

namespace Telefile

/-! ## 1. The counter -/

/-- The descriptors in the record were issued one after the other, the last of them last. -/
structure Counted (es : List Effect) (s : Holdings) : Prop where
  last : s.last = descriptorBase + (issuedIn es).length
  nth : ∀ {k : Nat} {fd}, (issuedIn es)[k]? = some fd → fd = descriptorBase + 1 + k
  known : ∀ {id fd}, .issued id fd ∈ es → id < s.next ∧ fd ≤ s.last
  sole : ∀ {id other fd}, .issued id fd ∈ es → .issued other fd ∈ es → id = other
  closed_le : ∀ {id fd}, .closed id fd ∈ es → fd ≤ s.last

namespace Counted

variable {es : List Effect} {s s' : Holdings} {id : Nat}

/-- The next descriptor. -/
theorem issued (h : Counted es s) (hid : id < s.next) (hlast : s'.last = s.last + 1)
    (hnext : s'.next = s.next) : Counted (es ++ [.issued id (s.last + 1)]) s' where
  last := by
    rw [hlast, h.last, issuedIn_snoc, List.length_append]
    exact Int.add_assoc descriptorBase (issuedIn es).length 1
  nth {k fd} hk := by
    rw [issuedIn_snoc] at hk
    rcases Nat.lt_or_ge k (issuedIn es).length with hlt | hge
    · rw [List.getElem?_append_left hlt] at hk
      exact h.nth hk
    · rw [List.getElem?_append_right hge] at hk
      obtain ⟨hzero, hfd⟩ := List.getElem?_eq_some_iff.mp hk
      obtain rfl : k = (issuedIn es).length :=
        Nat.le_antisymm (Nat.sub_eq_zero_iff_le.mp (Nat.lt_one_iff.mp hzero)) hge
      simp only [Nat.sub_self] at hfd
      rw [← show s.last + 1 = fd from hfd, h.last]
      exact Int.add_right_comm descriptorBase (issuedIn es).length 1
  known {i fd} hi := by
    rw [hnext, hlast]
    rcases List.mem_append.mp hi with hi | hi
    · obtain ⟨hlt, hle⟩ := h.known hi
      exact ⟨hlt, Int.le_add_one hle⟩
    · obtain ⟨rfl, rfl⟩ := Effect.issued.inj (List.mem_singleton.mp hi)
      exact ⟨hid, Int.le_refl _⟩
  sole {i other fd} hi hother := by
    -- what was issued before is not beyond the last one, and so is not the next
    have hfresh : ∀ {i}, .issued i (s.last + 1) ∉ es := by
      intro i hmem
      exact Int.not_le.mpr (Int.lt_succ _) (h.known hmem).2
    rcases List.mem_append.mp hi with hold | hnew <;>
      rcases List.mem_append.mp hother with hold' | hnew'
    · exact h.sole hold hold'
    · obtain ⟨rfl, rfl⟩ := Effect.issued.inj (List.mem_singleton.mp hnew')
      exact absurd hold hfresh
    · obtain ⟨rfl, rfl⟩ := Effect.issued.inj (List.mem_singleton.mp hnew)
      exact absurd hold' hfresh
    · obtain ⟨rfl, rfl⟩ := Effect.issued.inj (List.mem_singleton.mp hnew)
      exact (Effect.issued.inj (List.mem_singleton.mp hnew')).1.symm
  closed_le {i fd} hi := by
    rw [hlast]
    rcases List.mem_append.mp hi with hi | hi
    · exact Int.le_add_one (h.closed_le hi)
    · cases List.mem_singleton.mp hi

/-- Whatever else happens issues nothing. -/
theorem keep {e : Effect} (h : Counted es s) (hissued : e.issued? = none)
    (hclosed : ∀ id fd, e = .closed id fd → fd ≤ s.last) (hlast : s'.last = s.last)
    (hnext : s.next ≤ s'.next) : Counted (es ++ [e]) s' := by
  have hsame : issuedIn (es ++ [e]) = issuedIn es := by
    rw [issuedIn_snoc, hissued]
    exact List.append_nil _
  have hmem : ∀ {i fd}, .issued i fd ∈ es ++ [e] → .issued i fd ∈ es := by
    intro i fd hi
    rcases List.mem_append.mp hi with hi | hi
    · exact hi
    · rw [← List.mem_singleton.mp hi] at hissued
      cases hissued
  constructor
  case last => rw [hsame, hlast, h.last]
  case nth =>
    intro k fd hk
    rw [hsame] at hk
    exact h.nth hk
  case known =>
    intro i fd hi
    obtain ⟨hlt, hle⟩ := h.known (hmem hi)
    exact ⟨Nat.lt_of_lt_of_le hlt hnext, hlast ▸ hle⟩
  case sole => exact fun hi ho => h.sole (hmem hi) (hmem ho)
  case closed_le =>
    intro i fd hi
    rw [hlast]
    rcases List.mem_append.mp hi with hi | hi
    · exact h.closed_le hi
    · exact hclosed i fd (List.mem_singleton.mp hi).symm

/-- Descriptors go up from the one above the base. -/
theorem increasing (h : Counted es s) : (issuedIn es).Pairwise (· < ·) := by
  rw [List.pairwise_iff_getElem]
  intro i j hi hj hij
  rw [h.nth (List.getElem?_eq_getElem hi), h.nth (List.getElem?_eq_getElem hj)]
  exact Int.add_lt_add_left (Int.ofNat_lt.mpr hij) _

theorem above (h : Counted es s) {fd : Fd} (hfd : fd ∈ issuedIn es) : descriptorBase < fd := by
  obtain ⟨k, hk⟩ := List.mem_iff_getElem?.mp hfd
  rw [h.nth hk, Int.add_assoc]
  exact Int.lt_add_of_pos_right _ (Int.add_pos_of_pos_of_nonneg Int.one_pos (Int.natCast_nonneg k))

end Counted

/-! ## 2. Live descriptors and sessions -/

/-- The record tells what is live and what each session holds; where sessions take their descriptors
along, what is live belongs to a session that has not ended. -/
structure Accounts (cleanup : Bool) (es : List Effect) (s : Holdings) : Prop
    extends Counted es s where
  numbered : ∀ {id fds}, s.held id = some fds → id < s.next
  live : ∀ {fd}, s.live fd ↔ ∃ id, HeldBy cleanup es id fd
  held : ∀ {id fds}, s.held id = some fds → fds = openedBy id es
  holder : ∀ {id fd}, cleanup = true → HeldBy cleanup es id fd →
    ∃ fds, s.held id = some fds ∧ fd ∈ fds

namespace Accounts

variable {cleanup : Bool} {es : List Effect} {s : Holdings} {id : Nat} {fd : Fd}

theorem live_le (h : Accounts cleanup es s) (hlive : s.live fd) : fd ≤ s.last := by
  obtain ⟨id, hheld⟩ := h.live.mp hlive
  exact (h.known hheld.issued_mem).2

/-- What a session holds was issued to it. -/
theorem issued_mem (h : Accounts cleanup es s) {fds : List Fd} (hheld : s.held id = some fds)
    (hfd : fd ∈ fds) : .issued id fd ∈ es := by
  rw [h.held hheld] at hfd
  exact (mem_openedBy_iff.mp hfd).1

theorem issued (h : Accounts cleanup es s) {fds : List Fd} (hheld : s.held id = some fds) :
    Accounts cleanup (es ++ [.issued id (s.last + 1)])
      (s.after cleanup (.issued id (s.last + 1))) where
  toCounted := h.toCounted.issued (h.numbered hheld) rfl rfl
  numbered {i is} hi := by
    by_cases hid : i = id
    · rw [hid]
      exact h.numbered hheld
    · simp only [Holdings.after, if_neg hid] at hi
      exact h.numbered hi
  live {q} := by
    show q = s.last + 1 ∨ s.live q ↔ _
    simp only [heldBy_snoc, h.live, Effect.Removes, Effect.issued.injEq, not_false_eq_true,
      and_true, exists_or]
    refine or_congr_left ⟨?_, ?_⟩
    · rintro rfl
      exact ⟨id, rfl, rfl⟩
    · rintro ⟨i, -, hq⟩
      exact hq.symm
  held {i is} hi := by
    by_cases hid : i = id
    · subst hid
      simp only [Holdings.after, if_true, hheld, Option.map_some, Option.some.injEq] at hi
      have hclosed : .closed i (s.last + 1) ∉ es := by
        intro hmem
        exact Int.not_le.mpr (Int.lt_succ _) (h.closed_le hmem)
      rw [openedBy_issued hclosed, ← h.held hheld, hi]
    · simp only [Holdings.after, if_neg hid] at hi
      have hother : Effect.issuedTo? i (.issued id (s.last + 1)) = none := if_neg (Ne.symm hid)
      rw [openedBy_other hother (fun _ he => (by cases he))]
      exact h.held hi
  holder {i q} hcleanup hq := by
    rw [heldBy_snoc] at hq
    rcases hq with he | ⟨hq, -⟩
    · obtain ⟨rfl, rfl⟩ := Effect.issued.inj he
      exact ⟨fds ++ [s.last + 1], by simp [Holdings.after, hheld], by simp⟩
    · obtain ⟨is, his, hmem⟩ := h.holder hcleanup hq
      by_cases hid : i = id
      · subst hid
        exact ⟨is ++ [s.last + 1], by simp [Holdings.after, his], List.mem_append_left _ hmem⟩
      · exact ⟨is, by simp [Holdings.after, hid, his], hmem⟩

theorem closed (h : Accounts cleanup es s) (hlive : s.live fd) (id : Nat) :
    Accounts cleanup (es ++ [.closed id fd]) (s.after cleanup (.closed id fd)) where
  toCounted := by
    refine h.toCounted.keep rfl ?_ rfl (Nat.le_refl _)
    intro i q he
    obtain ⟨-, rfl⟩ := Effect.closed.inj he
    exact h.live_le hlive
  numbered {i is} hi := by
    by_cases hid : i = id
    · simp only [Holdings.after, if_pos hid, Option.map_eq_some_iff] at hi
      obtain ⟨js, hjs, -⟩ := hi
      exact h.numbered hjs
    · simp only [Holdings.after, if_neg hid] at hi
      exact h.numbered hi
  live {q} := by
    show q ≠ fd ∧ s.live q ↔ _
    simp only [heldBy_snoc, h.live, Effect.Removes, reduceCtorEq, false_or]
    constructor
    · rintro ⟨hne, i, hi⟩
      exact ⟨i, hi, Ne.symm hne⟩
    · rintro ⟨i, hi, hne⟩
      exact ⟨Ne.symm hne, i, hi⟩
  held {i is} hi := by
    by_cases hid : i = id
    · subst hid
      simp only [Holdings.after, if_true, Option.map_eq_some_iff] at hi
      obtain ⟨js, hjs, rfl⟩ := hi
      rw [openedBy_closed, ← h.held hjs]
    · simp only [Holdings.after, if_neg hid] at hi
      have hother : ∀ q, Effect.closed id fd ≠ .closed i q := by
        intro q he
        exact hid (Effect.closed.inj he).1.symm
      rw [openedBy_other rfl hother]
      exact h.held hi
  holder {i q} hcleanup hq := by
    rw [heldBy_snoc] at hq
    obtain ⟨hq, hne⟩ : HeldBy cleanup es i q ∧ ¬ fd = q := by simpa [Effect.Removes] using hq
    obtain ⟨is, his, hmem⟩ := h.holder hcleanup hq
    by_cases hid : i = id
    · subst hid
      refine ⟨is.filter fun q => decide (q ≠ fd), ?_, ?_⟩
      · simp [Holdings.after, his]
      · exact List.mem_filter.mpr ⟨hmem, decide_eq_true (Ne.symm hne)⟩
    · exact ⟨is, by simp [Holdings.after, hid, his], hmem⟩

theorem ended (h : Accounts cleanup es s) (id : Nat) :
    Accounts cleanup (es ++ [.ended id]) (s.after cleanup (.ended id)) where
  toCounted := h.toCounted.keep rfl (fun _ _ he => (by cases he)) rfl (Nat.le_refl _)
  numbered {i is} hi := by
    by_cases hid : i = id
    · simp [Holdings.after, hid] at hi
    · simp only [Holdings.after, if_neg hid] at hi
      exact h.numbered hi
  live {q} := by
    show s.live q ∧ ¬ (cleanup = true ∧ ∃ fds, s.held id = some fds ∧ q ∈ fds) ↔ _
    simp only [heldBy_snoc, h.live, Effect.Removes, reduceCtorEq, false_or]
    constructor
    · rintro ⟨⟨i, hi⟩, hkept⟩
      refine ⟨i, hi, ?_⟩
      rintro ⟨hcleanup, rfl⟩
      exact hkept ⟨hcleanup, h.holder hcleanup hi⟩
    · rintro ⟨i, hi, hkept⟩
      refine ⟨⟨i, hi⟩, ?_⟩
      rintro ⟨hcleanup, fds, hfds, hq⟩
      -- what the session that ends holds was issued to it alone
      exact hkept ⟨hcleanup, h.sole (h.issued_mem hfds hq) hi.issued_mem⟩
  held {i is} hi := by
    by_cases hid : i = id
    · simp [Holdings.after, hid] at hi
    · simp only [Holdings.after, if_neg hid] at hi
      rw [openedBy_other rfl (fun _ he => (by cases he))]
      exact h.held hi
  holder {i q} hcleanup hq := by
    rw [heldBy_snoc] at hq
    obtain ⟨hq, hne⟩ : HeldBy cleanup es i q ∧ ¬ id = i := by
      simpa [Effect.Removes, hcleanup] using hq
    obtain ⟨is, his, hmem⟩ := h.holder hcleanup hq
    exact ⟨is, by simp [Holdings.after, Ne.symm hne, his], hmem⟩

theorem begun (h : Accounts cleanup es s) :
    Accounts cleanup (es ++ [.begun]) (s.after cleanup .begun) where
  toCounted := h.toCounted.keep rfl (fun _ _ he => (by cases he)) rfl (Nat.le_succ _)
  numbered {i is} hi := by
    show i < s.next + 1
    by_cases hid : i = s.next
    · omega
    · simp only [Holdings.after, if_neg hid] at hi
      exact Nat.lt_succ_of_lt (h.numbered hi)
  live {q} := by
    show s.live q ↔ _
    simp [heldBy_snoc, h.live, Effect.Removes]
  held {i is} hi := by
    rw [openedBy_other rfl (fun _ he => (by cases he))]
    by_cases hid : i = s.next
    · simp only [Holdings.after, if_pos hid, Option.some.injEq] at hi
      rw [← hi, eq_comm, List.eq_nil_iff_forall_not_mem]
      intro q hq
      have hlt := (h.known (mem_openedBy_iff.mp hq).1).1
      omega
    · simp only [Holdings.after, if_neg hid] at hi
      exact h.held hi
  holder {i q} hcleanup hq := by
    rw [heldBy_snoc] at hq
    obtain hq : HeldBy cleanup es i q := by simpa [Effect.Removes] using hq
    obtain ⟨is, his, hmem⟩ := h.holder hcleanup hq
    have hid : i ≠ s.next := Nat.ne_of_lt (h.numbered his)
    exact ⟨is, by simp [Holdings.after, hid, his], hmem⟩

theorem other (h : Accounts cleanup es s) : Accounts cleanup (es ++ [.other]) s where
  toCounted := h.toCounted.keep rfl (fun _ _ he => (by cases he)) rfl (Nat.le_refl _)
  numbered := h.numbered
  live {q} := by simp [heldBy_snoc, h.live, Effect.Removes]
  held {i is} hi := by
    rw [openedBy_other rfl (fun _ he => (by cases he))]
    exact h.held hi
  holder {i q} hcleanup hq := by
    rw [heldBy_snoc] at hq
    exact h.holder hcleanup (by simpa [Effect.Removes] using hq)

/-- **Every effect that can come about** is accounted for. -/
theorem after (h : Accounts cleanup es s) {e : Effect} (he : s.Allows e) :
    Accounts cleanup (es ++ [e]) (s.after cleanup e) := by
  cases e with
  | issued id fd =>
    obtain ⟨rfl, fds, hheld⟩ := he
    exact h.issued hheld
  | closed id fd => exact h.closed he id
  | ended id => exact h.ended id
  | begun => exact h.begun
  | other => exact h.other

end Accounts

/-! ## 3. Histories -/

namespace Hub

variable {settings : Settings} {host : Host} {notes : List Note} {b : Hub}

theorem Recorded.issued (h : Recorded settings host notes b) : b.service.Issued := by
  have hstart : (Service.start settings host).answer.Issued := issued_serviceAfter settings host []
  exact h.keeps Service.keeps_issued (fun _ hs => hs) hstart

theorem accounts_start (cleanup : Bool) (settings : Settings) (host : Host) :
    Accounts cleanup [] (Hub.start settings host).answer.holdings where
  last := rfl
  nth hk := by cases hk
  known hi := absurd hi List.not_mem_nil
  sole hi := absurd hi List.not_mem_nil
  closed_le hi := absurd hi List.not_mem_nil
  numbered hi := by cases hi
  live {fd} := by
    show ((Hub.start settings host).answer.service.table.lookup fd).isSome = true ↔ _
    rw [lookup_start]
    refine ⟨fun hlive => (by cases hlive), fun ⟨id, hheld⟩ => ?_⟩
    exact absurd hheld.issued_mem List.not_mem_nil
  held hi := by cases hi
  holder _ hheld := absurd hheld.issued_mem List.not_mem_nil

/-- **A record accounts for what the hub holds.** -/
theorem Recorded.accounts (h : Recorded settings host notes b) :
    Accounts settings.closeOnSessionEnd (effects notes) b.holdings := by
  induction h with
  | start => exact accounts_start _ settings host
  | @event notes b e h ih =>
    obtain ⟨hallows, hafter⟩ := holdings_step h.issued e
    rw [effects_snoc, hafter, h.settings_eq]
    exact ih.after hallows
  | outside other _ ih => exact ih

end Hub

end Telefile
