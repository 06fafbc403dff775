import Telefile.Proofs.Histories

/-!
# Records of histories

What can be told of a history from outside: the events in their order, and the response to each
request. What became of descriptors is read off that record alone, and the service is not asked.

* `Hub.Recorded` — the records that clients of a new service leave, and the hub after each; between
  two events others may change the host's tree;
* `Note.effect` — what one event says of descriptors;
* `issuedIn`, `openedBy` — the descriptors that opens returned, and those among them that a session
  got and has not itself closed;
* `HeldBy` — a descriptor was got, and nothing that removes it has come since (`heldBy_snoc`).
-/

namespace Telefile

/-! ## 1. Records -/

/-- What is noted of an event: the event, and the response if it was a request. -/
structure Note where
  event : HubEvent
  response : Option Response

/-- The records of histories at a service that was started on `host`, each with the hub it leads to.
Between two events others may change the host. -/
inductive Hub.Recorded (settings : Settings) (host : Host) : List Note → Hub → Prop
  | start : Recorded settings host [] (Hub.start settings host).answer
  | event {notes b} (e : HubEvent) (h : Recorded settings host notes b) :
    Recorded settings host (notes ++ [⟨e, (b.step e).1⟩]) (b.step e).2
  | outside {notes b} (other : Host) (h : Recorded settings host notes b) :
    Recorded settings host notes { b with service := { b.service with host := other } }

namespace Hub

variable {settings : Settings} {host : Host} {notes : List Note} {b : Hub}

/-- The notes of a history of events. -/
def notesOf (b : Hub) (es : List HubEvent) : List Note := List.zipWith Note.mk es (b.run es).1

theorem notesOf_cons (b : Hub) (e : HubEvent) (es : List HubEvent) :
    b.notesOf (e :: es) = ⟨e, (b.step e).1⟩ :: (b.step e).2.notesOf es := rfl

/-- A history that is run leaves its record. -/
theorem Recorded.run (h : Recorded settings host notes b) (es : List HubEvent) :
    Recorded settings host (notes ++ b.notesOf es) (b.run es).2 := by
  induction es generalizing notes b with
  | nil =>
    rw [show b.notesOf [] = [] from rfl, List.append_nil]
    exact h
  | cons e es ih =>
    rw [notesOf_cons, List.append_cons, run_cons]
    exact ih (h.event e)

/-- **What every operation keeps, and the host has no part in, holds where a record leads.** -/
theorem Recorded.keeps {P : Service → Prop} (hP : Service.Keeps P)
    (hhost : ∀ {s : Service} (other : Host), P s → P { s with host := other })
    (hstart : P (Service.start settings host).answer) (h : Recorded settings host notes b) :
    P b.service := by
  induction h with
  | start => exact hstart
  | event e _ ih => exact keeps_step hP e ih
  | outside other _ ih => exact hhost other ih

theorem Recorded.settings_eq (h : Recorded settings host notes b) :
    b.service.settings = settings :=
  h.keeps (Service.keeps_settings settings) (fun _ hs => hs) rfl

end Hub

/-! ## 2. What a note says of descriptors -/

/-- What an event comes to, as far as descriptors go. -/
inductive Effect
  /-- Session `id` got the descriptor `fd` by an open. -/
  | issued (id : Nat) (fd : Fd)
  /-- Session `id` closed the descriptor `fd`. -/
  | closed (id : Nat) (fd : Fd)
  /-- Session `id` is over. -/
  | ended (id : Nat)
  /-- There is one more session. -/
  | begun
  | other
  deriving DecidableEq, Repr

/-- A descriptor is not negative, and a close that succeeds answers 0. -/
def Note.effect (n : Note) : Effect :=
  match n.event, n.response with
  | .join, _ => .begun
  | .leave id, _ => .ended id
  | .call id (.openPath ..), some (.status fd) => if 0 ≤ fd then .issued id fd else .other
  | .call id (.close fd), some (.status r) => if r = 0 then .closed id fd else .other
  | .call .., _ => .other

/-- What a record says of descriptors, event by event. -/
def effects (notes : List Note) : List Effect := notes.map Note.effect

theorem effects_snoc (notes : List Note) (n : Note) :
    effects (notes ++ [n]) = effects notes ++ [n.effect] := by
  rw [effects, List.map_append]
  rfl

namespace Effect

/-- The descriptor that was issued. -/
def issued? : Effect → Option Fd
  | issued _ fd => some fd
  | closed .. | ended _ | begun | other => none

/-- The descriptor that was issued to session `id`. -/
def issuedTo? (id : Nat) : Effect → Option Fd
  | issued i fd => if i = id then some fd else none
  | closed .. | ended _ | begun | other => none

/-- What removes the descriptor `fd` of session `id`: any session closes it, or its own ends where
sessions take their descriptors along. -/
def Removes (cleanup : Bool) (id : Nat) (fd : Fd) : Effect → Prop
  | closed _ q => q = fd
  | ended i => cleanup = true ∧ i = id
  | issued .. | begun | other => False

end Effect

/-! ## 3. What a record says of descriptors -/

/-- The descriptors that opens returned, in order. -/
def issuedIn (es : List Effect) : List Fd := es.filterMap Effect.issued?

/-- The descriptors that session `id` got and has not itself closed, in order. -/
def openedBy (id : Nat) (es : List Effect) : List Fd :=
  (es.filterMap (Effect.issuedTo? id)).filter fun fd => decide (.closed id fd ∉ es)

/-- Session `id` got the descriptor `fd`, and nothing that removes it has come since. -/
def HeldBy (cleanup : Bool) (es : List Effect) (id : Nat) (fd : Fd) : Prop :=
  ∃ before after, es = before ++ .issued id fd :: after ∧ ∀ e ∈ after, ¬ e.Removes cleanup id fd

section Snoc

variable {es : List Effect} {e : Effect} {id : Nat} {fd : Fd} {cleanup : Bool}

theorem issuedIn_snoc : issuedIn (es ++ [e]) = issuedIn es ++ e.issued?.toList := by
  unfold issuedIn
  rw [List.filterMap_append]
  cases e <;> rfl

theorem mem_openedBy_iff : fd ∈ openedBy id es ↔ .issued id fd ∈ es ∧ .closed id fd ∉ es := by
  unfold openedBy
  rw [List.mem_filter, List.mem_filterMap, decide_eq_true_eq]
  refine and_congr_left fun _ => ⟨?_, fun he => ⟨_, he, if_pos rfl⟩⟩
  rintro ⟨e, he, hfd⟩
  cases e with
  | issued i q =>
    simp only [Effect.issuedTo?, Option.ite_none_right_eq_some, Option.some.injEq] at hfd
    obtain ⟨rfl, rfl⟩ := hfd
    exact he
  | _ => cases hfd

/-- What is got comes last, as long as it was not closed before. -/
theorem openedBy_issued (hclosed : .closed id fd ∉ es) :
    openedBy id (es ++ [.issued id fd]) = openedBy id es ++ [fd] := by
  simp [openedBy, Effect.issuedTo?, List.filterMap_append, hclosed]

/-- What is closed is gone. -/
theorem openedBy_closed :
    openedBy id (es ++ [.closed id fd]) = (openedBy id es).filter fun q => decide (q ≠ fd) := by
  unfold openedBy
  rw [List.filterMap_append, List.filter_filter]
  simp [Effect.issuedTo?, Bool.and_comm]

/-- What other sessions do changes nothing. -/
theorem openedBy_other (hissued : e.issuedTo? id = none) (hclosed : ∀ q, e ≠ .closed id q) :
    openedBy id (es ++ [e]) = openedBy id es := by
  have hmem : ∀ q, .closed id q ∉ es ++ [e] ↔ .closed id q ∉ es := by
    intro q
    rw [List.mem_append, List.mem_singleton, or_iff_left (hclosed q).symm]
  have hnone : [e].filterMap (Effect.issuedTo? id) = [] := by
    rw [List.filterMap_cons, hissued]
    rfl
  unfold openedBy
  rw [List.filterMap_append, hnone, List.append_nil]
  simp only [hmem]

/-- A descriptor is held if it has just been got, or was held and has not just been removed. -/
theorem heldBy_snoc : HeldBy cleanup (es ++ [e]) id fd ↔
    e = .issued id fd ∨ HeldBy cleanup es id fd ∧ ¬ e.Removes cleanup id fd := by
  constructor
  · rintro ⟨before, after, heq, hall⟩
    rcases List.eq_nil_or_concat after with rfl | ⟨middle, x, rfl⟩
    · obtain ⟨-, he⟩ := List.append_inj' heq rfl
      exact .inl (List.singleton_inj.mp he)
    · rw [List.concat_eq_append, ← List.cons_append, ← List.append_assoc] at heq
      obtain ⟨hes, he⟩ := List.append_inj' heq rfl
      obtain rfl := List.singleton_inj.mp he
      rw [List.concat_eq_append] at hall
      exact .inr ⟨⟨before, middle, hes, fun y hy => hall y (List.mem_append_left _ hy)⟩,
        hall e (List.mem_append_right _ List.mem_cons_self)⟩
  · rintro (rfl | ⟨⟨before, after, rfl, hall⟩, hkept⟩)
    · exact ⟨es, [], rfl, fun y hy => absurd hy List.not_mem_nil⟩
    · refine ⟨before, after ++ [e], by simp, fun y hy => ?_⟩
      rcases List.mem_append.mp hy with hy | hy
      · exact hall y hy
      · rw [List.mem_singleton.mp hy]
        exact hkept

theorem openedBy_sublist (id : Nat) (es : List Effect) :
    (openedBy id es).Sublist (issuedIn es) := by
  have hissued : (es.filterMap (Effect.issuedTo? id)).Sublist (issuedIn es) := by
    unfold issuedIn
    induction es with
    | nil => exact List.Sublist.refl _
    | cons e es ih =>
      cases e with
      | issued i fd =>
        by_cases hi : i = id
        · simpa [Effect.issuedTo?, Effect.issued?, hi] using ih
        · simpa [Effect.issuedTo?, Effect.issued?, hi] using ih.cons fd
      | _ => exact ih
  exact List.filter_sublist.trans hissued

theorem HeldBy.issued_mem (h : HeldBy cleanup es id fd) : .issued id fd ∈ es := by
  obtain ⟨before, after, rfl, -⟩ := h
  exact List.mem_append_right _ List.mem_cons_self

end Snoc

end Telefile
