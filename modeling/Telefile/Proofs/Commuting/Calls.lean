import Telefile.Proofs.Commuting.Deeds
import Telefile.Proofs.Samples

/-!
# Calls on different descriptors commute

Two calls on two descriptors, of one session or of two, may be made in either order: each is
answered the same, and the same comes of them, but for the times of files. Only a write and another
call on the same file are not of this kind.

* `Service.SameFor.changed` — a deed on one descriptor leaves the services the same to another;
* `Service.changed_comm`, `Deed.hub_comm` — two such deeds commute, on the service and on the hub;
* `Hub.undated_hub` — what a deed leaves of the clock;
* **`Hub.calls_commute`** — two calls, in either order and at any times.
-/

namespace Telefile

/-! ## 1. Deeds on a service -/

namespace Service

/-- The two descriptors are open on the same regular file. -/
def Shares (s : Service) (fd fd' : Fd) : Prop :=
  ∃ h h' id, s.table.lookup fd = some (.file h) ∧ s.table.lookup fd' = some (.file h') ∧
    h.object = .file id ∧ h'.object = .file id

theorem Shares.symm {s : Service} {fd fd' : Fd} (h : s.Shares fd fd') : s.Shares fd' fd := by
  obtain ⟨h, h', id, hl, hl', ho, ho'⟩ := h
  exact ⟨h', h, id, hl', hl, ho', ho⟩

/-- The patch, if there is one, does not go to the file behind `fd`. -/
def Spares (s : Service) (fd : Fd) (patch : Option Patch) : Prop :=
  ∀ p, patch = some p → ∀ h, s.table.lookup fd = some (.file h) → h.object ≠ .file p.file

variable {s s' : Service} {fd fd' : Fd} {left left' : Option OpenFile} {patch patch' : Option Patch}

/-- **What is done to one descriptor is not seen by another**, if its file is spared. -/
theorem SameFor.changed (same : s.SameFor fd' s') (hne : fd ≠ fd') (hspared : s.Spares fd' patch) :
    s.SameFor fd' (s'.changed fd left patch) := by
  obtain ⟨files, hfiles⟩ := s'.host.patched_files patch
  have hhost : (s'.changed fd left patch).host = { s'.host with files } := hfiles
  refine ⟨same.settings, ?_, ?_, fun {h id} hl ho => ?_, fun {p} hl => ?_⟩
  · rw [← same.lookup]
    exact s'.table.files.get?_alter_of_ne _ (Ne.symm hne)
  · rw [hhost, ← same.writeLimit]
  · rw [← same.content hl ho]
    show (s'.host.patched patch).contentOf id = _
    cases hp : patch with
    | none => rfl
    | some p =>
      have hfile : id ≠ p.file := by
        rintro rfl
        exact hspared p hp h hl ho
      exact Host.contentOf_overwrite_of_ne hfile p.pos p.bytes
  · rw [hhost]
    exact same.tree hl

/-- **Changes of two descriptors and two files commute.** -/
theorem changed_comm (s : Service) (hne : fd ≠ fd')
    (hfiles : ∀ x x', patch = some x → patch' = some x' → x.file ≠ x'.file) :
    (s.changed fd left patch).changed fd' left' patch' =
      (s.changed fd' left' patch').changed fd left patch := by
  unfold changed
  rw [Dictionary.alter_comm _ (.inl hne), Host.patched_comm _ hfiles]

end Service

/-! ## 2. Deeds on a hub -/

namespace Deed

variable {d e : Deed} {fd fd' : Fd} {i j : Nat} {b : Hub} {q : Request}

/-- The hub after a deed of session `i` on `fd`; nothing is done for a session that has ended. -/
def hub (d : Deed) (i : Nat) (fd : Fd) (b : Hub) : Hub :=
  if (b.session? i).isSome then
    ⟨d.service fd b.service, b.sessions.alter i fun c => some (d.session fd c)⟩
  else b

theorem hub_of_session (h : (b.session? i).isSome) : d.hub i fd b =
    ⟨d.service fd b.service, b.sessions.alter i fun c => some (d.session fd c)⟩ := if_pos h

theorem hub_of_ended (h : ¬ (b.session? i).isSome) : d.hub i fd b = b := if_neg h

/-- A deed begins and ends no session. -/
theorem isSome_session?_hub (d : Deed) (i : Nat) (fd : Fd) (b : Hub) (j : Nat) :
    ((d.hub i fd b).session? j).isSome = (b.session? j).isSome := by
  unfold hub
  split
  · next hi =>
    show ((b.sessions.alter i _).get? j).isSome = _
    by_cases hj : j = i
    · subst hj
      obtain ⟨c, hc⟩ := Option.isSome_iff_exists.mp hi
      rw [← Dictionary.insert_eq_alter hc (f := fun c => some (d.session fd c)) rfl,
        Dictionary.get?_insert_self, hc]
      rfl
    · rw [Dictionary.get?_alter_of_ne _ _ hj]
      rfl
  · rfl

/-- A call does its deed in every hub whose service is the same to its descriptor. -/
theorem Does.step {s : Service} (h : d.Does s fd q) (same : s.SameFor fd b.service) (i : Nat) :
    b.step (.call i q) = ((b.session? i).map fun _ => d.response, d.hub i fd b) := by
  cases hc : b.session? i with
  | none =>
    have hended : ¬ (b.session? i).isSome := by
      rw [hc]
      exact Bool.false_ne_true
    rw [Hub.step_call_ended hc, hub_of_ended hended]
    rfl
  | some c =>
    have hsession : (b.session? i).isSome := by
      rw [hc]
      rfl
    obtain ⟨hanswer, hstate⟩ := h.alike b.service same c
    rw [Hub.step_call hc, hanswer, hstate, hub_of_session hsession,
      ← Dictionary.insert_eq_alter hc (f := fun c => some (d.session fd c)) rfl]
    rfl

theorem session_comm (d e : Deed) (fd fd' : Fd) (c : Session) :
    e.session fd' (d.session fd c) = d.session fd (e.session fd' c) := by
  unfold session
  split
  · split
    · simp only [List.filter_filter, Bool.and_comm]
    · rfl
  · rfl

/-- **Deeds on two descriptors and two files commute**, of whatever sessions they are. -/
theorem hub_comm (b : Hub) (hne : fd ≠ fd')
    (hfiles : ∀ x x', d.patch = some x → e.patch = some x' → x.file ≠ x'.file) (i j : Nat) :
    e.hub j fd' (d.hub i fd b) = d.hub i fd (e.hub j fd' b) := by
  by_cases hi : (b.session? i).isSome
  · by_cases hj : (b.session? j).isSome
    · have hi' : ((e.hub j fd' b).session? i).isSome := by rwa [isSome_session?_hub]
      have hj' : ((d.hub i fd b).session? j).isSome := by rwa [isSome_session?_hub]
      rw [hub_of_session hi', hub_of_session hj', hub_of_session hi, hub_of_session hj]
      have hservice : e.service fd' (d.service fd b.service) =
          d.service fd (e.service fd' b.service) := b.service.changed_comm hne hfiles
      have hsessions : ∀ c, (some (d.session fd c)).bind (fun c => some (e.session fd' c)) =
          (some (e.session fd' c)).bind fun c => some (d.session fd c) :=
        fun c => congrArg some (session_comm d e fd fd' c)
      rw [hservice, Dictionary.alter_comm _ (.inr hsessions)]
    · have hj' : ¬ ((d.hub i fd b).session? j).isSome := by rwa [isSome_session?_hub]
      rw [hub_of_ended hj', hub_of_ended hj]
  · have hi' : ¬ ((e.hub j fd' b).session? i).isSome := by rwa [isSome_session?_hub]
    rw [hub_of_ended hi', hub_of_ended hi]

end Deed

/-! ## 3. The clock -/

namespace Hub

/-- The hub at another time. -/
def atTime (b : Hub) (t : Timestamp) : Hub :=
  { b with service := { b.service with host := b.service.host.atTime t } }

/-- The hub without its clock and the times of its files. -/
def undated (b : Hub) : Hub :=
  { b with service := { b.service with host := b.service.host.undated } }

/-- Two events, one at the time `t` and the next at the time `u`: both responses, and the hub after
them. -/
def both (b : Hub) (t : Timestamp) (e : HubEvent) (u : Timestamp) (f : HubEvent) :
    Option Response × Option Response × Hub :=
  let first := (b.atTime t).step e
  let second := (first.2.atTime u).step f
  (first.1, second.1, second.2)

/-- A deed leaves nothing of the clock behind but the time of a file. -/
theorem undated_hub (d : Deed) (i : Nat) (fd : Fd) (b : Hub) (t : Timestamp) :
    (d.hub i fd (b.atTime t)).undated = d.hub i fd b.undated := by
  by_cases hi : (b.session? i).isSome
  · have htime : ((b.atTime t).session? i).isSome := hi
    have hundated : (b.undated.session? i).isSome := hi
    rw [Deed.hub_of_session htime, Deed.hub_of_session hundated]
    unfold undated Deed.service Service.changed
    dsimp only
    rw [show (b.atTime t).service.host = b.service.host.atTime t from rfl, Host.undated_patched]
    rfl
  · have htime : ¬ ((b.atTime t).session? i).isSome := hi
    have hundated : ¬ (b.undated.session? i).isSome := hi
    rw [Deed.hub_of_ended htime, Deed.hub_of_ended hundated]
    rfl

theorem sameFor_atTime {s : Service} {b : Hub} {fd : Fd} (same : s.SameFor fd b.service)
    (t : Timestamp) : s.SameFor fd (b.atTime t).service :=
  ⟨same.settings, same.lookup, same.writeLimit, same.content, same.tree⟩

theorem sameFor_hub {s : Service} {d : Deed} {fd fd' : Fd} {b : Hub}
    (same : s.SameFor fd' b.service) (hne : fd ≠ fd') (hspared : s.Spares fd' d.patch) (i : Nat) :
    s.SameFor fd' (d.hub i fd b).service := by
  unfold Deed.hub
  split
  · exact same.changed hne hspared
  · exact same

/-- Two calls on two descriptors are their two deeds, one after the other. -/
theorem both_eq {b : Hub} {d e : Deed} {q r : Request} {fd fd' : Fd} (hd : d.Does b.service fd q)
    (he : e.Does b.service fd' r) (hne : fd ≠ fd') (hspared : b.service.Spares fd' d.patch)
    (i j : Nat) (t u : Timestamp) : b.both t (.call i q) u (.call j r) =
      ((b.session? i).map fun _ => d.response, (b.session? j).map fun _ => e.response,
        e.hub j fd' ((d.hub i fd (b.atTime t)).atTime u)) := by
  have hfirst := hd.step (sameFor_atTime (.refl b.service fd) t) i
  have hsame := sameFor_hub (sameFor_atTime (.refl b.service fd') t) hne hspared i
  have hsecond := he.step (sameFor_atTime hsame u) j
  have hsession : ((((d.hub i fd (b.atTime t)).atTime u).session? j).map fun _ => e.response) =
      (b.session? j).map fun _ => e.response := by
    have hsome := d.isSome_session?_hub i fd (b.atTime t) j
    show ((d.hub i fd (b.atTime t)).session? j).map _ = ((b.atTime t).session? j).map _
    cases hx : (d.hub i fd (b.atTime t)).session? j <;>
      cases hy : (b.atTime t).session? j <;> rw [hx, hy] at hsome <;> first | rfl | cases hsome
  unfold both
  rw [hfirst]
  dsimp only
  rw [hsecond, hsession]
  rfl

/-! ## 4. Two calls -/

/-- What a call lays goes to its own descriptor's file, and no other descriptor shares that. -/
theorem spares_of_does {s : Service} {d : Deed} {q : Request} {fd fd' : Fd}
    (hd : d.Does s fd q) (hshare : q.isWrite = true → ¬ s.Shares fd fd') :
    s.Spares fd' d.patch := by
  intro p hp h' hl' ho'
  obtain ⟨hwrite, h, hl, ho⟩ := hd.patch p hp
  exact hshare hwrite ⟨h, h', p.file, hl, hl', ho, ho'⟩

/-- **Calls on different descriptors commute.** At any hub, two requests of any two sessions, on two
different descriptors that are not open on the same file if one of the requests is a write, are
answered the same in either order, whenever they are made; and the hub after them is the same, but
for the times of files. If the clock stands still, it is the very same. -/
theorem calls_commute (b : Hub) (i j : Nat) {q r : Request} {fd fd' : Fd} (hq : q.fd? = some fd)
    (hr : r.fd? = some fd') (hne : fd ≠ fd')
    (hshare : q.isWrite = true ∨ r.isWrite = true → ¬ b.service.Shares fd fd')
    (t u t' u' : Timestamp) :
    let there := b.both t (.call i q) u (.call j r)
    let back := b.both t' (.call j r) u' (.call i q)
    there.1 = back.2.1 ∧ there.2.1 = back.1 ∧ there.2.2.undated = back.2.2.undated ∧
      (b.run [.call i q, .call j r]).2 = (b.run [.call j r, .call i q]).2 := by
  intro there back
  obtain ⟨d, hd⟩ := exists_deed hq b.service
  obtain ⟨e, he⟩ := exists_deed hr b.service
  have hspared : b.service.Spares fd' d.patch := spares_of_does hd fun hw => hshare (.inl hw)
  have hspared' : b.service.Spares fd e.patch :=
    spares_of_does he fun hw hshares => hshare (.inr hw) hshares.symm
  have hfiles : ∀ x x', d.patch = some x → e.patch = some x' → x.file ≠ x'.file := by
    intro x x' hx hx' heq
    obtain ⟨-, h', hl', ho'⟩ := he.patch x' hx'
    exact hspared x hx h' hl' (heq ▸ ho')
  have hthere : there = _ := both_eq hd he hne hspared i j t u
  have hback : back = _ := both_eq he hd (Ne.symm hne) hspared' j i t' u'
  rw [hthere, hback]
  refine ⟨rfl, rfl, ?_, ?_⟩
  · rw [undated_hub, undated_hub, undated_hub, undated_hub]
    exact Deed.hub_comm b.undated hne hfiles i j
  · have hone := he.step (sameFor_hub (.refl b.service fd') hne hspared i) j
    have hother := hd.step (sameFor_hub (.refl b.service fd) (Ne.symm hne) hspared' j) i
    show ((b.step (.call i q)).2.step (.call j r)).2 = ((b.step (.call j r)).2.step (.call i q)).2
    rw [hd.step (.refl b.service fd) i, he.step (.refl b.service fd') j, hone, hother]
    exact Deed.hub_comm b hne hfiles i j

/-! ## 5. Two files -/

/-- The hub in which session 1 holds 1002 on one file and 1003 on another. -/
def twoFiles : Hub :=
  let s := sharing.service
  { sharing with
    service := { s with
      table := s.table.insert 1003 (.file ⟨Path.ofString "g", .readWrite, .file 1, 0⟩)
      host := { s.host with
        files := s.host.files ++ [⟨.newFile, ⟨0, 0⟩, .ofList [0x65]⟩] } } }

/-- Session 2 writes to one file and session 1 reads the other, in either order. -/
theorem calls_commute_twoFiles :
    let w : Request := .write 1003 [1, 2]
    let r : Request := .read 1002 (some 3)
    let there := twoFiles.both ⟨5, 0⟩ (.call 2 w) ⟨6, 0⟩ (.call 1 r)
    let back := twoFiles.both ⟨7, 0⟩ (.call 1 r) ⟨8, 0⟩ (.call 2 w)
    w.fd? = some 1003 ∧ r.fd? = some 1002 ∧ w.isWrite = true ∧
      ¬ twoFiles.service.Shares 1003 1002 ∧
      there.1 = some (.status 2) ∧ there.2.1 = some (.data 3 [0x61, 0x62, 0x63]) ∧
      there.1 = back.2.1 ∧ there.2.1 = back.1 ∧ there.2.2.undated = back.2.2.undated ∧
      (twoFiles.run [.call 2 w, .call 1 r]).2 = (twoFiles.run [.call 1 r, .call 2 w]).2 := by
  intro w r there back
  have hw : twoFiles.service.table.lookup 1003 =
      some (.file ⟨Path.ofString "g", .readWrite, .file 1, 0⟩) := rfl
  have hr : twoFiles.service.table.lookup 1002 =
      some (.file ⟨Path.ofString "f", .readWrite, .file 0, 0⟩) := rfl
  have hapart : ¬ twoFiles.service.Shares 1003 1002 := by
    rintro ⟨h, h', id, hl, hl', ho, ho'⟩
    rw [hw] at hl
    rw [hr] at hl'
    cases hl
    cases hl'
    cases ho
    cases ho'
  refine ⟨rfl, rfl, rfl, hapart, rfl, rfl, ?_⟩
  exact twoFiles.calls_commute 2 1 (q := w) (r := r) rfl rfl (by decide) (fun _ => hapart) _ _ _ _

end Hub

end Telefile
