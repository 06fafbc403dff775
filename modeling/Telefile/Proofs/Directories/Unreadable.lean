import Mathlib
import Telefile.Proofs.Confinement.Operations
import Telefile.Proofs.Directories.Hierarchy
import Telefile.Proofs.Lookup.Failures
import Telefile.Proofs.Standing

/-!
# Directories that cannot be read

The directory behind a descriptor is looked at again for every page, by the path that led to it when
it was opened. By then anything may stand there, and the answer tells why the directory cannot be
read. What is gone is told apart from the rest; but so is a file in the place of a directory, and a
permission that is missing.

* `Host.Unreadable` — why no directory can be read at a path; **`Host.listPath_eq_error_iff`**;
* `FileError.code_ofLookup`, `Hub.step_of_unreadable` — the answer, and that nothing changes;
* `Hub.Recorded.sound` — what an open directory was opened by is a path that a host takes;
* **`Hub.unreadable_directory`** — both for every directory descriptor of every history;
* `Hub.unreadable_directory_told` — a file in the place of a directory, and a missing permission.
-/

namespace Telefile

/-! ## 1. Why a directory cannot be read -/

namespace Host

/-- Why no directory can be read at a path. -/
inductive Unreadable (h : Host) (p : Path) : HostError → Prop
  | stuck {cause} (hstuck : h.GetsStuck p cause) : Unreadable h p cause
  /-- The path leads to something else. -/
  | replaced {l e} (hl : h.lookup .follow p = .ok (l, e)) (hdir : e.isDir = false) :
    Unreadable h p .notADirectory
  /-- The directory may not be read. -/
  | closed {l perms t} (hl : h.lookup .follow p = .ok (l, .directory perms t))
    (hread : perms.allows .read = false) : Unreadable h p .permissionDenied

variable {h : Host} {p : Path} {cause : HostError}

/-- **A listing fails exactly for the causes that make a directory unreadable.** -/
theorem listPath_eq_error_iff (hp : p.Sound) :
    h.listPath p = .error cause ↔ h.Unreadable p cause := by
  constructor
  · intro herror
    rcases hl : h.lookup .follow p with cause' | ⟨l, e⟩
    · unfold listPath at herror
      rw [hl] at herror
      cases herror
      exact .stuck ((lookup_eq_error_iff hp).mp hl)
    · rw [listPath_of_lookup hl] at herror
      cases hdir : e.isDir with
      | false =>
        simp only [listEntry, hdir] at herror
        cases herror
        exact .replaced hl hdir
      | true =>
        obtain ⟨perms, t, rfl⟩ := isDirectory_of_isDir hdir
        rw [listEntry_directory] at herror
        cases hread : perms.allows .read with
        | false =>
          rw [hread] at herror
          cases herror
          exact .closed hl hread
        | true =>
          rw [hread] at herror
          cases herror
  · intro hcause
    cases hcause with
    | stuck hstuck =>
      unfold listPath
      rw [(lookup_eq_error_iff hp).mpr hstuck]
    | replaced hl hdir =>
      rw [listPath_of_lookup hl]
      simp only [listEntry, hdir]
      rfl
    | closed hl hread =>
      rw [listPath_of_lookup hl, listEntry_directory, hread]
      rfl

/-- There are five causes. -/
theorem Unreadable.cause_cases (hcause : h.Unreadable p cause) :
    cause = .notFound ∨ cause = .notADirectory ∨ cause = .permissionDenied ∨
      cause = .nameTooLong ∨ cause = .tooManyLinks := by
  cases hcause with
  | stuck hstuck =>
    obtain ⟨g, -, hstuck⟩ := hstuck
    cases hstuck <;> simp
  | replaced hl hdir => simp
  | closed hl hread => simp

end Host

/-! ## 2. The answer -/

/-- The code for a cause for which a path cannot be looked up. -/
theorem FileError.code_ofLookup (shown : String) (cause : HostError) :
    (ofLookup shown cause).code =
      match cause with
      | .notFound => -2
      | .notADirectory => -20
      | .permissionDenied => -13
      | _ => -5 := by
  cases cause <;> rfl

/-- A page of a directory that cannot be read. -/
theorem Session.answer_of_unreadable (c : Session) {s : Service} {fd : Fd} {p : Path}
    {cause : HostError} (hopen : s.table.lookup fd = some (.directory p))
    (hcause : s.host.listPath p = .error cause) (nbytes base : Nat) :
    (c.answer s (.listDir fd nbytes base)).answer =
      .entries (FileError.ofLookup p.display cause).code base [] := by
  have hlist : s.listDir fd nbytes base = .error (.ofLookup p.display cause) := by
    simp only [Service.listDir, Service.openFile, hopen, Service.listing, hcause]
  rw [c.response_listDir, hlist]
  rfl

/-! ## 3. Histories -/

namespace Hub

variable {settings : Settings} {host : Host} {notes : List Note} {b : Hub} {id : Nat} {c : Session}
  {fd : Fd} {p : Path}

theorem step_of_unreadable {cause : HostError} (hc : b.session? id = some c)
    (hopen : b.service.table.lookup fd = some (.directory p))
    (hcause : b.service.host.listPath p = .error cause) (nbytes base : Nat) :
    b.step (.call id (.listDir fd nbytes base)) =
      (some (.entries (FileError.ofLookup p.display cause).code base []), b) := by
  rw [step_call_same hc rfl, c.answer_of_unreadable hopen hcause]

/-- **What an open directory was opened by** is a path that a host takes. -/
theorem Recorded.sound (h : Recorded settings host notes b)
    (hopen : b.service.table.lookup fd = some (.directory p)) : p.Sound := by
  induction h with
  | start => cases (lookup_start settings host fd).symm.trans hopen
  | outside other _ ih => exact ih hopen
  | event e _ ih =>
    rcases stands_step e hopen with hkept | ⟨-, -, path, -, mode, after, -, -, hp⟩
    · cases hkept with
      | same hl => exact ih hl
      | moved hl hf => cases hf
    · obtain ⟨given, full, -, hopening⟩ := Service.opening_of_prepare hp
      cases hopening with
      | found hl hf hpath =>
        rw [← hpath] at hl
        exact Host.sound_of_lookup hl

/-- **The answer tells why a directory cannot be read.** After every history, whatever others do to
the host in between: where the directory behind a descriptor cannot be read, a client that asks for
a page of it gets its base back, no entries, and -2 if something on the path is gone, -20 if
something that is no directory stands in the place of one, -13 if a permission is missing, and -5 if
a link leads to a name that is too long, or to too many links. Nothing changes. -/
theorem unreadable_directory (h : Recorded settings host notes b) (hc : b.session? id = some c)
    (hopen : b.service.table.lookup fd = some (.directory p))
    (hunreadable : ¬ b.service.host.Listable p) (nbytes base : Nat) :
    ∃ code, b.step (.call id (.listDir fd nbytes base)) = (some (.entries code base []), b) ∧
      (code = -2 ∨ code = -20 ∨ code = -13 ∨ code = -5) ∧
      (code = -2 ↔ b.service.host.Unreadable p .notFound) ∧
      (code = -20 ↔ b.service.host.Unreadable p .notADirectory) ∧
      (code = -13 ↔ b.service.host.Unreadable p .permissionDenied) ∧
      (code = -5 ↔ b.service.host.Unreadable p .nameTooLong ∨
        b.service.host.Unreadable p .tooManyLinks) := by
  have hsound := h.sound hopen
  obtain ⟨cause, herror⟩ : ∃ cause, b.service.host.listPath p = .error cause := by
    cases hlist : b.service.host.listPath p with
    | error cause => exact ⟨cause, rfl⟩
    | ok entries => exact absurd ⟨entries, hlist⟩ hunreadable
  refine ⟨_, step_of_unreadable hc hopen herror nbytes base, ?_⟩
  rw [FileError.code_ofLookup]
  -- there is one cause, and so one code
  have hcauses : ∀ other, b.service.host.Unreadable p other ↔ other = cause := by
    intro other
    rw [← Host.listPath_eq_error_iff hsound, herror, Except.error.injEq]
    exact eq_comm
  simp only [hcauses]
  rcases ((hcauses cause).mpr rfl).cause_cases with rfl | rfl | rfl | rfl | rfl <;> decide

end Hub

/-- A host with a directory `d/sub`, and a link to `d`. -/
def Host.detoured : Host :=
  let srv : Location := [Utf8.encode "srv"]
  let d := srv ++ [Utf8.encode "d"]
  let directory : Entry := .directory .newDirectory ⟨0, 0⟩
  (((Host.fresh srv ⟨0, 0⟩ none).setEntry d directory).setEntry (d ++ [Utf8.encode "sub"])
    directory).setEntry (srv ++ [Utf8.encode "l"]) (.symlink (Path.ofString "d") ⟨0, 0⟩)

/-- A host with a directory `d` that grants nothing. -/
def Host.shut : Host :=
  let srv : Location := [Utf8.encode "srv"]
  (Host.fresh srv ⟨0, 0⟩ none).setEntry (srv ++ [Utf8.encode "d"]) (.directory ⟨0, true⟩ ⟨0, 0⟩)

/-- A client removes the link on the way to the directory that it has opened. -/
theorem Hub.unreadable_directory_gone :
    let history : List HubEvent :=
      [.join, .call 1 (.openPath (some "l/sub") 0), .call 1 (.unlink (some "l"))]
    let b := ((start ⟨none, 4096, false⟩ Host.detoured).answer.run history).2
    ¬ b.service.host.Listable (Path.ofString "l/sub") ∧
      b.step (.call 1 (.listDir 1001 4096 3)) = (some (.entries (-2) 3 []), b) := by
  intro history b
  have hrecorded : Recorded ⟨none, 4096, false⟩ Host.detoured _ b := Recorded.start.run history
  have hsession : b.session? 1 = some ⟨1, [1001]⟩ := by cbv
  have hopen : b.service.table.lookup 1001 = some (.directory (Path.ofString "l/sub")) := by cbv
  have herror : b.service.host.listPath (Path.ofString "l/sub") = .error .notFound := by cbv
  have hunreadable : ¬ b.service.host.Listable (Path.ofString "l/sub") := by
    rintro ⟨entries, hentries⟩
    rw [herror] at hentries
    cases hentries
  obtain ⟨code, hstep, -, hgone, -⟩ :=
    unreadable_directory hrecorded hsession hopen hunreadable 4096 3
  have hcode : code = -2 :=
    hgone.mpr ((Host.listPath_eq_error_iff (hrecorded.sound hopen)).mp herror)
  rw [hcode] at hstep
  exact ⟨hunreadable, hstep⟩

/-- **More than what is gone is told apart.** A file in the place of the link on the way gives -20,
and a directory that grants nothing gives -13. -/
theorem Hub.unreadable_directory_told :
    let after (host : Host) (history : List HubEvent) : Hub :=
      ((start ⟨none, 4096, false⟩ host).answer.run history).2
    let replaced := after Host.detoured [.join, .call 1 (.openPath (some "l/sub") 0),
      .call 1 (.unlink (some "l")), .call 1 (.openPath (some "l") 3)]
    let closed := after Host.shut [.join, .call 1 (.openPath (some "d") 0)]
    replaced.step (.call 1 (.listDir 1001 4096 3)) = (some (.entries (-20) 3 []), replaced) ∧
      closed.step (.call 1 (.listDir 1001 4096 3)) = (some (.entries (-13) 3 []), closed) := by
  intro after replaced closed
  constructor
  · have hsession : replaced.session? 1 = some ⟨1, [1001, 1002]⟩ := by cbv
    have hopen : replaced.service.table.lookup 1001 =
        some (.directory (Path.ofString "l/sub")) := by cbv
    have herror : replaced.service.host.listPath (Path.ofString "l/sub") =
        .error .notADirectory := by cbv
    exact step_of_unreadable hsession hopen herror 4096 3
  · have hsession : closed.session? 1 = some ⟨1, [1001]⟩ := by cbv
    have hopen : closed.service.table.lookup 1001 = some (.directory (Path.ofString "d")) := by cbv
    have herror : closed.service.host.listPath (Path.ofString "d") =
        .error .permissionDenied := by cbv
    exact step_of_unreadable hsession hopen herror 4096 3

end Telefile
