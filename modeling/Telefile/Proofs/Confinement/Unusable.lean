import Mathlib
import Telefile.Proofs.Confinement.Roots
import Telefile.Proofs.Files.Exclusive
import Telefile.Proofs.Standing

/-!
# Services with an unusable root

Where the root that was configured has no canonical path, it is kept as it was written, and all
paths are checked against that. If it is not empty, no path is served that folds to a name: clients
make no directories and no links, so what leads nowhere at first leads nowhere later.

A path that folds to nothing is not checked, and is the root. So a client may still create the file
that the root names, or that a link in its place leads to, remove it, and look at it. And every path
begins with an empty root.

* `Service.Refuses` — a path for which every operation fails;
* `Service.LeadsNowhere` — as for every path that leads nowhere;
  **`Service.leadsNowhere_of_unusable`** — as every path does that folds to a name;
* `Service.Idle` — nothing has happened; **`Hub.idle_run`** — nor does it, while no client names the
  root;
* **`Hub.unusable_root`** — the histories of such a service;
* `Hub.unusable_root_open` — a client that names the root, and a root that is empty.
-/

namespace Telefile

/-! ## 1. Operations -/

namespace Service

/-- Every operation on the path fails, and leaves the service as it was. -/
structure Refuses (s : Service) (path : Option String) : Prop where
  opens : ∀ mode, ∃ e log, s.openPath path mode = ⟨.error e, s, log⟩
  unlinks : ∃ e, s.unlink path = .stay s (.error e)
  stats : ∃ e, s.stat path = .error e
  trees : ∃ e log, s.dirTree path = (.error e, log)

/-- What the path resolves to, if to anything, leads nowhere. -/
def LeadsNowhere (s : Service) (path : Option String) : Prop :=
  ∀ given, path = some given → ∀ follow full, s.scope.resolveWith s.host follow given = .ok full →
    ∀ last a, s.host.arrive last full ≠ .ok a

section Operations

variable {s : Service} {path : Option String}

theorem found_of_dirTree {t : DirTree} {log : List LogLine} (ht : s.dirTree path = (.ok t, log)) :
    ∃ given full r, path = some given ∧ s.scope.resolve s.host given = .ok full ∧
      s.host.lookup .follow full = .ok r := by
  unfold dirTree at ht
  cases path with
  | none => cases ht
  | some given =>
    cases hres : s.scope.resolve s.host given with
    | error e =>
      simp only [hres] at ht
      cases ht
    | ok full =>
      cases hl : s.host.lookup .follow full with
      | error cause =>
        simp only [hres, hl] at ht
        cases ht
      | ok r => exact ⟨given, full, r, rfl, hres, hl⟩

/-- **A path that leads nowhere** is not opened, nor created. -/
theorem LeadsNowhere.not_prepare (hnone : s.LeadsNowhere path) (mode : OpenMode)
    (r : OpenFile × Host) : s.prepare path mode ≠ .ok r := by
  intro hp
  obtain ⟨f, after⟩ := r
  obtain ⟨given, full, rfl, hres, hopen⟩ := prepare_ok hp
  have hopening := opening_of_openAs hopen
  cases hopening with
  | found hl _ _ => exact hnone given rfl true full hres _ _ (Host.lookup_eq_ok_iff.mp hl)
  | created harrive _ => exact hnone given rfl true full hres _ _ harrive

theorem LeadsNowhere.refuses (hnone : s.LeadsNowhere path) : s.Refuses path where
  opens mode := by
    rcases s.openPath_cases path mode with ⟨e, log, -, hr⟩ | ⟨f, after, hp, -, -⟩ |
      ⟨f, after, fd, table, hp, -, -⟩
    · exact ⟨e, log, hr⟩
    · exact absurd hp (hnone.not_prepare mode _)
    · exact absurd hp (hnone.not_prepare mode _)
  unlinks := by
    rcases s.unlink_cases path with ⟨e, -, hr⟩ | ⟨after, hremoved, -⟩
    · exact ⟨e, hr⟩
    · obtain ⟨given, full, l, e, rfl, hres, hl, -⟩ := removed_ok hremoved
      exact absurd (Host.lookup_eq_ok_iff.mp hl) (hnone given rfl false full hres _ _)
  stats := by
    cases hs : s.stat path with
    | error e => exact ⟨e, rfl⟩
    | ok a =>
      obtain ⟨given, full, l, e, rfl, hres, hl, -⟩ := stat_ok hs
      exact absurd (Host.lookup_eq_ok_iff.mp hl) (hnone given rfl false full hres _ _)
  trees := by
    rcases ht : s.dirTree path with ⟨e | t, log⟩
    · exact ⟨e, log, rfl⟩
    · obtain ⟨given, full, ⟨l, e⟩, rfl, hres, hl⟩ := found_of_dirTree ht
      exact absurd (Host.lookup_eq_ok_iff.mp hl) (hnone given rfl true full hres _ _)

/-- **Under a root that was unusable**, every path that folds to a name leads nowhere. -/
theorem leadsNowhere_of_unusable {host : Host} {root : Path} {cause : HostError}
    (hroot : root.text ≠ []) (hcause : host.canonicalize root = .error cause)
    (hscope : s.scope = .beneath root) (hways : s.host.WaysIn host)
    (hpath : ∀ given, path = some given → (Path.ofString given).fold? ≠ some []) :
    s.LeadsNowhere path := by
  intro given hgiven follow full hres last a
  rw [hscope] at hres
  exact Scope.not_arrive_of_unusable hroot hcause hways (hpath given hgiven) hres last a

end Operations

end Service

/-! ## 2. Histories in which nothing happens -/

/-- The request names the root itself. -/
def Request.NamesRoot : Request → Prop
  | .openPath (some p) _ | .unlink (some p) | .stat (some p) | .dirTree (some p) =>
    (Path.ofString p).fold? = some []
  | _ => False

/-- The service is as it was started: nothing is open, and the host is what it was. -/
structure Service.Idle (root : Path) (host : Host) (s : Service) : Prop where
  scope : s.scope = .beneath root
  host : s.host = host
  empty : ∀ fd, s.table.lookup fd = none

section Idle

variable {root : Path} {host : Host} {cause : HostError}

theorem Service.Idle.not_handle {s : Service} (hidle : s.Idle root host) {fd : Fd} {h : Handle} :
    s.handle fd ≠ .ok h := by
  intro hh
  have hlookup := handle_ok hh
  rw [hidle.empty] at hlookup
  cases hlookup

theorem Service.Idle.leadsNowhere (hroot : root.text ≠ [])
    (hcause : host.canonicalize root = .error cause) {s : Service} (hidle : s.Idle root host)
    {path : Option String} (hpath : ∀ given, path = some given →
      (Path.ofString given).fold? ≠ some []) : s.LeadsNowhere path := by
  have hways : s.host.WaysIn host := by
    rw [hidle.host]
    exact (Host.Tended.refl host).ways
  exact leadsNowhere_of_unusable hroot hcause hidle.scope hways hpath

/-- An answer to a request that does not name the root leaves the host as it was. -/
theorem Session.host_of_idle (hroot : root.text ≠ []) (hcause : host.canonicalize root = .error cause)
    (c : Session) {s : Service} (hidle : s.Idle root host) {q : Request} (hq : ¬ q.NamesRoot) :
    (c.answer s q).state.2.host = s.host := by
  cases q with
  | openPath path raw =>
    have hpath : ∀ given, path = some given → (Path.ofString given).fold? ≠ some [] := by
      rintro given rfl
      exact hq
    cases hraw : OpenMode.ofRaw? raw with
    | error u =>
      rw [c.answer_openPath_of_error s path hraw]
      rfl
    | ok mode =>
      rw [c.answer_openPath_of_ok s path hraw]
      show (c.openPath s path mode).state.2.host = _
      obtain ⟨e, log, hr⟩ := (hidle.leadsNowhere hroot hcause hpath).refuses.opens mode
      rw [openPath_service, hr]
  | close fd =>
    rcases s.close_cases fd with ⟨-, hr⟩ | ⟨f, table, -, hr⟩
    · exact congrArg (fun r => r.state.host) hr
    · exact congrArg (fun r => r.state.host) hr
  | write fd data =>
    rcases s.write_cases fd data with ⟨e, hr⟩ | ⟨h, answer, hh, -⟩
    · exact congrArg (fun r => r.state.host) hr
    · exact absurd hh hidle.not_handle
  | read fd capacity =>
    rcases s.read_cases fd capacity with ⟨e, hr⟩ | ⟨h, n, bytes, hh, -⟩
    · exact congrArg (fun r => r.state.host) hr
    · exact absurd hh hidle.not_handle
  | seek fd offset raw =>
    cases hraw : Whence.ofRaw? raw with
    | error u =>
      rw [c.answer_seek_of_error s fd offset hraw]
      rfl
    | ok whence =>
      rw [c.answer_seek_of_ok s fd offset hraw]
      rcases s.seek_cases fd offset whence with ⟨e, hr⟩ | ⟨h, pos, hh, -⟩
      · exact congrArg (fun r => r.state.host) hr
      · exact absurd hh hidle.not_handle
  | unlink path =>
    have hpath : ∀ given, path = some given → (Path.ofString given).fold? ≠ some [] := by
      rintro given rfl
      exact hq
    obtain ⟨e, hr⟩ := (hidle.leadsNowhere hroot hcause hpath).refuses.unlinks
    exact congrArg (fun r => r.state.host) hr
  | stat path => rfl
  | listDir fd nbytes base => rfl
  | dirTree path => rfl

/-- **While no client names the root**, nothing happens. -/
theorem Hub.idle_step (hroot : root.text ≠ []) (hcause : host.canonicalize root = .error cause)
    {b : Hub} (hidle : b.service.Idle root host) {e : HubEvent}
    (he : ∀ id q, e = .call id q → ¬ q.NamesRoot) : (b.step e).2.service.Idle root host where
  scope := keeps_step (Service.keeps_scope _) e hidle.scope
  host := by
    cases e with
    | join => exact hidle.host
    | leave id =>
      cases hc : b.session? id with
      | none =>
        show (b.leave id).state.service.host = host
        rw [leave_of_ended hc]
        exact hidle.host
      | some c =>
        show (b.leave id).state.service.host = host
        rw [leave_of_session hc]
        exact (Session.host_finish c b.service).trans hidle.host
    | call id q =>
      cases hc : b.session? id with
      | none =>
        rw [step_call_ended hc]
        exact hidle.host
      | some c =>
        rw [step_call hc]
        exact (c.host_of_idle hroot hcause hidle (he id q rfl)).trans hidle.host
  empty fd := by
    cases hlookup : (b.step e).2.service.table.lookup fd with
    | none => rfl
    | some f =>
      rcases stands_step e hlookup with hkept | ⟨-, id, path, raw, mode, after, rfl, -, hp⟩
      · cases hkept with
        | same hl =>
          rw [hidle.empty] at hl
          cases hl
        | moved hl _ =>
          rw [hidle.empty] at hl
          cases hl
      · have hpath : ∀ given, path = some given → (Path.ofString given).fold? ≠ some [] := by
          rintro given rfl
          exact he id _ rfl
        exact absurd hp ((hidle.leadsNowhere hroot hcause hpath).not_prepare mode _)

theorem Hub.idle_run (hroot : root.text ≠ []) (hcause : host.canonicalize root = .error cause)
    (es : List HubEvent) : ∀ {b : Hub}, b.service.Idle root host →
      (∀ id q, .call id q ∈ es → ¬ q.NamesRoot) → (b.run es).2.service.Idle root host := by
  induction es with
  | nil => exact fun hidle _ => hidle
  | cons e es ih =>
    intro b hidle hes
    rw [run_cons]
    refine ih (idle_step hroot hcause hidle fun id q he => ?_) fun id q hq =>
      hes id q (List.mem_cons_of_mem e hq)
    exact hes id q (he ▸ List.mem_cons_self)

end Idle

/-! ## 3. Histories -/

/-- **A service with an unusable root.** Where the root that was configured has no canonical path, and
is not empty, every path is refused that does not fold to nothing, after every history; and while no
client names the root, nothing happens. A path that folds to nothing is the root as it was written,
which nobody has checked; and under an empty root, every path goes through that has a canonical
path. -/
theorem Hub.unusable_root {settings : Settings} {host : Host} {root : Path} {cause : HostError}
    (hsettings : settings.root = some root) (hcause : host.canonicalize root = .error cause)
    (history : List HubEvent) :
    let s := serviceAfter settings host history
    (root.text ≠ [] → ∀ path : Option String,
      (∀ given, path = some given → (Path.ofString given).fold? ≠ some []) → s.Refuses path) ∧
    (root.text ≠ [] → (∀ id q, .call id q ∈ history → ¬ q.NamesRoot) →
      s.host = host ∧ ∀ fd, s.table.lookup fd = none) ∧
    (∀ given follow, (Path.ofString given).fold? = some [] →
      s.scope.resolveWith s.host follow given = .ok root) ∧
    (root.text = [] → ∀ given names real, (Path.ofString given).fold? = some names → names ≠ [] →
      s.host.canonicalize (Path.ofNames names) = .ok real →
        s.scope.resolve s.host given = .ok (Path.ofNames names)) := by
  intro s
  have hstart : (Service.start settings host).answer.Idle root host := by
    refine ⟨?_, rfl, lookup_start settings host⟩
    show Scope.ofRoot host settings.root = _
    unfold Scope.ofRoot
    rw [hsettings]
    dsimp only
    rw [hcause]
  have hscope : s.scope = .beneath root :=
    serviceAfter_of_start (Service.keeps_scope _) hstart.scope history
  refine ⟨?_, ?_, ?_, ?_⟩
  · intro hroot path hpath
    have hways : s.host.WaysIn host := (tended_run history (start settings host).answer).ways
    exact (Service.leadsNowhere_of_unusable hroot hcause hscope hways hpath).refuses
  · intro hroot hhistory
    have hidle : s.Idle root host := idle_run hroot hcause history hstart hhistory
    exact ⟨hidle.host, hidle.empty⟩
  · intro given follow hfold
    rw [hscope, Scope.resolveWith_beneath_eq, hfold]
    rfl
  · intro hroot given names real hfold hne hreal
    obtain rfl : root = ⟨[]⟩ := congrArg Path.mk hroot
    have hstays : Scope.staysWithin s.host ⟨[]⟩ (Path.ofNames names) = true := by
      show Scope.decideBy s.host ⟨[]⟩ (Path.ofNames names :: _) = true
      unfold Scope.decideBy
      rw [hreal]
      rfl
    show s.scope.resolveWith s.host true given = _
    rw [hscope, Scope.resolveWith_beneath_eq, hfold]
    cases names with
    | nil => exact absurd rfl hne
    | cons n rest =>
      unfold Scope.landing?
      dsimp only
      rw [if_pos rfl]
      have hjoin : (⟨[]⟩ : Path).join (n :: rest) = Path.ofNames (n :: rest) := rfl
      rw [hjoin, if_pos hstays]
      rfl

/-- A root that is missing, and a client that opens and removes under it. -/
theorem Hub.unusable_root_missing :
    let root := Path.ofString "gone"
    let settings : Settings := ⟨some root, 4096, false⟩
    let history : List HubEvent :=
      [.join, .call 1 (.openPath (some "a") 2), .call 1 (.unlink (some "b/../c"))]
    let s := serviceAfter settings Host.bare history
    Host.bare.canonicalize root = .error .notFound ∧ root.text ≠ [] ∧
      (∀ id q, .call id q ∈ history → ¬ q.NamesRoot) ∧ s.Refuses (some "/srv") ∧
      s.host = Host.bare ∧ s.scope.resolveWith s.host true "/" = .ok root := by
  intro root settings history s
  have hcause : Host.bare.canonicalize root = .error .notFound := by cbv
  have hroot : root.text ≠ [] := by decide
  have hhistory : ∀ id q, .call id q ∈ history → ¬ q.NamesRoot := by
    intro id q hq
    rcases List.mem_cons.mp hq with hjoin | hq
    · cases hjoin
    rcases List.mem_cons.mp hq with hopen | hq
    · cases hopen
      exact (by decide : (Path.ofString "a").fold? ≠ some [])
    · cases List.mem_singleton.mp hq
      exact (by decide : (Path.ofString "b/../c").fold? ≠ some [])
  have hpath : ∀ given, some "/srv" = some given → (Path.ofString given).fold? ≠ some [] := by
    intro given hgiven
    cases hgiven
    decide
  obtain ⟨hrefuses, hidle, hitself, -⟩ :=
    unusable_root (rfl : settings.root = some root) hcause history
  exact ⟨hcause, hroot, hhistory, hrefuses hroot _ hpath, (hidle hroot hhistory).1,
    hitself "/" true (by decide)⟩

/-- A directory with a link that leads nowhere, `l`. -/
def Host.dangling : Host :=
  bare.setEntry [Utf8.encode "srv", Utf8.encode "l"] (.symlink (Path.ofString "x") ⟨0, 0⟩)

/-- A directory with a file, `a`. -/
def Host.single : Host := (bare.addFile [Utf8.encode "srv", Utf8.encode "a"]).2

/-- **An unusable root can be got around.** A client that names the root creates what a link in its
place leads to; and under an empty root, a client opens what is there. -/
theorem Hub.unusable_root_open :
    let settings (root : String) : Settings := ⟨some (Path.ofString root), 4096, false⟩
    let atRoot : List HubEvent := [.join, .call 1 (.openPath (some "/") 2)]
    let below : List HubEvent := [.join, .call 1 (.openPath (some "a") 0)]
    let target : Location := [Utf8.encode "srv", Utf8.encode "x"]
    (Host.dangling.canonicalize (Path.ofString "l") = .error .notFound ∧
      ((start (settings "l") Host.dangling).answer.run atRoot).1 = [none, some (.status 1001)] ∧
      Host.dangling.entryAt? target = none ∧
      (serviceAfter (settings "l") Host.dangling atRoot).host.entryAt? target = some (.file 0)) ∧
    (Host.single.canonicalize (Path.ofString "") = .error .notFound ∧
      ((start (settings "") Host.single).answer.run below).1 = [none, some (.status 1001)]) := by
  refine ⟨⟨?_, ?_, ?_, ?_⟩, ?_, ?_⟩ <;> cbv

end Telefile
