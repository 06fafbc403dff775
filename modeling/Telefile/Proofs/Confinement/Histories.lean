import Telefile.Host.Arrange
import Telefile.Proofs.Confinement.Operations
import Telefile.Proofs.Confinement.Resolve
import Telefile.Proofs.Descriptors

/-!
# A service with a root stays beneath it

Whatever clients ask of a service with a root, what is opened, removed, looked at and shown lies
beneath the root, and what lies outside stays as it was.

* `Service.StaysBeneath` — where the operations of a service act;
* `Service.Guarded` — what holds of a service with a root: the tree has been changed beneath the
  root only, files that are open may be changed, and paths of open directories lead beneath it;
* `Service.Guarded.staysBeneath` — such a service acts beneath its root;
* `Service.keeps_guarded` — every operation keeps it so;
* **`Hub.confinement`** — and so do histories.
-/

namespace Telefile

/-! ## 1. Where operations act -/

/-- The location is the root, or lies in a directory at or beneath it. -/
def AtOrIn (top l : Location) : Prop := l = top ∨ ∃ d n, l = d ++ [n] ∧ top <+: d

namespace Service

/-- The operations of a service act at the root or beneath it. -/
structure StaysBeneath (top : Location) (s : Service) : Prop where
  /-- What is opened lies at the end of the path of the descriptor, links followed. -/
  opens : ∀ {path mode fd}, (s.openPath path mode).answer = .ok fd →
    ∃ f l e, (s.openPath path mode).state.table.lookup fd = some f ∧
      (s.openPath path mode).state.host.lookup .follow f.path = .ok (l, e) ∧
      f.StandsFor e ∧ top <+: l
  /-- One entry of a directory is removed. -/
  unlinks : ∀ {path}, (s.unlink path).answer = .ok () →
    ∃ d n e, s.host.entryAt? (d ++ [n]) = some e ∧ e.isDir = false ∧ top <+: d ∧
      (s.unlink path).state = { s with host := (s.host.eraseEntry (d ++ [n])).touch d }
  stats : ∀ {path a}, s.stat path = .ok a →
    ∃ given full l e, path = some given ∧ s.scope.resolveEntry s.host given = .ok full ∧
      s.host.lookup .entry full = .ok (l, e) ∧ a = (s.host.attr l e).capLinks ∧ AtOrIn top l
  trees : ∀ {path t log}, s.dirTree path = (.ok t, log) →
    ∃ given full l e, path = some given ∧ s.scope.resolve s.host given = .ok full ∧
      s.host.lookup .follow full = .ok (l, e) ∧ s.host.Shows l t ∧ top <+: l
  listings : ∀ {fd nbytes base page}, s.listDir fd nbytes base = .ok page →
    ∃ p l perms t, s.table.lookup fd = some (.directory p) ∧
      s.host.lookup .follow p = .ok (l, .directory perms t) ∧ top <+: l ∧
      ∀ x ∈ page.entries, x = ⟨".", .directory⟩ ∨ x = ⟨"..", .directory⟩ ∨
        ∃ n e, s.host.entryAt? (l ++ [n]) = some e ∧ x = ⟨Utf8.decodeLossy n, e.kind⟩

/-! ## 2. The invariant -/

section Guarded

variable {top : Location} {host : Host} {s : Service}

/-- An open file may be changed; the path of an open directory leads beneath the root. -/
def Safe (top : Location) (host : Host) : OpenFile → Prop
  | .file h => ∀ id, h.object = .file id → Host.Open top host id
  | .directory p => ∃ l perms t, top <+: l ∧ host.lookup .follow p = .ok (l, .directory perms t)

/-- What holds of a service with the root `top` that was started on `host`. -/
structure Guarded (top : Location) (host : Host) (s : Service) : Prop where
  scope : s.scope = .beneath (.ofLocation top)
  confined : Host.Confined top host s.host
  safe : ∀ {fd f}, s.table.lookup fd = some f → Safe top host f

theorem Guarded.rooted (hroot : host.Rooted top) (hg : Guarded top host s) :
    s.host.Rooted top where
  proper := hroot.proper
  directory m hm := by
    obtain ⟨p, t, he⟩ := hroot.directory m hm
    obtain ⟨t', he'⟩ := hg.confined.directory he
    exact ⟨p, t', he'⟩

/-- What a path beneath the root leads to is safe to open. -/
theorem safe_of_standsFor {after : Host} (hc : Host.Confined top host after) {f : OpenFile}
    {l : Location} {e : Entry} (hl : after.lookup .follow f.path = .ok (l, e))
    (hf : f.StandsFor e) (htop : top <+: l) : Safe top host f := by
  cases f with
  | directory p =>
    obtain ⟨perms, t, rfl⟩ := Host.isDirectory_of_isDir hf
    obtain ⟨t', hl'⟩ := Host.lookup_transfer hc.ways hc.cwd.symm hl
    exact ⟨l, perms, t', htop, hl'⟩
  | file h =>
    intro id hid
    have hopens : Host.OpensAs e h.object := hf
    rw [hid] at hopens
    cases e with
    | file id' =>
      cases hopens
      exact hc.open_of_named htop (Host.entryAt?_of_lookup hl)
    | device d => cases hopens
    | directory _ _ => exact hopens.elim
    | symlink _ _ => exact hopens.elim

/-- **What is prepared for an open** lies beneath the root, and so do the changes it took. -/
theorem prepare_beneath (hroot : host.Rooted top) (hg : Guarded top host s)
    {path : Option String} {mode : OpenMode} {f : OpenFile} {after : Host}
    (hp : s.prepare path mode = .ok (f, after)) :
    Host.Confined top host after ∧
      ∃ l e, after.lookup .follow f.path = .ok (l, e) ∧ f.StandsFor e ∧ top <+: l := by
  obtain ⟨given, full, hres, hopening⟩ := opening_of_prepare hp
  have hrooted := hg.rooted hroot
  rw [hg.scope] at hres
  cases hopening with
  | found hl hf hpath =>
    rw [← hpath] at hl hres
    exact ⟨hg.confined, _, _, hl, hf, Scope.beneath_of_resolve hrooted hres hl⟩
  | @created exclusive dir n harrive hvacant =>
    have hdir := Scope.vacant_beneath_of_resolve hrooted hres harrive
    exact ⟨hg.confined.createFile hdir hvacant, dir ++ [n], _, Host.lookup_addFile harrive hvacant,
      rfl, hdir.trans (List.prefix_append dir [n])⟩

/-- **What is removed** lies in a directory beneath the root. -/
theorem removed_beneath (hroot : host.Rooted top) (hg : Guarded top host s)
    {path : Option String} {after : Host} (hr : s.removed path = .ok after) :
    ∃ d n e, s.host.entryAt? (d ++ [n]) = some e ∧ e.isDir = false ∧ top <+: d ∧
      after = (s.host.eraseEntry (d ++ [n])).touch d := by
  obtain ⟨given, full, l, e, -, hres, hl, hfile, -, rfl⟩ := removed_ok hr
  rw [hg.scope] at hres
  rcases Scope.beneath_of_resolveEntry (hg.rooted hroot) hres hl with ⟨-, hdir⟩ | ⟨d, n, rfl, hd⟩
  · rw [hfile] at hdir
    cases hdir
  · refine ⟨d, n, e, Host.entryAt?_of_lookup hl, hfile, hd, ?_⟩
    rw [List.dropLast_concat]

/-! ## 3. What the invariant gives -/

theorem Guarded.properDirectories (htree : host.WellFormed) (hg : Guarded top host s) :
    s.host.ProperDirectories := by
  intro l n p t he
  obtain ⟨t', he'⟩ := hg.confined.ways.directory he
  exact htree.properDirectories he'

/-- **A guarded service acts beneath its root.** -/
theorem Guarded.staysBeneath (htree : host.WellFormed) (hroot : host.Rooted top)
    (hg : Guarded top host s) : StaysBeneath top s where
  opens {path mode fd} hfd := by
    rcases s.openPath_cases path mode with ⟨e, log, -, hr⟩ | ⟨f, after, -, -, hr⟩ |
      ⟨f, after, fd', table, hp, ht, hr⟩
    · rw [hr] at hfd
      cases hfd
    · rw [hr] at hfd
      cases hfd
    · rw [hr] at hfd ⊢
      cases hfd
      obtain ⟨-, l, e, hl, hf, htop⟩ := prepare_beneath hroot hg hp
      obtain ⟨-, -, rfl⟩ := DescriptorTable.open?_eq_some_iff.mp ht
      refine ⟨f, l, e, ?_, hl, hf, htop⟩
      rw [DescriptorTable.lookup_insert, if_pos rfl]
  unlinks {path} hok := by
    rcases s.unlink_cases path with ⟨e, -, hr⟩ | ⟨after, hremoved, hr⟩
    · rw [hr] at hok
      cases hok
    · obtain ⟨d, n, e, he, hfile, hd, rfl⟩ := removed_beneath hroot hg hremoved
      rw [hr]
      exact ⟨d, n, e, he, hfile, hd, rfl⟩
  stats {path a} hs := by
    obtain ⟨given, full, l, e, hpath, hres, hl, ha⟩ := stat_ok hs
    refine ⟨given, full, l, e, hpath, hres, hl, ha, ?_⟩
    rw [hg.scope] at hres
    rcases Scope.beneath_of_resolveEntry (hg.rooted hroot) hres hl with ⟨htop, -⟩ | hin
    · exact .inl htop
    · exact .inr hin
  trees {path t log} ht := by
    obtain ⟨given, full, l, e, hpath, hres, hl, hshows⟩ :=
      dirTree_ok (hg.properDirectories htree) ht
    refine ⟨given, full, l, e, hpath, hres, hl, hshows, ?_⟩
    rw [hg.scope] at hres
    exact Scope.beneath_of_resolve (hg.rooted hroot) hres hl
  listings {fd nbytes base page} hp := by
    obtain ⟨p, l, perms, t, hf, hl, hshown⟩ := listDir_ok hp
    refine ⟨p, l, perms, t, hf, hl, ?_, hshown⟩
    -- the path led beneath the root when it was opened, and still leads to the same place
    obtain ⟨l', perms', t', htop, hl'⟩ := hg.safe hf
    obtain ⟨t'', hl''⟩ := Host.lookup_transfer hg.confined.ways hg.confined.cwd.symm hl
    rw [hl''] at hl'
    cases hl'
    exact htop

/-! ## 4. What operations keep -/

theorem Guarded.moveCursor (hg : Guarded top host s) {fd : Fd} {h : Handle}
    (hf : s.table.lookup fd = some (.file h)) (pos : Nat) :
    Guarded top host (s.moveCursor fd h pos) where
  scope := hg.scope
  confined := hg.confined
  safe {q f} hq := by
    have hinsert : (s.table.insert fd
        (.file { h with cursor := Host.settle h.object pos })).lookup q = some f := hq
    rw [DescriptorTable.lookup_insert] at hinsert
    split at hinsert
    · cases hinsert
      have hsafe : Safe top host (.file h) := hg.safe hf
      exact hsafe
    · exact hg.safe hinsert

/-- **Every operation keeps a service guarded.** -/
theorem keeps_guarded (hroot : host.Rooted top) : Service.Keeps (Guarded top host) where
  openPath {s} path mode hg := by
    rcases s.openPath_cases path mode with ⟨e, log, -, hr⟩ | ⟨f, after, hp, -, hr⟩ |
      ⟨f, after, fd, table, hp, ht, hr⟩
    · rw [hr]
      exact hg
    · rw [hr]
      exact ⟨hg.scope, (prepare_beneath hroot hg hp).1, hg.safe⟩
    · obtain ⟨hconfined, l, e, hl, hf, htop⟩ := prepare_beneath hroot hg hp
      obtain ⟨-, -, rfl⟩ := DescriptorTable.open?_eq_some_iff.mp ht
      rw [hr]
      refine ⟨hg.scope, hconfined, fun {q g} hq => ?_⟩
      rw [DescriptorTable.lookup_insert] at hq
      split at hq
      · cases hq
        exact safe_of_standsFor hconfined hl hf htop
      · exact hg.safe hq
  close {s} fd hg := by
    rcases s.close_cases fd with ⟨-, hr⟩ | ⟨f, table, hremove, hr⟩
    · rw [hr]
      exact hg
    · rw [hr]
      refine ⟨hg.scope, hg.confined, fun {q g} hq => ?_⟩
      have hlookup : table.lookup q = some g := hq
      rw [DescriptorTable.lookup_of_remove hremove] at hlookup
      split at hlookup
      · cases hlookup
      · exact hg.safe hlookup
  write {s} fd data hg := by
    rcases s.write_cases fd data with ⟨e, hr⟩ | ⟨h, answer, hh, -, -, hr⟩
    · rw [hr]
      exact hg
    · have hf := handle_ok hh
      have hopen : ∀ id, h.object = .file id → Host.Open top host id := hg.safe hf
      have hwritten : Guarded top host
          { s with host := (s.host.writeAt h.object h.cursor data).2.2 } :=
        ⟨hg.scope, hg.confined.writeAt hopen h.cursor data, hg.safe⟩
      rw [hr]
      exact hwritten.moveCursor hf _
  read {s} fd capacity hg := by
    rcases s.read_cases fd capacity with ⟨e, hr⟩ | ⟨h, n, bytes, hh, -, -, hr⟩
    · rw [hr]
      exact hg
    · rw [hr]
      exact hg.moveCursor (handle_ok hh) _
  seek {s} fd offset whence hg := by
    rcases s.seek_cases fd offset whence with ⟨e, hr⟩ | ⟨h, pos, hh, hr⟩
    · rw [hr]
      exact hg
    · rw [hr]
      exact hg.moveCursor (handle_ok hh) _
  unlink {s} path hg := by
    rcases s.unlink_cases path with ⟨e, -, hr⟩ | ⟨after, hremoved, hr⟩
    · rw [hr]
      exact hg
    · obtain ⟨d, n, e, he, hfile, hd, rfl⟩ := removed_beneath hroot hg hremoved
      rw [hr]
      exact ⟨hg.scope, hg.confined.removeEntry hd he hfile, hg.safe⟩
  join hg := ⟨hg.scope, hg.confined, hg.safe⟩

/-- A service whose root is canonical starts guarded. -/
theorem guarded_start {settings : Settings} {root : Path} (hsettings : settings.root = some root)
    (hreal : host.canonicalize root = .ok (.ofLocation top)) :
    Guarded top host (Service.start settings host).answer := by
  refine ⟨?_, Host.Confined.refl top host, fun {fd f} hf => ?_⟩
  · show Scope.ofRoot host settings.root = _
    rw [hsettings, Scope.ofRoot_of_canonicalize hreal]
  · cases (Hub.lookup_start settings host fd).symm.trans hf

end Guarded

end Service

/-! ## 5. Histories -/

/-- **A service with a root stays beneath it.** In a tree where the root that was configured is a
directory, every history of requests leaves a service whose operations act at the root or beneath
it; the root is a directory still, and every entry outside it, and every file that had no name
beneath it, is what it was. -/
theorem Hub.confinement {settings : Settings} {host : Host} {root : Path} {top : Location}
    (htree : host.WellFormed) (hsettings : settings.root = some root)
    (hreal : host.canonicalize root = .ok (.ofLocation top))
    (hdir : ∃ p t, host.entryAt? top = some (.directory p t)) (history : List HubEvent) :
    let s := serviceAfter settings host history
    s.StaysBeneath top ∧ (∃ p t, s.host.entryAt? top = some (.directory p t)) ∧
      (∀ l, ¬ top <+: l → s.host.entryAt? l = host.entryAt? l) ∧
      ∀ id, id < host.files.length → (∀ l, top <+: l → host.entryAt? l ≠ some (.file id)) →
        s.host.file? id = host.file? id := by
  have hroot : host.Rooted top := by
    obtain ⟨p, t, he⟩ := hdir
    exact ⟨htree.proper he, fun m hm => htree.directory_of_prefix ⟨p, t, he⟩ hm⟩
  have hg : (serviceAfter settings host history).Guarded top host :=
    serviceAfter_of_start (Service.keeps_guarded hroot) (Service.guarded_start hsettings hreal)
      history
  refine ⟨hg.staysBeneath htree hroot, (hg.rooted hroot).directory top List.prefix_rfl, ?_, ?_⟩
  · intro l hl
    exact hg.confined.outside hl
  · intro id hid hfree
    exact hg.confined.bytes hid hfree

/-- A host with a directory `srv`, which holds a link that leads out of it. -/
def Host.served : Host :=
  (Host.fresh [Utf8.encode "srv"] ⟨0, 0⟩ none).setEntry [Utf8.encode "srv", Utf8.encode "out"]
    (.symlink (Path.ofString "/dev") ⟨0, 0⟩)

theorem Host.canonicalize_served :
    served.canonicalize (Path.ofString "/srv") = .ok (.ofLocation [Utf8.encode "srv"]) := by
  have hpath : Path.ofString "/srv" = ⟨[0x2f, 0x73, 0x72, 0x76]⟩ := by decide
  have hglance : served.glance [] [0x73, 0x72, 0x76] = .ok (.directory .newDirectory ⟨0, 0⟩) := rfl
  have htrace : served.trace maxLinks [] false [[0x73, 0x72, 0x76]] =
      .ok [[0x73, 0x72, 0x76]] := by
    rw [trace.eq_def]
    dsimp only
    rw [if_neg (by decide), if_neg (by decide), hglance]
    exact trace_nil
  rw [hpath]
  show (served.trace maxLinks [] false [[0x73, 0x72, 0x76]]).map Path.ofLocation = _
  rw [htrace]
  rfl

/-- A client goes through the link, and creates a file. -/
theorem Hub.confinement_served :
    let top : Location := [Utf8.encode "srv"]
    let settings : Settings := ⟨some (Path.ofString "/srv"), 4096, false⟩
    let history : List HubEvent :=
      [.join, .call 1 (.openPath (some "out/null") 1), .call 1 (.openPath (some "new") 2)]
    let s := serviceAfter settings Host.served history
    Host.served.WellFormed ∧ Host.served.canonicalize (Path.ofString "/srv") =
        .ok (.ofLocation top) ∧
      (∃ p t, Host.served.entryAt? top = some (.directory p t)) ∧ s.StaysBeneath top ∧
      s.host.entryAt? [Utf8.encode "dev", Utf8.encode "null"] = some (.device .null) := by
  intro top settings history s
  have htree : Host.served.WellFormed := by decide
  have hdir : ∃ p t, Host.served.entryAt? top = some (.directory p t) :=
    ⟨.newDirectory, ⟨0, 0⟩, rfl⟩
  obtain ⟨hstays, -, houtside, -⟩ :=
    confinement htree (rfl : settings.root = _) Host.canonicalize_served hdir history
  exact ⟨htree, Host.canonicalize_served, hdir, hstays, houtside _ (by decide)⟩

end Telefile
