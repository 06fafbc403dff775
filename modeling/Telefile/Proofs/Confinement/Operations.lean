import Telefile.Proofs.Confinement.Showing
import Telefile.Proofs.Steps

/-!
# What operations find

The entry that an operation acts on, by the path that the scope made of the client's.

* `Service.Opening` — what a path is opened as: what it leads to, or a file that has been created;
* `opening_of_openAs`, `opening_of_prepare`, `removed_ok`, `stat_ok`, `dirTree_ok`, `listDir_ok` — the
  operations.
-/

namespace Telefile

/-- The entry is what the open file stands for. -/
def OpenFile.StandsFor : OpenFile → Entry → Prop
  | directory _, e => e.isDir = true
  | file h, e => Host.OpensAs e h.object

namespace Service

/-- What a path is opened as, and the host after it: what the path leads to, or a file that has been
created at its end. -/
inductive Opening (h : Host) (full : Path) : OpenFile → Host → Prop
  | found {f l e} (hl : h.lookup .follow full = .ok (l, e)) (hf : f.StandsFor e)
    (hpath : f.path = full) : Opening h full f h
  | created {exclusive dir n} (harrive : h.arrive (.create exclusive) full = .ok (.vacant dir n))
    (hvacant : h.entryAt? (dir ++ [n]) = none) :
    Opening h full (fresh full .readWrite (.file h.files.length))
      ((h.addFile (dir ++ [n])).2.touch dir)

section Finding

variable {s : Service} {path : Option String}

theorem opening_of_openAs {host after : Host} {given : String} {full : Path} {mode : OpenMode}
    {f : OpenFile} (hopen : openAs host given full mode
      ((host.lookup .follow full).toOption.map Prod.snd) = .ok (f, after)) :
    Opening host full f after := by
  rcases openAs_cases hopen with ⟨e, hseen, hdir, rfl, rfl⟩ | ⟨o, ho, rfl, rfl⟩ |
    ⟨exclusive, o, ho, -, rfl⟩
  · cases hl : after.lookup .follow full with
    | error cause =>
      rw [hl] at hseen
      cases hseen
    | ok r =>
      rw [hl] at hseen
      cases hseen
      exact .found hl hdir rfl
  · obtain ⟨l, e, hl, he⟩ := Host.openPath_ok ho
    exact .found hl he rfl
  · rcases Host.createPath_ok ho with ⟨rfl, l, e, hl, he⟩ | ⟨dir, n, harrive, hnone, rfl, rfl⟩
    · exact .found hl he rfl
    · exact .created harrive hnone

theorem opening_of_prepare {mode : OpenMode} {f : OpenFile} {after : Host}
    (hp : s.prepare path mode = .ok (f, after)) :
    ∃ given full, s.scope.resolve s.host given = .ok full ∧ Opening s.host full f after := by
  obtain ⟨given, full, -, hres, hopen⟩ := prepare_ok hp
  exact ⟨given, full, hres, opening_of_openAs hopen⟩

theorem removed_ok {after : Host} (hr : s.removed path = .ok after) :
    ∃ given full l e, path = some given ∧ s.scope.resolveEntry s.host given = .ok full ∧
      s.host.lookup .entry full = .ok (l, e) ∧ e.isDir = false ∧
      (∃ perms t, s.host.entryAt? l.dropLast = some (.directory perms t)) ∧
      after = (s.host.eraseEntry l).touch l.dropLast := by
  unfold removed at hr
  cases path with
  | none => cases hr
  | some given =>
    cases hres : s.scope.resolveEntry s.host given with
    | error e =>
      simp only [hres] at hr
      cases hr
    | ok full =>
      rcases hl : s.host.lookup .entry full with cause | ⟨l, e⟩
      · simp only [hres, hl] at hr
        cases hr
      · simp only [hres, hl] at hr
        split at hr
        · cases hr
        · cases hremove : s.host.removePath full with
          | error cause =>
            rw [hremove] at hr
            cases hr
          | ok after' =>
            rw [hremove] at hr
            cases hr
            obtain ⟨l', e', hl', hremoved⟩ := Host.removePath_ok hremove
            exact ⟨given, full, l', e', rfl, hres, hl', hremoved⟩

theorem stat_ok {a : FileAttr} (hs : s.stat path = .ok a) :
    ∃ given full l e, path = some given ∧ s.scope.resolveEntry s.host given = .ok full ∧
      s.host.lookup .entry full = .ok (l, e) ∧ a = (s.host.attr l e).capLinks := by
  unfold stat at hs
  cases path with
  | none => cases hs
  | some given =>
    cases hres : s.scope.resolveEntry s.host given with
    | error e =>
      simp only [hres] at hs
      cases hs
    | ok full =>
      unfold Host.look at hs
      rcases hl : s.host.lookup .entry full with cause | ⟨l, e⟩
      · simp only [hres, hl] at hs
        cases hs
      · simp only [hres, hl] at hs
        cases hs
        exact ⟨given, full, l, e, rfl, hres, hl, rfl⟩

theorem dirTree_ok (hproper : s.host.ProperDirectories) {t : DirTree} {log : List LogLine}
    (ht : s.dirTree path = (.ok t, log)) :
    ∃ given full l e, path = some given ∧ s.scope.resolve s.host given = .ok full ∧
      s.host.lookup .follow full = .ok (l, e) ∧ s.host.Shows l t := by
  unfold dirTree at ht
  cases path with
  | none => cases ht
  | some given =>
    cases hres : s.scope.resolve s.host given with
    | error e =>
      simp only [hres] at ht
      cases ht
    | ok full =>
      rcases hl : s.host.lookup .follow full with cause | ⟨l, e⟩
      · simp only [hres, hl] at ht
        cases ht
      · simp only [hres, hl] at ht
        split at ht
        · next hdir =>
          rcases hbelow : subdirs s.host full with ⟨cause | ts, log'⟩
          · rw [hbelow] at ht
            cases ht
          · rw [hbelow] at ht
            cases ht
            obtain ⟨perms, t, rfl⟩ := Host.isDirectory_of_isDir hdir
            unfold subdirs at hbelow
            rw [hl] at hbelow
            have hshown := showAll_subdirsWithin hproper _ hbelow
            exact ⟨given, full, l, _, rfl, hres, hl, ⟨perms, t, Host.entryAt?_of_lookup hl⟩, hshown⟩
        · cases ht

theorem listDir_ok {fd : Fd} {nbytes base : Nat} {page : DirPage}
    (hp : s.listDir fd nbytes base = .ok page) :
    ∃ p l perms t, s.table.lookup fd = some (.directory p) ∧
      s.host.lookup .follow p = .ok (l, .directory perms t) ∧
      ∀ x ∈ page.entries, x = ⟨".", .directory⟩ ∨ x = ⟨"..", .directory⟩ ∨
        ∃ n e, s.host.entryAt? (l ++ [n]) = some e ∧ x = ⟨Utf8.decodeLossy n, e.kind⟩ := by
  unfold listDir openFile at hp
  rcases hf : s.table.lookup fd with _ | p | h
  · simp only [hf] at hp
    cases hp
  · simp only [hf] at hp
    cases hall : listing s.host p with
    | error e =>
      simp only [hall] at hp
      cases hp
    | ok all =>
      simp only [hall] at hp
      obtain ⟨l, perms, t, hl, hshown⟩ := mem_listing hall
      exact ⟨p, l, perms, t, rfl, hl, fun x hx => hshown x (mem_pageOf hp hx)⟩
  · simp only [hf] at hp
    cases hp

end Finding

end Service

end Telefile
