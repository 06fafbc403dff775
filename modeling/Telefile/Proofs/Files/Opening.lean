import Telefile.Proofs.Confinement.Operations
import Telefile.Proofs.Lookup.Ends
import Telefile.Proofs.Samples

/-!
# What an open does, and how it fails

Under two modes an open leaves the host alone, under the other two it may add a file where nothing
was. What the client is told of a failure depends on the mode, and on what the path leads to.

* `Host.bars`, `Host.openFailure` — what a mode cannot be used on, and the code of a failure;
* `Host.Adds` — one more entry, a new empty file; `Host.adds_addFile`;
* `Host.Leaves` — what each mode may leave of the host; `Service.Opened` — and of the service;
* `Service.leaves_of_openAs`, `Service.file_of_openAs`, `Service.code_of_openAs` — an open by what
  it gives, mode by mode;
* **`Hub.open_exact`** — all of it, in every state that a history leads to;
* **`Hub.not_every_open_fails_by_mode`** — with no number left, the code is not that of the mode.
-/

namespace Telefile

theorem OpenMode.access_eq_readOnly_iff (mode : OpenMode) :
    mode.access = .readOnly ↔ mode = .read := by
  cases mode <;> decide

namespace Host

/-! ## 1. What the path leads to -/

/-- The entry that a path leads to. -/
def found? (h : Host) (p : Path) : Option Entry := (h.lookup .follow p).toOption.map Prod.snd

/-- The path leads to a directory. -/
def findsDirectory (h : Host) (p : Path) : Bool := (h.found? p).any Entry.isDir

/-- An exclusive creation by the path meets an entry. -/
def meets (h : Host) (p : Path) : Bool :=
  match h.arrive (.create true) p with
  | .ok (.found ..) => true
  | .ok (.vacant ..) | .error _ => false

/-- What a mode cannot be used on: a directory is opened for reading only, and what is there is not
created. -/
def bars (h : Host) (p : Path) : OpenMode → Bool
  | .read => false
  | .write | .create => h.findsDirectory p
  | .createNew => (h.found? p).isSome || h.meets p

/-- The code of an open that fails, though the scope lets the path pass. -/
def openFailure (h : Host) (p : Path) : OpenMode → Int
  | .read => -2
  | .write => if h.findsDirectory p then -21 else -2
  | .create => if h.findsDirectory p then -21 else -5
  | .createNew => if (h.found? p).isSome || h.meets p then -17 else -5

variable {h h' : Host} {p : Path} {dir : Location} {n : Name}

theorem found?_eq_some_iff {e : Entry} :
    h.found? p = some e ↔ ∃ l, h.lookup .follow p = .ok (l, e) := by
  unfold found?
  rcases h.lookup .follow p with cause | ⟨l, e'⟩
  · exact ⟨fun he => (by cases he), fun ⟨_, he⟩ => (by cases he)⟩
  · constructor
    · intro he
      cases he
      exact ⟨l, rfl⟩
    · rintro ⟨_, he⟩
      cases he
      rfl

theorem pass_ne_alreadyExists (l : Location) : h.pass l ≠ .error .alreadyExists := by
  unfold pass
  intro hpass
  split at hpass
  · split at hpass <;> cases hpass
  · cases hpass
  · cases hpass

theorem walk_ne_alreadyExists (last : LastStep) :
    ∀ (links : Nat) (names : List Name) {here : Location} {slash : Bool},
      h.walk last links here slash names ≠ .error .alreadyExists := by
  refine walk_induction fun links names hrest hfewer => ?_
  intro here slash hw
  rw [walk.eq_def] at hw
  cases names with
  | nil =>
    dsimp only at hw
    split at hw <;> cases hw
  | cons n rest =>
    dsimp only at hw
    split at hw
    · next cause hpass =>
      cases hw
      exact pass_ne_alreadyExists here hpass
    · split at hw
      · exact hrest n rest rfl hw
      split at hw
      · exact hrest n rest rfl hw
      split at hw
      · cases hw
      split at hw
      · cases hw
      split at hw
      · split at hw <;> cases hw
      · split at hw
        · cases hw
        · -- a link is followed, if one may be
          split at hw
          · cases hw
          · exact hfewer _ rfl _ hw
      · split at hw
        · cases hw
        · exact hrest n rest rfl hw
      · split at hw <;> cases hw

/-- No lookup fails because something is there. -/
theorem arrive_ne_alreadyExists (last : LastStep) : h.arrive last p ≠ .error .alreadyExists := by
  unfold arrive
  intro harrive
  split at harrive
  · cases harrive
  split at harrive
  · cases harrive
  split at harrive
  · cases harrive
  · exact walk_ne_alreadyExists last maxLinks p.names harrive

/-- A name is vacant in a directory. -/
theorem Walks.vacant_directory {last : LastStep} {links : Nat} {here : Location} {slash : Bool}
    {names : List Name} {a : Arrival} (hw : h.Walks last links here slash names a)
    (ha : a = .vacant dir n) : ∃ perms t, h.entryAt? dir = some (.directory perms t) := by
  induction hw with
  | done _ => cases ha
  | dot _ _ ih => exact ih ha
  | up _ _ ih => exact ih ha
  | vacant hpass _ _ =>
    cases ha
    exact isDirectory_of_pass hpass
  | stop _ _ _ _ => cases ha
  | link _ _ _ _ _ ih => exact ih ha
  | reach _ _ _ _ _ => cases ha
  | down _ _ _ _ _ ih => exact ih ha

/-! ## 2. What is added -/

/-- One more entry: the name `n`, vacant before, is a new empty file in the directory at `dir`,
whose time is recent. -/
structure Adds (h : Host) (dir : Location) (n : Name) (h' : Host) : Prop where
  vacant : h.entryAt? (dir ++ [n]) = none
  entry : h'.entryAt? (dir ++ [n]) = some (.file h.files.length)
  directory : ∃ perms t, h.entryAt? dir = some (.directory perms t) ∧
    h'.entryAt? dir = some (.directory perms h.now)
  others : ∀ m, m ≠ dir → m ≠ dir ++ [n] → h'.entryAt? m = h.entryAt? m
  files : h'.files = h.files ++ [⟨.newFile, h.now, .empty⟩]
  rest : h'.cwd = h.cwd ∧ h'.now = h.now ∧ h'.writeLimit = h.writeLimit

theorem touch_directory {perms : Perms} {t : Timestamp}
    (he : h.entryAt? dir = some (.directory perms t)) :
    h.touch dir = h.setEntry dir (.directory perms h.now) := by
  unfold touch
  rw [he]

theorem adds_addFile (hdir : ∃ perms t, h.entryAt? dir = some (.directory perms t))
    (hvacant : h.entryAt? (dir ++ [n]) = none) :
    h.Adds dir n ((h.addFile (dir ++ [n])).2.touch dir) := by
  obtain ⟨perms, t, he⟩ := hdir
  have hne : dir ≠ dir ++ [n] :=
    fun hself => List.cons_ne_nil n [] (List.self_eq_append_right.mp hself)
  have hstill : (h.addFile (dir ++ [n])).2.entryAt? dir = some (.directory perms t) := by
    rw [entryAt?_addFile, if_neg hne, he]
  rw [touch_directory hstill]
  refine ⟨hvacant, ?_, ⟨perms, t, he, ?_⟩, fun m hm hm' => ?_, rfl, rfl, rfl, rfl⟩
  · rw [entryAt?_setEntry, if_neg hne.symm, entryAt?_addFile, if_pos rfl]
  · rw [entryAt?_setEntry, if_pos rfl]
    rfl
  · rw [entryAt?_setEntry, if_neg hm, entryAt?_addFile, if_neg hm']

/-- What an open that succeeds may leave of the host, mode by mode. -/
def Leaves (h : Host) (p : Path) (h' : Host) : OpenMode → Prop
  | .read | .write => h' = h
  | .create =>
    (h' = h ∧ ∃ l e, h.lookup .follow p = .ok (l, e) ∧ e.isDir = false) ∨ ∃ dir n, h.Adds dir n h'
  | .createNew =>
    ∃ dir n, p.names.getLast? = some n ∧ h.Adds dir n h' ∧ h.found? p = none ∧
      ∀ l e, h.lookup .entry p ≠ .ok (l, e)

/-- An exclusive creation fails because something is there just if it meets an entry. -/
theorem createPath_alreadyExists_iff :
    h.createPath true p = .error .alreadyExists ↔ h.meets p = true := by
  unfold createPath meets
  cases harrive : h.arrive (.create true) p with
  | error cause =>
    refine ⟨fun hcreate => ?_, fun hmeets => by cases hmeets⟩
    cases hcreate
    exact absurd harrive (arrive_ne_alreadyExists _)
  | ok a =>
    cases a with
    | found l e => exact ⟨fun _ => rfl, fun _ => rfl⟩
    | vacant dir n =>
      dsimp only
      split
      · exact ⟨fun hcreate => (by cases hcreate), fun hmeets => (by cases hmeets)⟩
      · exact ⟨fun hcreate => (by cases hcreate), fun hmeets => (by cases hmeets)⟩

end Host

namespace Service

variable {host after : Host} {given : String} {full : Path} {mode : OpenMode} {f : OpenFile}

/-! ## 3. An open by what it gives -/

theorem openExisting_error {access : Access} {e : FileError} {log : List LogLine}
    (hopen : openExisting host given full access = .error (e, log)) : e = .notFound given := by
  unfold openExisting at hopen
  split at hopen <;> cases hopen
  rfl

/-- The code of an open that fails. -/
theorem code_of_openAs {e : FileError} {log : List LogLine}
    (hopen : openAs host given full mode (host.found? full) = .error (e, log)) :
    e.code = host.openFailure full mode := by
  unfold Host.openFailure Host.findsDirectory
  unfold openAs at hopen
  cases mode with
  | read =>
    cases hfound : host.found? full with
    | none =>
      rw [hfound] at hopen
      cases hopen
      rfl
    | some e' =>
      rw [hfound] at hopen
      dsimp only at hopen
      split at hopen
      · cases hopen
      · rw [openExisting_error hopen]
        rfl
  | write =>
    cases hfound : host.found? full with
    | none =>
      rw [hfound] at hopen
      cases hopen
      rfl
    | some e' =>
      rw [hfound] at hopen
      dsimp only [Option.any_some] at hopen ⊢
      split at hopen
      · next hdir =>
        cases hopen
        exact (if_pos hdir).symm
      · next hfile =>
        rw [openExisting_error hopen]
        exact (if_neg hfile).symm
  | create =>
    dsimp only at hopen
    split at hopen
    · next hdir =>
      cases hopen
      exact (if_pos hdir).symm
    · next hfile =>
      split at hopen
      · cases hopen
      · cases hopen
        exact (if_neg hfile).symm
  | createNew =>
    cases hfound : host.found? full with
    | some e' =>
      rw [hfound] at hopen
      cases hopen
      rfl
    | none =>
      rw [hfound] at hopen
      dsimp only [Option.isSome_none, Bool.false_or] at hopen ⊢
      split at hopen
      · cases hopen
      · next hcreate =>
        cases hopen
        rw [Host.createPath_alreadyExists_iff.mp hcreate]
        rfl
      · next cause hother hcreate =>
        cases hopen
        have hnot : ¬ host.meets full = true := fun hmeets =>
          hother (Except.error.inj
            (hcreate.symm.trans (Host.createPath_alreadyExists_iff.mpr hmeets)))
        exact (if_neg hnot).symm

/-- A mode is not used on what it cannot be used on. -/
theorem not_bars_of_openAs
    (hopen : openAs host given full mode (host.found? full) = .ok (f, after)) :
    host.bars full mode = false := by
  rcases openAs_ok hopen with ⟨rfl, -⟩ | ⟨rfl | rfl, hfile, -⟩ | ⟨rfl, hfile, -⟩ |
    ⟨rfl, hnone, o, hcreate, -⟩
  · rfl
  · rfl
  · exact hfile
  · exact hfile
  · have hmeets : host.meets full = false := by
      refine Bool.eq_false_iff.mpr fun hmeets => ?_
      rw [Host.createPath_alreadyExists_iff.mpr hmeets] at hcreate
      cases hcreate
    unfold Host.bars
    rw [hnone, hmeets]
    rfl

/-- What an open leaves of the host. -/
theorem leaves_of_openAs
    (hopen : openAs host given full mode (host.found? full) = .ok (f, after)) :
    host.Leaves full after mode := by
  rcases openAs_ok hopen with ⟨rfl, -, -, hafter⟩ | ⟨rfl | rfl, -, o, -, -, hafter⟩ |
    ⟨rfl, hfile, o, hcreate, -⟩ | ⟨rfl, hnone, o, hcreate, -⟩
  · exact hafter
  · exact hafter
  · exact hafter
  · rcases Host.createPath_ok hcreate with ⟨rfl, l, e, hl, -⟩ | ⟨dir, n, harrive, hvacant, -, rfl⟩
    · have hfound := Host.found?_eq_some_iff.mpr ⟨l, hl⟩
      rw [hfound] at hfile
      exact .inl ⟨rfl, l, e, hl, hfile⟩
    · obtain ⟨-, hw⟩ := Host.arrive_eq_ok_iff.mp harrive
      exact .inr ⟨dir, n, Host.adds_addFile (hw.vacant_directory rfl) hvacant⟩
  · rcases Host.createPath_ok hcreate with ⟨-, l, e, hl, -⟩ | ⟨dir, n, harrive, hvacant, -, rfl⟩
    · rw [Host.found?_eq_some_iff.mpr ⟨l, hl⟩] at hnone
      cases hnone
    · obtain ⟨-, hw⟩ := Host.arrive_eq_ok_iff.mp harrive
      refine ⟨dir, n, hw.last_name rfl, Host.adds_addFile (hw.vacant_directory rfl) hvacant, hnone,
        fun l e hl => ?_⟩
      -- an entry that the path names would lie where the name is vacant
      obtain ⟨-, rfl⟩ := Host.location_of_vacant
        (h := host) ⟨fun he => ⟨_, he⟩, fun he => he⟩ rfl harrive hl
      rw [Host.entryAt?_of_lookup hl] at hvacant
      cases hvacant

/-- The file that an open gives. -/
theorem file_of_openAs
    (hopen : openAs host given full mode (host.found? full) = .ok (f, after)) :
    f.isDir = host.findsDirectory full ∧ (f.isDir = true → mode = .read) ∧
      (f.access = .readOnly ↔ mode = .read) ∧ ∀ hd, f = .file hd → hd.cursor = 0 := by
  rcases openAs_ok hopen with ⟨rfl, hdir, rfl, -⟩ | ⟨-, hfile, o, -, rfl, -⟩ |
    ⟨rfl, hfile, o, -, rfl⟩ | ⟨rfl, hnone, o, -, rfl⟩
  · exact ⟨hdir.symm, fun _ => rfl, ⟨fun _ => rfl, fun _ => rfl⟩, fun hd hf => by cases hf⟩
  · exact ⟨hfile.symm, fun hdir => (by cases hdir), OpenMode.access_eq_readOnly_iff mode,
      fun hd hf => by cases hf; rfl⟩
  · exact ⟨hfile.symm, fun hdir => (by cases hdir), OpenMode.access_eq_readOnly_iff .create,
      fun hd hf => by cases hf; rfl⟩
  · have hfile : host.findsDirectory full = false := by
      unfold Host.findsDirectory
      rw [hnone]
      rfl
    exact ⟨hfile.symm, fun hdir => (by cases hdir),
      OpenMode.access_eq_readOnly_iff .createNew, fun hd hf => by cases hf; rfl⟩

end Service

/-! ## 4. An open of a client -/

/-- A path that the scope does not let pass. -/
theorem Scope.code_of_refused {scope : Scope} {h : Host} {path : String} {e : FileError}
    (hres : scope.resolve h path = .error e) : e.code = -13 := by
  have hstopped : ∀ {root full : Path} {test : Bool},
      (if test = true then Except.ok full else .error (escape path root)) = .error e →
        e.code = -13 := by
    intro root full test htest
    cases test with
    | true => cases htest
    | false =>
      cases htest
      rfl
  unfold resolve resolveWith at hres
  cases scope with
  | everything => cases hres
  | beneath root =>
    dsimp only at hres
    rcases hfold : (Path.ofString path).fold? with _ | _ | ⟨n, names⟩ <;> rw [hfold] at hres
    · cases hres
      rfl
    · cases hres
    · exact hstopped hres

namespace Service

variable {s : Service} {path : String} {mode : OpenMode}

theorem prepare_error {e : FileError} {log : List LogLine}
    (hp : s.prepare (some path) mode = .error (e, log)) :
    s.scope.resolve s.host path = .error e ∨ ∃ full, s.scope.resolve s.host path = .ok full ∧
      openAs s.host path full mode (s.host.found? full) = .error (e, log) := by
  unfold prepare at hp
  cases hres : s.scope.resolve s.host path with
  | error e' =>
    simp only [hres] at hp
    cases hp
    exact .inl rfl
  | ok full =>
    simp only [hres] at hp
    exact .inr ⟨full, rfl, hp⟩

/-- What an open that succeeds makes of the service: one more descriptor, its cursor at the start,
for what the path leads to by then. -/
structure Opened (s : Service) (full : Path) (mode : OpenMode) (fd : Fd) (s' : Service) : Prop where
  setup : s'.settings = s.settings ∧ s'.scope = s.scope ∧ s'.nextSession = s.nextSession
  others : ∀ q, q ≠ fd → s'.table.lookup q = s.table.lookup q
  host : s.host.Leaves full s'.host mode
  file : ∃ f l e, s'.table.lookup fd = some f ∧ f.path = full ∧
    s'.host.lookup .follow full = .ok (l, e) ∧ f.StandsFor e ∧
    f.isDir = s.host.findsDirectory full ∧ (f.isDir = true → mode = .read) ∧
    (f.access = .readOnly ↔ mode = .read) ∧ ∀ hd, f = .file hd → hd.cursor = 0

theorem Opening.found_after {host after : Host} {full : Path} {f : OpenFile}
    (ho : Opening host full f after) :
    f.path = full ∧ ∃ l e, after.lookup .follow full = .ok (l, e) ∧ f.StandsFor e := by
  cases ho with
  | found hl hf hpath => exact ⟨hpath, _, _, hl, hf⟩
  | created harrive hvacant => exact ⟨rfl, _, _, Host.lookup_addFile harrive hvacant, rfl⟩

theorem opened_of_prepare {f : OpenFile} {host : Host} {fd : Fd} {table : DescriptorTable OpenFile}
    (hp : s.prepare (some path) mode = .ok (f, host)) (ht : s.table.open? f = some (fd, table)) :
    ∃ full, s.scope.resolve s.host path = .ok full ∧ s.host.bars full mode = false ∧
      s.Opened full mode fd { s with table, host } := by
  obtain ⟨_, full, hgiven, hres, hopen⟩ := prepare_ok hp
  cases hgiven
  obtain ⟨-, rfl, rfl⟩ := DescriptorTable.open?_eq_some_iff.mp ht
  obtain ⟨hpath, l, e, hl, hstands⟩ := (opening_of_openAs hopen).found_after
  obtain ⟨hdir, hread, haccess, hcursor⟩ := file_of_openAs hopen
  refine ⟨full, hres, not_bars_of_openAs hopen, ⟨rfl, rfl, rfl⟩, fun q hq => ?_,
    leaves_of_openAs hopen, f, l, e, ?_, hpath, hl, hstands, hdir, hread, haccess, hcursor⟩
  · exact (DescriptorTable.lookup_insert _ _ q f).trans (if_neg hq)
  · exact (DescriptorTable.lookup_insert _ _ _ f).trans (if_pos rfl)

end Service

/-- **An open**, by what becomes of it: the scope is against it, or the host is; or it finds what it
opens, and there is a descriptor for it or none left. -/
theorem Session.openPath_outcome (c : Session) {s : Service} (hissued : s.Issued) (path : String)
    (mode : OpenMode) :
    let r := c.openPath s (some path) mode
    (∃ e, s.scope.resolve s.host path = .error e ∧ r.answer = -13) ∨
    ∃ full, s.scope.resolve s.host path = .ok full ∧
      ((∃ e log, s.prepare (some path) mode = .error (e, log) ∧
          e.code = s.host.openFailure full mode ∧ r.answer = e.code) ∨
       (∃ f host, s.prepare (some path) mode = .ok (f, host) ∧ s.host.bars full mode = false ∧
          ((s.table.last = maxDescriptor ∧ r.answer = -5) ∨
           (s.table.last < maxDescriptor ∧ 0 ≤ r.answer ∧
             s.Opened full mode r.answer r.state.2)))) := by
  intro r
  rcases c.openPath_cases s (some path) mode with ⟨e, log, hp, hanswer, -⟩ |
    ⟨f, host, hp, hlast, hanswer, -⟩ | ⟨f, host, fd, table, hp, ht, hanswer, hstate⟩
  · rcases Service.prepare_error hp with hres | ⟨full, hres, hopen⟩
    · exact .inl ⟨e, hres, hanswer.trans (Scope.code_of_refused hres)⟩
    · exact .inr ⟨full, hres, .inl ⟨e, log, hp, Service.code_of_openAs hopen, hanswer⟩⟩
  · obtain ⟨_, full, hgiven, hres, hopen⟩ := Service.prepare_ok hp
    cases hgiven
    exact .inr ⟨full, hres, .inr ⟨f, host, hp, Service.not_bars_of_openAs hopen,
      .inl ⟨Int.le_antisymm hissued.2 hlast, hanswer⟩⟩⟩
  · obtain ⟨full, hres, hbars, hopened⟩ := Service.opened_of_prepare hp ht
    obtain ⟨hlast, rfl, -⟩ := DescriptorTable.open?_eq_some_iff.mp ht
    refine .inr ⟨full, hres, .inr ⟨f, host, hp, hbars,
      .inr ⟨hlast, hanswer ▸ hissued.next_nonneg, ?_⟩⟩⟩
    rw [show r.answer = _ from hanswer, show r.state = _ from hstate]
    exact hopened

/-- **What an open does and how it fails**, in every state that a history leads to. A path that the
scope refuses is answered by -13. Of any other, an open that succeeds makes a descriptor under the
mode and leaves the host as the mode does; one that fails is answered by the code of the mode, which
is what answers a path that the mode cannot be used on. Only with no number left is there another
answer: every open that would succeed with one is answered by -5 then, and the others as ever. -/
theorem Hub.open_exact (settings : Settings) (host : Host) (history : List HubEvent) (c : Session)
    (path : String) (mode : OpenMode) :
    let s := serviceAfter settings host history
    let r := c.openPath s (some path) mode
    (∀ e, s.scope.resolve s.host path = .error e → r.answer = -13) ∧
    ∀ full, s.scope.resolve s.host path = .ok full →
      (0 ≤ r.answer → s.Opened full mode r.answer r.state.2) ∧
      (s.table.last < maxDescriptor → r.answer < 0 → r.answer = s.host.openFailure full mode) ∧
      (s.table.last = maxDescriptor →
        ∀ t : DescriptorTable OpenFile, t.last < maxDescriptor →
          let other := c.openPath { s with table := t } (some path) mode
          (other.answer = t.last + 1 ∧ s.host.bars full mode = false ∧ r.answer = -5) ∨
          (other.answer = s.host.openFailure full mode ∧
            r.answer = s.host.openFailure full mode)) ∧
      (s.host.bars full mode = true → r.answer = s.host.openFailure full mode) := by
  intro s r
  have hissued : s.Issued := issued_serviceAfter settings host history
  rcases c.openPath_outcome hissued path mode with ⟨e, hres, hanswer⟩ | ⟨full, hres, houtcome⟩
  · refine ⟨fun _ _ => hanswer, fun full hfull => ?_⟩
    rw [hres] at hfull
    cases hfull
  refine ⟨fun e he => ?_, fun full' hfull => ?_⟩
  · rw [hres] at he
    cases he
  rw [hres] at hfull
  cases hfull
  have hsame : ∀ t : DescriptorTable OpenFile,
      { s with table := t }.prepare (some path) mode = s.prepare (some path) mode :=
    fun t => Service.prepare_congr rfl rfl (some path) mode
  rcases houtcome with ⟨e, log, hp, hcode, hanswer⟩ | ⟨f, host, hp, hbars, houtcome⟩
  · have hfails : r.answer = s.host.openFailure full mode := hanswer.trans hcode
    refine ⟨fun hnonneg => ?_, fun _ _ => hfails, fun _ t _ => .inr ⟨?_, hfails⟩, fun _ => hfails⟩
    · have hneg := e.code_neg
      rw [← show r.answer = e.code from hanswer] at hneg
      exact absurd hnonneg (Int.not_le.mpr hneg)
    · exact (Session.openPath_of_refused ((hsame t).trans hp)).trans hcode
  have hbarred : s.host.bars full mode = true → r.answer = s.host.openFailure full mode := by
    intro hbarred
    rw [hbars] at hbarred
    cases hbarred
  rcases houtcome with ⟨hlast, hanswer⟩ | ⟨hlast, hnonneg, hopened⟩
  · refine ⟨fun hnonneg => ?_, fun hlt => ?_, fun _ t ht => .inl ⟨?_, hbars, hanswer⟩, hbarred⟩
    · rw [show r.answer = -5 from hanswer] at hnonneg
      exact absurd hnonneg (by decide)
    · exact absurd hlast (Int.ne_of_lt hlt)
    · obtain ⟨hother, -⟩ := Session.openPath_of_prepare (c := c) ((hsame t).trans hp) ht
      exact hother
  · exact ⟨fun _ => hopened, fun _ hneg => absurd hneg (Int.not_lt.mpr hnonneg),
      fun hnone => absurd hnone (Int.ne_of_lt hlast), hbarred⟩

/-- The same exclusive creation meets the file `f` on one host, and makes it on the other. -/
theorem Hub.open_exact_fourBytes :
    let c : Session := ⟨1, []⟩
    let s := serviceAfter ⟨none, 4, false⟩ Host.fourBytes []
    let s' := serviceAfter ⟨none, 4, false⟩ Host.withoutF []
    (c.openPath s (some "f") .createNew).answer = -17 ∧
      (c.openPath s' (some "f") .createNew).answer = 1001 ∧
      s'.Opened (Path.ofString "f") .createNew 1001
        (c.openPath s' (some "f") .createNew).state.2 := by
  intro c s s'
  have hbars : s.host.bars (Path.ofString "f") .createNew = true := by
    have hfound := Host.found?_eq_some_iff.mpr ⟨_, Host.lookup_fourBytes (.inl rfl)⟩
    show ((Host.fourBytes.found? (Path.ofString "f")).isSome || _) = true
    rw [hfound]
    rfl
  have hfailure : s.host.openFailure (Path.ofString "f") .createNew = -17 := if_pos hbars
  have hcreated : (c.openPath s' (some "f") .createNew).answer = 1001 := by
    show (Session.openPath c s' (some "f") .createNew).answer = 1001
    unfold Session.openPath Service.openPath
    rw [Service.prepare_withoutF rfl rfl]
    rfl
  obtain ⟨-, hmeets⟩ := open_exact ⟨none, 4, false⟩ Host.fourBytes [] c "f" .createNew
  obtain ⟨-, hopens⟩ := open_exact ⟨none, 4, false⟩ Host.withoutF [] c "f" .createNew
  obtain ⟨-, -, -, hbarred⟩ := hmeets (Path.ofString "f") rfl
  obtain ⟨hopened, -⟩ := hopens (Path.ofString "f") rfl
  refine ⟨(hbarred hbars).trans hfailure, hcreated, ?_⟩
  have hnonneg : 0 ≤ (c.openPath s' (some "f") .createNew).answer := hcreated ▸ (by decide)
  exact hcreated ▸ hopened hnonneg

/-- **An open may fail by -5 under any mode**: session 1 opens the file `f` for reading until no
number is left. -/
theorem Hub.not_every_open_fails_by_mode :
    ¬ ∀ (settings : Settings) (host : Host) (history : List HubEvent) (c : Session) (path : String)
      (mode : OpenMode) (full : Path),
      let s := serviceAfter settings host history
      let r := c.openPath s (some path) mode
      s.scope.resolve s.host path = .ok full → r.answer < 0 →
        r.answer = s.host.openFailure full mode := by
  intro h
  let b := ((Hub.start ⟨none, 4, false⟩ Host.fourBytes).answer.step .join).2
  have hsession : (b.session? 1).isSome := rfl
  have hprepare := Service.prepare_fourBytes (s := b.service) rfl rfl (.inl rfl)
  -- as many numbers as there are above the first 1000
  obtain ⟨k, hk⟩ : ∃ k : Nat, descriptorBase + k = maxDescriptor := ⟨2147482647, by decide⟩
  obtain ⟨-, hadvanced⟩ := run_again hsession hprepare k (Int.le_of_eq hk)
  let history : List HubEvent :=
    .join :: List.replicate k (.call 1 (.openPath (some "f") OpenMode.read.toRaw))
  let s : Service := serviceAfter ⟨none, 4, false⟩ Host.fourBytes history
  have hlast : s.table.last = maxDescriptor := hadvanced.last.trans hk
  have hscope : s.scope = .everything := hadvanced.scope
  have hhost : s.host = Host.fourBytes := hadvanced.host
  obtain ⟨hanswer, -⟩ := Session.openPath_of_exhausted (c := ⟨1, []⟩)
    (Service.prepare_fourBytes hscope hhost (.inl rfl)) (Int.le_of_eq hlast.symm)
  have hresolve : s.scope.resolve s.host "f" = .ok (Path.ofString "f") := by
    rw [hscope]
    rfl
  have hfails := h ⟨none, 4, false⟩ Host.fourBytes history ⟨1, []⟩ "f" .read (Path.ofString "f")
    hresolve (hanswer ▸ by decide)
  have hmode : (-5 : Int) = -2 := hanswer.symm.trans hfails
  exact absurd hmode (by decide)

end Telefile
