import Telefile.Proofs.Events
import Telefile.Proofs.Files.Writing
import Telefile.Proofs.Lookup.Ends
import Telefile.Proofs.Samples

/-!
# Exclusive creation is a lock

Once a path has been opened, it cannot be created exclusively before the entry that it names has
been removed. For what clients do takes links away and adds none, and directories stay: so the path
keeps its meaning up to its last name, or leads nowhere.

* `Host.Tended` — what clients make of a tree; `Hub.tended_run` — over histories;
* `Hub.removed_of_gone` — an entry that has gone was removed by an unlink;
* `Service.names_of_prepare`, `Service.vacant_of_createNew` — what an open and an exclusive creation
  find;
* **`Hub.exclusive_creation_locks`** — between an open of a path and its exclusive creation there is
  an unlink.
-/

namespace Telefile

/-! ## 1. What clients make of a tree -/

/-- Directories stay, and neither directories nor links come. -/
structure Host.Tended (h h' : Host) : Prop where
  directory : ∀ {l p t}, h.entryAt? l = some (.directory p t) →
    ∃ t', h'.entryAt? l = some (.directory p t')
  ways : h'.WaysIn h
  cwd : h'.cwd = h.cwd

namespace Host

theorem Tended.refl (h : Host) : Tended h h where
  directory he := ⟨_, he⟩
  ways := ⟨fun he => ⟨_, he⟩, fun he => he⟩
  cwd := rfl

theorem Tended.trans {h h' h'' : Host} (hfirst : Tended h h') (hsecond : Tended h' h'') :
    Tended h h'' where
  directory he := by
    obtain ⟨t', he'⟩ := hfirst.directory he
    exact hsecond.directory he'
  ways := hsecond.ways.trans hfirst.ways
  cwd := hsecond.cwd.trans hfirst.cwd

/-- Every change lies beneath the top of the tree. -/
theorem Confined.tended {h h' : Host} (hc : Confined [] h h') : Tended h h' :=
  ⟨hc.directory, hc.ways, hc.cwd⟩

end Host

namespace Hub

/-- An event leaves an entry that is no directory, or removes it by an unlink. -/
theorem entryAt?_step (b : Hub) (e : HubEvent) {l : Location} {x : Entry}
    (hx : b.service.host.entryAt? l = some x) (hfile : x.isDir = false) :
    (b.step e).2.service.host.entryAt? l = some x ∨
      (∃ i path, e = .call i (.unlink path)) ∧ (b.step e).1 = some (.status 0) ∧
        (b.step e).2.service.host.entryAt? l = none := by
  -- what is touched is a directory
  have htouch : ∀ (h : Host) (dir : Location), h.entryAt? l = some x →
      (h.touch dir).entryAt? l = some x := by
    intro h dir hx
    rcases h.entryAt?_touch dir l with hsame | ⟨p, t, rfl, hdir, -⟩
    · exact hsame.trans hx
    · obtain rfl := Option.some.inj (hx.symm.trans hdir)
      cases hfile
  have htends := b.tends_step e
  generalize (b.step e).2.service.host = after at htends ⊢
  generalize (b.step e).1 = r at htends ⊢
  cases htends with
  | same => exact .inl hx
  | @added i path raw r dir n hvacant =>
    refine .inl (htouch _ dir ?_)
    have hne : l ≠ dir ++ [n] := by
      rintro rfl
      rw [hvacant] at hx
      cases hx
    rw [Host.entryAt?_addFile, if_neg hne]
    exact hx
  | @removed i path m y hy hyfile =>
    by_cases hm : l = m
    · subst hm
      refine .inr ⟨⟨i, path, rfl⟩, rfl, ?_⟩
      rcases (b.service.host.eraseEntry l).entryAt?_touch l.dropLast l with
        hsame | ⟨p, t, hself, hdir, _⟩
      · rw [hsame, Host.entryAt?_eraseEntry, if_pos rfl]
      · rw [← hself, Host.entryAt?_eraseEntry, if_pos rfl] at hdir
        cases hdir
    · refine .inl (htouch _ _ ?_)
      rw [Host.entryAt?_eraseEntry, if_neg hm]
      exact hx
  | @written i fd data r hd hh ha =>
    obtain ⟨files, hfiles⟩ := b.service.host.writeAt_files hd.object hd.cursor data
    rw [hfiles]
    exact .inl hx

/-- An event tends the tree. -/
theorem tended_step (b : Hub) (e : HubEvent) :
    Host.Tended b.service.host (b.step e).2.service.host := by
  have htends := b.tends_step e
  have hrefl := Host.Confined.refl [] b.service.host
  generalize (b.step e).2.service.host = after at htends ⊢
  generalize (b.step e).1 = r at htends
  cases htends with
  | same => exact .refl _
  | added hvacant => exact (hrefl.createFile List.nil_prefix hvacant).tended
  | removed hx hfile =>
    exact ((hrefl.eraseEntry List.nil_prefix hx hfile).touch List.nil_prefix).tended
  | @written i fd data r hd hh ha =>
    obtain ⟨files, hfiles⟩ := b.service.host.writeAt_files hd.object hd.cursor data
    rw [hfiles]
    exact ⟨fun he => ⟨_, he⟩, ⟨fun he => ⟨_, he⟩, fun he => he⟩, rfl⟩

/-- **A history tends the tree.** -/
theorem tended_run (es : List HubEvent) :
    ∀ b : Hub, Host.Tended b.service.host (b.run es).2.service.host := by
  induction es with
  | nil => exact fun b => .refl _
  | cons e es ih => exact fun b => (b.tended_step e).trans (ih (b.step e).2)

/-- **An entry that has gone over a history** was removed by an unlink that succeeded. -/
theorem removed_of_gone {l : Location} {x : Entry} (hfile : x.isDir = false) (es : List HubEvent) :
    ∀ {b : Hub}, b.service.host.entryAt? l = some x →
      (b.run es).2.service.host.entryAt? l = none →
      ∃ before after i path, es = before ++ .call i (.unlink path) :: after ∧
        let u := (b.run before).2
        let r := u.step (.call i (.unlink path))
        r.1 = some (.status 0) ∧ u.service.host.entryAt? l = some x ∧
          r.2.service.host.entryAt? l = none := by
  induction es with
  | nil =>
    intro b hx hgone
    rw [show (b.run []).2 = b from rfl, hx] at hgone
    cases hgone
  | cons e es ih =>
    intro b hx hgone
    rcases b.entryAt?_step e hx hfile with hkept | ⟨⟨i, path, rfl⟩, hanswer, hnone⟩
    · obtain ⟨before, after, i, path, rfl, hremoved⟩ := ih hkept hgone
      exact ⟨e :: before, after, i, path, rfl, hremoved⟩
    · exact ⟨[], es, i, path, rfl, hanswer, hx, hnone⟩

end Hub

/-! ## 2. What is opened, and what is created -/

namespace Service

variable {s : Service} {given : String} {f : OpenFile} {after : Host}

/-- A path that was opened names an entry. -/
theorem names_of_prepare {mode : OpenMode} (hp : s.prepare (some given) mode = .ok (f, after)) :
    ∃ full l x, s.scope.resolve s.host given = .ok full ∧
      after.lookup .entry full = .ok (l, x) := by
  obtain ⟨_, full, hgiven, hres, hopen⟩ := prepare_ok hp
  cases hgiven
  cases opening_of_openAs hopen with
  | found hl _ _ =>
    obtain ⟨m, x, hm⟩ := Host.lookup_entry_of_follow hl
    exact ⟨full, m, x, hres, hm⟩
  | created harrive hvacant =>
    obtain ⟨m, x, hm⟩ := Host.lookup_entry_of_follow (Host.lookup_addFile harrive hvacant)
    exact ⟨full, m, x, hres, hm⟩

/-- A path that was created exclusively leads to a vacant name. -/
theorem vacant_of_createNew (hp : s.prepare (some given) .createNew = .ok (f, after)) :
    ∃ full dir n, s.scope.resolve s.host given = .ok full ∧
      s.host.arrive (.create true) full = .ok (.vacant dir n) := by
  obtain ⟨_, full, hgiven, hres, hopen⟩ := prepare_ok hp
  cases hgiven
  cases hl : s.host.lookup .follow full with
  | ok r =>
    rw [hl] at hopen
    cases hopen
  | error cause =>
    rw [hl] at hopen
    unfold openAs at hopen
    dsimp only [Except.toOption, Option.map_none] at hopen
    split at hopen
    · next o host' hcreate =>
      rcases Host.createPath_ok hcreate with ⟨-, l, e, hfound, -⟩ | ⟨dir, n, harrive, -⟩
      · rw [hl] at hfound
        cases hfound
      · exact ⟨full, dir, n, hres, harrive⟩
    · cases hopen
    · cases hopen

end Service

/-- What a scope makes of a path does not depend on the host, if it lets it pass. -/
theorem Scope.resolve_unique {s : Scope} {h h' : Host} {given : String} {p p' : Path}
    (hp : s.resolve h given = .ok p) (hp' : s.resolve h' given = .ok p') : p = p' := by
  have hpassed : ∀ {test : Bool} {full q : Path} {e : FileError},
      (if test = true then Except.ok full else Except.error e) = Except.ok q → full = q := by
    intro test full q e hq
    cases test with
    | false => cases hq
    | true => exact Except.ok.inj hq
  unfold resolve resolveWith at hp hp'
  cases s with
  | everything => exact Except.ok.inj (hp.symm.trans hp')
  | beneath root =>
    dsimp only at hp hp'
    rcases hfold : (Path.ofString given).fold? with _ | _ | ⟨n, names⟩ <;> rw [hfold] at hp hp'
    · cases hp
    · exact Except.ok.inj (hp.symm.trans hp')
    · exact (hpassed hp).symm.trans (hpassed hp')

/-- An open that answered a descriptor, as the service sees it. -/
theorem Hub.prepare_of_open {b : Hub} {i raw : Nat} {path : Option String} {fd : Fd}
    (hanswer : (b.call i (.openPath path raw)).answer = some (.status fd)) (hfd : 0 ≤ fd) :
    ∃ mode f, OpenMode.ofRaw? raw = .ok mode ∧ b.service.prepare path mode =
      .ok (f, (b.call i (.openPath path raw)).state.service.host) := by
  cases hc : b.session? i with
  | none =>
    unfold call at hanswer
    rw [hc] at hanswer
    cases hanswer
  | some c =>
    have hstep := step_call hc (.openPath path raw)
    have hresponse : some (c.answer b.service (.openPath path raw)).answer = some (.status fd) :=
      (congrArg Prod.fst hstep).symm.trans hanswer
    have hstate : (b.call i (.openPath path raw)).state.service =
        (c.answer b.service (.openPath path raw)).state.2 :=
      congrArg (fun r => r.2.service) hstep
    rw [hstate]
    cases hraw : OpenMode.ofRaw? raw with
    | error u =>
      rw [c.answer_openPath_of_error b.service path hraw] at hresponse
      cases hresponse
      exact absurd hfd (by decide)
    | ok mode =>
      rw [c.answer_openPath_of_ok b.service path hraw] at hresponse ⊢
      unfold Session.respond at hresponse ⊢
      dsimp only at hresponse ⊢
      rcases c.openPath_cases b.service path mode with ⟨e, -, -, hcode, -⟩ |
        ⟨-, -, -, -, hcode, -⟩ | ⟨f, host, q, table, hp, -, -, hafter⟩
      · rw [hcode] at hresponse
        cases hresponse
        exact absurd hfd (Int.not_le.mpr e.code_neg)
      · rw [hcode] at hresponse
        cases hresponse
        exact absurd hfd (by decide)
      · rw [hafter]
        exact ⟨mode, f, rfl, hp⟩

/-! ## 3. The lock -/

/-- **Exclusive creation is a lock.** A session opens a path, under any mode; sessions do what they
like; and then the path is created exclusively. So one of them has unlinked the entry that the path
named when it was opened, under its last name, in between. -/
theorem Hub.exclusive_creation_locks {b : Hub} {i i' raw : Nat} {given : String} {fd fd' : Fd}
    {es : List HubEvent}
    (hopen : (b.call i (.openPath (some given) raw)).answer = some (.status fd)) (hfd : 0 ≤ fd)
    (hcreate : ((((b.call i (.openPath (some given) raw)).state.run es).2.call i'
      (.openPath (some given) OpenMode.createNew.toRaw)).answer = some (.status fd')))
    (hfd' : 0 ≤ fd') :
    let opened := (b.call i (.openPath (some given) raw)).state
    ∃ full dir n x, b.service.scope.resolve b.service.host given = .ok full ∧
      full.names.getLast? = some n ∧
      opened.service.host.lookup .entry full = .ok (dir ++ [n], x) ∧
      ∃ before after j path, es = before ++ .call j (.unlink path) :: after ∧
        let u := (opened.run before).2
        let r := u.step (.call j (.unlink path))
        r.1 = some (.status 0) ∧ u.service.host.entryAt? (dir ++ [n]) = some x ∧
          r.2.service.host.entryAt? (dir ++ [n]) = none := by
  intro opened
  obtain ⟨mode, f, -, hp⟩ := prepare_of_open hopen hfd
  obtain ⟨mode', f', hmode', hp'⟩ := prepare_of_open hcreate hfd'
  rw [OpenMode.ofRaw?_toRaw] at hmode'
  cases hmode'
  obtain ⟨full, l, x, hres, hl⟩ := Service.names_of_prepare hp
  obtain ⟨full', dir, n, hres', harrive⟩ := Service.vacant_of_createNew hp'
  -- both opens speak of the same path of the host
  have hscope : (opened.run es).2.service.scope = b.service.scope :=
    keeps_run (Service.keeps_scope _) es
      (keeps_step (Service.keeps_scope _) (.call i (.openPath (some given) raw)) rfl)
  rw [hscope] at hres'
  obtain rfl := Scope.resolve_unique hres hres'
  have htended := tended_run es opened
  obtain ⟨hname, rfl⟩ := Host.location_of_vacant htended.ways htended.cwd harrive hl
  have hx := Host.entryAt?_of_lookup hl
  have hgone : (opened.run es).2.service.host.entryAt? (dir ++ [n]) = none :=
    (Host.arrive_eq_ok_iff.mp harrive).2.vacant_entry rfl
  have hfile : x.isDir = false := by
    refine Bool.eq_false_iff.mpr fun hdir => ?_
    obtain ⟨p, t, rfl⟩ := Host.isDirectory_of_isDir hdir
    obtain ⟨t', hstill⟩ := htended.directory hx
    rw [hgone] at hstill
    cases hstill
  exact ⟨full, dir, n, x, hres, hname, hl, removed_of_gone hfile es hx hgone⟩

/-- Session 1 opens `f` and unlinks it, and session 2 creates it exclusively. -/
theorem Hub.exclusive_creation_locks_unlinked :
    let b := ((Hub.start ⟨none, 4, false⟩ Host.fourBytes).answer.run [.join, .join]).2
    let es : List HubEvent := [.call 1 (.unlink (some "f"))]
    let opened := (b.call 1 .openF).state
    (b.call 1 .openF).answer = some (.status 1001) ∧
      ((opened.run es).2.call 2 (.openPath (some "f") OpenMode.createNew.toRaw)).answer =
        some (.status 1002) ∧
      ∃ full dir n x, b.service.scope.resolve b.service.host "f" = .ok full ∧
        full.names.getLast? = some n ∧
        opened.service.host.lookup .entry full = .ok (dir ++ [n], x) ∧
        ∃ before after j path, es = before ++ .call j (.unlink path) :: after ∧
          let u := (opened.run before).2
          let r := u.step (.call j (.unlink path))
          r.1 = some (.status 0) ∧ u.service.host.entryAt? (dir ++ [n]) = some x ∧
            r.2.service.host.entryAt? (dir ++ [n]) = none := by
  intro b es opened
  have hlast : (1000 : Int) < 2147483647 := by decide
  have hc : b.session? 1 = some ⟨1, []⟩ := rfl
  have hstep := step_openF hc rfl rfl hlast
  have hopen : (b.call 1 .openF).answer = some (.status 1001) := congrArg Prod.fst hstep
  have hopened : opened = ⟨b.service.openedF, b.sessions.insert 1 ⟨1, [1001]⟩⟩ :=
    congrArg Prod.snd hstep
  have hunlinked : (opened.run es).2 =
      ⟨{ b.service.openedF with host := Host.withoutF }, opened.sessions⟩ := by
    have hunlink := Service.unlink_fourBytes (s := b.service.openedF) rfl rfl
    rw [hopened]
    show (⟨(b.service.openedF.unlink (some "f")).state, _⟩ : Hub) = _
    rw [hunlink]
    rfl
  have hcreate : ((opened.run es).2.call 2
      (.openPath (some "f") OpenMode.createNew.toRaw)).answer = some (.status 1002) := by
    rw [hunlinked, hopened]
    show some ((⟨2, []⟩ : Session).answer { b.service.openedF with host := Host.withoutF }
      (.openPath (some "f") OpenMode.createNew.toRaw)).answer = _
    rw [Session.answer_openPath_of_ok _ _ _ (OpenMode.ofRaw?_toRaw .createNew)]
    unfold Session.respond Session.openPath Service.openPath
    rw [Service.prepare_withoutF rfl rfl]
    rfl
  exact ⟨hopen, hcreate, exclusive_creation_locks hopen (by decide) hcreate (by decide)⟩

end Telefile
