import Telefile.Proofs.Directories.Listings
import Telefile.Proofs.Files.Exclusive
import Telefile.Proofs.Standing

/-!
# A directory descriptor never changes directory

A descriptor of a directory holds a path, and the path is looked up again for every listing. But
directories stay, and what clients do takes links away and adds none: so whatever the path leads to
later on, if that is a directory, it led to the same one when it was opened. Where a link on the way
has gone, the path leads nowhere, or to a file.

* `Hub.OpensDirectory` — an event opens a directory as a descriptor; `Hub.directory_step` — where a
  live descriptor of a directory comes from; `Hub.opened_of_live` — over a history;
* `Service.lists_same` — what is listed later on;
* **`Hub.directory_identity`** — a live descriptor lists the directory that it was opened on, or
  fails.
-/

namespace Telefile

/-! ## 1. Where a descriptor of a directory comes from -/

/-- The event opens the directory at `l` as `fd`: the scope makes the path `p` of a client's, and
that leads to `l`. -/
structure Hub.OpensDirectory (b : Hub) (e : HubEvent) (fd : Fd) (p : Path) (l : Location) :
    Prop where
  opens : ∃ id given raw, e = .call id (.openPath (some given) raw) ∧
    b.service.scope.resolve b.service.host given = .ok p
  answered : (b.step e).1 = some (.status fd)
  leads : ∃ perms t, b.service.host.lookup .follow p = .ok (l, .directory perms t)

/-- What is opened as a directory is one. -/
theorem Service.directory_of_prepare {s : Service} {path : Option String} {mode : OpenMode}
    {p : Path} {after : Host} (hp : s.prepare path mode = .ok (.directory p, after)) :
    ∃ given l perms t, path = some given ∧ s.scope.resolve s.host given = .ok p ∧
      s.host.lookup .follow p = .ok (l, .directory perms t) := by
  obtain ⟨given, full, hgiven, hres, hopen⟩ := prepare_ok hp
  generalize hf : OpenFile.directory p = f at hopen
  cases opening_of_openAs hopen with
  | @found f l e hl hstands hpath =>
    subst hf
    obtain rfl : p = full := hpath
    obtain ⟨perms, t, rfl⟩ := Host.isDirectory_of_isDir hstands
    exact ⟨given, l, perms, t, hgiven, hres, hl⟩
  | created _ _ => cases hf

namespace Hub

variable {b : Hub} {fd : Fd} {p : Path}

/-- **A descriptor of a directory** stood for it before an event, or the event has opened it. -/
theorem directory_step (e : HubEvent)
    (hl : (b.step e).2.service.table.lookup fd = some (.directory p)) :
    b.service.table.lookup fd = some (.directory p) ∨ ∃ l, b.OpensDirectory e fd p l := by
  rcases stands_step e hl with hkept | ⟨hanswer, id, path, raw, mode, after, rfl, -, hp⟩
  · cases hkept with
    | same hbefore => exact .inl hbefore
    | moved _ hf => cases hf
  · obtain ⟨given, l, perms, t, rfl, hres, hleads⟩ := Service.directory_of_prepare hp
    exact .inr ⟨l, ⟨id, given, raw, rfl, hres⟩, hanswer, perms, t, hleads⟩

/-- **A live descriptor of a directory** has stood for it over a whole history, or an event of the
history has opened it, and it has stood for it since. -/
theorem opened_of_live (es : List HubEvent) :
    ∀ {b : Hub}, (b.run es).2.service.table.lookup fd = some (.directory p) →
      (∀ between, between <+: es →
        (b.run between).2.service.table.lookup fd = some (.directory p)) ∨
      ∃ before e after l, es = before ++ e :: after ∧
        (b.run before).2.OpensDirectory e fd p l ∧ ∀ between, between <+: after →
          (((b.run before).2.step e).2.run between).2.service.table.lookup fd =
            some (.directory p) := by
  induction es with
  | nil =>
    intro b hl
    refine .inl fun between hbetween => ?_
    obtain rfl := List.prefix_nil.mp hbetween
    exact hl
  | cons e es ih =>
    intro b hl
    rcases ih (b := (b.step e).2) hl with hstood | ⟨before, e', after, l, rfl, hopens, hstood⟩
    · rcases directory_step e (hstood [] List.nil_prefix) with hbefore | ⟨l, hopens⟩
      · refine .inl fun between hbetween => ?_
        rcases List.prefix_cons_iff.mp hbetween with rfl | ⟨more, rfl, hmore⟩
        · exact hbefore
        · exact hstood more hmore
      · exact .inr ⟨[], e, es, l, rfl, hopens, hstood⟩
    · exact .inr ⟨e :: before, e', after, l, rfl, hopens, hstood⟩

end Hub

/-! ## 2. What is listed later on -/

/-- **What is listed later on** is the directory that the path led to. -/
theorem Service.lists_same {host : Host} {s : Service} {fd : Fd} {p : Path} {l : Location}
    {perms : Perms} {t : Timestamp} (htended : Host.Tended host s.host)
    (hl : host.lookup .follow p = .ok (l, .directory perms t))
    (hfd : s.table.lookup fd = some (.directory p)) {nbytes base : Nat} {page : DirPage}
    (hpage : s.listDir fd nbytes base = .ok page) :
    ∃ all, s.host.ListsAs l all ∧
      pageOf all nbytes (min nbytes s.settings.maxTransfer) base = .ok page := by
  unfold listDir openFile at hpage
  rw [hfd] at hpage
  dsimp only at hpage
  cases hlisting : listing s.host p with
  | error e =>
    rw [hlisting] at hpage
    cases hpage
  | ok all =>
    rw [hlisting] at hpage
    obtain ⟨m, perms', t', hm, -, rfl⟩ := listing_eq_ok_iff.mp hlisting
    obtain ⟨t'', hearlier⟩ := Host.lookup_transfer htended.ways htended.cwd.symm hm
    obtain rfl : m = l := by
      cases hl.symm.trans hearlier
      rfl
    exact ⟨_, s.host.listsAs_listed m, hpage⟩

namespace Hub

/-! ## 3. The directory behind a descriptor -/

/-- **A directory descriptor never changes directory.** On every tree, beneath a root or without
one, and after every history of requests: a live descriptor of a directory was opened by an event of
the history, when its path led to the directory at `l`. At every time since, that directory is
there, and whoever asks for a page of the descriptor gets one of a listing of just that directory,
or a failure. -/
theorem directory_identity {settings : Settings} {host : Host} {es : List HubEvent} {fd : Fd}
    {p : Path} (hl : ((start settings host).answer.run es).2.service.table.lookup fd =
      some (.directory p)) :
    ∃ before id given raw after l, es = before ++ .call id (.openPath (some given) raw) :: after ∧
      let u := ((start settings host).answer.run before).2
      let opening := u.step (.call id (.openPath (some given) raw))
      opening.1 = some (.status fd) ∧ u.service.scope.resolve u.service.host given = .ok p ∧
      (∃ perms t, u.service.host.lookup .follow p = .ok (l, .directory perms t)) ∧
      ∀ between, between <+: after →
        let v := (opening.2.run between).2.service
        v.table.lookup fd = some (.directory p) ∧
        (∃ perms t, v.host.entryAt? l = some (.directory perms t)) ∧
        ∀ (c : Session) (nbytes base : Nat),
          (∃ code < 0, (c.listDir v fd nbytes base).answer = (code, base, [])) ∨
          ∃ all page, v.host.ListsAs l all ∧
            Service.pageOf all nbytes (min nbytes v.settings.maxTransfer) base = .ok page ∧
            (c.listDir v fd nbytes base).answer =
              ((page.bytes : Int), page.nextBase, page.entries) := by
  rcases opened_of_live es hl with hstood | ⟨before, e, after, l, hsplit, hopens, hstood⟩
  · -- nothing is open at the start
    have hstart := hstood [] List.nil_prefix
    rw [show ((start settings host).answer.run []).2 = (start settings host).answer from rfl,
      lookup_start] at hstart
    cases hstart
  obtain ⟨⟨id, given, raw, rfl, hres⟩, hanswered, perms, t, hleads⟩ := hopens
  refine ⟨before, id, given, raw, after, l, hsplit, ?_⟩
  intro u opening
  refine ⟨hanswered, hres, ⟨perms, t, hleads⟩, fun between hbetween => ?_⟩
  intro v
  have htended : Host.Tended u.service.host v.host :=
    (u.tended_step _).trans (tended_run between opening.2)
  obtain ⟨t', hstays⟩ := htended.directory (Host.entryAt?_of_lookup hleads)
  have hfd := hstood between hbetween
  refine ⟨hfd, ⟨perms, t', hstays⟩, fun c nbytes base => ?_⟩
  rw [Session.answer_listDir]
  cases hpage : v.listDir fd nbytes base with
  | error e => exact .inl ⟨e.code, e.code_neg, rfl⟩
  | ok page =>
    obtain ⟨all, hlists, hpageOf⟩ := Service.lists_same htended hleads hfd hpage
    exact .inr ⟨all, page, hlists, hpageOf, rfl⟩

end Hub

section Linked

/-- A host with a directory `d` and a link `k` to it. -/
def Host.linked : Host :=
  ((Host.fresh [Utf8.encode "srv"] ⟨0, 0⟩ none).setEntry [Utf8.encode "srv", Utf8.encode "d"]
    (.directory .newDirectory ⟨0, 0⟩)).setEntry [Utf8.encode "srv", Utf8.encode "k"]
      (.symlink (Path.ofString "d") ⟨0, 0⟩)

theorem Host.lookup_linked : linked.lookup .follow (Path.ofString "k") =
    .ok ([Utf8.encode "srv", Utf8.encode "d"], .directory .newDirectory ⟨0, 0⟩) := by
  have hpass : linked.pass [Utf8.encode "srv"] = .ok () := rfl
  have hlink : linked.entryAt? ([Utf8.encode "srv"] ++ [Utf8.encode "k"]) =
    some (.symlink (Path.ofString "d") ⟨0, 0⟩) := by decide
  have hdir : linked.entryAt? ([Utf8.encode "srv"] ++ [Utf8.encode "d"]) =
    some (.directory .newDirectory ⟨0, 0⟩) := by decide
  have hd : linked.Walks .follow 39 [Utf8.encode "srv"] false [Utf8.encode "d"]
      (.found ([Utf8.encode "srv"] ++ [Utf8.encode "d"]) (.directory .newDirectory ⟨0, 0⟩)) :=
    .reach hpass ⟨by decide, by decide, by decide, by decide⟩ hdir rfl (.inl rfl)
  have hk : linked.Walks .follow 40 [Utf8.encode "srv"] false [Utf8.encode "k"]
      (.found ([Utf8.encode "srv"] ++ [Utf8.encode "d"]) (.directory .newDirectory ⟨0, 0⟩)) :=
    .link hpass ⟨by decide, by decide, by decide, by decide⟩ hlink (by decide) hd
  exact lookup_eq_ok_iff.mpr (arrive_eq_ok_iff.mpr ⟨by decide, hk⟩)

theorem Service.prepare_linked {s : Service} (hscope : s.scope = .everything)
    (hhost : s.host = Host.linked) : s.prepare (some "k") .read =
      .ok (.directory (Path.ofString "k"), Host.linked) := by
  unfold prepare Scope.resolve Scope.resolveWith
  rw [hscope, hhost]
  dsimp only
  rw [Host.lookup_linked]
  rfl

/-- Session 1 opens the directory `d` by the link `k`, and unlinks the link. -/
theorem Hub.directory_identity_linked :
    let es : List HubEvent := [.join, .call 1 (.openPath (some "k") OpenMode.read.toRaw),
      .call 1 (.unlink (some "k"))]
    let v := ((start ⟨none, 4, false⟩ Host.linked).answer.run es).2.service
    v.table.lookup 1001 = some (.directory (Path.ofString "k")) ∧
      ∃ l, (∃ perms t, v.host.entryAt? l = some (.directory perms t)) ∧
        ∀ (c : Session) (nbytes base : Nat),
          (∃ code < 0, (c.listDir v 1001 nbytes base).answer = (code, base, [])) ∨
          ∃ all page, v.host.ListsAs l all ∧
            Service.pageOf all nbytes (min nbytes v.settings.maxTransfer) base = .ok page ∧
            (c.listDir v 1001 nbytes base).answer =
              ((page.bytes : Int), page.nextBase, page.entries) := by
  intro es v
  let b := ((start ⟨none, 4, false⟩ Host.linked).answer.run [.join]).2
  let r := (⟨1, []⟩ : Session).answer b.service (.openPath (some "k") OpenMode.read.toRaw)
  let opened : Hub := ⟨r.state.2, b.sessions.insert 1 r.state.1⟩
  have hopened : opened.service.table.lookup 1001 = some (.directory (Path.ofString "k")) := by
    have hservice : opened.service = (b.service.openPath (some "k") .read).state := by
      show r.state.2 = _
      rw [show r = _ from Session.answer_openPath_of_ok _ _ _ (OpenMode.ofRaw?_toRaw .read)]
      exact Session.openPath_service _ _ _ _
    rw [hservice]
    unfold Service.openPath
    rw [Service.prepare_linked rfl rfl]
    rfl
  have hlive : v.table.lookup 1001 = some (.directory (Path.ofString "k")) := by
    have hc : b.session? 1 = some ⟨1, []⟩ := rfl
    have hc' : opened.session? 1 = some r.state.1 := Dictionary.get?_insert_self _ _ _
    have hv : v = (opened.service.unlink (some "k")).state := by
      show ((b.step (.call 1 (.openPath (some "k") OpenMode.read.toRaw))).2.step
        (.call 1 (.unlink (some "k")))).2.service = _
      rw [step_call hc]
      show (opened.step (.call 1 (.unlink (some "k")))).2.service = _
      rw [step_call hc']
      rfl
    rcases opened.service.unlink_cases (some "k") with ⟨e, -, hr⟩ | ⟨host, -, hr⟩ <;> rw [hv, hr]
    · exact hopened
    · exact hopened
  obtain ⟨before, id, given, raw, after, l, hsplit, -, -, -, hsince⟩ := directory_identity hlive
  obtain ⟨-, hdirectory, hpages⟩ := hsince after List.prefix_rfl
  have hv : v = ((((start ⟨none, 4, false⟩ Host.linked).answer.run before).2.step
      (.call id (.openPath (some given) raw))).2.run after).2.service := by
    show ((start ⟨none, 4, false⟩ Host.linked).answer.run es).2.service = _
    rw [hsplit, run_append]
    rfl
  rw [← hv] at hdirectory hpages
  exact ⟨hlive, l, hdirectory, hpages⟩

end Linked

end Telefile
