import Telefile.Proofs.Files.Cursors
import Telefile.Proofs.Files.Reading

/-!
# The integrity of files

A file changes only by writes through descriptors that were opened for writing, and a write changes
just the bytes that it is given, where the cursor stands.

* `Hub.Recorded.opens_fresh` — a descriptor is got once, and so under one mode;
  `Hub.Recorded.access_eq` — the access it gives is that of the mode;
* `Hub.file?_step` — an event leaves a file alone, or writes to it;
* `Session.WritesAt`, `Session.writesAt` — what one write does, and what is read back;
  `Session.sameBytes_write_append` — one write after the other;
* **`Hub.byte_integrity`** — all of it, in every state that a history leads to;
  `Hub.byte_integrity_sharing` — two descriptors on one file.
-/

namespace Telefile

/-! ## 1. The mode of a descriptor -/

section Modes

variable {settings : Settings} {host : Host} {notes : List Note} {b : Hub} {fd : Fd}
  {mode mode' : OpenMode} {n : Note}

theorem Note.Opens.mode_eq (h : n.Opens fd mode) (h' : n.Opens fd mode') : mode = mode' := by
  obtain ⟨_, _, rfl⟩ := h
  obtain ⟨_, _, hn⟩ := h'
  have hraw : mode.toRaw = mode'.toRaw := by
    injection hn with hevent
    injection hevent with _ hrequest
    injection hrequest
  have hmode := OpenMode.ofRaw?_toRaw mode
  rw [hraw, OpenMode.ofRaw?_toRaw] at hmode
  exact (Except.ok.inj hmode).symm

theorem Note.Opens.effect_eq (h : n.Opens fd mode) (hfd : 0 ≤ fd) :
    ∃ id, n.effect = .issued id fd := by
  obtain ⟨id, path, rfl⟩ := h
  exact ⟨id, if_pos hfd⟩

namespace Hub

/-- What an open issues was not issued before, and is not live. -/
theorem Recorded.opens_fresh (h : Recorded settings host notes b) {e : HubEvent} (hfd : 0 ≤ fd)
    (hn : Note.Opens fd mode ⟨e, (b.step e).1⟩) :
    (∀ m ∈ notes, ∀ mode', ¬ m.Opens fd mode') ∧ b.service.table.lookup fd = none := by
  obtain ⟨id, heffect⟩ := hn.effect_eq hfd
  obtain ⟨hallows, -⟩ := holdings_step h.issued e
  rw [heffect] at hallows
  obtain ⟨rfl, -⟩ := hallows
  have habove : ¬ b.holdings.last + 1 ≤ b.holdings.last := Int.not_le.mpr (Int.lt_succ _)
  refine ⟨fun m hm mode' hopens => ?_, ?_⟩
  · obtain ⟨id', heffect'⟩ := hopens.effect_eq hfd
    have hmem : .issued id' (b.holdings.last + 1) ∈ effects notes :=
      heffect' ▸ List.mem_map_of_mem hm
    exact habove (h.accounts.known hmem).2
  · refine Option.not_isSome_iff_eq_none.mp fun hlive => ?_
    exact habove (h.accounts.live_le hlive)

/-- **The access of a descriptor** is that of the mode it was opened under. -/
theorem Recorded.access_eq (h : Recorded settings host notes b) :
    ∀ {hd : Handle}, b.service.table.lookup fd = some (.file hd) →
      (∃ n ∈ notes, ∃ mode, n.Opens fd mode) ∧
        ∀ n ∈ notes, ∀ mode, n.Opens fd mode → hd.access = mode.access := by
  induction h with
  | start =>
    intro hd hl
    rw [lookup_start] at hl
    cases hl
  | @event notes b e h ih =>
    intro hd hl
    have hfd := (h.event e).live_nonneg hl
    cases traced_step hfd e hl with
    | opened hn haccess _ =>
      obtain ⟨hsole, -⟩ := h.opens_fresh hfd hn
      refine ⟨⟨_, List.mem_append_right _ List.mem_cons_self, _, hn⟩, fun m hm mode' hopens => ?_⟩
      rcases List.mem_append.mp hm with hm | hm
      · exact absurd hopens (hsole m hm mode')
      · rw [List.mem_singleton.mp hm] at hopens
        rw [haccess, hn.mode_eq hopens]
    | kept hl' haccess _ _ =>
      obtain ⟨⟨m, hm, hopened⟩, hall⟩ := ih hl'
      refine ⟨⟨m, List.mem_append_left _ hm, hopened⟩, fun m hm mode' hopens => ?_⟩
      rcases List.mem_append.mp hm with hm | hm
      · rw [haccess, hall m hm mode' hopens]
      · -- what is live has not just been opened
        rw [List.mem_singleton.mp hm] at hopens
        rw [(h.opens_fresh hfd hopens).2] at hl'
        cases hl'
  | outside other _ ih => exact ih

end Hub

end Modes

/-! ## 2. What leaves a file alone -/

namespace Host

variable {h : Host} {id : FileId} {f : File}

theorem file?_addFile (hf : h.file? id = some f) (l : Location) :
    (h.addFile l).2.file? id = some f := by
  obtain ⟨hlt, -⟩ := List.getElem?_eq_some_iff.mp hf
  exact (List.getElem?_append_left hlt).trans hf

theorem file?_touch (h : Host) (l : Location) (id : FileId) :
    (h.touch l).file? id = h.file? id := by
  unfold file?
  rw [files_touch]

/-- A write leaves alone what it is not given, and without bytes it leaves all alone. -/
theorem file?_writeAt {o : FileObject} {b : List UInt8} (pos : Nat)
    (hother : o ≠ .file id ∨ b = []) : (h.writeAt o pos b).2.2.file? id = h.file? id := by
  rcases hother with hother | rfl
  · rcases (h.writeAt_eq o pos b).2 with hsame | ⟨q, rfl, hover⟩
    · rw [hsame]
    · rw [hover]
      have hq : q ≠ id := fun hq => hother (congrArg FileObject.file hq)
      unfold overwrite
      split
      · rfl
      · exact List.getElem?_set_ne hq
  · rfl

end Host

/-- **An event leaves a file alone**, or it is a write of some bytes to the file, through what was
opened for writing. -/
theorem Hub.file?_step (b : Hub) (e : HubEvent) {id : FileId} {f : File}
    (hf : b.service.host.file? id = some f) :
    (b.step e).2.service.host.file? id = some f ∨
      ∃ i fd D hd, e = .call i (.write fd D) ∧ D ≠ [] ∧
        b.service.table.lookup fd = some (.file hd) ∧ hd.object = .file id ∧
        hd.access = .readWrite := by
  have htends := b.tends_step e
  generalize (b.step e).2.service.host = after at htends ⊢
  generalize (b.step e).1 = r at htends
  cases htends with
  | same => exact .inl hf
  | added hvacant =>
    rw [Host.file?_touch]
    exact .inl (Host.file?_addFile hf _)
  | removed hx hfile =>
    rw [Host.file?_touch]
    exact .inl hf
  | @written i fd D r hd hh ha =>
    by_cases hthis : hd.object = .file id ∧ D ≠ []
    · exact .inr ⟨i, fd, D, hd, rfl, hthis.2, Service.handle_ok hh, hthis.1, ha⟩
    · rw [Host.file?_writeAt]
      · exact .inl hf
      · by_cases hD : D = []
        · exact .inr hD
        · exact .inl fun hid => hthis ⟨hid, hD⟩

/-! ## 3. One write -/

/-- What a write of `D` does through the descriptor `fd`, behind which there is the file `id` with
the bytes `F`. What fits of `D` is all of it, or what stands before the size limit of the host. -/
structure Session.WritesAt (c : Session) (s : Service) (fd : Fd) (h : Handle) (id : FileId)
    (F D : List UInt8) : Prop where
  /-- The number of bytes, or that the write was stopped. -/
  answer : (c.write s fd D).answer =
    if s.host.fitted h.cursor D = D then (D.length : Int) else -16
  /-- If nothing fits, or nothing is to be written, nothing changes. -/
  nothing : s.host.fitted h.cursor D = [] → (c.write s fd D).state = (c, s)
  /-- Else what fits lies in the file, and the cursor stands behind it. -/
  laid : s.host.fitted h.cursor D ≠ [] →
    s.Laid fd h id F (s.host.fitted h.cursor D) (c.write s fd D).state.2
  /-- Later, as long as the file is the same, any session may seek through any descriptor of it to
  where the write began, -/
  sought : ∀ (s' : Service) (c' : Session) (q : Fd) (g : Handle),
    s'.table.lookup q = some (.file g) → g.object = .file id →
    (h.cursor : Int) ≤ Service.maxPosition → (c'.seek s' q h.cursor .start).answer = h.cursor
  /-- and then reads back what went in, in as many reads as it takes. -/
  readBack : ∀ (s' : Service) (c' : Session) (q : Fd) (g : Handle) (offset : Int)
    (whence : Whence), s'.host.file? id = (c.write s fd D).state.2.host.file? id →
    s'.table.lookup q = some (.file g) → g.object = .file id →
    (c'.seek s' q offset whence).answer = h.cursor →
    ∀ k, (s.host.fitted h.cursor D).length ≤ k * s'.readCap →
      (c'.readAll (c'.seek s' q offset whence).state.2 q
        (missing s'.readCap (s.host.fitted h.cursor D).length k)).1 = s.host.fitted h.cursor D

namespace Session

variable {s : Service} {fd : Fd} {h : Handle} {id : FileId} {f : File}

/-- A seek that answers a position has moved the cursor there, and nothing else. -/
theorem seek_state (c : Session) {q : Fd} {g : Handle} {offset : Int} {whence : Whence} {pos : Nat}
    (hl : s.table.lookup q = some (.file g)) (hid : g.object = .file id)
    (hanswer : (c.seek s q offset whence).answer = pos) :
    (c.seek s q offset whence).state.2 = s.moveCursor q g pos := by
  have hanswer : codeOfCount (s.seek q offset whence).answer = pos := hanswer
  show (s.seek q offset whence).state = _
  rcases s.seek_cases q offset whence with ⟨e, hr⟩ | ⟨g', p, hg, hr⟩ <;> rw [hr] at hanswer ⊢
  · have hneg : e.code = pos := hanswer
    exact absurd (Int.natCast_nonneg pos) (Int.not_le.mpr (hneg ▸ e.code_neg))
  · obtain rfl : g = g' := Except.ok.inj ((Service.handle_of_file hl).symm.trans hg)
    have hpos : ((Host.settle g.object p : Nat) : Int) = pos := hanswer
    rw [Service.settle_file hid] at hpos
    rw [Int.ofNat.inj hpos]

theorem seek_start (c : Session) {q : Fd} {g : Handle} {pos : Nat}
    (hl : s.table.lookup q = some (.file g)) (hid : g.object = .file id)
    (hmax : (pos : Int) ≤ Service.maxPosition) : (c.seek s q pos .start).answer = pos := by
  have hzero : ((0 : Nat) : Int) ≤ Service.maxPosition := by decide
  have htarget : Service.seekTarget (s.baseOf g .start) pos = .ok pos :=
    Service.seekTarget_of_le hzero (Int.zero_add _) hmax
  show codeOfCount (s.seek q pos .start).answer = pos
  rw [Service.seek_of_handle (Service.handle_of_file hl), htarget, hid]
  rfl

/-- **What one write does.** -/
theorem writesAt (c : Session) (hl : s.table.lookup fd = some (.file h))
    (ha : h.access = .readWrite) (hid : h.object = .file id) (hf : s.host.file? id = some f)
    (D : List UInt8) : c.WritesAt s fd h id f.content.toList D := by
  have hwrite := Service.write_file hl ha hid D
  have hafter : (c.write s fd D).state.2 = s.laid fd h id (s.host.fitted h.cursor D) :=
    congrArg Step.state hwrite
  constructor
  case answer =>
    show codeOfCount (s.write fd D).answer = _
    rw [hwrite]
    dsimp only
    by_cases hall : s.host.fitted h.cursor D = D
    · rw [if_pos hall, hall, if_neg (Nat.lt_irrefl _)]
      rfl
    · have hlt : (s.host.fitted h.cursor D).length < D.length := by
        refine Nat.lt_of_not_le fun hle => hall ?_
        rw [Host.length_fitted] at hle
        exact List.take_of_length_le hle
      rw [if_neg hall, if_pos hlt]
      rfl
  case nothing =>
    intro hnone
    show (c, (c.write s fd D).state.2) = (c, s)
    rw [hafter, hnone]
    rfl
  case laid =>
    intro hsome
    rw [hafter]
    exact Service.laid_of_file hl hid hf hsome
  case sought => exact fun s' c' q g hq hg hmax => c'.seek_start hq hg hmax
  case readBack =>
    intro s' c' q g offset whence hsame hq hg hanswer k hk
    rw [c'.seek_state hq hg hanswer]
    have hq' := (s'.lookup_moveCursor_file q q hg h.cursor).trans (if_pos rfl)
    by_cases hnone : s.host.fitted h.cursor D = []
    · have hrest := (List.nil_append ((s'.host.contentOf id).toList.drop h.cursor)).symm
      rw [hnone] at hk ⊢
      exact c'.readAll_missing hq' hg hrest hk
    · obtain ⟨f', hf', hbytes⟩ := (Service.laid_of_file hl hid hf hnone).bytes
      rw [← hafter, ← hsame] at hf'
      have hcontent : (s'.host.contentOf id).toList = f'.content.toList := by
        unfold Host.contentOf
        rw [hf']
        rfl
      have hdrop := drop_overlay f.content.toList h.cursor (s.host.fitted h.cursor D)
      rw [← hbytes, ← hcontent] at hdrop
      exact c'.readAll_missing hq' hg hdrop hk

/-- **One write after the other** leaves what one write of both leaves. -/
theorem sameBytes_write_append (c c' c'' : Session) (hl : s.table.lookup fd = some (.file h))
    (ha : h.access = .readWrite) (hid : h.object = .file id) (hf : s.host.file? id = some f)
    (D E : List UInt8) : Service.SameBytes (c''.write s fd (D ++ E)).state.2
      (c'.write (c.write s fd D).state.2 fd E).state.2 := by
  have hafter : (c.write s fd D).state.2 = s.laid fd h id (s.host.fitted h.cursor D) :=
    congrArg Step.state (Service.write_file hl ha hid D)
  have hboth : (c''.write s fd (D ++ E)).state.2 =
      s.laid fd h id (s.host.fitted h.cursor (D ++ E)) :=
    congrArg Step.state (Service.write_file hl ha hid (D ++ E))
  have hl' := (Service.lookup_laid hl hid (s.host.fitted h.cursor D) fd).trans (if_pos rfl)
  have hsecond := congrArg Step.state (Service.write_file hl' ha hid E)
  have hlimit := Service.fitted_laid s fd h id (s.host.fitted h.cursor D)
  rw [hafter, hboth, Host.fitted_append]
  show Service.SameBytes _ (Service.write _ fd E).state
  rw [hsecond, hlimit]
  exact Service.sameBytes_laid_append hl hid hf _ _

end Session

/-! ## 4. Every state -/

namespace Hub

/-- **The integrity of files.** In every state that a history leads to:

Through a descriptor that was opened for writing, by any mode but `read`, a write lays what fits of
its bytes over the file from the cursor on, fills a gap with zeros, keeps what lies behind, and
moves that cursor. It answers how many they were, or -16 if not all of them fit; if there were none,
or none fit, nothing changes. From then on, as long as the file stays the same, any descriptor of it
that is sent to where the write began reads back what went in. Two writes, one after the other,
leave what one write of all their bytes leaves.

Nothing else changes a file: whatever event comes next, a file is the same after it, unless the
event is such a write to just this file. -/
theorem byte_integrity {settings : Settings} {host : Host} {notes : List Note} {b : Hub}
    (h : Recorded settings host notes b) :
    (∀ {fd mode n hd id f}, n ∈ notes → n.Opens fd mode → mode ≠ .read →
      b.service.table.lookup fd = some (.file hd) → hd.object = .file id →
      b.service.host.file? id = some f →
        (∀ (c : Session) (D : List UInt8), c.WritesAt b.service fd hd id f.content.toList D) ∧
        ∀ (c c' c'' : Session) (D E : List UInt8),
          Service.SameBytes (c''.write b.service fd (D ++ E)).state.2
            (c'.write (c.write b.service fd D).state.2 fd E).state.2) ∧
    ∀ {e id f}, b.service.host.file? id = some f →
      (b.step e).2.service.host.file? id = some f ∨
        ∃ i fd D hd, e = .call i (.write fd D) ∧ D ≠ [] ∧
          b.service.table.lookup fd = some (.file hd) ∧ hd.object = .file id ∧
          (∃ n ∈ notes, ∃ mode, n.Opens fd mode) ∧ ∀ n ∈ notes, ¬ n.Opens fd .read := by
  refine ⟨fun {fd mode n hd id f} hn hopens hmode hl hid hf => ?_, fun {e id f} hf => ?_⟩
  · have ha : hd.access = .readWrite := by
      rw [(h.access_eq hl).2 n hn mode hopens]
      exact OpenMode.access_eq_readWrite_iff.mpr hmode
    exact ⟨fun c D => c.writesAt hl ha hid hf D,
      fun c c' c'' D E => c.sameBytes_write_append c' c'' hl ha hid hf D E⟩
  · rcases b.file?_step e hf with hsame | ⟨i, fd, D, hd, he, hD, hl, hid, ha⟩
    · exact .inl hsame
    · obtain ⟨hopened, hall⟩ := h.access_eq hl
      refine .inr ⟨i, fd, D, hd, he, hD, hl, hid, hopened, fun n hn hopens => ?_⟩
      rw [hall n hn .read hopens] at ha
      cases ha

/-- Where `f` is open twice, what is written through one descriptor is read back through the other,
and closing that one leaves the file alone. -/
theorem byte_integrity_sharing :
    let h : Handle := ⟨Path.ofString "f", .readWrite, .file 0, 0⟩
    let f : File := ⟨.newFile, ⟨0, 0⟩, .ofList [0x61, 0x62, 0x63, 0x64]⟩
    Recorded ⟨none, 4, false⟩ Host.fourBytes recordOfSharing sharing ∧
      (∃ n ∈ recordOfSharing, n.Opens 1003 .write) ∧
      sharing.service.table.lookup 1003 = some (.file h) ∧
      sharing.service.host.file? 0 = some f ∧
      (∀ (c c' : Session), let s' := (c.write sharing.service 1003 [1, 2]).state.2
        (c.write sharing.service 1003 [1, 2]).answer = 2 ∧
          (c'.readAll (c'.seek s' 1002 0 .start).state.2 1002 [2]).1 = [1, 2]) ∧
      (sharing.step (.call 2 (.close 1002))).2.service.host.file? 0 = some f := by
  intro h f
  have hopens : Note.Opens 1003 .write ⟨.call 1 .openF, some (.status 1003)⟩ := ⟨1, some "f", rfl⟩
  have hn : (⟨.call 1 .openF, some (.status 1003)⟩ : Note) ∈ recordOfSharing :=
    List.mem_append_right _ List.mem_cons_self
  have hl : sharing.service.table.lookup 1003 = some (.file h) := rfl
  have hf : sharing.service.host.file? 0 = some f := rfl
  obtain ⟨hwrites, hothers⟩ := byte_integrity recorded_sharing
  obtain ⟨hwrite, -⟩ := hwrites hn hopens (by decide) hl rfl hf
  refine ⟨recorded_sharing, ⟨_, hn, hopens⟩, hl, hf, fun c c' => ⟨(hwrite c [1, 2]).answer, ?_⟩, ?_⟩
  · have hq : (c.write sharing.service 1003 [1, 2]).state.2.table.lookup 1002 =
        some (.file h) := rfl
    have hseek := (hwrite c [1, 2]).sought _ c' 1002 h hq rfl (by decide)
    have hone : 2 ≤ 1 * sharing.service.readCap := by decide
    exact (hwrite c [1, 2]).readBack _ c' 1002 h 0 .start rfl hq rfl hseek 1 hone
  · rcases hothers (e := .call 2 (.close 1002)) hf with hsame | ⟨_, _, _, _, he, _⟩
    · exact hsame
    · cases he

end Hub

end Telefile
