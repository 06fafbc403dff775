import Telefile.Proofs.Commuting.Changes
import Telefile.Proofs.Directories.Listings
import Telefile.Proofs.Lookup.Walks

/-!
# What a call on a descriptor does

A call on a descriptor looks at what the descriptor stands for, at the bytes of its file, and at the
tree; and what it does, it does to these: the descriptor, the session's list of descriptors, and the
bytes of its file.

* `Host.walk_with` — a lookup looks past the bytes of files and past the clock;
* `Service.SameFor` — two services that are the same to calls on one descriptor;
* `Service.Does` — an operation that answers the same in all of these, and makes one change;
* `Deed`, **`exists_deed`** — every call on a descriptor is a deed, fixed by what the call looks at.
-/

namespace Telefile

/-! ## 1. Looking past files and the clock -/

namespace Host

variable (h : Host) (files : List File) (now : Timestamp)

theorem walk_with (last : LastStep) : ∀ (links : Nat) (names : List Name) (here : Location)
    (slash : Bool), ({ h with files, now } : Host).walk last links here slash names =
      h.walk last links here slash names := by
  refine walk_induction fun links names ihnames ihlinks => ?_
  intro here slash
  rw [walk.eq_def, walk.eq_def h]
  cases names with
  | nil => rfl
  | cons n rest =>
    have hpass : ({ h with files, now } : Host).pass here = h.pass here := rfl
    have hentry : ∀ l, ({ h with files, now } : Host).entryAt? l = h.entryAt? l := fun _ => rfl
    simp only [hpass, hentry, ihnames n rest rfl]
    cases links with
    | zero => rfl
    | succ left => simp only [ihlinks left rfl]

theorem lookup_with (last : LastStep) (p : Path) :
    ({ h with files, now } : Host).lookup last p = h.lookup last p := by
  unfold lookup arrive
  rw [walk_with]

theorem listPath_with (p : Path) : ({ h with files, now } : Host).listPath p = h.listPath p := by
  unfold listPath
  rw [lookup_with]
  cases h.lookup .follow p with
  | error e => rfl
  | ok r =>
    -- only the permissions of a directory are asked for, and these stand in its entry
    obtain ⟨l, e⟩ := r
    cases e <;> rfl

theorem eq_with {h h' : Host} (hentries : h'.entries = h.entries) (hcwd : h'.cwd = h.cwd)
    (hlimit : h'.writeLimit = h.writeLimit) :
    h' = { h with files := h'.files, now := h'.now } := by
  cases h
  cases h'
  cases hentries
  cases hcwd
  cases hlimit
  rfl

/-! ## 2. What a write does -/

/-- What a write answers, and the patch it lays, do not depend on what files hold. -/
theorem exists_patch (o : FileObject) (pos : Nat) (b : List UInt8) :
    ∃ patch : Option Patch, (∀ p, patch = some p → o = .file p.file) ∧
      ∀ h' : Host, h'.writeLimit = h.writeLimit →
        h'.writeAt o pos b =
          ((h.writeAt o pos b).1, (h.writeAt o pos b).2.1, h'.patched patch) := by
  cases o with
  | device d =>
    refine ⟨none, nofun, fun h' _ => ?_⟩
    unfold writeAt
    by_cases hb : b = []
    · rw [if_pos hb, if_pos hb]
      rfl
    · rw [if_neg hb, if_neg hb]
      cases d <;> rfl
  | file id =>
    have hfitted : ∀ h' : Host, h'.writeLimit = h.writeLimit →
        h'.fitted pos b = h.fitted pos b := by
      intro h' hlimit
      unfold fitted room
      rw [hlimit]
    by_cases hnone : h.fitted pos b = []
    · refine ⟨none, nofun, fun h' hlimit => ?_⟩
      rw [writeAt_file, writeAt_file, hfitted h' hlimit, if_pos hnone]
      rfl
    · refine ⟨some ⟨id, pos, h.fitted pos b⟩, fun p hp => ?_, fun h' hlimit => ?_⟩
      · cases hp
        rfl
      · rw [writeAt_file, writeAt_file, hfitted h' hlimit, if_neg hnone]
        rfl

end Host

/-! ## 3. Services that are the same to one descriptor -/

namespace Service

theorem listing_with (h : Host) (files : List File) (now : Timestamp) (p : Path) :
    listing { h with files, now } p = listing h p := by
  unfold listing
  rw [Host.listPath_with]

/-- Calls on `fd` see no difference between `s` and `s'`: it stands for the same, a file behind it
has the same bytes, and for a directory the tree is the same. -/
structure SameFor (fd : Fd) (s s' : Service) : Prop where
  settings : s'.settings = s.settings
  lookup : s'.table.lookup fd = s.table.lookup fd
  writeLimit : s'.host.writeLimit = s.host.writeLimit
  content : ∀ {h id}, s.table.lookup fd = some (.file h) → h.object = .file id →
    s'.host.contentOf id = s.host.contentOf id
  tree : ∀ {p}, s.table.lookup fd = some (.directory p) →
    s'.host.entries = s.host.entries ∧ s'.host.cwd = s.host.cwd

section Same

variable {s s' : Service} {fd : Fd} (same : s.SameFor fd s')

theorem SameFor.refl (s : Service) (fd : Fd) : s.SameFor fd s :=
  ⟨rfl, rfl, rfl, fun _ _ => rfl, fun _ => ⟨rfl, rfl⟩⟩

include same

theorem SameFor.openFile : s'.openFile fd = s.openFile fd := by
  unfold Service.openFile
  rw [same.lookup]

theorem SameFor.handle : s'.handle fd = s.handle fd := by
  unfold Service.handle
  rw [same.openFile]

theorem SameFor.listing {p : Path} (hl : s.table.lookup fd = some (.directory p)) (q : Path) :
    Service.listing s'.host q = Service.listing s.host q := by
  obtain ⟨hentries, hcwd⟩ := same.tree hl
  rw [Host.eq_with hentries hcwd same.writeLimit, listing_with]

theorem SameFor.readAt {h : Handle} (hl : s.table.lookup fd = some (.file h)) (pos n : Nat) :
    s'.host.readAt h.object pos n = s.host.readAt h.object pos n := by
  unfold Host.readAt
  cases ho : h.object with
  | file id =>
    dsimp only
    rw [same.content hl ho]
  | device d => cases d <;> rfl

theorem SameFor.baseOf {h : Handle} (hl : s.table.lookup fd = some (.file h)) (whence : Whence) :
    s'.baseOf h whence = s.baseOf h whence := by
  cases whence with
  | start => rfl
  | current => rfl
  | fileEnd =>
    unfold Service.baseOf Host.sizeOf
    dsimp only
    cases ho : h.object with
    | file id =>
      dsimp only
      rw [same.content hl ho]
    | device d => rfl

end Same

/-- The service after a change that a call on `fd` makes: what `fd` stands for now, if it is still
open, and bytes laid over a file. -/
def changed (s : Service) (fd : Fd) (left : Option OpenFile) (patch : Option Patch) : Service :=
  { s with
    table := { s.table with files := s.table.files.alter fd fun _ => left }
    host := s.host.patched patch }

/-- In all services that are the same to `fd` as `s`, the operation answers `a`, and changes the
service in one way. -/
def Does {α : Type} (s : Service) (fd : Fd) (op : Service → Step Service α) (a : α)
    (left : Option OpenFile) (patch : Option Patch) : Prop :=
  ∀ s', s.SameFor fd s' → op s' = ⟨a, s'.changed fd left patch, []⟩

section Operations

variable {α : Type} {s : Service} {fd : Fd} {op : Service → Step Service α} {a : α}

theorem does_stay (h : ∀ s', s.SameFor fd s' → op s' = .stay s' a) :
    s.Does fd op a (s.table.lookup fd) none := by
  intro s' same
  have hfiles : (s'.table.files.alter fd fun _ => s.table.lookup fd) = s'.table.files := by
    rw [← same.lookup]
    exact s'.table.files.alter_get? fd
  rw [h s' same]
  unfold changed
  rw [hfiles]
  rfl

theorem does_move {hd : Handle} {patch : Option Patch} (hl : s.table.lookup fd = some (.file hd))
    (pos : Nat)
    (h : ∀ s', s.SameFor fd s' → op s' =
      ⟨a, ({ s' with host := s'.host.patched patch } : Service).moveCursor fd hd pos, []⟩) :
    s.Does fd op a (some (.file { hd with cursor := Host.settle hd.object pos })) patch := by
  intro s' same
  have hfiles := Dictionary.insert_eq_alter (same.lookup.trans hl)
    (f := fun _ => some (.file { hd with cursor := Host.settle hd.object pos })) rfl
  rw [h s' same]
  unfold moveCursor changed DescriptorTable.insert
  rw [hfiles]

theorem does_read (s : Service) (fd : Fd) (capacity : Option Nat) :
    ∃ a left, s.Does fd (fun s' => s'.read fd capacity) a left none := by
  cases hh : s.handle fd with
  | error e =>
    refine ⟨.error e, _, does_stay fun s' same => ?_⟩
    unfold read
    rw [same.handle, hh]
  | ok h =>
    have hl := handle_ok hh
    cases capacity with
    | none =>
      refine ⟨.error .badAddress, _, does_stay fun s' same => ?_⟩
      unfold read
      rw [same.handle, hh]
    | some n =>
      let bytes := s.host.readAt h.object h.cursor (min n s.settings.maxTransfer)
      refine ⟨.ok bytes, _, does_move hl (h.cursor + bytes.length) fun s' same => ?_⟩
      have hbytes : s'.host.readAt h.object h.cursor (min n s'.settings.maxTransfer) = bytes := by
        rw [same.settings, same.readAt hl]
      unfold read
      simp only [same.handle, hh, hbytes]
      rfl

theorem does_seek (s : Service) (fd : Fd) (offset : Int) (whence : Whence) :
    ∃ a left, s.Does fd (fun s' => s'.seek fd offset whence) a left none := by
  cases hh : s.handle fd with
  | error e =>
    refine ⟨.error e, _, does_stay fun s' same => ?_⟩
    unfold seek
    rw [same.handle, hh]
  | ok h =>
    have hl := handle_ok hh
    cases htarget : seekTarget (s.baseOf h whence) offset with
    | error e =>
      refine ⟨.error e, _, does_stay fun s' same => ?_⟩
      rw [seek_of_handle (same.handle.trans hh), same.baseOf hl, htarget]
    | ok pos =>
      refine ⟨.ok (Host.settle h.object pos), _, does_move hl pos fun s' same => ?_⟩
      rw [seek_of_handle (same.handle.trans hh), same.baseOf hl, htarget]
      rfl

theorem does_close (s : Service) (fd : Fd) :
    ∃ a left, s.Does fd (fun s' => s'.close fd) a left none := by
  cases hl : s.table.lookup fd with
  | none =>
    refine ⟨.error (.badDescriptor fd), _, does_stay fun s' same => ?_⟩
    unfold close DescriptorTable.remove
    rw [same.lookup, hl]
    rfl
  | some f =>
    refine ⟨.ok f.path, none, fun s' same => ?_⟩
    show s'.close fd = _
    unfold close DescriptorTable.remove
    rw [same.lookup, hl, Dictionary.erase_eq_alter]
    rfl

/-- A write lays its bytes over the file behind its descriptor. -/
theorem does_write (s : Service) (fd : Fd) (data : List UInt8) :
    ∃ a left patch, s.Does fd (fun s' => s'.write fd data) a left patch ∧
      ∀ p, patch = some p → ∃ h, s.table.lookup fd = some (.file h) ∧ h.object = .file p.file := by
  cases hh : s.handle fd with
  | error e =>
    refine ⟨.error e, _, none, does_stay fun s' same => ?_, nofun⟩
    unfold write
    rw [same.handle, hh]
  | ok h =>
    have hl := handle_ok hh
    cases ha : h.access with
    | readOnly =>
      refine ⟨.error (.badDescriptor fd), _, none, does_stay fun s' same => ?_,
        nofun⟩
      unfold write
      simp only [same.handle, hh, ha]
    | readWrite =>
      obtain ⟨patch, hfile, hpatch⟩ := s.host.exists_patch h.object h.cursor data
      rcases hw : s.host.writeAt h.object h.cursor data with ⟨n, _ | cause, after⟩ <;>
        rw [hw] at hpatch
      · refine ⟨.ok data.length, _, patch, does_move hl (h.cursor + n) fun s' same => ?_,
          fun p hp => ⟨h, hl, hfile p hp⟩⟩
        exact write_of_done (same.handle.trans hh) ha (hpatch s'.host same.writeLimit)
      · refine ⟨.error (.busy cause), _, patch, does_move hl (h.cursor + n) fun s' same => ?_,
          fun p hp => ⟨h, hl, hfile p hp⟩⟩
        exact write_of_stopped (same.handle.trans hh) ha (hpatch s'.host same.writeLimit)

theorem listDir_same {s' : Service} (same : s.SameFor fd s') (nbytes base : Nat) :
    s'.listDir fd nbytes base = s.listDir fd nbytes base := by
  unfold listDir Service.openFile
  rw [same.lookup, same.settings]
  rcases hl : s.table.lookup fd with _ | p | h
  · rfl
  · dsimp only
    rw [same.listing hl]
  · rfl

end Operations

end Service

/-! ## 4. Deeds -/

namespace Request

/-- The descriptor that a request is about: those on paths are about none. -/
def fd? : Request → Option Fd
  | close fd | write fd .. | read fd .. | seek fd .. | listDir fd .. => some fd
  | openPath .. | unlink .. | stat .. | dirTree .. => none

/-- Whether a request is a write. -/
def isWrite : Request → Bool
  | write .. => true
  | openPath .. | close .. | read .. | seek .. | unlink .. | stat .. | listDir .. | dirTree .. =>
    false

end Request

/-- What a call on a descriptor does: its response, what the descriptor stands for afterwards, if it
is open, whether it was closed, and the bytes that were laid over a file. -/
structure Deed where
  response : Response
  left : Option OpenFile
  closes : Bool
  patch : Option Patch

namespace Deed

/-- The session after a deed on `fd`. -/
def session (d : Deed) (fd : Fd) (c : Session) : Session :=
  if d.closes = true then { c with opened := c.opened.filter fun q => decide (q ≠ fd) } else c

/-- The service after a deed on `fd`. -/
def service (d : Deed) (fd : Fd) (s : Service) : Service := s.changed fd d.left d.patch

/-- The deed `d` is what the request `q` on `fd` does, in all services that are the same to `fd` as
`s`; only a write lays bytes, and over the file of `fd`. -/
structure Does (d : Deed) (s : Service) (fd : Fd) (q : Request) : Prop where
  alike : ∀ s', s.SameFor fd s' → ∀ c : Session, (c.answer s' q).answer = d.response ∧
    (c.answer s' q).state = (d.session fd c, d.service fd s')
  patch : ∀ p, d.patch = some p → q.isWrite = true ∧
    ∃ h, s.table.lookup fd = some (.file h) ∧ h.object = .file p.file

/-- A call that shapes what an operation answers, and keeps the session as it is. -/
theorem does_of_step {α : Type} {s : Service} {fd : Fd} {q : Request}
    {op : Service → Step Service α} {a : α} {left : Option OpenFile} {patch : Option Patch}
    (shape : α → Response) (hop : s.Does fd op a left patch)
    (hcall : ∀ (s' : Service) (c : Session), (c.answer s' q).answer = shape (op s').answer ∧
      (c.answer s' q).state = (c, (op s').state))
    (hpatch : ∀ p, patch = some p → q.isWrite = true ∧
      ∃ h, s.table.lookup fd = some (.file h) ∧ h.object = .file p.file) :
    Does ⟨shape a, left, false, patch⟩ s fd q := by
  refine ⟨fun s' same c => ?_, hpatch⟩
  obtain ⟨hanswer, hstate⟩ := hcall s' c
  have hstep : op s' = ⟨a, s'.changed fd left patch, []⟩ := hop s' same
  rw [hanswer, hstate, hstep]
  exact ⟨rfl, rfl⟩

end Deed

/-- **Every call on a descriptor is a deed**, fixed by what the call looks at. -/
theorem exists_deed {q : Request} {fd : Fd} (hq : q.fd? = some fd) (s : Service) :
    ∃ d : Deed, d.Does s fd q := by
  cases q with
  | openPath path mode => cases hq
  | unlink path => cases hq
  | stat path => cases hq
  | dirTree path => cases hq
  | close q =>
    cases hq
    obtain ⟨a, left, hclose⟩ := s.does_close fd
    refine ⟨⟨.status (Session.codeOf (fun _ => 0) a), left, a.toOption.isSome, none⟩, ?_,
      nofun⟩
    intro s' same c
    have hstep : s'.close fd = ⟨a, s'.changed fd left none, []⟩ := hclose s' same
    show Response.status (Session.codeOf _ (s'.close fd).answer) = _ ∧
      (c.close s' fd).state = _
    unfold Session.close
    rw [hstep]
    cases a <;> exact ⟨rfl, rfl⟩
  | write q data =>
    cases hq
    obtain ⟨a, left, patch, hwrite, hfile⟩ := s.does_write fd data
    exact ⟨_, Deed.does_of_step (fun r => .status (Session.codeOfCount r)) hwrite
      (fun _ _ => ⟨rfl, rfl⟩) fun p hp => ⟨rfl, hfile p hp⟩⟩
  | read q capacity =>
    cases hq
    obtain ⟨a, left, hread⟩ := s.does_read fd capacity
    let count : List UInt8 → Int := fun b => (b.length : Int)
    exact ⟨_, Deed.does_of_step (fun r => .data (Session.codeOf count r) (r.toOption.getD []))
      hread (fun _ _ => ⟨rfl, rfl⟩) nofun⟩
  | seek q offset raw =>
    cases hq
    cases hraw : Whence.ofRaw? raw with
    | error u =>
      have hstay : s.Does fd (fun s' => .stay s' ()) () (s.table.lookup fd) none :=
        Service.does_stay fun _ _ => rfl
      refine ⟨_, Deed.does_of_step (fun _ => .status Errno.invalid.neg) hstay
        (fun s' c => ?_) nofun⟩
      rw [c.answer_seek_of_error s' fd offset hraw]
      exact ⟨rfl, rfl⟩
    | ok whence =>
      obtain ⟨a, left, hseek⟩ := s.does_seek fd offset whence
      refine ⟨_, Deed.does_of_step (fun r => .status (Session.codeOfCount r)) hseek
        (fun s' c => ?_) nofun⟩
      rw [c.answer_seek_of_ok s' fd offset hraw]
      exact ⟨rfl, rfl⟩
  | listDir q nbytes base =>
    cases hq
    have hstay : s.Does fd
        (fun s' => .stay s' (Session.pageAnswer base (s'.listDir fd nbytes base)))
        (Session.pageAnswer base (s.listDir fd nbytes base)) (s.table.lookup fd) none :=
      Service.does_stay fun s' same => by rw [Service.listDir_same same]
    refine ⟨_, Deed.does_of_step (fun r => .entries r.1 r.2.1 r.2.2) hstay (fun s' c => ?_) nofun⟩
    show Response.entries (c.listDir s' fd nbytes base).answer.1 _ _ = _ ∧ _
    rw [c.answer_listDir]
    exact ⟨rfl, rfl⟩

end Telefile
