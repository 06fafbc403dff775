import Telefile.Service.Naming
import Telefile.Service.Transfer

/-!
# What an operation can do

Each operation that changes the service, with its cases: what it looked up, what it answers, and
the service after it. Every invariant is read off these; nothing else opens the operations.

* `OpenMode.access` — the access that a mode gives; `prepare_ok`, `openAs_ok`, `openAs_cases` — what
  an open of a path comes to;
* `openPath_cases`, `unlink_cases` — the operations on paths;
* `close_cases`, `write_cases`, `read_cases`, `seek_cases` — the operations on descriptors;
* `write_of_done`, `write_of_stopped` — a write by what the host made of it; `seek_of_handle` — a
  seek by where it leads;
* `write_error_cases` — what a failed write has done;
* `lookup_moveCursor` — what a moved cursor changes.
-/

namespace Telefile

namespace OpenMode

/-- The access that a mode gives. -/
def access : OpenMode → Access
  | read => .readOnly
  | write | create | createNew => .readWrite

theorem access_eq_readWrite_iff {mode : OpenMode} : mode.access = .readWrite ↔ mode ≠ .read := by
  cases mode <;> decide

theorem eq_toRaw_of_ofRaw? {raw : Nat} {mode : OpenMode} (h : ofRaw? raw = .ok mode) :
    raw = mode.toRaw := by
  unfold ofRaw? at h
  split at h <;> cases h <;> rfl

end OpenMode

namespace Service

theorem openExisting_ok {host after : Host} {path : String} {full : Path} {access : Access}
    {f : OpenFile} (hopen : openExisting host path full access = .ok (f, after)) :
    ∃ o, host.openPath (access == .readWrite) full = .ok o ∧ f = fresh full access o ∧
      after = host := by
  unfold openExisting at hopen
  split at hopen
  · next o ho =>
    cases hopen
    exact ⟨o, ho, rfl, rfl⟩
  · cases hopen

/-- An open that succeeds, mode by mode: a directory is read, a file that is there is opened, or a
file is created. -/
theorem openAs_ok {host after : Host} {path : String} {full : Path} {mode : OpenMode}
    {seen : Option Entry} {f : OpenFile} (hopen : openAs host path full mode seen = .ok (f, after)) :
    (mode = .read ∧ seen.any Entry.isDir = true ∧ f = .directory full ∧ after = host) ∨
    ((mode = .read ∨ mode = .write) ∧ seen.any Entry.isDir = false ∧
      ∃ o, host.openPath (mode.access == .readWrite) full = .ok o ∧
        f = fresh full mode.access o ∧ after = host) ∨
    (mode = .create ∧ seen.any Entry.isDir = false ∧
      ∃ o, host.createPath false full = .ok (o, after) ∧ f = fresh full .readWrite o) ∨
    (mode = .createNew ∧ seen = none ∧
      ∃ o, host.createPath true full = .ok (o, after) ∧ f = fresh full .readWrite o) := by
  unfold openAs at hopen
  cases mode with
  | read =>
    cases seen with
    | none => cases hopen
    | some e =>
      dsimp only at hopen
      split at hopen
      · next hdir =>
        cases hopen
        exact .inl ⟨rfl, hdir, rfl, rfl⟩
      · next hfile =>
        exact .inr (.inl ⟨.inl rfl, Bool.eq_false_iff.mpr hfile, openExisting_ok hopen⟩)
  | write =>
    cases seen with
    | none => cases hopen
    | some e =>
      dsimp only at hopen
      split at hopen
      · cases hopen
      · next hfile =>
        exact .inr (.inl ⟨.inr rfl, Bool.eq_false_iff.mpr hfile, openExisting_ok hopen⟩)
  | create =>
    dsimp only at hopen
    split at hopen
    · cases hopen
    · next hfile =>
      split at hopen
      · next o after' hcreate =>
        cases hopen
        exact .inr (.inr (.inl ⟨rfl, Bool.eq_false_iff.mpr hfile, o, hcreate, rfl⟩))
      · cases hopen
  | createNew =>
    cases seen with
    | some e => cases hopen
    | none =>
      dsimp only at hopen
      split at hopen
      · next o after' hcreate =>
        cases hopen
        exact .inr (.inr (.inr ⟨rfl, rfl, o, hcreate, rfl⟩))
      · cases hopen
      · cases hopen

/-- A path is opened as a directory, as what is there, or as what is created. -/
theorem openAs_cases {host after : Host} {path : String} {full : Path} {mode : OpenMode}
    {seen : Option Entry} {f : OpenFile} (hopen : openAs host path full mode seen = .ok (f, after)) :
    (∃ e, seen = some e ∧ e.isDir = true ∧ f = .directory full ∧ after = host) ∨
    (∃ o, host.openPath (mode.access == .readWrite) full = .ok o ∧ f = fresh full mode.access o ∧
      after = host) ∨
    (∃ exclusive o, host.createPath exclusive full = .ok (o, after) ∧ mode.access = .readWrite ∧
      f = fresh full .readWrite o) := by
  rcases openAs_ok hopen with ⟨-, hdir, hf, hafter⟩ | ⟨-, -, ho⟩ | ⟨rfl, -, o, hcreate, hf⟩ |
    ⟨rfl, -, o, hcreate, hf⟩
  · cases seen with
    | none => cases hdir
    | some e => exact .inl ⟨e, rfl, hdir, hf, hafter⟩
  · exact .inr (.inl ho)
  · exact .inr (.inr ⟨false, o, hcreate, rfl, hf⟩)
  · exact .inr (.inr ⟨true, o, hcreate, rfl, hf⟩)

/-- What is prepared was opened under the host path that the scope made of a client's. -/
theorem prepare_ok {s : Service} {path : Option String} {mode : OpenMode} {r : OpenFile × Host}
    (hp : s.prepare path mode = .ok r) :
    ∃ given full, path = some given ∧ s.scope.resolve s.host given = .ok full ∧
      openAs s.host given full mode ((s.host.lookup .follow full).toOption.map Prod.snd) =
        .ok r := by
  unfold prepare at hp
  cases path with
  | none => cases hp
  | some given =>
    cases hres : s.scope.resolve s.host given with
    | error e =>
      simp only [hres] at hp
      cases hp
    | ok full =>
      simp only [hres] at hp
      exact ⟨given, full, rfl, hres, hp⟩

/-- Only the host makes a descriptor busy. -/
theorem errno_of_handle {s : Service} {fd : Fd} {e : FileError} (h : s.handle fd = .error e) :
    e.errno ≠ .busy := by
  unfold handle openFile at h
  rcases hf : s.table.lookup fd with _ | p | h'
  · simp only [hf] at h
    cases h
    exact (by decide : Errno.badDescriptor ≠ .busy)
  · simp only [hf] at h
    cases h
    exact (by decide : Errno.isDirectory ≠ .busy)
  · simp only [hf] at h
    cases h

variable (s : Service)

theorem openPath_cases (path : Option String) (mode : OpenMode) :
    (∃ e log, s.prepare path mode = .error (e, log) ∧
      s.openPath path mode = ⟨.error e, s, log⟩) ∨
    (∃ f host, s.prepare path mode = .ok (f, host) ∧ s.table.open? f = none ∧
      s.openPath path mode = ⟨.error .descriptorsExhausted, { s with host }, []⟩) ∨
    (∃ f host fd table, s.prepare path mode = .ok (f, host) ∧
      s.table.open? f = some (fd, table) ∧
      s.openPath path mode = ⟨.ok fd, { s with table, host }, []⟩) := by
  unfold openPath
  rcases hp : s.prepare path mode with ⟨e, log⟩ | ⟨f, host⟩
  · exact .inl ⟨e, log, rfl, rfl⟩
  · cases ht : s.table.open? f with
    | none => exact .inr (.inl ⟨f, host, rfl, ht, by simp only [ht]⟩)
    | some r => exact .inr (.inr ⟨f, host, r.1, r.2, rfl, ht, by simp only [ht]⟩)

theorem close_cases (fd : Fd) :
    (s.table.lookup fd = none ∧ s.close fd = .stay s (.error (.badDescriptor fd))) ∨
    (∃ f table, s.table.remove fd = some (f, table) ∧
      s.close fd = ⟨.ok f.path, { s with table }, []⟩) := by
  unfold close
  cases hr : s.table.remove fd with
  | none =>
    have hl : s.table.lookup fd = none := by
      unfold DescriptorTable.remove at hr
      exact Option.map_eq_none_iff.mp hr
    exact .inl ⟨hl, rfl⟩
  | some r => exact .inr ⟨r.1, r.2, rfl, rfl⟩

theorem write_cases (fd : Fd) (data : List UInt8) :
    (∃ e, s.write fd data = .stay s (.error e)) ∨
    (∃ h answer, s.handle fd = .ok h ∧ h.access = .readWrite ∧
      (∀ n, answer = .ok n → n = data.length) ∧
      s.write fd data = ⟨answer,
        { s with host := (s.host.writeAt h.object h.cursor data).2.2 }.moveCursor fd h
          (h.cursor + (s.host.writeAt h.object h.cursor data).1), []⟩) := by
  unfold write
  cases hh : s.handle fd with
  | error e => exact .inl ⟨e, rfl⟩
  | ok h =>
    cases ha : h.access with
    | readOnly => exact .inl ⟨.badDescriptor fd, by simp only [ha]⟩
    | readWrite =>
      refine .inr ⟨h, ?_⟩
      simp only [ha, true_and]
      rcases hw : s.host.writeAt h.object h.cursor data with ⟨n, _ | cause, host⟩
      · refine ⟨.ok data.length, ?_, rfl⟩
        intro m hm
        cases hm
        rfl
      · refine ⟨.error (.busy cause), ?_, rfl⟩
        intro m hm
        cases hm

section Written

variable {s : Service} {fd : Fd} {h : Handle} {data : List UInt8} {n : Nat} {host : Host}

theorem write_of_done (hh : s.handle fd = .ok h) (ha : h.access = .readWrite)
    (hw : s.host.writeAt h.object h.cursor data = (n, none, host)) : s.write fd data =
      ⟨.ok data.length, ({ s with host } : Service).moveCursor fd h (h.cursor + n), []⟩ := by
  unfold write
  simp only [hh, ha, hw]

theorem write_of_stopped {cause : HostError} (hh : s.handle fd = .ok h)
    (ha : h.access = .readWrite)
    (hw : s.host.writeAt h.object h.cursor data = (n, some cause, host)) : s.write fd data =
      ⟨.error (.busy cause), ({ s with host } : Service).moveCursor fd h (h.cursor + n), []⟩ := by
  unfold write
  simp only [hh, ha, hw]

end Written

section Sought

variable {s : Service} {fd : Fd} {h : Handle} {offset : Int} {whence : Whence} {base : Nat}

/-- What the offset of a seek counts from. -/
def baseOf (s : Service) (h : Handle) : Whence → Nat
  | .start => 0
  | .current => h.cursor
  | .fileEnd => s.host.sizeOf h.object

theorem seek_of_handle (hh : s.handle fd = .ok h) : s.seek fd offset whence =
    match seekTarget (s.baseOf h whence) offset with
    | .error e => .stay s (.error e)
    | .ok pos => ⟨.ok (Host.settle h.object pos), s.moveCursor fd h pos, []⟩ := by
  unfold seek
  rw [hh]
  cases whence <;> rfl

theorem seekTarget_of_le {pos : Nat} (hbase : (base : Int) ≤ maxPosition)
    (hpos : (base : Int) + offset = pos) (hmax : (pos : Int) ≤ maxPosition) :
    seekTarget base offset = .ok pos := by
  unfold seekTarget
  dsimp only
  rw [hpos, if_neg (by omega), if_neg (by omega)]
  rfl

theorem seekTarget_of_lt (offset : Int) (hbase : maxPosition < (base : Int)) :
    seekTarget base offset = .error (.invalidArgument "seek position overflows") :=
  if_pos (.inl hbase)

theorem seekTarget_of_beyond (hbeyond : maxPosition < (base : Int) + offset) :
    seekTarget base offset = .error (.invalidArgument "seek position overflows") :=
  if_pos (.inr hbeyond)

theorem seekTarget_of_neg (hbase : (base : Int) ≤ maxPosition) (hneg : (base : Int) + offset < 0) :
    seekTarget base offset = .error (.busy (.negativePosition ((base : Int) + offset))) := by
  have hmax : (0 : Int) ≤ maxPosition := by decide
  unfold seekTarget
  dsimp only
  rw [if_neg (by omega), if_pos hneg]

/-- A seek leads to a position. -/
theorem seekTarget_ok {pos : Nat} (h : seekTarget base offset = .ok pos) :
    (pos : Int) ≤ maxPosition := by
  unfold seekTarget at h
  dsimp only at h
  split at h
  · cases h
  · split at h
    · cases h
    · cases h
      omega

end Sought

/-- A write fails before it has done anything, or because the host stopped it. -/
theorem write_error_cases {fd : Fd} {data : List UInt8} {e : FileError}
    (he : (s.write fd data).answer = .error e) :
    ((s.write fd data).state = s ∧ e.errno ≠ .busy) ∨
    (∃ h cause, e = .busy cause ∧ s.handle fd = .ok h ∧
      (s.write fd data).state =
        { s with host := (s.host.writeAt h.object h.cursor data).2.2 }.moveCursor fd h
          (h.cursor + (s.host.writeAt h.object h.cursor data).1)) := by
  unfold write at he ⊢
  cases hh : s.handle fd with
  | error e' =>
    rw [hh] at he
    cases he
    exact .inl ⟨rfl, errno_of_handle hh⟩
  | ok h =>
    rw [hh] at he
    cases ha : h.access with
    | readOnly =>
      simp only [ha] at he ⊢
      cases he
      exact .inl ⟨rfl, (by decide : Errno.badDescriptor ≠ .busy)⟩
    | readWrite =>
      simp only [ha] at he ⊢
      rcases hw : s.host.writeAt h.object h.cursor data with ⟨n, _ | cause, host⟩
      · rw [hw] at he
        cases he
      · rw [hw] at he
        cases he
        refine .inr ⟨h, cause, rfl, rfl, ?_⟩
        rw [hw]

theorem read_cases (fd : Fd) (capacity : Option Nat) :
    (∃ e, s.read fd capacity = .stay s (.error e)) ∨
    (∃ h n bytes, s.handle fd = .ok h ∧ capacity = some n ∧
      bytes = s.host.readAt h.object h.cursor (min n s.settings.maxTransfer) ∧
      s.read fd capacity = ⟨.ok bytes, s.moveCursor fd h (h.cursor + bytes.length), []⟩) := by
  unfold read
  cases hh : s.handle fd with
  | error e => exact .inl ⟨e, rfl⟩
  | ok h =>
    cases capacity with
    | none => exact .inl ⟨.badAddress, rfl⟩
    | some n => exact .inr ⟨h, n, _, rfl, rfl, rfl, rfl⟩

theorem seek_cases (fd : Fd) (offset : Int) (whence : Whence) :
    (∃ e, s.seek fd offset whence = .stay s (.error e)) ∨
    (∃ h pos, s.handle fd = .ok h ∧
      s.seek fd offset whence = ⟨.ok (Host.settle h.object pos), s.moveCursor fd h pos, []⟩) := by
  unfold seek
  cases hh : s.handle fd with
  | error e => exact .inl ⟨e, rfl⟩
  | ok h =>
    dsimp only
    split
    · next e _ => exact .inl ⟨e, rfl⟩
    · next pos _ => exact .inr ⟨h, pos, rfl, rfl⟩

theorem unlink_cases (path : Option String) :
    (∃ e, s.removed path = .error e ∧ s.unlink path = .stay s (.error e)) ∨
    (∃ host, s.removed path = .ok host ∧ s.unlink path = ⟨.ok (), { s with host }, []⟩) := by
  unfold unlink
  cases hr : s.removed path with
  | error e => exact .inl ⟨e, rfl, rfl⟩
  | ok host => exact .inr ⟨host, rfl, rfl⟩

theorem handle_ok {s : Service} {fd : Fd} {h : Handle} (hh : s.handle fd = .ok h) :
    s.table.lookup fd = some (.file h) := by
  unfold handle openFile at hh
  rcases hf : s.table.lookup fd with _ | p | h'
  · simp only [hf] at hh
    cases hh
  · simp only [hf] at hh
    cases hh
  · simp only [hf] at hh
    cases hh
    rfl

theorem handle_of_file {s : Service} {fd : Fd} {h : Handle}
    (hl : s.table.lookup fd = some (.file h)) : s.handle fd = .ok h := by
  unfold handle openFile
  rw [hl]

/-! ## What a moved cursor changes -/

theorem settle_file {o : FileObject} {id : FileId} (ho : o = .file id) (pos : Nat) :
    Host.settle o pos = pos := by
  rw [ho]
  rfl

theorem lookup_moveCursor (s : Service) (fd q : Fd) (h : Handle) (pos : Nat) :
    (s.moveCursor fd h pos).table.lookup q =
      if q = fd then some (.file { h with cursor := Host.settle h.object pos })
      else s.table.lookup q :=
  DescriptorTable.lookup_insert s.table fd q _

theorem lookup_moveCursor_file (s : Service) (fd q : Fd) {h : Handle} {id : FileId}
    (hid : h.object = .file id) (pos : Nat) : (s.moveCursor fd h pos).table.lookup q =
      if q = fd then some (.file { h with cursor := pos }) else s.table.lookup q := by
  rw [lookup_moveCursor, settle_file hid]

theorem moveCursor_self {s : Service} {fd : Fd} {h : Handle} {id : FileId}
    (hl : s.table.lookup fd = some (.file h)) (hid : h.object = .file id) :
    s.moveCursor fd h h.cursor = s := by
  unfold moveCursor DescriptorTable.insert
  rw [settle_file hid,
    show s.table.files.insert fd (.file h) = s.table.files from Dictionary.insert_of_get? hl]

/-- A cursor stands where it was moved last. -/
theorem moveCursor_moveCursor (s : Service) (fd : Fd) (h : Handle) (pos pos' : Nat) :
    (s.moveCursor fd h pos').moveCursor fd { h with cursor := pos' } pos =
      s.moveCursor fd h pos := by
  unfold moveCursor DescriptorTable.insert
  dsimp only
  rw [Dictionary.insert_insert]

end Service

end Telefile
