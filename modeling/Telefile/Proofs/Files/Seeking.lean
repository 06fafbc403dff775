import Mathlib.Algebra.BigOperators.Intervals
import Telefile.Client
import Telefile.Proofs.Files.ToTheEnd
import Telefile.Proofs.Wire.RoundTrip

/-!
# Seeks are exact

A seek counts from the start, from the cursor or from the end of the file, over the integers. What
lies before the start is refused, and so is what lies beyond the largest position, each with a code
of its own; everything between is reached exactly, beyond the end of the file too.

* `Service.CursorsReach` — an open file is there, and its cursor stands at a position or within it;
  **`Service.keeps_cursorsReach`** — so it stays over every operation;
* `Hub.Reached` — the hubs that histories lead to on hosts that keep files and have a position for
  each of their bytes; `Hub.Reached.cursorsReach`;
* `Whence.base`, `Hub.step_seek_ok`, `Hub.step_seek_error` — a seek of a file, as a client sees it;
* `Hub.run_seeks` — seeks that follow each other; `Hub.position_told` — how the client reads one;
* **`Hub.seek_exact`** — all of it.
-/

namespace Telefile

/-! ## 1. Files that are open are there -/

namespace Host

variable {h after : Host} {p : Path} {id : FileId}

theorem file?_of_openEntry {write : Bool} {e : Entry} (ho : h.openEntry write e = .ok (.file id)) :
    ∃ f, h.file? id = some f := by
  unfold openEntry at ho
  cases e with
  | directory _ _ => cases ho
  | symlink _ _ => cases ho
  | device d =>
    dsimp only at ho
    split at ho <;> cases ho
  | file q =>
    dsimp only at ho
    split at ho
    · next hgranted =>
      cases ho
      cases hf : h.file? id with
      | some f => exact ⟨f, rfl⟩
      | none =>
        -- nobody may read what is not there
        unfold allows at hgranted
        simp only [hf] at hgranted
        cases hgranted
    · cases ho

theorem file?_of_openPath {write : Bool} (ho : h.openPath write p = .ok (.file id)) :
    ∃ f, h.file? id = some f := by
  unfold openPath at ho
  split at ho
  · exact file?_of_openEntry ho
  · cases ho

theorem file?_of_createPath {exclusive : Bool}
    (hcreate : h.createPath exclusive p = .ok (.file id, after)) :
    ∃ f, after.file? id = some f := by
  unfold createPath at hcreate
  split at hcreate
  · cases hcreate
  · next l e _ =>
    cases exclusive with
    | true => cases hcreate
    | false =>
      cases ho : h.openEntry true e with
      | error cause =>
        rw [ho] at hcreate
        cases hcreate
      | ok o =>
        rw [ho] at hcreate
        cases hcreate
        exact file?_of_openEntry ho
  · next dir n _ =>
    split at hcreate
    · cases hcreate
      refine ⟨⟨.newFile, h.now, .empty⟩, ?_⟩
      rw [file?_touch]
      exact List.getElem?_concat_length
    · cases hcreate

/-! ## 2. Files do not shrink -/

/-- Every file is still there, and none is shorter. -/
def Grows (h h' : Host) : Prop :=
  ∀ id f, h.file? id = some f → ∃ f', h'.file? id = some f' ∧
    f.content.toList.length ≤ f'.content.toList.length

theorem grows_of_files {h h' : Host} (hfiles : ∀ id f, h.file? id = some f → h'.file? id = some f) :
    h.Grows h' :=
  fun id f hf => ⟨f, hfiles id f hf, Nat.le_refl _⟩

theorem grows_overwrite (h : Host) (id : FileId) (pos : Nat) (b : List UInt8) :
    h.Grows (h.overwrite id pos b) := by
  intro q f hf
  cases hid : h.file? id with
  | none =>
    refine ⟨f, ?_, Nat.le_refl _⟩
    unfold overwrite
    rw [hid]
    exact hf
  | some g =>
    rw [file?_overwrite hid]
    by_cases hq : q = id
    · subst hq
      cases hid.symm.trans hf
      refine ⟨_, if_pos rfl, ?_⟩
      rw [show (f.content.write pos b).toList = overlay f.content.toList pos b from
        f.content.toList_write pos b, length_overlay]
      omega
    · exact ⟨f, (if_neg hq).trans hf, Nat.le_refl _⟩

theorem grows_writeAt (h : Host) (o : FileObject) (pos : Nat) (b : List UInt8) :
    h.Grows (h.writeAt o pos b).2.2 := by
  rcases (h.writeAt_eq o pos b).2 with hsame | ⟨id, -, hover⟩
  · rw [hsame]
    exact grows_of_files fun _ _ hf => hf
  · rw [hover]
    exact h.grows_overwrite id pos _

end Host

namespace Service

variable {s : Service} {path : Option String} {mode : OpenMode} {after : Host} {fd : Fd}
  {h : Handle} {id : FileId}

theorem grows_of_prepare {f : OpenFile} (hp : s.prepare path mode = .ok (f, after)) :
    s.host.Grows after := by
  obtain ⟨given, full, -, hopening⟩ := opening_of_prepare hp
  cases hopening with
  | found _ _ _ => exact Host.grows_of_files fun _ _ hf => hf
  | created _ _ =>
    refine Host.grows_of_files fun id f hf => ?_
    rw [Host.file?_touch]
    exact Host.file?_addFile hf _

theorem file?_of_prepare (hp : s.prepare path mode = .ok (.file h, after))
    (hid : h.object = .file id) : ∃ f, after.file? id = some f := by
  obtain ⟨given, full, -, -, hopen⟩ := prepare_ok hp
  rcases openAs_cases hopen with ⟨_, -, -, hf, -⟩ | ⟨o, ho, hf, rfl⟩ | ⟨_, o, hcreate, -, hf⟩
  · cases hf
  · cases hf
    obtain rfl : o = .file id := hid
    exact Host.file?_of_openPath ho
  · cases hf
    obtain rfl : o = .file id := hid
    exact Host.file?_of_createPath hcreate

/-! ## 3. How far cursors reach -/

/-- Behind every descriptor of a file the file is there, and the cursor stands at a position, or
not beyond the end of the file. -/
def CursorsReach (s : Service) : Prop :=
  ∀ fd h id, s.table.lookup fd = some (.file h) → h.object = .file id →
    ∃ f, s.host.file? id = some f ∧ (h.cursor : Int) ≤ max maxPosition f.content.toList.length

theorem CursorsReach.grows (hs : s.CursorsReach) (hgrows : s.host.Grows after) :
    CursorsReach { s with host := after } := by
  intro fd h id hl hid
  obtain ⟨f, hf, hle⟩ := hs fd h id hl hid
  obtain ⟨f', hf', hlength⟩ := hgrows id f hf
  exact ⟨f', hf', by omega⟩

theorem CursorsReach.moveCursor (hs : s.CursorsReach) (hh : s.handle fd = .ok h) {pos : Nat}
    (hpos : ∀ id f, h.object = .file id → s.host.file? id = some f →
      (pos : Int) ≤ max maxPosition f.content.toList.length) :
    (s.moveCursor fd h pos).CursorsReach := by
  intro q g id hl hid
  rw [lookup_moveCursor] at hl
  by_cases hq : q = fd
  · rw [if_pos hq] at hl
    cases hl
    obtain ⟨f, hf, -⟩ := hs fd h id (handle_ok hh) hid
    refine ⟨f, hf, ?_⟩
    dsimp only
    rw [settle_file hid]
    exact hpos id f hid hf
  · rw [if_neg hq] at hl
    exact hs q g id hl hid

/-- What is taken from a file ends where the file ends. -/
theorem length_readAt_file {host : Host} {f : File} (hf : host.file? id = some f) (pos n : Nat) :
    pos + (host.readAt (.file id) pos n).length ≤ max pos f.content.toList.length := by
  show pos + ((host.contentOf id).read pos (min n Host.readChunk)).length ≤ _
  rw [Host.contentOf_of_file? hf, Content.read_eq, List.length_take, List.length_drop]
  omega

/-- What the host has written lies within the file, if it has written anything. -/
theorem length_writeAt_file {host : Host} {f : File} {pos : Nat} {data : List UInt8}
    (hf : (host.writeAt (.file id) pos data).2.2.file? id = some f) :
    pos + (host.writeAt (.file id) pos data).1 ≤ max pos f.content.toList.length := by
  rw [host.writeAt_file] at hf ⊢
  dsimp only at hf ⊢
  by_cases hnone : host.fitted pos data = []
  · rw [hnone]
    exact Nat.le_max_left _ _
  · rw [if_neg hnone] at hf
    obtain ⟨g, hg⟩ : ∃ g, host.file? id = some g := by
      cases hg : host.file? id with
      | some g => exact ⟨g, rfl⟩
      | none =>
        unfold Host.overwrite at hf
        rw [hg] at hf
        cases hg.symm.trans hf
    rw [Host.file?_overwrite hg, if_pos rfl] at hf
    cases hf
    rw [show (g.content.write pos _).toList = overlay g.content.toList pos _ from
      g.content.toList_write pos _, length_overlay]
    omega

/-- **Every operation keeps cursors in reach.** -/
theorem keeps_cursorsReach : Keeps CursorsReach where
  openPath {s} path mode hs := by
    rcases s.openPath_cases path mode with ⟨e, log, -, hr⟩ | ⟨f, host, hp, -, hr⟩ |
      ⟨f, host, fd, table, hp, ht, hr⟩ <;> rw [hr]
    · exact hs
    · exact hs.grows (grows_of_prepare hp)
    · obtain ⟨-, rfl, rfl⟩ := DescriptorTable.open?_eq_some_iff.mp ht
      intro q g id hl hid
      rw [DescriptorTable.lookup_insert] at hl
      by_cases hq : q = s.table.last + 1
      · rw [if_pos hq] at hl
        cases hl
        obtain ⟨f, hf⟩ := file?_of_prepare hp hid
        obtain ⟨-, hcursor⟩ := fresh_of_prepare hp
        refine ⟨f, hf, ?_⟩
        rw [hcursor]
        omega
      · rw [if_neg hq] at hl
        exact hs.grows (grows_of_prepare hp) q g id hl hid
  close {s} fd hs := by
    have hreleased := Session.released_close s fd
    have hhost : (s.close fd).state.host = s.host := by
      rw [hreleased.same]
    intro q g id hl hid
    have hbefore := hreleased.lookup q
    rw [hl] at hbefore
    split at hbefore
    · cases hbefore
    · rw [hhost]
      exact hs q g id hbefore.symm hid
  write {s} fd data hs := by
    rcases s.write_cases fd data with ⟨e, hr⟩ | ⟨h, answer, hh, -, -, hr⟩ <;> rw [hr]
    · exact hs
    · refine (hs.grows (s.host.grows_writeAt h.object h.cursor data)).moveCursor hh ?_
      intro id f hid hf
      obtain ⟨g, hg, hcursor⟩ := hs fd h id (handle_ok hh) hid
      obtain ⟨f', hf', hgrown⟩ := s.host.grows_writeAt h.object h.cursor data id g hg
      cases hf.symm.trans hf'
      rw [hid] at hf ⊢
      have hwritten := length_writeAt_file hf
      omega
  read {s} fd capacity hs := by
    rcases s.read_cases fd capacity with ⟨e, hr⟩ | ⟨h, n, bytes, hh, -, hbytes, hr⟩ <;> rw [hr]
    · exact hs
    · refine hs.moveCursor hh fun id f hid hf => ?_
      obtain ⟨f', hf', hle⟩ := hs fd h id (handle_ok hh) hid
      cases hf.symm.trans hf'
      have hread := length_readAt_file hf h.cursor (min n s.settings.maxTransfer)
      rw [hbytes, hid]
      omega
  seek {s} fd offset whence hs := by
    cases hh : s.handle fd with
    | error e =>
      unfold seek
      rw [hh]
      exact hs
    | ok h =>
      rw [seek_of_handle hh]
      cases htarget : seekTarget (s.baseOf h whence) offset with
      | error e => exact hs
      | ok pos =>
        refine hs.moveCursor hh fun id f _ _ => ?_
        have hle := seekTarget_ok htarget
        omega
  unlink {s} path hs := by
    rcases s.unlink_cases path with ⟨e, -, hr⟩ | ⟨host, hremoved, hr⟩ <;> rw [hr]
    · exact hs
    · obtain ⟨_, _, _, _, -, -, -, -, -, rfl⟩ := removed_ok hremoved
      refine hs.grows (Host.grows_of_files fun id f hf => ?_)
      rw [Host.file?_touch]
      exact hf
  join hs := hs

end Service

/-! ## 4. Where seeks lead -/

/-- What an offset counts from, if the cursor stands at `cursor` in a file of `length` bytes. -/
def Whence.base (cursor length : Nat) : Whence → Nat
  | .start => 0
  | .current => cursor
  | .fileEnd => length

namespace Service

theorem baseOf_file (s : Service) {h : Handle} {id : FileId} (hid : h.object = .file id)
    (whence : Whence) :
    s.baseOf h whence = whence.base h.cursor (s.host.contentOf id).toList.length := by
  cases whence with
  | start => rfl
  | current => rfl
  | fileEnd =>
    show s.host.sizeOf h.object = _
    rw [hid]
    exact (s.host.contentOf id).size_eq

end Service

/-! ## 5. Hubs that are reached -/

/-- The hubs that histories lead to at a service that was started on `host`. Between two events
others may change the host, as hosts are changed: what is a file stays one, though it may be cut, or
have no name any more; and every byte of a file has a position. -/
inductive Hub.Reached (settings : Settings) (host : Host) : Hub → Prop
  | start : Reached settings host (Hub.start settings host).answer
  | event {b} (e : HubEvent) (h : Reached settings host b) : Reached settings host (b.step e).2
  | outside {b} (other : Host) (h : Reached settings host b)
    (hpositions : ∀ id f, b.service.host.file? id = some f →
      (f.content.toList.length : Int) ≤ Service.maxPosition)
    (hfiles : ∀ id f, b.service.host.file? id = some f → ∃ f', other.file? id = some f') :
    Reached settings host { b with service := { b.service with host := other } }

namespace Hub

variable {settings : Settings} {host : Host} {b : Hub} {fd : Fd} {hd : Handle} {id : FileId}

/-- A history that is run leads on. -/
theorem Reached.run (h : Reached settings host b) (es : List HubEvent) :
    Reached settings host (b.run es).2 := by
  induction es generalizing b with
  | nil => exact h
  | cons e es ih =>
    rw [run_cons]
    exact ih (h.event e)

/-- **Cursors are in reach** wherever a history leads. -/
theorem Reached.cursorsReach (h : Reached settings host b) : b.service.CursorsReach := by
  induction h with
  | start =>
    intro fd hd id hl
    rw [lookup_start] at hl
    cases hl
  | event e _ ih => exact keeps_step Service.keeps_cursorsReach e ih
  | outside other _ hpositions hfiles ih =>
    intro fd hd id hl hid
    obtain ⟨f, hf, hcursor⟩ := ih fd hd id hl hid
    obtain ⟨f', hf'⟩ := hfiles id f hf
    have hlength := hpositions id f hf
    exact ⟨f', hf', by omega⟩

/-- A seek counts from a position. -/
theorem Reached.base_le (h : Reached settings host b)
    (hl : b.service.table.lookup fd = some (.file hd)) (hid : hd.object = .file id)
    (hlength : ((b.service.host.contentOf id).toList.length : Int) ≤ Service.maxPosition)
    (whence : Whence) :
    (whence.base hd.cursor (b.service.host.contentOf id).toList.length : Int) ≤
      Service.maxPosition := by
  obtain ⟨f, hf, hcursor⟩ := h.cursorsReach fd hd id hl hid
  rw [Host.contentOf_of_file? hf] at hlength ⊢
  cases whence with
  | start => exact (by decide : (0 : Int) ≤ Service.maxPosition)
  | current =>
    show (hd.cursor : Int) ≤ _
    omega
  | fileEnd => exact hlength

/-! ## 6. One seek -/

/-- A seek, as a client sees it: the code of what it comes to. -/
theorem step_seek {i : Nat} (hi : (b.session? i).isSome) (fd : Fd) (offset : Int)
    (whence : Whence) : b.step (.call i (.seek fd offset whence.toRaw)) =
      (some (.status (Session.codeOfCount (b.service.seek fd offset whence).answer)),
        { b with service := (b.service.seek fd offset whence).state }) := by
  obtain ⟨c, hc⟩ := Option.isSome_iff_exists.mp hi
  have hanswer := c.answer_seek_of_ok b.service fd offset (Whence.ofRaw?_toRaw whence)
  have hstate : (c.answer b.service (.seek fd offset whence.toRaw)).state =
      (c, (b.service.seek fd offset whence).state) := by
    rw [hanswer]
    rfl
  rw [step_call_same hc hstate, hanswer]
  rfl

section Seek

variable (hl : b.service.table.lookup fd = some (.file hd)) (hid : hd.object = .file id) {i : Nat}
  (hi : (b.session? i).isSome) {offset : Int} {whence : Whence}

include hl hid hi

/-- **A seek of a file that leads to a position** answers it, and moves the cursor there. -/
theorem step_seek_ok {pos : Nat}
    (htarget : Service.seekTarget (whence.base hd.cursor (b.service.host.contentOf id).toList.length)
      offset = .ok pos) :
    b.step (.call i (.seek fd offset whence.toRaw)) =
      (some (.status pos), b.moveCursor fd hd pos) := by
  have hseek : b.service.seek fd offset whence = ⟨.ok pos, b.service.moveCursor fd hd pos, []⟩ := by
    rw [Service.seek_of_handle (Service.handle_of_file hl), Service.baseOf_file _ hid, htarget]
    dsimp only
    rw [Service.settle_file hid]
  rw [step_seek hi, hseek]
  rfl

/-- A seek of a file that leads to none is refused, and nothing changes. -/
theorem step_seek_error {e : FileError}
    (htarget : Service.seekTarget (whence.base hd.cursor (b.service.host.contentOf id).toList.length)
      offset = .error e) :
    b.step (.call i (.seek fd offset whence.toRaw)) = (some (.status e.code), b) := by
  have hseek : b.service.seek fd offset whence = .stay b.service (.error e) := by
    rw [Service.seek_of_handle (Service.handle_of_file hl), Service.baseOf_file _ hid, htarget]
  rw [step_seek hi, hseek]
  rfl

end Seek

/-! ## 7. Seeks that follow each other -/

/-- The seeks of `fd`, from where the cursor stands, by the sessions and the offsets that `calls`
gives. -/
def seeksOf (fd : Fd) (calls : Nat → Nat × Int) (j : Nat) : List HubEvent :=
  (List.range j).map fun m => .call (calls m).1 (.seek fd (calls m).2 Whence.current.toRaw)

/-- Where `m` seeks lead from `cursor` on: their offsets are added up. -/
def soughtFrom (cursor : Nat) (calls : Nat → Nat × Int) (m : Nat) : Int :=
  cursor + ∑ k ∈ Finset.range m, (calls k).2

theorem soughtFrom_zero (cursor : Nat) (calls : Nat → Nat × Int) :
    soughtFrom cursor calls 0 = cursor := by
  unfold soughtFrom
  rw [Finset.sum_range_zero, Int.add_zero]

theorem soughtFrom_succ (cursor : Nat) (calls : Nat → Nat × Int) (m : Nat) :
    soughtFrom cursor calls (m + 1) = soughtFrom cursor calls m + (calls m).2 := by
  unfold soughtFrom
  rw [Finset.sum_range_succ, Int.add_assoc]

/-- **Seeks that follow each other** add up, as long as each of them leads to a position. -/
theorem run_seeks (hl : b.service.table.lookup fd = some (.file hd)) (hid : hd.object = .file id)
    {calls : Nat → Nat × Int} {j : Nat} (hcalls : ∀ m < j, (b.session? (calls m).1).isSome)
    (hcursor : (hd.cursor : Int) ≤ Service.maxPosition)
    (hway : ∀ m < j, 0 ≤ soughtFrom hd.cursor calls (m + 1) ∧
      soughtFrom hd.cursor calls (m + 1) ≤ Service.maxPosition) :
    b.run (seeksOf fd calls j) =
      ((List.range j).map fun m => some (.status (soughtFrom hd.cursor calls (m + 1))),
        b.moveCursor fd hd (soughtFrom hd.cursor calls j).toNat) := by
  have hstart := soughtFrom_zero hd.cursor calls
  have hnat : ∀ m ≤ j, ((soughtFrom hd.cursor calls m).toNat : Int) =
      soughtFrom hd.cursor calls m ∧ soughtFrom hd.cursor calls m ≤ Service.maxPosition := by
    intro m hm
    cases m with
    | zero =>
      rw [hstart]
      exact ⟨Int.toNat_of_nonneg (Int.natCast_nonneg _), hcursor⟩
    | succ m =>
      obtain ⟨hlow, hhigh⟩ := hway m hm
      exact ⟨Int.toNat_of_nonneg hlow, hhigh⟩
  refine run_moving hl hid (fun m => (soughtFrom hd.cursor calls m).toNat) ?_ j fun m hm => ?_
  · rw [hstart]
    rfl
  · obtain ⟨hfrom, hbase⟩ := hnat m (Nat.le_of_lt hm)
    obtain ⟨hto, hmax⟩ := hnat (m + 1) hm
    have htarget : Service.seekTarget (soughtFrom hd.cursor calls m).toNat (calls m).2 =
        .ok (soughtFrom hd.cursor calls (m + 1)).toNat := by
      refine Service.seekTarget_of_le ?_ ?_ ?_
      · rwa [hfrom]
      · rw [hfrom, hto, soughtFrom_succ]
      · rwa [hto]
    have hmoved := lookup_moveCursor b fd hid (soughtFrom hd.cursor calls m).toNat
    have hstep : (b.moveCursor fd hd (soughtFrom hd.cursor calls m).toNat).step
        (.call (calls m).1 (.seek fd (calls m).2 Whence.current.toRaw)) = _ :=
      step_seek_ok hmoved hid (hcalls m hm) htarget
    rw [hstep, moveCursor_moveCursor, hto]

/-! ## 8. At every limit -/

/-- **A position is told as it is**: it is no code of a failure, and it is read back from the body
of the response. -/
theorem position_told {t : Int} (hlow : 0 ≤ t) (hhigh : t ≤ Service.maxPosition) :
    Errno.ofResult? t = none ∧ ∃ body, (Response.status t).encode = .ok body ∧
      Response.decode body = .ok (.status t) := by
  have hfits : (Response.status t).Fits :=
    ⟨Int.le_trans (by decide) hlow, Int.lt_of_le_of_lt hhigh (by decide)⟩
  exact ⟨Errno.ofResult?_of_nonneg hlow, _, rfl, Response.decode_encode hfits rfl⟩

/-- **Seeks are exact.** A seek of a file, all of whose bytes have positions, leads to its base and
its offset, added up over the integers: if that lies before the start, the seek fails with -16, and
if it lies beyond the largest position, with -22, and nothing changes at all. Otherwise it is what
is answered, no client takes it for a code of a failure, and the cursor stands there, within the
file or beyond its end; and nothing else changes. So seeks that follow each other, from where the
cursor stands, add up, whoever makes them, as long as each of them leads to a position. -/
theorem seek_exact (h : Reached settings host b)
    (hl : b.service.table.lookup fd = some (.file hd)) (hid : hd.object = .file id)
    (hlength : ((b.service.host.contentOf id).toList.length : Int) ≤ Service.maxPosition) :
    (∀ i offset (whence : Whence), (b.session? i).isSome →
      let base := whence.base hd.cursor (b.service.host.contentOf id).toList.length
      let t := (base : Int) + offset
      let after := b.step (.call i (.seek fd offset whence.toRaw))
      (t < 0 → after = (some (.status (-16)), b)) ∧
      (Service.maxPosition < t → after = (some (.status (-22)), b)) ∧
      (0 ≤ t → t ≤ Service.maxPosition →
        after = (some (.status t), b.moveCursor fd hd t.toNat) ∧
        after.2.service.table.lookup fd = some (.file { hd with cursor := t.toNat }) ∧
        after.2.service.host = b.service.host ∧ Errno.ofResult? t = none ∧
        ∃ body, (Response.status t).encode = .ok body ∧ Response.decode body = .ok (.status t) ∧
          (Call.seek fd offset whence).take (.status t) = .ok t)) ∧
    ∀ (calls : Nat → Nat × Int) (j : Nat), (∀ m < j, (b.session? (calls m).1).isSome) →
      (∀ m < j, 0 ≤ soughtFrom hd.cursor calls (m + 1) ∧
        soughtFrom hd.cursor calls (m + 1) ≤ Service.maxPosition) →
      b.run (seeksOf fd calls j) =
        ((List.range j).map fun m => some (.status (soughtFrom hd.cursor calls (m + 1))),
          b.moveCursor fd hd (soughtFrom hd.cursor calls j).toNat) := by
  have hbase := h.base_le hl hid hlength
  refine ⟨fun i offset whence hi => ?_, fun calls j hcalls hway => ?_⟩
  · intro base t after
    refine ⟨fun hneg => ?_, fun hbeyond => ?_, fun hlow hhigh => ?_⟩
    · exact step_seek_error hl hid hi (Service.seekTarget_of_neg (hbase whence) hneg)
    · exact step_seek_error hl hid hi (Service.seekTarget_of_beyond hbeyond)
    · have hnat : (t.toNat : Int) = t := Int.toNat_of_nonneg hlow
      have hstep : after = (some (.status t.toNat), b.moveCursor fd hd t.toNat) :=
        step_seek_ok hl hid hi
          (Service.seekTarget_of_le (hbase whence) hnat.symm (by rwa [hnat]))
      rw [hnat] at hstep
      obtain ⟨hresult, body, hencode, hdecode⟩ := position_told hlow hhigh
      rw [hstep]
      exact ⟨rfl, lookup_moveCursor b fd hid _, rfl, hresult, body, hencode, hdecode, rfl⟩
  · exact run_seeks hl hid hcalls (hbase .current) hway

end Hub

/-! ## 9. Two sessions at one descriptor -/

theorem Hub.reached_sharing : Reached ⟨none, 4, false⟩ Host.fourBytes sharing := by
  have hc : (reopened 4 false).session? 1 = some ⟨1, [1001, 1002]⟩ := rfl
  have hstart : Reached ⟨none, 4, false⟩ Host.fourBytes _ := .start
  have hrun := hstart.run reopening
  rw [run_reopening] at hrun
  have hevent := hrun.event (.call 1 .openF)
  rw [step_openF hc rfl rfl (show (1002 : Int) < 2147483647 by decide)] at hevent
  exact hevent

/-- Seeks of the four bytes of `f`: too far back from the end, too far on from it, to the last
position, and seven forth and three back by two sessions in turn. -/
theorem Hub.seek_exact_sharing :
    let calls : Nat → Nat × Int := fun m => (m % 2 + 1, if m % 2 = 0 then 7 else -3)
    Reached ⟨none, 4, false⟩ Host.fourBytes sharing ∧
      sharing.step (.call 2 (.seek 1002 (-5) Whence.fileEnd.toRaw)) =
        (some (.status (-16)), sharing) ∧
      sharing.step (.call 1 (.seek 1002 Service.maxPosition Whence.fileEnd.toRaw)) =
        (some (.status (-22)), sharing) ∧
      (sharing.step (.call 1 (.seek 1002 (Service.maxPosition - 4) Whence.fileEnd.toRaw))).1 =
        some (.status Service.maxPosition) ∧
      (sharing.run (seeksOf 1002 calls 3)).1 =
        [some (.status 7), some (.status 4), some (.status 11)] := by
  intro calls
  have hl : sharing.service.table.lookup 1002 =
      some (.file ⟨Path.ofString "f", .readWrite, .file 0, 0⟩) := rfl
  obtain ⟨hseek, hrun⟩ := seek_exact reached_sharing hl rfl (by decide)
  obtain ⟨hback, -, -⟩ := hseek 2 (-5) .fileEnd rfl
  obtain ⟨-, hbeyond, -⟩ := hseek 1 Service.maxPosition .fileEnd rfl
  obtain ⟨-, -, hlast⟩ := hseek 1 (Service.maxPosition - 4) .fileEnd rfl
  have hcalls := hrun calls 3 (by decide) (by decide)
  exact ⟨reached_sharing, hback (by decide), hbeyond (by decide),
    congrArg Prod.fst (hlast (by decide) (by decide)).1, congrArg Prod.fst hcalls⟩

end Telefile
