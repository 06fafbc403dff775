import Mathlib.Data.Nat.Find
import Telefile.Proofs.Files.Integrity
import Telefile.Proofs.Room
import Telefile.Proofs.Standing

/-!
# Reading to the end

A file is read in pieces: each begins where the one before it ended, and none is empty before the
end. So whoever reads until a piece is empty has the file from the cursor on, whatever was asked for
each time.

* `piece`, `cursorAfter`, `together` — reads by what they ask for; `together_append` — what they
  have given and what is left; **`exists_end`** — they come to the end;
* `Hub.run_moving`, `Hub.run_reads` — the answers to them, and where they leave the cursor;
* `Hub.Recorded.file_stays` — a live descriptor stands for the file that it stood for;
* **`Hub.reading_to_the_end`** — in every state that a history leads to, as far as there is room for
  what is asked for;
* **`Hub.not_every_read_answered`** — where transfers may be of any length, there is not.
-/

namespace Telefile

/-! ## 1. The pieces -/

section Pieces

variable (F : List UInt8) (c cap : Nat) (ns : Nat → Nat)

/-- Where the cursor stands after `j` reads of the bytes `F` from `c` on. Read `j` asks for `ns j`
bytes, and none gives more than `cap`. -/
def cursorAfter : Nat → Nat
  | 0 => c
  | j + 1 => cursorAfter j + ((F.drop (cursorAfter j)).take (min (ns j) cap)).length

/-- What read `j` gives. -/
def piece (j : Nat) : List UInt8 := (F.drop (cursorAfter F c cap ns j)).take (min (ns j) cap)

/-- What the first `j` reads give together. -/
def together (j : Nat) : List UInt8 := (List.range j).flatMap (piece F c cap ns)

theorem cursorAfter_succ (j : Nat) : cursorAfter F c cap ns (j + 1) =
    cursorAfter F c cap ns j + (piece F c cap ns j).length := rfl

theorem together_succ (j : Nat) :
    together F c cap ns (j + 1) = together F c cap ns j ++ piece F c cap ns j := by
  unfold together
  rw [List.range_succ, List.flatMap_append, List.flatMap_singleton]

/-- The cursor has gone on by what was given. -/
theorem cursorAfter_eq (j : Nat) :
    cursorAfter F c cap ns j = c + (together F c cap ns j).length := by
  induction j with
  | zero => rfl
  | succ j ih => rw [cursorAfter_succ, together_succ, List.length_append, ih, Nat.add_assoc]

/-- **What was given and what is left** are the bytes from the cursor on. -/
theorem together_append (j : Nat) :
    together F c cap ns j ++ F.drop (cursorAfter F c cap ns j) = F.drop c := by
  induction j with
  | zero => rfl
  | succ j ih =>
    have hpiece : piece F c cap ns j <+: F.drop (cursorAfter F c cap ns j) := List.take_prefix _ _
    have hrest := List.prefix_iff_eq_append.mp hpiece
    rw [List.drop_drop] at hrest
    rw [together_succ, cursorAfter_succ, List.append_assoc, hrest, ih]

theorem length_together_le (j : Nat) : (together F c cap ns j).length ≤ F.length - c := by
  have hlength := congrArg List.length (together_append F c cap ns j)
  have hleft : (F.drop c).length = F.length - c := List.length_drop
  rw [List.length_append] at hlength
  omega

variable {F c cap ns}

/-- A piece is empty at the end, and only there. -/
theorem piece_eq_nil_iff {j : Nat} (hcap : 1 ≤ cap) (hn : 1 ≤ ns j) :
    piece F c cap ns j = [] ↔ F.length ≤ cursorAfter F c cap ns j := by
  have hmin : min (ns j) cap ≠ 0 := by omega
  unfold piece
  rw [List.take_eq_nil_iff, List.drop_eq_nil_iff]
  exact ⟨fun h => h.resolve_left hmin, .inr⟩

theorem cursorAfter_mono {i j : Nat} (hij : i ≤ j) :
    cursorAfter F c cap ns i ≤ cursorAfter F c cap ns j := by
  induction hij with
  | refl => exact Nat.le_refl _
  | step _ ih => exact Nat.le_trans ih (Nat.le_add_right _ _)

/-- Pieces that are not empty have a byte each. -/
theorem le_length_together {j : Nat} (h : ∀ m < j, piece F c cap ns m ≠ []) :
    j ≤ (together F c cap ns j).length := by
  induction j with
  | zero => exact Nat.zero_le _
  | succ j ih =>
    have hbefore := ih fun m hm => h m (Nat.lt_succ_of_lt hm)
    have hlast := List.length_pos_iff.mpr (h j (Nat.lt_succ_self j))
    rw [together_succ, List.length_append]
    omega

/-- **Reads come to the end**: after so many reads as there are bytes left, or fewer, all is given,
and nothing is given any more. -/
theorem exists_end (hcap : 1 ≤ cap) (hns : ∀ j, 1 ≤ ns j) : ∃ k, k ≤ F.length - c ∧
    (∀ m < k, piece F c cap ns m ≠ []) ∧ (∀ m, k ≤ m → piece F c cap ns m = []) ∧
    together F c cap ns k = F.drop c := by
  have hempty : ∃ k, piece F c cap ns k = [] := by
    by_contra hnone
    have hall := le_length_together (j := F.length - c + 1) fun m _ hm => hnone ⟨m, hm⟩
    have hle := length_together_le F c cap ns (F.length - c + 1)
    omega
  classical
  have hbefore : ∀ m < Nat.find hempty, piece F c cap ns m ≠ [] :=
    fun m hm => Nat.find_min hempty hm
  have hend := (piece_eq_nil_iff hcap (hns _)).mp (Nat.find_spec hempty)
  refine ⟨Nat.find hempty, ?_, hbefore, fun m hm => ?_, ?_⟩
  · exact Nat.le_trans (le_length_together hbefore) (length_together_le F c cap ns _)
  · exact (piece_eq_nil_iff hcap (hns m)).mpr (Nat.le_trans hend (cursorAfter_mono hm))
  · have hall := together_append F c cap ns (Nat.find hempty)
    rw [List.drop_eq_nil_of_le hend, List.append_nil] at hall
    exact hall

end Pieces

/-! ## 2. The answers -/

namespace Hub

variable {b : Hub} {fd : Fd} {hd : Handle} {id : FileId}

/-- The hub with the cursor behind `fd` moved. -/
def moveCursor (b : Hub) (fd : Fd) (hd : Handle) (pos : Nat) : Hub :=
  { b with service := b.service.moveCursor fd hd pos }

theorem moveCursor_moveCursor (b : Hub) (fd : Fd) (hd : Handle) (pos pos' : Nat) :
    (b.moveCursor fd hd pos').moveCursor fd { hd with cursor := pos' } pos =
      b.moveCursor fd hd pos := by
  unfold moveCursor
  rw [Service.moveCursor_moveCursor]

theorem moveCursor_self (hl : b.service.table.lookup fd = some (.file hd))
    (hid : hd.object = .file id) : b.moveCursor fd hd hd.cursor = b := by
  unfold moveCursor
  rw [Service.moveCursor_self hl hid]

theorem lookup_moveCursor (b : Hub) (fd : Fd) (hid : hd.object = .file id) (pos : Nat) :
    (b.moveCursor fd hd pos).service.table.lookup fd = some (.file { hd with cursor := pos }) :=
  (b.service.lookup_moveCursor_file fd fd hid pos).trans (if_pos rfl)

/-- **A read of a file**, as a client sees it. -/
theorem step_read (hl : b.service.table.lookup fd = some (.file hd)) (hid : hd.object = .file id)
    {i : Nat} (hi : (b.session? i).isSome) (n : Nat) :
    let bytes := ((b.service.host.contentOf id).toList.drop hd.cursor).take
      (min n b.service.readCap)
    b.step (.call i (.read fd (some n))) =
      (some (.data bytes.length bytes), b.moveCursor fd hd (hd.cursor + bytes.length)) := by
  intro bytes
  obtain ⟨c, hc⟩ := Option.isSome_iff_exists.mp hi
  have hread := Service.read_file hl hid n
  have hanswer : (c.answer b.service (.read fd (some n))).answer = .data bytes.length bytes := by
    show (Session.respond (fun r => Response.data r.1 r.2)
      (c.read b.service fd (some n))).answer = _
    unfold Session.read
    rw [hread]
    rfl
  have hstate : (c.answer b.service (.read fd (some n))).state =
      (c, b.service.moveCursor fd hd (hd.cursor + bytes.length)) := by
    show (c, (b.service.read fd (some n)).state) = _
    rw [hread]
  rw [step_call_same hc hstate, hanswer]
  rfl

/-- At the end there is nothing to read, and nothing changes. -/
theorem step_read_end (hl : b.service.table.lookup fd = some (.file hd))
    (hid : hd.object = .file id) {i : Nat} (hi : (b.session? i).isSome) (n : Nat)
    (hend : (b.service.host.contentOf id).toList.length ≤ hd.cursor) :
    b.step (.call i (.read fd (some n))) = (some (.data 0 []), b) := by
  have hstep := step_read hl hid hi n
  rw [List.drop_eq_nil_of_le hend, List.take_nil] at hstep
  exact hstep.trans (congrArg (Prod.mk _) (moveCursor_self hl hid))

theorem run_singleton (b : Hub) (e : HubEvent) : b.run [e] = ([(b.step e).1], (b.step e).2) := rfl

/-- **Events that each move the cursor**, and do nothing else, move it one after the other. Event
`m` finds it at `pos m`. -/
theorem run_moving (hl : b.service.table.lookup fd = some (.file hd)) (hid : hd.object = .file id)
    {e : Nat → HubEvent} {r : Nat → Response} (pos : Nat → Nat) (hstart : pos 0 = hd.cursor)
    (j : Nat) (hstep : ∀ m < j, (b.moveCursor fd hd (pos m)).step (e m) =
      (some (r m), b.moveCursor fd hd (pos (m + 1)))) :
    b.run ((List.range j).map e) =
      ((List.range j).map fun m => some (r m), b.moveCursor fd hd (pos j)) := by
  induction j with
  | zero =>
    rw [hstart, moveCursor_self hl hid]
    rfl
  | succ j ih =>
    have hbefore := ih fun m hm => hstep m (Nat.lt_succ_of_lt hm)
    rw [List.range_succ, List.map_append, List.map_singleton, run_append, hbefore, run_singleton,
      hstep j (Nat.lt_succ_self j), List.map_append, List.map_singleton]

/-- The reads of `fd` by the sessions and with the capacities that `calls` gives. -/
def readsOf (fd : Fd) (calls : Nat → Nat × Nat) (j : Nat) : List HubEvent :=
  (List.range j).map fun m => .call (calls m).1 (.read fd (some (calls m).2))

/-- **Reads that follow each other** are answered by the pieces. -/
theorem run_reads (hl : b.service.table.lookup fd = some (.file hd)) (hid : hd.object = .file id)
    {calls : Nat → Nat × Nat} (hcalls : ∀ m, (b.session? (calls m).1).isSome) (j : Nat) :
    let F := (b.service.host.contentOf id).toList
    let ns := fun m => (calls m).2
    b.run (readsOf fd calls j) =
      ((List.range j).map fun m => some (.data (piece F hd.cursor b.service.readCap ns m).length
          (piece F hd.cursor b.service.readCap ns m)),
        b.moveCursor fd hd (cursorAfter F hd.cursor b.service.readCap ns j)) := by
  intro F ns
  refine run_moving hl hid (cursorAfter F hd.cursor b.service.readCap ns) rfl j fun m _ => ?_
  have hmoved := lookup_moveCursor b fd hid (cursorAfter F hd.cursor b.service.readCap ns m)
  rw [step_read hmoved hid (hcalls m) (calls m).2, moveCursor_moveCursor]
  rfl

/-! ## 3. As long as the descriptor is live -/

variable {settings : Settings} {host : Host} {notes : List Note}

/-- **A live descriptor stands for the file that it stood for**; only its cursor moves. -/
theorem Recorded.file_stays (h : Recorded settings host notes b)
    (hl : b.service.table.lookup fd = some (.file hd)) (es : List HubEvent) :
    ∀ {f : OpenFile}, (b.run es).2.service.table.lookup fd = some f →
      ∃ pos, f = .file { hd with cursor := pos } := by
  obtain ⟨⟨n, hn, mode, hopens⟩, -⟩ := h.access_eq hl
  induction es using List.reverseRecOn with
  | nil =>
    intro f hf
    exact ⟨hd.cursor, (Option.some.inj (hl.symm.trans hf)).symm⟩
  | append_singleton es e ih =>
    intro f hf
    rw [run_append, run_singleton] at hf
    rcases stands_step e hf with hkept | ⟨hanswer, i, path, raw, mode', after, rfl, hraw, -⟩
    · cases hkept with
      | same hf => exact ih hf
      | moved hf' hmoved =>
        obtain ⟨pos, hpos⟩ := ih hf'
        cases hpos
        exact ⟨_, hmoved⟩
    · -- a descriptor is not issued twice
      obtain rfl := OpenMode.eq_toRaw_of_ofRaw? hraw
      have hagain : Note.Opens fd mode' ⟨.call i (.openPath path mode'.toRaw),
          ((b.run es).2.step (.call i (.openPath path mode'.toRaw))).1⟩ :=
        ⟨i, path, congrArg _ hanswer⟩
      obtain ⟨hfresh, -⟩ := (h.run es).opens_fresh (h.live_nonneg hl) hagain
      exact absurd hopens (hfresh n (List.mem_append_left _ hn) mode)

/-- A read that has room is answered as ever. -/
theorem Recorded.step?_read (h : Recorded settings host notes b)
    (hl : b.service.table.lookup fd = some (.file hd)) {room n : Nat}
    (hroom : min n settings.maxTransfer ≤ min room maxBuffer) (i : Nat) :
    b.step? room (.call i (.read fd (some n))) = some (b.step (.call i (.read fd (some n)))) := by
  refine step?_of_hasRoom fun id q hq => ?_
  cases hq
  rw [Service.hasRoom_read_iff hl, h.settings_eq]
  exact hroom

/-- Reads that each have room do not break off. -/
theorem Recorded.run?_reads (h : Recorded settings host notes b) {room : Nat}
    {calls : Nat → Nat × Nat}
    (hroom : ∀ m, min (calls m).2 settings.maxTransfer ≤ min room maxBuffer) (j : Nat) :
    b.run? room (readsOf fd calls j) = some (b.run (readsOf fd calls j)) := by
  refine run?_of_hasRoom fun s hs id q hq => ?_
  obtain ⟨m, -, hm⟩ := List.mem_map.mp hq
  cases hm
  refine Nat.le_trans (s.bufferOf_read_le fd (calls m).2) ?_
  rw [hs, h.settings_eq]
  exact hroom m

/-! ## 4. To the end -/

/-- **A file is read to its end in any pieces.** A read for whose buffer there is no room is not
answered. Any other gives a piece of the file from the cursor on, of no more bytes than it asks for
and than a transfer has, and of one at least, if it asks for one and one is left; and it moves the
cursor by as many, and changes nothing else. So reads that each ask for a byte at least, and have
room, by whatever sessions, come to an empty piece after finitely many; the pieces before it are the
file from the cursor on; and all that follow are empty, as long as the cursor is not moved and the
file is no longer. -/
theorem reading_to_the_end (h : Recorded settings host notes b) (hmax : 1 ≤ settings.maxTransfer)
    (hl : b.service.table.lookup fd = some (.file hd)) (hid : hd.object = .file id) (room : Nat) :
    let F := (b.service.host.contentOf id).toList
    (∀ i n, (b.session? i).isSome →
      (min room maxBuffer < min n settings.maxTransfer →
        b.step? room (.call i (.read fd (some n))) = none) ∧
      (min n settings.maxTransfer ≤ min room maxBuffer → ∃ bytes : List UInt8,
        b.step? room (.call i (.read fd (some n))) =
          some (some (.data bytes.length bytes), b.moveCursor fd hd (hd.cursor + bytes.length)) ∧
        bytes <+: F.drop hd.cursor ∧ bytes.length ≤ min n settings.maxTransfer ∧
        (1 ≤ n → hd.cursor < F.length → bytes ≠ []))) ∧
    ∀ calls : Nat → Nat × Nat, (∀ m, (b.session? (calls m).1).isSome ∧ 1 ≤ (calls m).2 ∧
        min (calls m).2 settings.maxTransfer ≤ min room maxBuffer) →
      ∃ (pieces : Nat → List UInt8) (k : Nat), k ≤ F.length - hd.cursor ∧
        (∀ j, b.run? room (readsOf fd calls j) =
          some ((List.range j).map fun m => some (.data (pieces m).length (pieces m)),
            b.moveCursor fd hd (hd.cursor + ((List.range j).flatMap pieces).length))) ∧
        (∀ m < k, pieces m ≠ []) ∧ (∀ m, k ≤ m → pieces m = []) ∧
        (List.range k).flatMap pieces = F.drop hd.cursor ∧
        ∀ (es : List HubEvent) (answers : List (Option Response)) (after : Hub) (hd' : Handle),
          b.run? room (readsOf fd calls k ++ es) = some (answers, after) →
          after.service.table.lookup fd = some (.file hd') →
          hd'.cursor = hd.cursor + (F.drop hd.cursor).length →
          (after.service.host.contentOf id).toList.length ≤ F.length →
          ∀ i n, (after.session? i).isSome → min n settings.maxTransfer ≤ min room maxBuffer →
            after.step? room (.call i (.read fd (some n))) = some (some (.data 0 []), after) := by
  intro F
  have hsettings := h.settings_eq
  have hcap : 1 ≤ b.service.readCap := by
    unfold Service.readCap Host.readChunk
    rw [hsettings]
    omega
  refine ⟨fun i n hi => ⟨fun hover => ?_, fun hroom => ?_⟩, fun calls hcalls => ?_⟩
  · refine step?_of_not_hasRoom hi fun hroom => ?_
    rw [Service.hasRoom_read_iff hl, hsettings] at hroom
    exact absurd hroom (Nat.not_le_of_lt hover)
  · refine ⟨_, (h.step?_read hl hroom i).trans
      (congrArg some (step_read hl hid hi n)), List.take_prefix _ _, ?_, fun hn hlt hnil => ?_⟩
    · refine Nat.le_trans (List.length_take_le _ _) ?_
      unfold Service.readCap
      rw [hsettings]
      omega
    · -- the bytes are the first piece of reads that all ask for so many
      have hfirst : piece F hd.cursor b.service.readCap (fun _ => n) 0 = [] := hnil
      have hend : F.length ≤ hd.cursor := (piece_eq_nil_iff hcap hn).mp hfirst
      exact absurd hlt (Nat.not_lt_of_le hend)
  · obtain ⟨k, hk, hbefore, hafter, htogether⟩ :=
      exists_end (F := F) (c := hd.cursor) hcap fun m => (hcalls m).2.1
    refine ⟨_, k, hk, fun j => ?_, hbefore, hafter, htogether, ?_⟩
    · have hall : b.run? room (readsOf fd calls j) = some (b.run (readsOf fd calls j)) :=
        h.run?_reads (fun m => (hcalls m).2.2) j
      rw [hall, run_reads hl hid (fun m => (hcalls m).1) j, cursorAfter_eq]
      rfl
    intro es answers after hd' hrun hlive hcursor hlength i n hi hroom
    have hboth : after = (b.run (readsOf fd calls k ++ es)).2 :=
      congrArg Prod.snd (run?_eq_some hrun)
    have hrecorded := h.run (readsOf fd calls k ++ es)
    rw [← hboth] at hrecorded
    rw [hboth] at hlive
    obtain ⟨pos, hpos⟩ := h.file_stays hl _ hlive
    cases hpos
    rw [← hboth] at hlive
    have hend : (after.service.host.contentOf id).toList.length ≤ pos := by
      have hleft : (F.drop hd.cursor).length = F.length - hd.cursor := List.length_drop
      have hcursor : pos = _ := hcursor
      omega
    exact (hrecorded.step?_read hlive hroom i).trans
      (congrArg some (step_read_end hlive hid hi n hend))

end Hub

/-- Two sessions in turn read the four bytes of `f` in threes. -/
theorem Hub.reading_to_the_end_sharing :
    let F : List UInt8 := [0x61, 0x62, 0x63, 0x64]
    let calls : Nat → Nat × Nat := fun m => (m % 2 + 1, 3)
    Recorded ⟨none, 4, false⟩ Host.fourBytes recordOfSharing sharing ∧
      sharing.step? 2 (.call 1 (.read 1002 (some 3))) = none ∧
      ∃ (pieces : Nat → List UInt8) (k : Nat), k ≤ 4 ∧ (∀ m, k ≤ m → pieces m = []) ∧
        (List.range k).flatMap pieces = F ∧
        ∀ j, (sharing.run? 3 (readsOf 1002 calls j)).map Prod.fst =
          some ((List.range j).map fun m => some (.data (pieces m).length (pieces m))) := by
  intro F calls
  have hl : sharing.service.table.lookup 1002 =
      some (.file ⟨Path.ofString "f", .readWrite, .file 0, 0⟩) := rfl
  have hroom : min 3 4 ≤ min 3 maxBuffer := by decide
  have hlive : ∀ m, (sharing.session? (calls m).1).isSome ∧ 1 ≤ (calls m).2 ∧
      min (calls m).2 4 ≤ min 3 maxBuffer := by
    intro m
    refine ⟨?_, Nat.le_add_left 1 2, hroom⟩
    show (sharing.session? (m % 2 + 1)).isSome
    rcases Nat.mod_two_eq_zero_or_one m with hm | hm <;> rw [hm] <;> rfl
  have hbytes : (sharing.service.host.contentOf 0).toList = F := rfl
  obtain ⟨honce, -⟩ := reading_to_the_end recorded_sharing (by decide) hl rfl 2
  obtain ⟨hnone, -⟩ := honce 1 3 rfl
  obtain ⟨-, hreads⟩ := reading_to_the_end recorded_sharing (by decide) hl rfl 3
  obtain ⟨pieces, k, hk, hrun, -, hafter, htogether, -⟩ := hreads calls hlive
  rw [hbytes] at hk htogether
  refine ⟨recorded_sharing, hnone (by decide), pieces, k, hk, hafter, htogether, fun j => ?_⟩
  rw [hrun j]
  rfl

/-- **Not every read is answered**, however much memory there is: the buffer for a read of the whole
range of 64 bits is too long where a transfer may be as long. -/
theorem Hub.not_every_read_answered :
    ¬ ∃ room : Nat, ∀ (settings : Settings) (host : Host) (notes : List Note) (b : Hub) (fd : Fd)
      (hd : Handle) (id : FileId) (i n : Nat), Recorded settings host notes b →
      1 ≤ settings.maxTransfer → b.service.table.lookup fd = some (.file hd) →
      hd.object = .file id → (b.session? i).isSome →
      ∃ (bytes : List UInt8) (after : Hub), b.step? room (.call i (.read fd (some n))) =
        some (some (.data bytes.length bytes), after) := by
  rintro ⟨room, h⟩
  let longest : Nat := 18446744073709551615
  let b : Hub := reopened longest false
  have hl : b.service.table.lookup 1002 =
      some (.file ⟨Path.ofString "f", .readWrite, .file 0, 0⟩) := rfl
  have hsettings := (recorded_reopening longest false).settings_eq
  have hover : ¬ b.service.HasRoom room (.read 1002 (some longest)) := by
    rw [Service.hasRoom_read_iff hl, hsettings]
    exact fun hroom => absurd (Nat.le_trans hroom (Nat.min_le_right _ _)) (by decide)
  obtain ⟨bytes, after, hanswer⟩ := h _ _ _ b 1002 _ 0 1 longest (recorded_reopening longest false)
    (by decide) hl rfl rfl
  rw [step?_of_not_hasRoom rfl hover] at hanswer
  cases hanswer

end Telefile
