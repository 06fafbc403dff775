import Telefile.Proofs.Failures

/-!
# Bytes laid over a file

A write lays the bytes that fit over the file behind its descriptor, from the cursor on, and sends
the cursor behind them. If none fit, or there are none, it does nothing at all.

* `overlay` — bytes laid over others at a position, zeros in a gap before them; `drop_overlay`,
  `overlay_overlay` — what is found there, and one overlay after the other;
* `Host.fitted` — the front part of the bytes that the host has room for; `Host.writeAt_file`,
  `Host.writeAt_files` — what the host writes, and that nothing but files changes;
* `Service.laid` — the service after bytes were laid; **`Service.write_file`** — a write in one
  equation;
* `Service.Laid`, `Service.laid_of_file` — what laying bytes changes, and that it changes nothing
  else; `Service.sameBytes_laid_append` — pieces that are laid one after the other.
-/

namespace Telefile

/-! ## 1. Bytes over bytes -/

/-- The bytes `F` with `D` laid over them at `c`; a gap before it is filled with zeros. -/
def overlay (F : List UInt8) (c : Nat) (D : List UInt8) : List UInt8 :=
  F.take c ++ List.replicate (c - F.length) 0 ++ D ++ F.drop (c + D.length)

section Overlay

variable (F : List UInt8) (c : Nat) (D : List UInt8)

/-- What stands before the bytes that were laid, up to their position. -/
theorem length_overlay_front :
    (F.take c ++ List.replicate (c - F.length) (0 : UInt8)).length = c := by
  rw [List.length_append, List.length_take, List.length_replicate]
  omega

theorem take_overlay : (overlay F c D).take c = F.take c ++ List.replicate (c - F.length) 0 := by
  unfold overlay
  rw [List.append_assoc,
    List.take_append_of_le_length (Nat.le_of_eq (length_overlay_front F c).symm),
    List.take_of_length_le (Nat.le_of_eq (length_overlay_front F c))]

/-- From their position on, there are the bytes that were laid and what lay behind them. -/
theorem drop_overlay : (overlay F c D).drop c = D ++ F.drop (c + D.length) := by
  unfold overlay
  rw [List.append_assoc,
    List.drop_append_of_le_length (Nat.le_of_eq (length_overlay_front F c).symm),
    List.drop_of_length_le (Nat.le_of_eq (length_overlay_front F c)), List.nil_append]

theorem length_overlay : (overlay F c D).length = c + D.length + (F.length - (c + D.length)) := by
  unfold overlay
  rw [List.append_assoc, List.length_append, length_overlay_front, List.length_append,
    List.length_drop]
  omega

/-- One piece behind the other is both in one. -/
theorem overlay_overlay (E : List UInt8) :
    overlay (overlay F c D) (c + D.length) E = overlay F c (D ++ E) := by
  have hfront : (overlay F c D).take (c + D.length) =
      F.take c ++ List.replicate (c - F.length) 0 ++ D := by
    rw [List.take_add, take_overlay, drop_overlay,
      List.take_append_of_le_length (Nat.le_refl _), List.take_length]
  have hback : (overlay F c D).drop (c + D.length + E.length) =
      F.drop (c + (D ++ E).length) := by
    rw [Nat.add_assoc, ← List.drop_drop, drop_overlay, ← List.drop_drop, List.drop_left,
      List.drop_drop, List.length_append, Nat.add_assoc]
  show (overlay F c D).take (c + D.length) ++
      List.replicate (c + D.length - (overlay F c D).length) 0 ++ E ++
        (overlay F c D).drop (c + D.length + E.length) = _
  rw [hfront, hback, length_overlay, Nat.sub_eq_zero_of_le (Nat.le_add_right _ _), List.replicate_zero,
    List.append_nil]
  unfold overlay
  rw [← List.append_assoc _ D E]

end Overlay

/-! ## 2. What the host has room for -/

namespace Host

variable (h : Host) (pos : Nat)

/-- The front part of the bytes `b` that the host has room for, from `pos` on. -/
def fitted (b : List UInt8) : List UInt8 := b.take (h.room pos b.length)

theorem length_fitted (b : List UInt8) : (h.fitted pos b).length = h.room pos b.length := by
  unfold fitted
  rw [List.length_take, Nat.min_eq_left (h.room_le pos b.length)]

theorem fitted_nil : h.fitted pos [] = [] := List.take_nil

/-- What fits of two pieces is what fits of the first, and then of the second behind it. -/
theorem fitted_append (b d : List UInt8) : h.fitted pos (b ++ d) =
    h.fitted pos b ++ h.fitted (pos + (h.fitted pos b).length) d := by
  rw [length_fitted]
  unfold fitted room
  rw [List.length_append, List.take_append]
  cases h.writeLimit with
  | none =>
    dsimp only
    rw [Nat.add_sub_cancel_left, List.take_of_length_le (Nat.le_add_right _ _), List.take_length,
      List.take_length]
  | some limit =>
    dsimp only
    rw [List.take_eq_take_iff.mpr (show min (min (b.length + d.length) (limit - pos)) b.length =
        min (min b.length (limit - pos)) b.length by omega),
      List.take_eq_take_iff.mpr (show min (min (b.length + d.length) (limit - pos) - b.length)
        d.length = min (min d.length (limit - (pos + min b.length (limit - pos)))) d.length by
          omega)]

variable (id : FileId)

/-- A write to a file: what fits goes in, and if that is not all, the file would be too large. -/
theorem writeAt_file (b : List UInt8) : h.writeAt (.file id) pos b =
    ((h.fitted pos b).length,
      if (h.fitted pos b).length < b.length then some .fileTooLarge else none,
      if h.fitted pos b = [] then h else h.overwrite id pos (h.fitted pos b)) := by
  rw [length_fitted]
  unfold writeAt
  by_cases hb : b = []
  · subst hb
    have hroom : h.room pos 0 = 0 := Nat.le_zero.mp (h.room_le pos 0)
    rw [if_pos rfl, List.length_nil, hroom, if_neg (Nat.lt_irrefl 0), if_pos (h.fitted_nil pos)]
  · rw [if_neg hb]
    dsimp only
    by_cases hroom : h.room pos b.length = 0
    · have hnone : h.fitted pos b = [] := by
        rw [← List.length_eq_zero_iff, length_fitted, hroom]
      rw [if_pos hroom, hroom, if_pos (List.length_pos_iff.mpr hb), if_pos hnone]
    · have hsome : h.fitted pos b ≠ [] := by
        rw [← List.length_pos_iff, length_fitted]
        exact Nat.pos_of_ne_zero hroom
      rw [if_neg hroom, if_neg hsome]
      rfl

/-! ## 3. What is written -/

variable {h pos id}

/-- A write that is not stopped has written everything. -/
theorem length_of_writeAt_done {b : List UInt8} {n : Nat} {after : Host}
    (hw : h.writeAt (.file id) pos b = (n, none, after)) : n = b.length := by
  rw [writeAt_file] at hw
  obtain ⟨rfl, hstop, -⟩ : _ ∧ _ ∧ _ := by simpa only [Prod.mk.injEq] using hw
  split at hstop
  · cases hstop
  · next hall =>
    rw [length_fitted] at hall ⊢
    exact Nat.le_antisymm (h.room_le pos b.length) (Nat.le_of_not_lt hall)

theorem file?_overwrite {f : File} (hf : h.file? id = some f) (b : List UInt8) (q : FileId) :
    (h.overwrite id pos b).file? q =
      if q = id then some { f with content := f.content.write pos b, modified := h.now }
      else h.file? q := by
  unfold overwrite
  rw [hf]
  show (h.files.set id _)[q]? = _
  obtain ⟨hlt, -⟩ := List.getElem?_eq_some_iff.mp hf
  rw [List.getElem?_set]
  by_cases hq : q = id
  · subst hq
    rw [if_pos rfl, if_pos hlt, if_pos rfl]
  · rw [if_neg (Ne.symm hq), if_neg hq]
    rfl

theorem contentOf_of_file? {f : File} (hf : h.file? id = some f) : h.contentOf id = f.content := by
  unfold contentOf
  rw [hf]
  rfl

/-- A write changes nothing but files. -/
theorem overwrite_files (h : Host) (id : FileId) (pos : Nat) (b : List UInt8) :
    ∃ files, h.overwrite id pos b = { h with files } := by
  unfold overwrite
  cases h.file? id with
  | none => exact ⟨h.files, rfl⟩
  | some f => exact ⟨_, rfl⟩

theorem writeAt_files (h : Host) (o : FileObject) (pos : Nat) (b : List UInt8) :
    ∃ files, (h.writeAt o pos b).2.2 = { h with files } := by
  rcases (h.writeAt_eq o pos b).2 with hsame | ⟨id, -, hover⟩
  · exact ⟨h.files, hsame⟩
  · obtain ⟨files, hfiles⟩ := h.overwrite_files id pos (b.take (h.writeAt o pos b).1)
    exact ⟨files, hover.trans hfiles⟩

end Host

namespace Service

/-- `s'` is `s` with the bytes `D` laid over those of the file behind `fd`, which are `F`, from the
cursor on. The cursor stands behind them; all other files, handles and entries are the same. -/
structure Laid (s : Service) (fd : Fd) (h : Handle) (id : FileId) (F D : List UInt8)
    (s' : Service) : Prop where
  bytes : ∃ f, s'.host.file? id = some f ∧ f.content.toList = overlay F h.cursor D
  cursor : s'.table.lookup fd = some (.file { h with cursor := h.cursor + D.length })
  files : ∀ q, q ≠ id → s'.host.file? q = s.host.file? q
  handles : ∀ q, q ≠ fd → s'.table.lookup q = s.table.lookup q
  entries : s'.host.entries = s.host.entries

/-- The service after the bytes `D` were laid over the file behind `fd`, from the cursor on. Without
any bytes, nothing is done. -/
def laid (s : Service) (fd : Fd) (h : Handle) (id : FileId) (D : List UInt8) : Service :=
  if D = [] then s
  else ({ s with host := s.host.overwrite id h.cursor D } : Service).moveCursor fd h
    (h.cursor + D.length)

section Laid

variable {s : Service} {fd : Fd} {h : Handle} {id : FileId} {f : File}

/-- **A write to a file**, in one equation. -/
theorem write_file (hl : s.table.lookup fd = some (.file h)) (ha : h.access = .readWrite)
    (hid : h.object = .file id) (D : List UInt8) : s.write fd D =
      ⟨if (s.host.fitted h.cursor D).length < D.length then .error (.busy .fileTooLarge)
        else .ok D.length, s.laid fd h id (s.host.fitted h.cursor D), []⟩ := by
  have hh := handle_of_file hl
  have hw := s.host.writeAt_file h.cursor id D
  rw [← hid] at hw
  have hstate : ({ s with host := if s.host.fitted h.cursor D = [] then s.host
      else s.host.overwrite id h.cursor (s.host.fitted h.cursor D) } : Service).moveCursor fd h
        (h.cursor + (s.host.fitted h.cursor D).length) =
      s.laid fd h id (s.host.fitted h.cursor D) := by
    unfold laid
    by_cases hnone : s.host.fitted h.cursor D = []
    · rw [if_pos hnone, if_pos hnone, hnone]
      exact moveCursor_self hl hid
    · rw [if_neg hnone, if_neg hnone]
  by_cases hstop : (s.host.fitted h.cursor D).length < D.length
  · rw [if_pos hstop] at hw ⊢
    rw [write_of_stopped hh ha hw, hstate]
  · rw [if_neg hstop] at hw ⊢
    rw [write_of_done hh ha hw, hstate]

theorem lookup_laid (hl : s.table.lookup fd = some (.file h)) (hid : h.object = .file id)
    (D : List UInt8) (q : Fd) : (s.laid fd h id D).table.lookup q =
      if q = fd then some (.file { h with cursor := h.cursor + D.length })
      else s.table.lookup q := by
  unfold laid
  by_cases hD : D = []
  · subst hD
    rw [if_pos rfl]
    split
    · next hq => rw [hq, hl]; rfl
    · rfl
  · rw [if_neg hD, lookup_moveCursor_file _ fd q hid]

theorem file?_laid (hf : s.host.file? id = some f) {D : List UInt8} (hD : D ≠ []) (q : FileId) :
    (s.laid fd h id D).host.file? q =
      if q = id then some { f with content := f.content.write h.cursor D, modified := s.host.now }
      else s.host.file? q := by
  unfold laid
  rw [if_neg hD]
  exact Host.file?_overwrite hf D q

/-- What is laid takes no room from what comes behind it. -/
theorem fitted_laid (s : Service) (fd : Fd) (h : Handle) (id : FileId) (D : List UInt8) (pos : Nat)
    (b : List UInt8) : (s.laid fd h id D).host.fitted pos b = s.host.fitted pos b := by
  have hlimit : (s.laid fd h id D).host.writeLimit = s.host.writeLimit := by
    unfold laid
    split
    · rfl
    · obtain ⟨files, hfiles⟩ := s.host.overwrite_files id h.cursor D
      rw [hfiles]
      rfl
  unfold Host.fitted Host.room
  rw [hlimit]

/-- **What laying bytes changes**: the file from the cursor on, and the cursor. -/
theorem laid_of_file (hl : s.table.lookup fd = some (.file h)) (hid : h.object = .file id)
    (hf : s.host.file? id = some f) {D : List UInt8} (hD : D ≠ []) :
    s.Laid fd h id f.content.toList D (s.laid fd h id D) where
  bytes := ⟨_, (file?_laid hf hD id).trans (if_pos rfl), Content.toList_write _ _ _⟩
  cursor := (lookup_laid hl hid D fd).trans (if_pos rfl)
  files q hq := (file?_laid hf hD q).trans (if_neg hq)
  handles q hq := (lookup_laid hl hid D q).trans (if_neg hq)
  entries := by
    obtain ⟨files, hfiles⟩ := s.host.overwrite_files id h.cursor D
    unfold laid
    rw [if_neg hD, hfiles]
    rfl

/-! ## 4. Piece by piece -/

/-- Both services have the same bytes in every file, and the same handle behind every descriptor. -/
structure SameBytes (s s' : Service) : Prop where
  bytes : ∀ q, (s'.host.contentOf q).toList = (s.host.contentOf q).toList
  handles : ∀ q, s'.table.lookup q = s.table.lookup q

theorem SameBytes.refl (s : Service) : SameBytes s s := ⟨fun _ => rfl, fun _ => rfl⟩

/-- **Pieces that are laid one after the other** make one. -/
theorem sameBytes_laid_append (hl : s.table.lookup fd = some (.file h)) (hid : h.object = .file id)
    (hf : s.host.file? id = some f) (D E : List UInt8) :
    SameBytes (s.laid fd h id (D ++ E))
      ((s.laid fd h id D).laid fd { h with cursor := h.cursor + D.length } id E) := by
  by_cases hD : D = []
  · subst hD
    exact .refl _
  by_cases hE : E = []
  · subst hE
    rw [List.append_nil]
    exact .refl _
  have hDE : D ++ E ≠ [] := List.append_ne_nil_of_left_ne_nil hD E
  have hlD := (lookup_laid hl hid D fd).trans (if_pos rfl)
  have hfD : (s.laid fd h id D).host.file? id = some _ :=
    (file?_laid hf hD id).trans (if_pos rfl)
  refine ⟨fun q => ?_, fun q => ?_⟩
  · unfold Host.contentOf
    rw [file?_laid hfD hE, file?_laid hf hDE]
    by_cases hq : q = id
    · rw [if_pos hq, if_pos hq]
      show ((f.content.write h.cursor D).write (h.cursor + D.length) E).toList =
        (f.content.write h.cursor (D ++ E)).toList
      have hwrite : ∀ (c : Content) (pos : Nat) (b : List UInt8),
          (c.write pos b).toList = overlay c.toList pos b := fun c pos b => c.toList_write pos b
      rw [hwrite, hwrite, hwrite, overlay_overlay]
    · rw [if_neg hq, if_neg hq, file?_laid hf hD, if_neg hq]
  · rw [lookup_laid hlD hid, lookup_laid hl hid (D ++ E)]
    by_cases hq : q = fd
    · rw [if_pos hq, if_pos hq, List.length_append, Nat.add_assoc]
    · rw [if_neg hq, if_neg hq, lookup_laid hl hid, if_neg hq]

end Laid

end Service

end Telefile
