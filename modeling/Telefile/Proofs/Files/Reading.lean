import Telefile.Proofs.Steps
import Telefile.Session

/-!
# Bytes read back

One read gives no more than a transfer and a chunk, so what lies in a file is read back in several.
Reads that follow each other give together what one read of all their bytes would give.

* `Session.readAll` — reads of one descriptor, one after the other;
* **`Session.readAll_file`** — what they give together;
* `missing` — what a reader asks for who always asks for the rest; `total_missing` — how much that
  comes to.
-/

namespace Telefile

/-! ## 1. One read -/

namespace Service

/-- The most bytes that one read gives. -/
def readCap (s : Service) : Nat := min s.settings.maxTransfer Host.readChunk

/-- **A read of a file**, in one equation. -/
theorem read_file {s : Service} {fd : Fd} {h : Handle} {id : FileId}
    (hl : s.table.lookup fd = some (.file h)) (hid : h.object = .file id) (n : Nat) :
    let bytes := ((s.host.contentOf id).toList.drop h.cursor).take (min n s.readCap)
    s.read fd (some n) = ⟨.ok bytes, s.moveCursor fd h (h.cursor + bytes.length), []⟩ := by
  intro bytes
  have hbytes : s.host.readAt h.object h.cursor (min n s.settings.maxTransfer) = bytes := by
    rw [hid]
    show (s.host.contentOf id).read h.cursor (min (min n s.settings.maxTransfer) Host.readChunk) = _
    rw [Content.read_eq, Nat.min_assoc]
    rfl
  unfold read
  rw [handle_of_file hl]
  simp only [hbytes]

end Service

/-! ## 2. Reads that follow each other -/

/-- Reads of `fd` with the given capacities, one after the other: the bytes they give together, and
the service after them. -/
def Session.readAll (c : Session) (s : Service) (fd : Fd) : List Nat → List UInt8 × Service
  | [] => ([], s)
  | n :: ns =>
    let r := c.read s fd (some n)
    let rest := c.readAll r.state.2 fd ns
    (r.answer.2 ++ rest.1, rest.2)

/-- How many bytes reads with the given capacities give at most, if one gives at most `cap`. -/
def total (cap : Nat) : List Nat → Nat
  | [] => 0
  | n :: ns => min n cap + total cap ns

theorem total_append (cap : Nat) (ns ms : List Nat) :
    total cap (ns ++ ms) = total cap ns + total cap ms := by
  induction ns with
  | nil => exact (Nat.zero_add _).symm
  | cons n ns ih =>
    show min n cap + total cap (ns ++ ms) = min n cap + total cap ns + total cap ms
    rw [ih, Nat.add_assoc]

/-- Where a piece was taken, the next one follows it. -/
theorem take_append_take (F : List UInt8) (c m k : Nat) :
    (F.drop c).take m ++ (F.drop (c + ((F.drop c).take m).length)).take k =
      (F.drop c).take (m + k) := by
  rw [List.take_add, ← List.drop_drop]
  congr 2
  rcases Nat.le_total m (F.drop c).length with hle | hle
  · rw [List.length_take, Nat.min_eq_left hle]
  · rw [List.take_of_length_le hle, List.drop_of_length_le (Nat.le_refl _),
      List.drop_of_length_le hle]

/-- **Reads that follow each other** give together the bytes from the cursor on. -/
theorem Session.readAll_file (c : Session) {fd : Fd} {id : FileId} (ns : List Nat) :
    ∀ {s : Service} {h : Handle}, s.table.lookup fd = some (.file h) → h.object = .file id →
      (c.readAll s fd ns).1 =
        ((s.host.contentOf id).toList.drop h.cursor).take (total s.readCap ns) := by
  induction ns with
  | nil =>
    intro s h _ _
    exact List.take_zero.symm
  | cons n ns ih =>
    intro s h hl hid
    have hread := Service.read_file hl hid n
    generalize hbytes : ((s.host.contentOf id).toList.drop h.cursor).take (min n s.readCap) = bytes
      at hread
    have hfirst : (c.read s fd (some n)).answer.2 = bytes := by
      show (s.read fd (some n)).answer.toOption.getD [] = bytes
      rw [hread]
      rfl
    have hafter : (c.read s fd (some n)).state.2 =
        s.moveCursor fd h (h.cursor + bytes.length) := congrArg Step.state hread
    have hl' : (s.moveCursor fd h (h.cursor + bytes.length)).table.lookup fd =
        some (.file { h with cursor := h.cursor + bytes.length }) :=
      (s.lookup_moveCursor_file fd fd hid _).trans (if_pos rfl)
    show (c.read s fd (some n)).answer.2 ++
      (c.readAll (c.read s fd (some n)).state.2 fd ns).1 = _
    rw [hfirst, hafter, ih hl' hid]
    show bytes ++ ((s.host.contentOf id).toList.drop (h.cursor + bytes.length)).take
      (total s.readCap ns) = ((s.host.contentOf id).toList.drop h.cursor).take
        (min n s.readCap + total s.readCap ns)
    rw [← hbytes]
    exact take_append_take _ _ _ _

/-! ## 3. A reader who asks for the rest -/

/-- The capacities of `k` reads that each ask for what is still missing of `n` bytes, if one gives
`cap`. -/
def missing (cap n k : Nat) : List Nat := (List.range k).map fun i => n - i * cap

theorem total_missing (cap n k : Nat) : total cap (missing cap n k) = min n (k * cap) := by
  unfold missing
  induction k with
  | zero => rw [Nat.zero_mul, Nat.min_zero]; rfl
  | succ k ih =>
    rw [List.range_succ, List.map_append, total_append, ih, Nat.succ_mul]
    show min n (k * cap) + (min (n - k * cap) cap + 0) = _
    omega

/-- Whoever asks for the rest as often as needed reads what is there. -/
theorem Session.readAll_missing (c : Session) {s : Service} {fd : Fd} {h : Handle} {id : FileId}
    (hl : s.table.lookup fd = some (.file h)) (hid : h.object = .file id) {D rest : List UInt8}
    (hbytes : (s.host.contentOf id).toList.drop h.cursor = D ++ rest) {k : Nat}
    (hk : D.length ≤ k * s.readCap) :
    (c.readAll s fd (missing s.readCap D.length k)).1 = D := by
  rw [c.readAll_file _ hl hid, total_missing, Nat.min_eq_left hk, hbytes, List.take_left]

end Telefile
