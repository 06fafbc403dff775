/-!
# The bytes of a file

A file's bytes are kept as runs, so that a hole of any length costs nothing. `Content.toList` is
the byte string they stand for, and every operation is said on it:

* `size_eq` — the size is the length;
* `toList_take`, `toList_drop`, `toList_append` — cutting and joining;
* **`toList_write`** — a write lays bytes over the file at a position, with zeros in any gap;
* `read_eq` — a read takes bytes from a position on.
-/

namespace Telefile

/-- A run of bytes. -/
inductive Run
  | hole (n : Nat)
  | bytes (b : List UInt8)
  deriving DecidableEq, Repr

namespace Run

/-- The bytes of a run. -/
def toList : Run → List UInt8
  | hole n => List.replicate n 0
  | bytes b => b

/-- The length of a run. -/
def size : Run → Nat
  | hole n => n
  | bytes b => b.length

/-- The first `n` bytes of a run. -/
def take (n : Nat) : Run → Run
  | hole m => hole (min n m)
  | bytes b => bytes (b.take n)

/-- What follows the first `n` bytes of a run. -/
def drop (n : Nat) : Run → Run
  | hole m => hole (m - n)
  | bytes b => bytes (b.drop n)

@[simp] theorem length_toList (r : Run) : r.toList.length = r.size := by
  cases r <;> simp [toList, size]

@[simp] theorem toList_take (n : Nat) (r : Run) : (r.take n).toList = r.toList.take n := by
  cases r <;> simp [toList, take]

@[simp] theorem toList_drop (n : Nat) (r : Run) : (r.drop n).toList = r.toList.drop n := by
  cases r <;> simp [toList, drop]

end Run

/-- The bytes of a file, as runs. -/
structure Content where
  runs : List Run
  deriving DecidableEq, Repr

namespace Content

/-! ## 1. The view -/

/-- The bytes that the runs stand for. -/
def toList (c : Content) : List UInt8 := c.runs.flatMap Run.toList

/-- No bytes. -/
def empty : Content := ⟨[]⟩

instance : Inhabited Content := ⟨empty⟩

/-- Exactly the bytes `b`. -/
def ofList (b : List UInt8) : Content := ⟨[.bytes b]⟩

/-- The number of bytes. -/
def size (c : Content) : Nat := c.runs.foldr (fun r n => r.size + n) 0

@[simp] theorem toList_ofList (b : List UInt8) : (ofList b).toList = b := by
  simp [toList, ofList, Run.toList]

theorem size_eq (c : Content) : c.size = c.toList.length := by
  obtain ⟨rs⟩ := c
  unfold size toList
  induction rs with
  | nil => rfl
  | cons r rs ih =>
    rw [List.foldr_cons, ih, List.flatMap_cons, List.length_append, Run.length_toList]

/-! ## 2. Cutting and joining -/

/-- The runs of the first `n` bytes. -/
def takeRuns : Nat → List Run → List Run
  | _, [] => []
  | n, r :: rs => if n ≤ r.size then [r.take n] else r :: takeRuns (n - r.size) rs

/-- The runs of what follows the first `n` bytes. -/
def dropRuns : Nat → List Run → List Run
  | _, [] => []
  | n, r :: rs => if n < r.size then r.drop n :: rs else dropRuns (n - r.size) rs

/-- The first `n` bytes. -/
def take (n : Nat) (c : Content) : Content := ⟨takeRuns n c.runs⟩

/-- What follows the first `n` bytes. -/
def drop (n : Nat) (c : Content) : Content := ⟨dropRuns n c.runs⟩

/-- One after the other. -/
def append (c d : Content) : Content := ⟨c.runs ++ d.runs⟩

/-- Cut to `n` bytes, or extended to them by a hole. -/
def resize (n : Nat) (c : Content) : Content :=
  if n ≤ c.size then c.take n else c.append ⟨[.hole (n - c.size)]⟩

@[simp] theorem toList_append (c d : Content) : (c.append d).toList = c.toList ++ d.toList := by
  simp [toList, append]

theorem flatMap_takeRuns (n : Nat) (rs : List Run) :
    (takeRuns n rs).flatMap Run.toList = (rs.flatMap Run.toList).take n := by
  induction rs generalizing n with
  | nil => simp [takeRuns]
  | cons r rs ih =>
    unfold takeRuns
    split
    · next h =>
      simp only [List.flatMap_cons, List.flatMap_nil, List.append_nil, Run.toList_take]
      rw [List.take_append_of_le_length (by simpa using h)]
    · next h =>
      simp only [List.flatMap_cons, ih]
      have hr : r.toList.length ≤ n := by rw [Run.length_toList]; omega
      rw [List.take_append, List.take_of_length_le hr, Run.length_toList]

theorem flatMap_dropRuns (n : Nat) (rs : List Run) :
    (dropRuns n rs).flatMap Run.toList = (rs.flatMap Run.toList).drop n := by
  induction rs generalizing n with
  | nil => simp [dropRuns]
  | cons r rs ih =>
    unfold dropRuns
    split
    · next h =>
      simp only [List.flatMap_cons, Run.toList_drop]
      rw [List.drop_append_of_le_length (by simp; omega)]
    · next h =>
      simp only [List.flatMap_cons, ih]
      have hr : r.toList.length ≤ n := by rw [Run.length_toList]; omega
      rw [List.drop_append, List.drop_of_length_le hr, Run.length_toList, List.nil_append]

@[simp] theorem toList_take (n : Nat) (c : Content) : (c.take n).toList = c.toList.take n :=
  flatMap_takeRuns n c.runs

@[simp] theorem toList_drop (n : Nat) (c : Content) : (c.drop n).toList = c.toList.drop n :=
  flatMap_dropRuns n c.runs

theorem toList_resize (n : Nat) (c : Content) :
    (c.resize n).toList = c.toList.take n ++ List.replicate (n - c.toList.length) 0 := by
  unfold resize
  rw [size_eq]
  split
  · next h => simp [Nat.sub_eq_zero_of_le h]
  · next h =>
    rw [toList_append, List.take_of_length_le (by omega)]
    simp [toList, Run.toList]

/-! ## 3. Reading and writing -/

/-- At most `n` bytes from position `pos` on. -/
def read (pos n : Nat) (c : Content) : List UInt8 := ((c.drop pos).take n).toList

/-- Lays `b` over the file at `pos`; a gap before it is filled with zeros. -/
def write (pos : Nat) (b : List UInt8) (c : Content) : Content :=
  ((c.resize pos).append (ofList b)).append (c.drop (pos + b.length))

theorem read_eq (pos n : Nat) (c : Content) : c.read pos n = (c.toList.drop pos).take n := by
  simp [read]

/-- **A write on the bytes themselves.** -/
theorem toList_write (pos : Nat) (b : List UInt8) (c : Content) :
    (c.write pos b).toList =
      c.toList.take pos ++ List.replicate (pos - c.toList.length) 0 ++ b ++
        c.toList.drop (pos + b.length) := by
  simp [write, toList_resize]

end Content

end Telefile
