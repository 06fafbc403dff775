import Telefile.Dictionary
import Telefile.Request

/-!
# The descriptor table

Open files by descriptor, and a counter that issues descriptors. A value is never issued twice:
closing a descriptor does not give its number back, and the counter stops at the largest value
instead of wrapping.

* `allocate` issues a number, `open?` stores a file under a fresh one;
* `lookup`, `remove`, `contains` and `size` look at the stored files; `lookup_insert` and
  `lookup_of_remove` say what they see after a change.
-/

namespace Telefile

/-- Descriptors are issued above this value, clear of the standard streams. -/
def descriptorBase : Fd := 1000

/-- The largest descriptor. -/
def maxDescriptor : Fd := 2147483647

/-- The stored files, and the last number issued. -/
structure DescriptorTable (φ : Type) where
  last : Fd
  files : Dictionary Fd φ

namespace DescriptorTable

variable {φ : Type}

/-- A table whose first descriptor will be `last + 1`. -/
def startingAfter (last : Fd) : DescriptorTable φ := ⟨last, .empty⟩

/-- The table of a new service. -/
def new : DescriptorTable φ := startingAfter descriptorBase

/-- Issues the next number, as long as there is one. -/
def allocate (t : DescriptorTable φ) : Option (Fd × DescriptorTable φ) :=
  if t.last < maxDescriptor then some (t.last + 1, { t with last := t.last + 1 }) else none

/-- Stores a file under a number. -/
def insert (t : DescriptorTable φ) (fd : Fd) (f : φ) : DescriptorTable φ :=
  { t with files := t.files.insert fd f }

/-- Stores a file under a fresh number. -/
def open? (t : DescriptorTable φ) (f : φ) : Option (Fd × DescriptorTable φ) :=
  t.allocate.map fun r => (r.1, r.2.insert r.1 f)

/-- The file stored under a number. -/
def lookup (t : DescriptorTable φ) (fd : Fd) : Option φ := t.files.get? fd

/-- Takes the file out that is stored under a number. -/
def remove (t : DescriptorTable φ) (fd : Fd) : Option (φ × DescriptorTable φ) :=
  (t.lookup fd).map fun f => (f, { t with files := t.files.erase fd })

/-- Whether a file is stored under a number. -/
def contains (t : DescriptorTable φ) (fd : Fd) : Bool := t.files.contains fd

/-- The number of stored files. -/
def size (t : DescriptorTable φ) : Nat := t.files.size

/-- Whether no file is stored. -/
def isEmpty (t : DescriptorTable φ) : Bool := t.size == 0

/-! ## What is stored -/

theorem lookup_startingAfter (last fd : Fd) :
    (startingAfter last : DescriptorTable φ).lookup fd = none := by
  simp [startingAfter, lookup]

theorem lookup_insert (t : DescriptorTable φ) (fd q : Fd) (f : φ) :
    (t.insert fd f).lookup q = if q = fd then some f else t.lookup q := by
  simp [insert, lookup, Dictionary.get?_insert]

theorem lookup_of_remove {t t' : DescriptorTable φ} {fd : Fd} {f : φ}
    (h : t.remove fd = some (f, t')) (q : Fd) :
    t'.lookup q = if q = fd then none else t.lookup q := by
  unfold remove at h
  obtain ⟨g, _, hg⟩ := Option.map_eq_some_iff.mp h
  cases hg
  simp [lookup, Dictionary.get?_erase]

end DescriptorTable

end Telefile
