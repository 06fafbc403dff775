/-!
# Error numbers

A failed operation answers with a negated error number. Eleven numbers are issued; a reader of
results recognises exactly these.

* `Errno.neg` is the result code, `Errno.ofResult?` reads it back;
* `Errno.describe` names a number, known or not.
-/

namespace Telefile

/-- A positive error number of one byte. -/
structure Errno where
  value : UInt8
  deriving DecidableEq, Repr

namespace Errno

def notPermitted : Errno := ⟨1⟩
def noEntry : Errno := ⟨2⟩
def inputOutput : Errno := ⟨5⟩
def badDescriptor : Errno := ⟨9⟩
def accessDenied : Errno := ⟨13⟩
def badAddress : Errno := ⟨14⟩
def busy : Errno := ⟨16⟩
def alreadyExists : Errno := ⟨17⟩
def notDirectory : Errno := ⟨20⟩
def isDirectory : Errno := ⟨21⟩
def invalid : Errno := ⟨22⟩

/-- The numbers that operations issue. -/
def known : List Errno :=
  [notPermitted, noEntry, inputOutput, badDescriptor, accessDenied, badAddress, busy, alreadyExists,
    notDirectory, isDirectory, invalid]

/-- The result code of a failure. -/
def neg (e : Errno) : Int := -(e.value.toNat : Int)

/-- The known number that a result code carries. -/
def ofResult? (code : Int) : Option Errno := known.find? fun e => e.neg == code

/-- Symbolic name and description. -/
def describe (e : Errno) : String :=
  match e.value.toNat with
  | 1 => "EPERM: Operation not permitted"
  | 2 => "ENOENT: No such file or directory"
  | 5 => "EIO: I/O error"
  | 9 => "EBADF: Bad file number"
  | 13 => "EACCES: Permission denied"
  | 14 => "EFAULT: Bad address"
  | 16 => "EBUSY: Device or resource busy"
  | 17 => "EEXIST: File exists"
  | 20 => "ENOTDIR: Not a directory"
  | 21 => "EISDIR: Is a directory"
  | 22 => "EINVAL: Invalid argument"
  | _ => "unknown error"

/-- Number and description together. -/
def label (e : Errno) : String := s!"Errno({e.value.toNat} = {e.describe})"

theorem neg_inj {e e' : Errno} (h : e.neg = e'.neg) : e = e' := by
  obtain ⟨v⟩ := e
  obtain ⟨v'⟩ := e'
  have hv : v.toNat = v'.toNat := Int.ofNat.inj (Int.neg_inj.mp h)
  rw [UInt8.toNat_inj.mp hv]

theorem ofResult?_neg {e : Errno} (h : e ∈ known) : ofResult? e.neg = some e := by
  simp only [known, List.mem_cons, List.not_mem_nil, or_false] at h
  rcases h with rfl | rfl | rfl | rfl | rfl | rfl | rfl | rfl | rfl | rfl | rfl <;> decide

theorem value_pos {e : Errno} (h : e ∈ known) : 0 < e.value.toNat := by
  simp only [known, List.mem_cons, List.not_mem_nil, or_false] at h
  rcases h with rfl | rfl | rfl | rfl | rfl | rfl | rfl | rfl | rfl | rfl | rfl <;> decide

theorem ofResult?_of_nonneg {code : Int} (h : 0 ≤ code) : ofResult? code = none := by
  simp only [ofResult?, List.find?_eq_none, beq_iff_eq]
  intro e he heq
  have := value_pos he
  simp only [neg] at heq
  omega

end Errno

end Telefile
