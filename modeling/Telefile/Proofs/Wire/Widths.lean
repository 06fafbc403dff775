import Mathlib.Algebra.Group.Int.Defs
import Mathlib.Algebra.Group.Nat.Defs
import Telefile.Request
import Telefile.Wire.Varint

/-!
# What fits on the wire

* `FitsSigned`, `FitsUnsigned`, `FitsText` — a field lies in the width it travels in;
* `Request.Fits`, `Response.Fits` — and so do all fields of a message;
* `Width.bound` — what a varint can hold.
-/

namespace Telefile

/-- Fits a signed word of `bits` bits. -/
def FitsSigned (bits : Nat) (i : Int) : Prop := -2 ^ (bits - 1) ≤ i ∧ i < 2 ^ (bits - 1)

/-- Fits an unsigned word of `bits` bits. -/
def FitsUnsigned (bits : Nat) (n : Nat) : Prop := n < 2 ^ bits

instance (bits : Nat) (i : Int) : Decidable (FitsSigned bits i) :=
  inferInstanceAs (Decidable (_ ∧ _))

instance (bits : Nat) (n : Nat) : Decidable (FitsUnsigned bits n) :=
  inferInstanceAs (Decidable (_ < _))

/-- A text whose length fits its length field. -/
def FitsText (s : String) : Prop := s.utf8ByteSize < 2 ^ 64

/-- Every field lies in the width it travels in. -/
def Request.Fits : Request → Prop
  | .openPath p m => (∀ s ∈ p, FitsText s) ∧ FitsUnsigned 32 m
  | .close fd => FitsSigned 32 fd
  | .write fd d => FitsSigned 32 fd ∧ d.length < 2 ^ 64
  | .read fd c => FitsSigned 32 fd ∧ ∀ n ∈ c, FitsUnsigned 64 n
  | .seek fd o w => FitsSigned 32 fd ∧ FitsSigned 64 o ∧ FitsUnsigned 32 w
  | .unlink p => ∀ s ∈ p, FitsText s
  | .stat p => ∀ s ∈ p, FitsText s
  | .listDir fd n b => FitsSigned 32 fd ∧ FitsUnsigned 64 n ∧ FitsUnsigned 64 b
  | .dirTree p => ∀ s ∈ p, FitsText s

/-- The attributes lie in their widths. -/
def FileAttr.Fits (a : FileAttr) : Prop :=
  FitsUnsigned 64 a.size ∧ FitsUnsigned 32 a.perm ∧ FitsSigned 64 a.modified.seconds ∧
    a.modified.nanos < 1000000000 ∧ FitsUnsigned 32 a.links

mutual

/-- The names and the numbers of children lie in their widths. -/
def DirTree.Fits : DirTree → Prop
  | .node n ts => FitsText n ∧ ts.length < 2 ^ 64 ∧ DirTree.FitAll ts

/-- Several hierarchies lie in their widths. -/
def DirTree.FitAll : List DirTree → Prop
  | [] => True
  | t :: ts => t.Fits ∧ DirTree.FitAll ts

end

/-- Every field lies in the width it travels in. -/
def Response.Fits : Response → Prop
  | .status r => FitsSigned 64 r
  | .data r b => FitsSigned 64 r ∧ b.length < 2 ^ 64
  | .attr r a => FitsSigned 64 r ∧ ∀ x ∈ a, x.Fits
  | .entries r b es =>
    FitsSigned 64 r ∧ FitsUnsigned 64 b ∧ es.length < 2 ^ 64 ∧ ∀ e ∈ es, FitsText e.name
  | .tree r t => FitsSigned 64 r ∧ ∀ x ∈ t, x.Fits

namespace Width

/-- The first value that no longer fits. -/
def bound (w : Width) : Nat := 128 ^ (w.groups - 1) * (w.last + 1)

end Width

end Telefile
