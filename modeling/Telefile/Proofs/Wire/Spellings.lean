import Telefile.Proofs.Wire.Prefixes

/-!
# Spellings of a body

A number may be written in more groups than it needs, up to those that its width admits: the groups
in front of it are zeros. Everything else in a body is written in one way. So a body is a row of
pieces, of which the numbers have several spellings and one shortest.

* `Varint.Spells` — the spellings of a number; **`Varint.spells_of_decode`** — no others are read;
* `Wire.Piece`, `Wire.Spelt` — the pieces of a body, and the bytes that spell them;
* **`Wire.Spelt.length_le`**, `Wire.Spelt.eq_of_length_le` — the shortest spelling of a body;
* `Wire.Pieces` — the pieces of every field;
* `Reader.Yields` — what a reader takes spells the pieces of what it finds in it; kept by composition,
  and so by every field.
-/

namespace Telefile

/-! ## 1. Numbers -/

namespace Varint

/-- A number in exactly so many groups. Those that it does not fill are zeros. -/
def spread : Nat → Nat → List UInt8
  | 0, _ => []
  | 1, n => [UInt8.ofNat n]
  | k + 2, n => UInt8.ofNat (n % 128 + 128) :: spread (k + 1) (n / 128)

@[simp] theorem length_spread (k n : Nat) : (spread k n).length = k := by
  induction k generalizing n with
  | zero => rfl
  | succ k ih =>
    cases k with
    | zero => rfl
    | succ k => rw [spread, List.length_cons, ih]

/-- A number that `k` groups hold is written in as many as it needs. -/
theorem groups_eq_spread (k : Nat) :
    ∀ {n : Nat}, n < 128 ^ k → groups k n = spread (groups k n).length n := by
  induction k with
  | zero => exact fun _ => rfl
  | succ k ih =>
    intro n hn
    unfold groups
    split
    · rfl
    · next hlarge =>
      cases k with
      | zero => exact absurd hn hlarge
      | succ k =>
        have hrest := ih (n := n / 128) (by rw [Nat.pow_succ] at hn; omega)
        obtain ⟨j, hj⟩ : ∃ j, (groups (k + 1) (n / 128)).length = j + 1 := by
          unfold groups
          split
          · exact ⟨0, rfl⟩
          · exact ⟨_, rfl⟩
        rw [List.length_cons, hj, spread, ← hj, ← hrest]

/-- The bytes are a spelling of the number: in as many groups as it needs, or in more, up to those
of the width. -/
structure Spells (w : Width) (n : Nat) (c : List UInt8) : Prop where
  fits : n < w.bound
  groups : ∃ more, (encode w n).length + more ≤ w.groups ∧
    c = spread ((encode w n).length + more) n

section Spells

variable {w : Width} {n : Nat} {c : List UInt8}

theorem Spells.length_le (h : Spells w n c) : (encode w n).length ≤ c.length := by
  obtain ⟨more, -, rfl⟩ := h.groups
  rw [length_spread]
  exact Nat.le_add_right _ _

/-- What a width admits, its groups hold. -/
theorem lt_pow_groups (hgroups : 0 < w.groups) (hlast : w.last < 128) (h : n < w.bound) :
    n < 128 ^ w.groups := by
  obtain ⟨k, hk⟩ : ∃ k, w.groups = k + 1 := ⟨w.groups - 1, by omega⟩
  unfold Width.bound at h
  rw [hk] at h ⊢
  calc n < 128 ^ k * (w.last + 1) := h
    _ ≤ 128 ^ k * 128 := Nat.mul_le_mul_left _ hlast
    _ = 128 ^ (k + 1) := (Nat.pow_succ ..).symm

/-- A spelling that is no longer than the shortest is the shortest. -/
theorem Spells.eq_of_length_le (hgroups : 0 < w.groups) (hlast : w.last < 128) (h : Spells w n c)
    (hle : c.length ≤ (encode w n).length) : c = encode w n := by
  obtain ⟨more, -, rfl⟩ := h.groups
  rw [length_spread] at hle
  obtain rfl : more = 0 := by omega
  exact (groups_eq_spread _ (lt_pow_groups hgroups hlast h.fits)).symm

end Spells

/-- Groups that are read are those of the number that is found, and it stays within its bound. -/
theorem spread_of_readGroups {last : Nat} (k : Nat) :
    ∀ {b rest : List UInt8} {n : Nat}, readGroups last (k + 1) b = .ok (n, rest) →
      ∃ j, j ≤ k ∧ n < 128 ^ (j + 1) ∧ n < 128 ^ k * (last + 1) ∧ b = spread (j + 1) n ++ rest := by
  induction k with
  | zero =>
    intro b rest n h
    obtain ⟨x, tail, rfl, ⟨hx, hlast, rfl, rfl⟩ | ⟨-, m, hm, -⟩⟩ := readGroups_eq_ok_iff.mp h
    · have hsmall : x.toNat ≤ last := Nat.le_of_not_lt fun hlt => hlast ⟨rfl, hlt⟩
      refine ⟨0, Nat.le_refl 0, UInt8.lt_iff_toNat_lt.mp hx, ?_, ?_⟩
      · rw [Nat.pow_zero, Nat.one_mul]
        exact Nat.lt_succ_of_le hsmall
      · rw [spread, UInt8.ofNat_toNat, List.singleton_append]
    · cases hm
  | succ k ih =>
    intro b rest n h
    obtain ⟨x, tail, rfl, ⟨hx, -, rfl, rfl⟩ | ⟨hx, m, hm, rfl⟩⟩ := readGroups_eq_ok_iff.mp h
    · have hx' : x.toNat < 128 := UInt8.lt_iff_toNat_lt.mp hx
      refine ⟨0, Nat.zero_le _, hx', ?_, ?_⟩
      · calc x.toNat < 128 := hx'
          _ ≤ 128 ^ (k + 1) := Nat.le_self_pow (Nat.succ_ne_zero k) 128
          _ ≤ 128 ^ (k + 1) * (last + 1) := Nat.le_mul_of_pos_right _ (Nat.succ_pos last)
      · rw [spread, UInt8.ofNat_toNat, List.singleton_append]
    · obtain ⟨j, hj, hm, hbound, rfl⟩ := ih hm
      have hlarge : 128 ≤ x.toNat := by
        rw [UInt8.lt_iff_toNat_lt] at hx
        exact Nat.le_of_not_lt hx
      have hsmall : x.toNat < 256 := x.toNat_lt
      have hmod : (x.toNat - 128 + 128 * m) % 128 + 128 = x.toNat := by omega
      have hdiv : (x.toNat - 128 + 128 * m) / 128 = m := by omega
      refine ⟨j + 1, Nat.succ_le_succ hj, ?_, ?_, ?_⟩
      · rw [Nat.pow_succ]
        omega
      · have hstep : 128 ^ (k + 1) * (last + 1) = 128 ^ k * (last + 1) * 128 := by
          rw [Nat.pow_succ, Nat.mul_right_comm]
        rw [hstep]
        omega
      · rw [spread, hmod, hdiv, UInt8.ofNat_toNat, List.cons_append]

/-- **What is read as a number spells it.** -/
theorem spells_of_decode {w : Width} (hgroups : 0 < w.groups) {b rest : List UInt8} {n : Nat}
    (h : decode w b = .ok (n, rest)) :
    ∃ c, b = c ++ rest ∧ Spells w n c := by
  obtain ⟨k, hk⟩ : ∃ k, w.groups = k + 1 := ⟨w.groups - 1, by omega⟩
  unfold decode at h
  rw [hk] at h
  obtain ⟨j, hj, hn, hbound, hb⟩ := spread_of_readGroups k h
  have hle : (encode w n).length ≤ j + 1 := length_groups_le_of_lt _ hn
  refine ⟨_, hb, ?_, j + 1 - (encode w n).length, by omega, ?_⟩
  · unfold Width.bound
    rw [hk]
    exact hbound
  · rw [Nat.add_sub_cancel' hle]

end Varint

/-! ## 2. Pieces -/

namespace Wire

/-- A piece of a body: bytes that stand as they are, or a number in a field of some width. -/
inductive Piece
  | bytes (b : List UInt8)
  | number (w : Width) (n : Nat)
  deriving DecidableEq, Repr

namespace Piece

/-- The shortest bytes for a piece. -/
def shortest : Piece → List UInt8
  | bytes b => b
  | number w n => Varint.encode w n

/-- The bytes are a spelling of the piece. Only numbers of a width that is in use have any. -/
def Spells : Piece → List UInt8 → Prop
  | bytes b, c => c = b
  | number w n, c => (w = .word32 ∨ w = .word64) ∧ Varint.Spells w n c

variable {p : Piece} {c : List UInt8}

theorem Spells.length_le (h : p.Spells c) : p.shortest.length ≤ c.length := by
  cases p with
  | bytes b => exact Nat.le_of_eq (congrArg List.length h).symm
  | number w n => exact h.2.length_le

theorem Spells.eq_of_length_le (h : p.Spells c) (hle : c.length ≤ p.shortest.length) :
    c = p.shortest := by
  cases p with
  | bytes b => exact h
  | number w n =>
    obtain ⟨rfl | rfl, hn⟩ := h
    · exact hn.eq_of_length_le (by decide) (by decide) hle
    · exact hn.eq_of_length_le (by decide) (by decide) hle

end Piece

/-- The shortest bytes for pieces in a row. -/
def shortest (ps : List Piece) : List UInt8 := ps.flatMap Piece.shortest

/-- The bytes spell the pieces, one after the other. -/
inductive Spelt : List Piece → List UInt8 → Prop
  | nil : Spelt [] []
  | cons {p ps c d} (hp : p.Spells c) (hps : Spelt ps d) : Spelt (p :: ps) (c ++ d)

section Spelt

variable {ps qs : List Piece} {c d : List UInt8}

theorem Spelt.single {p : Piece} (hp : p.Spells c) : Spelt [p] c := by
  have h := Spelt.cons hp .nil
  rwa [List.append_nil] at h

theorem Spelt.append (hc : Spelt ps c) (hd : Spelt qs d) : Spelt (ps ++ qs) (c ++ d) := by
  induction hc with
  | nil => exact hd
  | cons hp _ ih =>
    rw [List.cons_append, List.append_assoc]
    exact .cons hp ih

/-- **No spelling is shorter** than that with the shortest numbers. -/
theorem Spelt.length_le (h : Spelt ps c) : (shortest ps).length ≤ c.length := by
  induction h with
  | nil => exact Nat.le_refl 0
  | @cons p ps c d hp _ ih =>
    have hfirst := hp.length_le
    show (p.shortest ++ shortest ps).length ≤ _
    rw [List.length_append, List.length_append]
    omega

/-- **And none is as short** but that one. -/
theorem Spelt.eq_of_length_le (h : Spelt ps c) (hle : c.length ≤ (shortest ps).length) :
    c = shortest ps := by
  induction h with
  | nil => rfl
  | @cons p ps c d hp hps ih =>
    have hfirst := hp.length_le
    have hrest := hps.length_le
    change (c ++ d).length ≤ (p.shortest ++ shortest ps).length at hle
    rw [List.length_append, List.length_append] at hle
    show c ++ d = p.shortest ++ shortest ps
    rw [hp.eq_of_length_le (by omega), ih (by omega)]

end Spelt

/-! ## 3. Fields -/

namespace Pieces

def int32 (i : Int) : List Piece := [.number .word32 (Varint.zigzag i)]

def int64 (i : Int) : List Piece := [.number .word64 (Varint.zigzag i)]

def nat32 (n : Nat) : List Piece := [.number .word32 n]

def nat64 (n : Nat) : List Piece := [.number .word64 n]

def blob (b : List UInt8) : List Piece := nat64 b.length ++ [.bytes b]

def text (s : String) : List Piece := blob (Utf8.encode s)

def option {α : Type} (put : α → List Piece) : Option α → List Piece
  | none => [.bytes [0]]
  | some a => .bytes [1] :: put a

def sequence {α : Type} (put : α → List Piece) (as : List α) : List Piece :=
  nat64 as.length ++ as.flatMap put

def kind (k : FileKind) : List Piece := nat32 (kindIndex k)

def attr (a : FileAttr) : List Piece :=
  nat64 a.size ++ kind a.kind ++ nat32 a.perm ++
    (nat64 a.modified.seconds.toNat ++ nat32 a.modified.nanos) ++ nat32 a.links

def entry (e : DirEntry) : List Piece := text e.name ++ kind e.kind

mutual

def tree : DirTree → List Piece
  | .node n ts => text n ++ nat64 ts.length ++ trees ts

def trees : List DirTree → List Piece
  | [] => []
  | t :: ts => tree t ++ trees ts

end

theorem trees_eq (ts : List DirTree) : trees ts = ts.flatMap tree := by
  induction ts with
  | nil => rfl
  | cons t ts ih => rw [trees, ih, List.flatMap_cons]

end Pieces

/-! The bytes of a field are the shortest for its pieces. -/

section Shortest

@[simp] theorem shortest_append (ps qs : List Piece) :
    shortest (ps ++ qs) = shortest ps ++ shortest qs := List.flatMap_append

@[simp] theorem shortest_int32 (i : Int) : shortest (Pieces.int32 i) = int32 i :=
  List.append_nil _

@[simp] theorem shortest_int64 (i : Int) : shortest (Pieces.int64 i) = int64 i :=
  List.append_nil _

@[simp] theorem shortest_nat32 (n : Nat) : shortest (Pieces.nat32 n) = nat32 n :=
  List.append_nil _

@[simp] theorem shortest_nat64 (n : Nat) : shortest (Pieces.nat64 n) = nat64 n :=
  List.append_nil _

@[simp] theorem shortest_blob (b : List UInt8) : shortest (Pieces.blob b) = blob b := by
  rw [Pieces.blob, blob, shortest_append, shortest_nat64]
  exact congrArg (_ ++ ·) (List.append_nil b)

@[simp] theorem shortest_text (s : String) : shortest (Pieces.text s) = text s := shortest_blob _

@[simp] theorem shortest_kind (k : FileKind) : shortest (Pieces.kind k) = kind k :=
  shortest_nat32 _

variable {α : Type} {put : α → List Piece} {bytes : α → List UInt8}

theorem shortest_option (h : ∀ a, shortest (put a) = bytes a) (o : Option α) :
    shortest (Pieces.option put o) = option bytes o := by
  cases o with
  | none => rfl
  | some a =>
    show 1 :: shortest (put a) = _
    rw [h]
    rfl

theorem shortest_flatMap (h : ∀ a, shortest (put a) = bytes a) (as : List α) :
    shortest (as.flatMap put) = as.flatMap bytes := by
  induction as with
  | nil => rfl
  | cons a as ih => rw [List.flatMap_cons, List.flatMap_cons, shortest_append, h, ih]

theorem shortest_sequence (h : ∀ a, shortest (put a) = bytes a) (as : List α) :
    shortest (Pieces.sequence put as) = sequence bytes as := by
  rw [Pieces.sequence, sequence, shortest_append, shortest_nat64, shortest_flatMap h]

@[simp] theorem shortest_attr (a : FileAttr) : shortest (Pieces.attr a) = attr a := by
  simp only [Pieces.attr, attr, shortest_append, shortest_nat64, shortest_nat32, shortest_kind]

@[simp] theorem shortest_entry (e : DirEntry) : shortest (Pieces.entry e) = entry e := by
  rw [Pieces.entry, entry, shortest_append, shortest_text, shortest_kind]

mutual

@[simp] theorem shortest_tree : ∀ t, shortest (Pieces.tree t) = tree t
  | .node n ts => by
    rw [Pieces.tree, tree, shortest_append, shortest_append, shortest_text, shortest_nat64,
      shortest_trees ts]

theorem shortest_trees : ∀ ts, shortest (Pieces.trees ts) = trees ts
  | [] => rfl
  | t :: ts => by rw [Pieces.trees, trees, shortest_append, shortest_tree t, shortest_trees ts]

end

end Shortest

end Wire

/-! ## 4. What a reader takes -/

namespace Reader

open Wire

variable {α β : Type}

/-- Behind bytes that spell the pieces `front`, the reader takes bytes that spell what then is
missing of the pieces of its value. -/
def Yields (r : Reader α) (front : List Piece) (Fit : α → Prop) (pieces : α → List Piece) : Prop :=
  ∀ b a rest, r b = .ok (a, rest) →
    Fit a ∧ ∃ missing, pieces a = front ++ missing ∧ ∃ c, b = c ++ rest ∧ Spelt missing c

section Yields

variable {front : List Piece} {Fit : α → Prop} {pieces : α → List Piece} {FitAll : β → Prop}
  {all : β → List Piece}

theorem yields_pure {a : α} (hfit : Fit a) (hpieces : pieces a = front) :
    (pure a : Reader α).Yields front Fit pieces := by
  intro b a' rest h
  cases h
  exact ⟨hfit, [], by rw [hpieces, List.append_nil], [], rfl, .nil⟩

theorem yields_refuse (e : DecodeError) : (refuse e : Reader α).Yields front Fit pieces := by
  intro b a rest h
  cases h

theorem Yields.bind {r : Reader α} {f : α → Reader β} (hr : r.Yields [] Fit pieces)
    (hf : ∀ a, Fit a → (f a).Yields (front ++ pieces a) FitAll all) :
    (r >>= f).Yields front FitAll all := by
  intro b d rest h
  obtain ⟨a, mid, ha, hd⟩ := bind_eq_ok h
  obtain ⟨hfit, missing, hpieces, c, rfl, hc⟩ := hr _ _ _ ha
  rw [List.nil_append] at hpieces
  rw [← hpieces] at hc
  obtain ⟨hall, missing', hpieces', c', rfl, hc'⟩ := hf a hfit _ _ _ hd
  refine ⟨hall, pieces a ++ missing', ?_, c ++ c', (List.append_assoc ..).symm, hc.append hc'⟩
  rw [hpieces', List.append_assoc]

theorem Yields.map {r : Reader α} {f : α → β} (hr : r.Yields [] Fit pieces)
    (hf : ∀ a, Fit a → FitAll (f a) ∧ all (f a) = front ++ pieces a) :
    (f <$> r).Yields front FitAll all :=
  hr.bind fun a hfit => yields_pure (hf a hfit).1 (hf a hfit).2

theorem yields_byte : byte.Yields [] (fun _ => True) (fun x => [.bytes [x]]) := by
  intro b x rest h
  cases b with
  | nil => cases h
  | cons y b =>
    cases h
    exact ⟨trivial, _, rfl, [x], rfl, .single rfl⟩

/-- Values that one reader takes are taken one after the other. -/
theorem Yields.many {item : Reader α} (h : item.Yields [] Fit pieces) (n : Nat) :
    (many item n).Yields [] (fun as => as.length = n ∧ ∀ a ∈ as, Fit a)
      (fun as => as.flatMap pieces) := by
  induction n with
  | zero => exact yields_pure ⟨rfl, fun a ha => absurd ha List.not_mem_nil⟩ rfl
  | succ n ih =>
    rw [many_eq]
    refine h.bind fun a ha => ih.map fun as has => ⟨⟨?_, ?_⟩, ?_⟩
    · rw [List.length_cons, has.1]
    · rw [List.forall_mem_cons]
      exact ⟨ha, has.2⟩
    · rw [List.flatMap_cons, List.nil_append]

end Yields

end Reader

open Reader

namespace Wire

theorem yields_nat32 : readNat32.Yields [] (FitsUnsigned 32) Pieces.nat32 := by
  intro b n rest h
  obtain ⟨c, rfl, hc⟩ := Varint.spells_of_decode (by decide) h
  exact ⟨hc.fits, _, rfl, c, rfl, .single ⟨.inl rfl, hc⟩⟩

theorem yields_nat64 : readNat64.Yields [] (FitsUnsigned 64) Pieces.nat64 := by
  intro b n rest h
  obtain ⟨c, rfl, hc⟩ := Varint.spells_of_decode (by decide) h
  exact ⟨hc.fits, _, rfl, c, rfl, .single ⟨.inr rfl, hc⟩⟩

theorem fits_unzigzag {bits n : Nat} (hbits : 0 < bits) (h : FitsUnsigned bits n) :
    FitsSigned bits (Varint.unzigzag n) := by
  obtain ⟨m, rfl⟩ : ∃ m, bits = m + 1 := ⟨bits - 1, by omega⟩
  have hcast : ((2 ^ m : Nat) : Int) = 2 ^ m := by simp
  unfold FitsUnsigned at h
  unfold FitsSigned Varint.unzigzag
  rw [Nat.pow_succ] at h
  rw [Nat.add_sub_cancel]
  split
  · rw [Int.ofNat_eq_natCast]
    omega
  · rw [Int.negSucc_eq]
    omega

theorem yields_int32 : readInt32.Yields [] (FitsSigned 32) Pieces.int32 :=
  yields_nat32.map fun n hn => ⟨fits_unzigzag (by decide) hn, by
    rw [Pieces.int32, Varint.zigzag_unzigzag]
    rfl⟩

theorem yields_int64 : readInt64.Yields [] (FitsSigned 64) Pieces.int64 :=
  yields_nat64.map fun n hn => ⟨fits_unzigzag (by decide) hn, by
    rw [Pieces.int64, Varint.zigzag_unzigzag]
    rfl⟩

theorem yields_blob : readBlob.Yields [] (fun b => b.length < 2 ^ 64) Pieces.blob := by
  refine yields_nat64.bind fun n hn => ?_
  intro b a rest h
  unfold bytes at h
  split at h
  · cases h
  · next hlen =>
    cases h
    have hlength : (b.take n).length = n := List.length_take_of_le (Nat.le_of_not_lt hlen)
    refine ⟨?_, [.bytes (b.take n)], ?_, b.take n, (List.take_append_drop n b).symm, .single rfl⟩
    · show (b.take n).length < 2 ^ 64
      rw [hlength]
      exact hn
    · rw [Pieces.blob, hlength, List.nil_append]

theorem yields_text : readText.Yields [] FitsText Pieces.text := by
  refine yields_blob.bind fun b hb => ?_
  split
  · next s hs =>
    have henc := Utf8.encode_of_decode? hs
    refine yields_pure ?_ ?_
    · unfold FitsText
      rw [← length_encode, henc]
      exact hb
    · rw [Pieces.text, henc, List.nil_append]
  · exact yields_refuse _

section Composed

variable {α : Type} {Fit : α → Prop} {put : α → List Piece} {get : Reader α}

theorem yields_option (h : get.Yields [] Fit put) :
    (readOption get).Yields [] (fun o => ∀ a ∈ o, Fit a) (Pieces.option put) := by
  refine yields_byte.bind fun x _ => ?_
  split
  · exact yields_pure (fun a ha => by cases ha) rfl
  · refine h.map fun a ha => ⟨fun x hx => ?_, rfl⟩
    cases hx
    exact ha
  · exact yields_refuse _

theorem yields_sequence (h : get.Yields [] Fit put) :
    (readSequence get).Yields [] (fun as => as.length < 2 ^ 64 ∧ ∀ a ∈ as, Fit a)
      (Pieces.sequence put) := by
  refine yields_nat64.bind fun n hn => ?_
  intro b as rest hb
  obtain ⟨⟨rfl, hfit⟩, missing, hpieces, c, rfl, hc⟩ := h.many n _ _ _ hb
  refine ⟨⟨hn, hfit⟩, missing, ?_, c, rfl, hc⟩
  rw [Pieces.sequence, List.nil_append]
  exact congrArg (_ ++ ·) hpieces

end Composed

theorem yields_kind : readKind.Yields [] (fun _ => True) Pieces.kind := by
  refine yields_nat32.bind fun n _ => ?_
  split
  · exact yields_pure trivial rfl
  · exact yields_pure trivial rfl
  · exact yields_pure trivial rfl
  · exact yields_refuse _

theorem yields_entry : readEntry.Yields [] (fun e => FitsText e.name) Pieces.entry :=
  yields_text.bind fun _ hname => yields_kind.bind fun _ _ => yields_pure hname rfl

theorem fitAll_iff {ts : List DirTree} : DirTree.FitAll ts ↔ ∀ t ∈ ts, t.Fits := by
  induction ts with
  | nil => exact ⟨fun _ t ht => absurd ht List.not_mem_nil, fun _ => trivial⟩
  | cons t ts ih => rw [DirTree.FitAll, ih, List.forall_mem_cons]

theorem yields_treeWithin (d : Nat) : (readTreeWithin d).Yields [] DirTree.Fits Pieces.tree := by
  induction d with
  | zero => exact yields_refuse _
  | succ d ih =>
    refine yields_text.bind fun name hname => (yields_sequence ih).bind fun ts hts =>
      yields_pure ⟨hname, hts.1, fitAll_iff.mpr hts.2⟩ ?_
    rw [Pieces.tree, Pieces.trees_eq, List.append_assoc]
    rfl

/-- **A hierarchy of any depth** takes bytes that spell it. -/
theorem yields_tree : readTree.Yields [] DirTree.Fits Pieces.tree :=
  fun b => yields_treeWithin _ b

end Wire

end Telefile
