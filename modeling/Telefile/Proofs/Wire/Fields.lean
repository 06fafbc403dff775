import Telefile.Proofs.Wire.Widths
import Telefile.Wire.Message

/-!
# Fields are read back

Every field of a message is read back from its bytes, whatever follows them. `Reader.Reads r b a`
says that of one reader: it takes exactly `b` off the front, and finds `a` in it. Readers in
sequence read bytes in sequence (`Reads.bind`), so a message is read back field by field.

* `reads_encode` — a varint whose value its width admits;
* `reads_int32`, `reads_int64`, `reads_text`, `reads_option`, `reads_sequence` — the fields;
* `reads_attr`, `reads_entry`, **`reads_tree`** — attributes, entries and hierarchies of any depth.
-/

namespace Telefile

/-! ## 1. What a reader reads -/

/-- The reader takes exactly the bytes `b` off the front and finds `a` in them. -/
def Reader.Reads {α : Type} (r : Reader α) (b : List UInt8) (a : α) : Prop :=
  ∀ rest, r (b ++ rest) = .ok (a, rest)

namespace Reader

variable {α β : Type}

theorem reads_pure (a : α) : (pure a : Reader α).Reads [] a := fun _ => rfl

theorem Reads.bind {r : Reader α} {f : α → Reader β} {b c : List UInt8} {a : α} {d : β}
    (hr : r.Reads b a) (hf : (f a).Reads c d) : (r >>= f).Reads (b ++ c) d := by
  intro rest
  rw [bind_apply, List.append_assoc, hr]
  exact hf rest

theorem Reads.map {r : Reader α} {b : List UInt8} {a : α} (f : α → β) (hr : r.Reads b a) :
    (f <$> r).Reads b (f a) := by
  intro rest
  rw [map_apply, hr]

/-- The last reader of a sequence may only put the values together. -/
theorem Reads.bind_pure {r : Reader α} {f : α → β} {b : List UInt8} {a : α} (hr : r.Reads b a) :
    (r >>= fun a => (pure (f a) : Reader β)).Reads b (f a) := by
  have h := hr.bind (f := fun a => (pure (f a) : Reader β)) (reads_pure (f a))
  rwa [List.append_nil] at h

theorem reads_bytes (b : List UInt8) : (bytes b.length).Reads b b := fun _ => bytes_append

/-- Values that one reader reads are read one after the other. -/
theorem reads_many {item : Reader α} {put : α → List UInt8} {as : List α}
    (h : ∀ a ∈ as, item.Reads (put a) a) : (many item as.length).Reads (as.flatMap put) as := by
  induction as with
  | nil => exact fun _ => rfl
  | cons a as ih =>
    intro rest
    have ha := h a List.mem_cons_self
    have has := ih fun x hx => h x (List.mem_cons_of_mem _ hx)
    rw [List.length_cons, many_succ, List.flatMap_cons, List.append_assoc, ha]
    simp only [has rest]

end Reader

open Reader

/-! ## 2. Varints -/

namespace Varint

theorem length_groups_le (k n : Nat) : (groups k n).length ≤ k := by
  induction k generalizing n with
  | zero => simp [groups]
  | succ k ih =>
    unfold groups
    split
    · simp
    · have := ih (n / 128)
      simp only [List.length_cons]
      omega

/-- A number of so many groups takes no more. -/
theorem length_groups_le_of_lt (k : Nat) :
    ∀ {j n : Nat}, n < 128 ^ (j + 1) → (groups k n).length ≤ j + 1 := by
  induction k with
  | zero => exact fun _ => Nat.zero_le _
  | succ k ih =>
    intro j n hn
    unfold groups
    split
    · exact Nat.le_add_left 1 j
    · next hlarge =>
      cases j with
      | zero => exact absurd hn hlarge
      | succ j =>
        have hrest := ih (j := j) (n := n / 128) (by rw [Nat.pow_succ] at hn; omega)
        rw [List.length_cons]
        omega

/-- **One group is read**: it is the last one, or others follow it. -/
theorem readGroups_eq_ok_iff {last k n : Nat} {b rest : List UInt8} :
    readGroups last (k + 1) b = .ok (n, rest) ↔ ∃ x tail, b = x :: tail ∧
      (x < 128 ∧ ¬ (k = 0 ∧ last < x.toNat) ∧ n = x.toNat ∧ rest = tail ∨
        ¬ x < 128 ∧ ∃ m, readGroups last k tail = .ok (m, rest) ∧ n = x.toNat - 128 + 128 * m) := by
  constructor
  · intro h
    cases b with
    | nil => cases h
    | cons x tail =>
      refine ⟨x, tail, rfl, ?_⟩
      rw [readGroups] at h
      split at h
      · next hx =>
        split at h
        · cases h
        · next hlast =>
          cases h
          exact .inl ⟨hx, hlast, rfl, rfl⟩
      · next hx =>
        rcases hr : readGroups last k tail with e | ⟨m, mid⟩
        · rw [hr] at h
          cases h
        · rw [hr] at h
          cases h
          exact .inr ⟨hx, m, rfl, rfl⟩
  · rintro ⟨x, tail, rfl, ⟨hx, hlast, rfl, rfl⟩ | ⟨hx, m, hm, rfl⟩⟩
    · rw [readGroups, if_pos hx, if_neg hlast]
    · rw [readGroups, if_neg hx, hm]

/-- Groups are read back where the last of them stays within its bound. -/
theorem readGroups_groups {last : Nat} (hlast : last < 128) (rest : List UInt8) :
    ∀ (k n : Nat), n < 128 ^ k * (last + 1) →
      readGroups last (k + 1) (groups (k + 1) n ++ rest) = .ok (n, rest)
  | k, n, hn => by
    unfold groups
    split
    · next h =>
      have hb : (UInt8.ofNat n).toNat = n := by rw [UInt8.toNat_ofNat']; omega
      have hlt : UInt8.ofNat n < 128 := by rw [UInt8.lt_iff_toNat_lt, hb]; exact h
      have hk : ¬ (k = 0 ∧ last < n) := by
        rintro ⟨rfl, hl⟩
        rw [Nat.pow_zero, Nat.one_mul] at hn
        omega
      simp only [List.cons_append, List.nil_append, readGroups, if_pos hlt, hb, if_neg hk]
    · next h =>
      -- a value over 127 has a group to come, so this is not the last one
      cases k with
      | zero => rw [Nat.pow_zero, Nat.one_mul] at hn; omega
      | succ k =>
        have hb : (UInt8.ofNat (n % 128 + 128)).toNat = n % 128 + 128 := by
          rw [UInt8.toNat_ofNat']; omega
        have hge : ¬ UInt8.ofNat (n % 128 + 128) < 128 := by
          rw [UInt8.lt_iff_toNat_lt, hb]
          exact Nat.not_lt.mpr (Nat.le_add_left _ _)
        have hdiv : n / 128 < 128 ^ k * (last + 1) := by
          rw [Nat.div_lt_iff_lt_mul (by decide)]
          rw [Nat.pow_succ] at hn
          calc n < 128 ^ k * 128 * (last + 1) := hn
            _ = 128 ^ k * (last + 1) * 128 := by rw [Nat.mul_right_comm]
        have ih := readGroups_groups hlast rest k (n / 128) hdiv
        rw [List.cons_append, readGroups, if_neg hge, ih, hb]
        simp only [Except.ok.injEq, Prod.mk.injEq, and_true]
        omega

/-- **A value within a width is read back from its shortest form.** -/
theorem reads_encode {w : Width} {n : Nat} (hgroups : 0 < w.groups) (hlast : w.last < 128)
    (h : n < w.bound) : (decode w).Reads (encode w n) n := by
  intro rest
  obtain ⟨k, hk⟩ : ∃ k, w.groups = k + 1 := ⟨w.groups - 1, by omega⟩
  unfold Width.bound at h
  unfold decode encode
  rw [hk] at h ⊢
  exact readGroups_groups hlast rest k n h

theorem reads_encode32 {n : Nat} (h : n < 2 ^ 32) : (decode .word32).Reads (encode .word32 n) n :=
  reads_encode (by decide) (by decide) h

theorem reads_encode64 {n : Nat} (h : n < 2 ^ 64) : (decode .word64).Reads (encode .word64 n) n :=
  reads_encode (by decide) (by decide) h

/-- A signed word is folded into an unsigned one of the same width. -/
theorem zigzag_lt {bits : Nat} {i : Int} (hbits : 0 < bits) (h : FitsSigned bits i) :
    zigzag i < 2 ^ bits := by
  obtain ⟨m, rfl⟩ : ∃ m, bits = m + 1 := ⟨bits - 1, by omega⟩
  obtain ⟨hlow, hhigh⟩ := h
  rw [Nat.add_sub_cancel] at hlow hhigh
  have hcast : ((2 ^ m : Nat) : Int) = 2 ^ m := by simp
  rw [Nat.pow_succ]
  cases i with
  | ofNat n =>
    rw [Int.ofNat_eq_natCast] at hhigh
    simp only [zigzag]
    omega
  | negSucc n =>
    rw [Int.negSucc_eq] at hlow
    simp only [zigzag]
    omega

end Varint

/-! ## 3. Fields -/

namespace Wire

open Varint

theorem reads_int32 {i : Int} (h : FitsSigned 32 i) : readInt32.Reads (int32 i) i := by
  have hr := (reads_encode32 (zigzag_lt (by decide) h)).map unzigzag
  rwa [unzigzag_zigzag] at hr

theorem reads_int64 {i : Int} (h : FitsSigned 64 i) : readInt64.Reads (int64 i) i := by
  have hr := (reads_encode64 (zigzag_lt (by decide) h)).map unzigzag
  rwa [unzigzag_zigzag] at hr

theorem reads_nat32 {n : Nat} (h : FitsUnsigned 32 n) : readNat32.Reads (nat32 n) n :=
  reads_encode32 h

theorem reads_nat64 {n : Nat} (h : FitsUnsigned 64 n) : readNat64.Reads (nat64 n) n :=
  reads_encode64 h

theorem reads_blob {b : List UInt8} (h : b.length < 2 ^ 64) : readBlob.Reads (blob b) b :=
  (reads_nat64 h).bind (reads_bytes b)

theorem length_encode (s : String) : (Utf8.encode s).length = s.utf8ByteSize := by
  rw [Utf8.encode, Array.length_toList]
  exact String.size_toByteArray

theorem reads_text {s : String} (h : FitsText s) : readText.Reads (text s) s := by
  have hb : (Utf8.encode s).length < 2 ^ 64 := by rw [length_encode]; exact h
  intro rest
  unfold readText text
  rw [bind_apply, reads_blob hb]
  simp only [Utf8.decode?_encode]
  rfl

theorem reads_option {α : Type} {get : Reader α} {put : α → List UInt8} {o : Option α}
    (h : ∀ a ∈ o, get.Reads (put a) a) : (readOption get).Reads (option put o) o := by
  intro rest
  unfold readOption
  rw [bind_apply]
  cases o with
  | none => rfl
  | some a =>
    have ha := (h a rfl).map some rest
    simpa [option, Reader.byte] using ha

theorem reads_sequence {α : Type} {get : Reader α} {put : α → List UInt8} {as : List α}
    (hn : as.length < 2 ^ 64) (h : ∀ a ∈ as, get.Reads (put a) a) :
    (readSequence get).Reads (sequence put as) as :=
  (reads_nat64 hn).bind (reads_many h)

/-! ## 4. Attributes, entries, hierarchies -/

theorem reads_kind (k : FileKind) : readKind.Reads (kind k) k := by
  have h : FitsUnsigned 32 (kindIndex k) := by cases k <;> decide
  intro rest
  unfold readKind kind
  rw [bind_apply, reads_nat32 h]
  cases k <;> rfl

/-- A time from the epoch on is read back; its nanoseconds are less than a second. -/
theorem reads_time {t : Timestamp} (h0 : 0 ≤ t.seconds) (hs : FitsSigned 64 t.seconds)
    (hn : t.nanos < nanosPerSecond) :
    readTime.Reads (nat64 t.seconds.toNat ++ nat32 t.nanos) t := by
  have hs' : t.seconds < 2 ^ 63 := hs.2
  have h64 : FitsUnsigned 64 t.seconds.toNat := by unfold FitsUnsigned; omega
  have h32 : FitsUnsigned 32 t.nanos := by unfold FitsUnsigned nanosPerSecond at *; omega
  intro rest
  unfold readTime
  rw [bind_apply, List.append_assoc, reads_nat64 h64]
  simp only
  rw [bind_apply, reads_nat32 h32]
  have htotal : t.seconds.toNat + t.nanos / nanosPerSecond = t.seconds.toNat := by
    rw [Nat.div_eq_of_lt hn, Nat.add_zero]
  have hlt : t.seconds.toNat < 1 <<< 63 := by omega
  simp only [htotal, if_pos hlt, Nat.mod_eq_of_lt hn, Int.toNat_of_nonneg h0]
  rfl

theorem reads_attr {a : FileAttr} (h : a.Fits) (h0 : 0 ≤ a.modified.seconds) :
    readAttr.Reads (attr a) a := by
  obtain ⟨hsize, hperm, hsec, hnano, hlinks⟩ := h
  have hr := (reads_nat64 hsize).bind (f := fun size => readKind >>= fun kind =>
      readNat32 >>= fun perm => readTime >>= fun modified => readNat32 >>= fun links =>
        (pure ⟨size, kind, perm, modified, links⟩ : Reader FileAttr))
    ((reads_kind a.kind).bind ((reads_nat32 hperm).bind
      ((reads_time h0 hsec hnano).bind (reads_nat32 hlinks).bind_pure)))
  unfold attr
  simp only [List.append_assoc] at hr ⊢
  exact hr

theorem reads_entry {e : DirEntry} (h : FitsText e.name) : readEntry.Reads (entry e) e :=
  (reads_text h).bind (reads_kind e.kind).bind_pure

theorem trees_eq (ts : List DirTree) : trees ts = ts.flatMap tree := by
  induction ts with
  | nil => rfl
  | cons t ts ih => rw [trees, ih, List.flatMap_cons]

theorem length_nat64_pos (n : Nat) : 0 < (nat64 n).length := by
  unfold nat64 Varint.encode Width.word64 Varint.groups
  split <;> simp

/-- A level of a hierarchy takes at least one byte beside those of the levels below it. -/
theorem length_trees_lt (n : String) (ts : List DirTree) :
    (trees ts).length < (tree (.node n ts)).length := by
  have h := length_nat64_pos ts.length
  rw [tree, List.length_append, List.length_append]
  omega

mutual

/-- A hierarchy is read back by every reader that goes as deep as its bytes are many. -/
theorem reads_treeWithin : ∀ (t : DirTree), t.Fits → ∀ d, (tree t).length ≤ d →
    (readTreeWithin d).Reads (tree t) t
  | .node n ts, ⟨hname, hcount, hall⟩, d, hd => by
    have hlt := length_trees_lt n ts
    obtain ⟨d, rfl⟩ : ∃ e, d = e + 1 := ⟨d - 1, by omega⟩
    have hts := reads_treesWithin ts hall d (by omega)
    have hseq : (readSequence (readTreeWithin d)).Reads (sequence tree ts) ts :=
      reads_sequence hcount hts
    have hr := (reads_text hname).bind
      (f := fun name => readSequence (readTreeWithin d) >>= fun subdirs =>
        (pure (.node name subdirs) : Reader DirTree)) hseq.bind_pure
    rw [tree, trees_eq, List.append_assoc]
    exact hr

theorem reads_treesWithin : ∀ (ts : List DirTree), DirTree.FitAll ts → ∀ d,
    (trees ts).length ≤ d → ∀ t ∈ ts, (readTreeWithin d).Reads (tree t) t
  | [], _, _, _ => by simp
  | t :: ts, ⟨ht, hts⟩, d, hd => by
    rw [trees, List.length_append] at hd
    intro u hu
    rcases List.mem_cons.mp hu with hut | hu
    · rw [hut]
      exact reads_treeWithin t ht d (by omega)
    · exact reads_treesWithin ts hts d (by omega) u hu

end

/-- **A hierarchy of any depth is read back.** -/
theorem reads_tree {t : DirTree} (h : t.Fits) : readTree.Reads (tree t) t := by
  intro rest
  refine reads_treeWithin t h _ ?_ rest
  rw [List.length_append]
  omega

end Wire

end Telefile
