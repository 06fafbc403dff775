import Telefile.Proofs.Wire.RoundTrip

/-!
# A message's body tells where it ends

What a reader finds in some bytes it finds as well if more bytes follow, and it leaves those. A
reader that takes a whole body therefore cannot be content with a part of it, and no body begins
another.

* `Reader.Steady` — more bytes behind those that are taken change nothing; kept by composition, and
  so by every field;
* `steady_readTree` — the depth that a hierarchy's reader admits grows with the bytes, which changes
  nothing either (`Reader.Below`);
* `Delimits` — a body is read back whatever follows, and nothing is read from a part of it;
* **`wire_round_trip`** — for every message.
-/

namespace Telefile

/-! ## 1. Steady readers -/

namespace Reader

variable {α β : Type}

/-- More bytes behind those that the reader takes are left over, and change nothing else. -/
def Steady (r : Reader α) : Prop :=
  ∀ b a rest, r b = .ok (a, rest) → ∀ more, r (b ++ more) = .ok (a, rest ++ more)

theorem bind_eq_ok {r : Reader α} {f : α → Reader β} {b rest : List UInt8} {d : β}
    (h : (r >>= f) b = .ok (d, rest)) : ∃ a mid, r b = .ok (a, mid) ∧ f a mid = .ok (d, rest) := by
  rw [bind_apply] at h
  rcases hr : r b with e | ⟨a, mid⟩
  · rw [hr] at h
    cases h
  · rw [hr] at h
    exact ⟨a, mid, rfl, h⟩

theorem steady_pure (a : α) : (pure a : Reader α).Steady := by
  intro b a' rest h more
  cases h
  rfl

theorem steady_refuse (e : DecodeError) : (refuse e : Reader α).Steady := by
  intro b a rest h
  cases h

theorem Steady.bind {r : Reader α} {f : α → Reader β} (hr : r.Steady) (hf : ∀ a, (f a).Steady) :
    (r >>= f).Steady := by
  intro b d rest h more
  obtain ⟨a, mid, ha, hd⟩ := bind_eq_ok h
  rw [bind_apply, hr b a mid ha more]
  exact hf a mid d rest hd more

theorem Steady.map {r : Reader α} (hr : r.Steady) (f : α → β) : (f <$> r).Steady :=
  hr.bind fun a => steady_pure (f a)

theorem steady_byte : byte.Steady := by
  intro b a rest h more
  cases b with
  | nil => cases h
  | cons x b =>
    cases h
    rfl

theorem steady_bytes (n : Nat) : (bytes n).Steady := by
  intro b a rest h more
  unfold bytes at h ⊢
  split at h
  · cases h
  · next hn =>
    cases h
    have hle : n ≤ b.length := Nat.not_lt.mp hn
    rw [if_neg (by rw [List.length_append]; omega), List.take_append_of_le_length hle,
      List.drop_append_of_le_length hle]

theorem many_eq (item : Reader α) (n : Nat) :
    many item (n + 1) = item >>= fun a => many item n >>= fun as => pure (a :: as) := rfl

theorem Steady.many {item : Reader α} (h : item.Steady) (n : Nat) : (many item n).Steady := by
  induction n with
  | zero => exact steady_pure []
  | succ n ih =>
    rw [many_eq]
    exact h.bind fun a => ih.bind fun as => steady_pure (a :: as)

/-- What `r` reads, `r'` reads as well. -/
def Below (r r' : Reader α) : Prop := ∀ b x, r b = .ok x → r' b = .ok x

theorem Below.bind {r r' : Reader α} {f f' : α → Reader β} (hr : r.Below r')
    (hf : ∀ a, (f a).Below (f' a)) : (r >>= f).Below (r' >>= f') := by
  intro b x h
  obtain ⟨d, rest⟩ := x
  obtain ⟨a, mid, ha, hd⟩ := bind_eq_ok h
  rw [bind_apply, hr b _ ha]
  exact hf a mid _ hd

theorem Below.rfl {r : Reader α} : r.Below r := fun _ _ h => h

theorem Below.many {item item' : Reader α} (h : item.Below item') (n : Nat) :
    (many item n).Below (many item' n) := by
  induction n with
  | zero => exact Below.rfl
  | succ n ih =>
    rw [many_eq, many_eq]
    exact h.bind fun a => ih.bind fun as => Below.rfl

end Reader

open Reader

/-! ## 2. Fields -/

theorem Varint.steady_readGroups (last k : Nat) : (Varint.readGroups last k).Steady := by
  induction k with
  | zero =>
    intro b a rest h
    cases h
  | succ k ih =>
    intro b a rest h more
    obtain ⟨x, tail, rfl, hread⟩ := readGroups_eq_ok_iff.mp h
    refine readGroups_eq_ok_iff.mpr ⟨x, tail ++ more, rfl, ?_⟩
    rcases hread with ⟨hx, hlast, rfl, rfl⟩ | ⟨hx, m, hm, rfl⟩
    · exact .inl ⟨hx, hlast, rfl, rfl⟩
    · exact .inr ⟨hx, m, ih _ _ _ hm more, rfl⟩

theorem Varint.steady_decode (w : Width) : (Varint.decode w).Steady :=
  steady_readGroups w.last w.groups

namespace Wire

theorem steady_readNat32 : readNat32.Steady := Varint.steady_decode _

theorem steady_readNat64 : readNat64.Steady := Varint.steady_decode _

theorem steady_readInt32 : readInt32.Steady := (Varint.steady_decode _).map _

theorem steady_readInt64 : readInt64.Steady := (Varint.steady_decode _).map _

theorem steady_readBlob : readBlob.Steady := steady_readNat64.bind steady_bytes

theorem steady_readText : readText.Steady := by
  refine steady_readBlob.bind fun b => ?_
  split
  · exact steady_pure _
  · exact steady_refuse _

theorem steady_readOption {α : Type} {get : Reader α} (h : get.Steady) :
    (readOption get).Steady := by
  refine steady_byte.bind fun x => ?_
  split
  · exact steady_pure _
  · exact h.map some
  · exact steady_refuse _

theorem steady_readSequence {α : Type} {get : Reader α} (h : get.Steady) :
    (readSequence get).Steady :=
  steady_readNat64.bind fun n => h.many n

theorem steady_readKind : readKind.Steady := by
  refine steady_readNat32.bind fun n => ?_
  split <;> first | exact steady_pure _ | exact steady_refuse _

theorem steady_readTime : readTime.Steady := by
  refine steady_readNat64.bind fun s => steady_readNat32.bind fun n => ?_
  dsimp only
  split
  · exact steady_pure _
  · exact steady_refuse _

theorem steady_readAttr : readAttr.Steady :=
  steady_readNat64.bind fun _ => steady_readKind.bind fun _ => steady_readNat32.bind fun _ =>
    steady_readTime.bind fun _ => steady_readNat32.bind fun _ => steady_pure _

theorem steady_readEntry : readEntry.Steady :=
  steady_readText.bind fun _ => steady_readKind.bind fun _ => steady_pure _

theorem steady_readTreeWithin (d : Nat) : (readTreeWithin d).Steady := by
  induction d with
  | zero => exact steady_refuse _
  | succ d ih =>
    exact steady_readText.bind fun _ => (steady_readSequence ih).bind fun _ => steady_pure _

/-- A reader that may go deeper reads what one reads that may not. -/
theorem readTreeWithin_below (d : Nat) : (readTreeWithin d).Below (readTreeWithin (d + 1)) := by
  induction d with
  | zero =>
    intro b x h
    cases h
  | succ d ih =>
    exact Below.rfl.bind fun _ => (Below.rfl.bind fun n => ih.many n).bind fun _ => Below.rfl

theorem readTreeWithin_deeper (d more : Nat) :
    (readTreeWithin d).Below (readTreeWithin (d + more)) := by
  induction more with
  | zero => exact Below.rfl
  | succ more ih => exact fun b x h => readTreeWithin_below _ b x (ih b x h)

theorem steady_readTree : readTree.Steady := by
  intro b t rest h more
  have hdeep : (b ++ more).length + 1 = b.length + 1 + more.length := by
    rw [List.length_append]
    omega
  unfold readTree
  rw [hdeep]
  exact readTreeWithin_deeper _ _ _ _ (steady_readTreeWithin _ b t rest h more)

end Wire

/-! ## 3. Messages -/

theorem Request.steady_reader : Request.reader.Steady := by
  refine Wire.steady_readNat32.bind fun i => ?_
  have htext := Wire.steady_readOption Wire.steady_readText
  split
  · exact htext.bind fun _ => Wire.steady_readNat32.bind fun _ => steady_pure _
  · exact Wire.steady_readInt32.map _
  · exact Wire.steady_readInt32.bind fun _ => Wire.steady_readBlob.bind fun _ => steady_pure _
  · exact Wire.steady_readInt32.bind fun _ =>
      (Wire.steady_readOption Wire.steady_readNat64).bind fun _ => steady_pure _
  · exact Wire.steady_readInt32.bind fun _ => Wire.steady_readInt64.bind fun _ =>
      Wire.steady_readNat32.bind fun _ => steady_pure _
  · exact htext.map _
  · exact htext.map _
  · exact Wire.steady_readInt32.bind fun _ => Wire.steady_readNat64.bind fun _ =>
      Wire.steady_readNat64.bind fun _ => steady_pure _
  · exact htext.map _
  · exact steady_refuse _

theorem Response.steady_reader : Response.reader.Steady := by
  refine Wire.steady_readNat32.bind fun i => ?_
  split
  · exact Wire.steady_readInt64.map _
  · exact Wire.steady_readInt64.bind fun _ => Wire.steady_readBlob.bind fun _ => steady_pure _
  · exact Wire.steady_readInt64.bind fun _ =>
      (Wire.steady_readOption Wire.steady_readAttr).bind fun _ => steady_pure _
  · exact Wire.steady_readInt64.bind fun _ => Wire.steady_readNat64.bind fun _ =>
      (Wire.steady_readSequence Wire.steady_readEntry).bind fun _ => steady_pure _
  · exact Wire.steady_readInt64.bind fun _ =>
      (Wire.steady_readOption Wire.steady_readTree).bind fun _ => steady_pure _
  · exact steady_refuse _

/-! ## 4. Where a body ends -/

/-- The body is read back as the message `m` whatever follows it, and no proper part from its front
is read as anything. -/
structure Delimits {μ : Type} (decode : List UInt8 → Except DecodeError μ) (body : List UInt8)
    (m : μ) : Prop where
  read_back : ∀ more, decode (body ++ more) = .ok m
  part_refused : ∀ part, part <+: body → part ≠ body → ∃ cause, decode part = .error cause

section Delimits

variable {μ : Type} {r : Reader μ} {body body' : List UInt8} {m m' : μ}

/-- **A steady reader that takes a body** takes no part of it for a message: it would leave the
bytes that are missing. -/
theorem delimits_of_reads (hsteady : r.Steady) (hreads : r.Reads body m) :
    Delimits (fun b => Prod.fst <$> r b) body m where
  read_back more := by
    show Prod.fst <$> r (body ++ more) = _
    rw [hreads more]
    rfl
  part_refused part hpart hne := by
    obtain ⟨missing, rfl⟩ := hpart
    rcases hr : r part with cause | ⟨a, rest⟩
    · exact ⟨cause, rfl⟩
    · have hall := hreads []
      rw [List.append_nil, hsteady part a rest hr missing] at hall
      obtain ⟨-, hleft⟩ := Prod.mk.inj (Except.ok.inj hall)
      have hmissing : missing = [] := (List.append_eq_nil_iff.mp hleft).2
      rw [hmissing, List.append_nil] at hne
      exact absurd rfl hne

/-- A body that begins another is the body of the same message. -/
theorem Delimits.eq_of_extends {decode : List UInt8 → Except DecodeError μ}
    (h : Delimits decode body m) (h' : Delimits decode body' m') (hp : body <+: body') :
    m = m' := by
  obtain ⟨more, rfl⟩ := hp
  have hm' := h'.read_back []
  rw [List.append_nil, h.read_back more] at hm'
  exact Except.ok.inj hm'

end Delimits

theorem Request.delimits {q : Request} (h : q.Fits) : Delimits Request.decode q.encode q :=
  delimits_of_reads Request.steady_reader (Request.reads_encode h)

namespace Response

/-- The response carries attributes whose time lies before the epoch. -/
def BeforeEpoch : Response → Prop
  | .attr _ (some a) => a.modified.seconds < 0
  | _ => False

/-- A response has no body exactly if it carries a time before the epoch. -/
theorem encode_eq_error_iff {r : Response} :
    (∃ cause, r.encode = .error cause) ↔ r.BeforeEpoch := by
  cases r with
  | attr code a =>
    cases a with
    | none =>
      refine ⟨?_, False.elim⟩
      rintro ⟨_, h⟩
      cases h
    | some a =>
      simp only [encode, BeforeEpoch, Option.any_some, decide_eq_true_eq]
      constructor
      · rintro ⟨cause, h⟩
        split at h
        · next ht => exact ht
        · cases h
      · exact fun ht => ⟨.timeBeforeEpoch, if_pos ht⟩
  | _ =>
    refine ⟨?_, False.elim⟩
    rintro ⟨_, h⟩
    cases h

theorem delimits {r : Response} {body : List UInt8} (h : r.Fits) (he : r.encode = .ok body) :
    Delimits Response.decode body r :=
  delimits_of_reads Response.steady_reader (Response.reads_encode h he)

end Response

/-- **Messages are written so that they are read back**, whatever bytes follow, and a part of a body
is refused. Every request has a body, and every response but one that carries a time before the
epoch; and no body begins that of another message. -/
theorem wire_round_trip :
    (∀ q : Request, q.Fits → Delimits Request.decode q.encode q) ∧
    (∀ r : Response, r.Fits → ¬ r.BeforeEpoch →
      ∃ body, r.encode = .ok body ∧ Delimits Response.decode body r) ∧
    (∀ r : Response, (∃ cause, r.encode = .error cause) ↔ r.BeforeEpoch) ∧
    (∀ q q' : Request, q.Fits → q'.Fits → q ≠ q' → ¬ q.encode <+: q'.encode) ∧
    (∀ (r r' : Response) (body body' : List UInt8), r.Fits → r'.Fits → r.encode = .ok body →
      r'.encode = .ok body' → r ≠ r' → ¬ body <+: body') := by
  refine ⟨fun q hq => q.delimits hq, ?_, fun r => Response.encode_eq_error_iff, ?_, ?_⟩
  · intro r hr hepoch
    cases he : r.encode with
    | error cause => exact absurd (Response.encode_eq_error_iff.mp ⟨cause, he⟩) hepoch
    | ok body => exact ⟨body, rfl, Response.delimits hr he⟩
  · intro q q' hq hq' hne hp
    exact hne ((Request.delimits hq).eq_of_extends (Request.delimits hq') hp)
  · intro r r' body body' hr hr' he he' hne hp
    exact hne ((Response.delimits hr he).eq_of_extends (Response.delimits hr' he') hp)

/-- A seek with its numbers at their limits; and a hierarchy, of which the last byte is missing. -/
theorem wire_round_trip_limits :
    let q : Request := .seek (-2147483648) 9223372036854775807 4294967295
    let r : Response := .tree 0 (some (.node "a" [.node "é" [.node "" []], .node "b" []]))
    let body : List UInt8 := [4, 0, 1, 1, 97, 2, 2, 195, 169, 1, 0, 0, 1, 98, 0]
    q.Fits ∧ r.Fits ∧ ¬ r.BeforeEpoch ∧ r.encode = .ok body ∧
      Request.decode (q.encode ++ [7]) = .ok q ∧ Response.decode (body ++ [7]) = .ok r ∧
      (∃ cause, Response.decode body.dropLast = .error cause) ∧
      ¬ q.encode <+: (Request.close (-9)).encode := by
  intro q r body
  have hq : q.Fits := by
    refine ⟨?_, ?_, ?_⟩ <;> decide
  have hclose : (Request.close (-9)).Fits := (by decide : FitsSigned 32 (-9))
  have hr : r.Fits := by
    refine ⟨by decide, ?_⟩
    intro t ht
    cases ht
    have htext : ∀ n ∈ ["a", "é", "", "b"], n.utf8ByteSize < 2 ^ 64 := by decide
    simp only [List.forall_mem_cons] at htext
    obtain ⟨ha, hacute, hnone, hb, -⟩ := htext
    exact ⟨ha, by decide, ⟨hacute, by decide, ⟨hnone, by decide, trivial⟩, trivial⟩,
      ⟨hb, by decide, trivial⟩, trivial⟩
  have hepoch : ¬ r.BeforeEpoch := id
  have hbody : r.encode = .ok body := rfl
  obtain ⟨hrequests, hresponses, -, hprefix, -⟩ := wire_round_trip
  obtain ⟨body', hbody', hdelimits⟩ := hresponses r hr hepoch
  obtain rfl : body = body' := Except.ok.inj (hbody.symm.trans hbody')
  exact ⟨hq, hr, hepoch, hbody, (hrequests q hq).read_back [7], hdelimits.read_back [7],
    hdelimits.part_refused _ (List.dropLast_prefix body) (by decide),
    hprefix q (.close (-9)) hq hclose (by decide)⟩

end Telefile
