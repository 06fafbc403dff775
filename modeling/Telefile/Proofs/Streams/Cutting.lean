import Telefile.Proofs.Frames

/-!
# The frames of a stream

Every stream is, in one way, whole frames within the limit and a rest in which no further one
stands: the rest is unfinished, or begins with a length over the limit.

* `Frame.Cuts` — a stream, the bodies of its frames, and the rest;
* `Frame.exists_cuts`, `Frame.Cuts.unique` — there is one way to cut a stream;
* **`Frame.Cuts.feed`** — a receiver finds these bodies, in order, and a length over the limit where
  the rest begins with one.
-/

namespace Telefile

namespace Frame

/-! ## 1. Cutting a stream -/

/-- The frames of bodies, one after the other. -/
def joined (bodies : List (List UInt8)) : List UInt8 :=
  bodies.flatMap fun body => header body.length ++ body

/-- A length over the limit comes next. -/
def Oversized (limit : Nat) (rest : List UInt8) : Prop :=
  4 ≤ rest.length ∧ limit < length (rest.take 4)

/-- Bytes of the next length, or of the next body, are missing. -/
def Unfinished (limit : Nat) (rest : List UInt8) : Prop :=
  rest.length < 4 ∨ length (rest.take 4) ≤ limit ∧ rest.length < 4 + length (rest.take 4)

instance (limit : Nat) (rest : List UInt8) : Decidable (Oversized limit rest) :=
  inferInstanceAs (Decidable (_ ∧ _))

instance (limit : Nat) (rest : List UInt8) : Decidable (Unfinished limit rest) :=
  inferInstanceAs (Decidable (_ ∨ _))

/-- The stream is the frames of `bodies`, all within the limit, and a rest without another one. -/
structure Cuts (limit : Nat) (stream : List UInt8) (bodies : List (List UInt8))
    (rest : List UInt8) : Prop where
  whole : stream = joined bodies ++ rest
  carried : ∀ body ∈ bodies, Carries limit body
  remains : Oversized limit rest ∨ Unfinished limit rest

/-! ## 2. Four bytes -/

theorem length_le (a b c d : UInt8) : length [a, b, c, d] ≤ maxLength := by
  have ha := a.toNat_lt
  have hb := b.toNat_lt
  have hc := c.toNat_lt
  have hd := d.toNat_lt
  simp only [length, maxLength, List.foldl_cons, List.foldl_nil]
  omega

/-- Four bytes are those of the length they say. -/
theorem header_length (a b c d : UInt8) : header (length [a, b, c, d]) = [a, b, c, d] := by
  have ha := a.toNat_lt
  have hb := b.toNat_lt
  have hc := c.toNat_lt
  have hd := d.toNat_lt
  simp only [length, header, List.foldl_cons, List.foldl_nil, List.cons.injEq, and_true,
    ← UInt8.toNat_inj, UInt8.toNat_ofNat']
  omega

/-- A stream of four bytes or more begins with the header of a length. -/
theorem exists_header {stream : List UInt8} (h : 4 ≤ stream.length) :
    ∃ n ≤ maxLength, length (stream.take 4) = n ∧ stream.take 4 = header n := by
  match stream, h with
  | a :: b :: c :: d :: more, _ =>
    exact ⟨length [a, b, c, d], length_le a b c d, rfl, (header_length a b c d).symm⟩

/-! ## 3. Every stream can be cut -/

theorem joined_cons (body : List UInt8) (bodies : List (List UInt8)) :
    joined (body :: bodies) = header body.length ++ body ++ joined bodies := rfl

theorem joined_append (bodies : List (List UInt8)) (body : List UInt8) :
    joined (bodies ++ [body]) = joined bodies ++ (header body.length ++ body) := by
  unfold joined
  rw [List.flatMap_append, List.flatMap_singleton]

/-- One more frame in front. -/
theorem Cuts.cons {limit : Nat} {stream rest body : List UInt8} {bodies : List (List UInt8)}
    (h : Cuts limit stream bodies rest) (hbody : Carries limit body) :
    Cuts limit (header body.length ++ body ++ stream) (body :: bodies) rest where
  whole := by rw [h.whole, joined_cons, List.append_assoc _ (joined bodies)]
  carried := List.forall_mem_cons.mpr ⟨hbody, h.carried⟩
  remains := h.remains

end Frame

/-! ## 4. What a receiver finds -/

/-- The body that has come, if one has. -/
def FrameEvent.body? : FrameEvent → Option (List UInt8)
  | frame body => some body
  | oversized => none

namespace FrameState

variable {limit : Nat}

theorem feed_refused (bytes : List UInt8) : feed limit refused bytes = (refused, []) := by
  induction bytes with
  | nil => rfl
  | cons b bytes ih =>
    rw [← List.singleton_append, feed_append, show feed limit refused [b] = (refused, []) from rfl,
      ih]
    rfl

/-- Fewer bytes than a length has leave the receiver waiting. -/
theorem feed_short {bytes : List UInt8} (h : bytes.length < 4) :
    feed limit fresh bytes = (head bytes, []) := by
  match bytes, h with
  | [], _ => rfl
  | [_], _ => rfl
  | [_, _], _ => rfl
  | [_, _, _], _ => rfl

/-- So do fewer bytes than the body lacks. -/
theorem feed_lacking (bytes : List UInt8) :
    ∀ {lacking : Nat} (seen : List UInt8), bytes.length < lacking →
      feed limit (body lacking seen) bytes =
        (body (lacking - bytes.length) (bytes.reverse ++ seen), []) := by
  induction bytes with
  | nil => exact fun _ _ => rfl
  | cons b bytes ih =>
    intro lacking seen h
    rw [List.length_cons] at h
    have hmany : ¬ lacking ≤ 1 := by omega
    have hstep : feed limit (body lacking seen) [b] = (body (lacking - 1) (b :: seen), []) := by
      simp only [feed, List.foldl_cons, List.foldl_nil, stepLog, step, if_neg hmany,
        List.reverse_nil]
    have hleft : lacking - 1 - bytes.length = lacking - (b :: bytes).length := by
      rw [List.length_cons]
      omega
    have hrest : bytes.length < lacking - 1 := by omega
    rw [← List.singleton_append, feed_append, hstep, ih (b :: seen) hrest, hleft,
      List.reverse_append, List.append_assoc]
    rfl

theorem feed_header (n : Nat) : feed limit fresh (Frame.header n) =
    ((begin limit (Frame.length (Frame.header n))).1,
      (begin limit (Frame.length (Frame.header n))).2.toList) := by
  unfold feed
  rw [foldl_header, List.append_nil]
  cases (begin limit (Frame.length (Frame.header n))).2 <;> rfl

/-- Frames give their bodies, and what comes next starts afresh. -/
theorem feed_joined {bodies : List (List UInt8)} (h : ∀ body ∈ bodies, Frame.Carries limit body) :
    feed limit fresh (Frame.joined bodies) = (fresh, bodies.map .frame) := by
  induction bodies with
  | nil => rfl
  | cons body bodies ih =>
    obtain ⟨hbody, hbodies⟩ := List.forall_mem_cons.mp h
    rw [Frame.joined_cons, feed_append, feed_frame hbody, ih hbodies]
    rfl

/-- A rest without a frame gives none, and is refused where a length over the limit comes next. -/
theorem feed_rest {rest : List UInt8}
    (h : Frame.Oversized limit rest ∨ Frame.Unfinished limit rest) :
    (feed limit fresh rest).2 = if Frame.Oversized limit rest then [.oversized] else [] := by
  by_cases hshort : rest.length < 4
  · rw [feed_short hshort, if_neg fun hover => Nat.not_lt.mpr hover.1 hshort]
  · have hfour := Nat.le_of_not_lt hshort
    obtain ⟨n, hn, hlength, htake⟩ := Frame.exists_header hfour
    have hsplit : Frame.header n ++ rest.drop 4 = rest := by
      rw [← htake, List.take_append_drop]
    have hfeed : (feed limit fresh rest).2 = (begin limit n).2.toList ++
        (feed limit (begin limit n).1 (rest.drop 4)).2 :=
      calc (feed limit fresh rest).2
          = (feed limit fresh (Frame.header n ++ rest.drop 4)).2 := by rw [hsplit]
        _ = _ := by rw [feed_append, feed_header, Frame.length_header hn]
    unfold Frame.Oversized Frame.Unfinished at h
    rw [hlength] at h
    rw [hfeed]
    by_cases hlimit : limit < n
    · rw [if_pos ⟨hfour, hlength ▸ hlimit⟩, show begin limit n = (refused, some .oversized) from
        if_pos hlimit, feed_refused]
      rfl
    · -- the body is not empty, since some of its bytes are missing
      have hmissing : rest.length < 4 + n := by omega
      have hlacking : (rest.drop 4).length < n := by
        rw [List.length_drop]
        omega
      rw [begin_of_pos (Nat.le_of_not_lt hlimit) (Nat.zero_lt_of_lt hlacking),
        if_neg fun hover => hlimit (hlength ▸ hover.2), feed_lacking _ [] hlacking]
      rfl

end FrameState

namespace Frame

variable {limit : Nat} {stream rest : List UInt8} {bodies : List (List UInt8)}

/-- **A receiver finds the frames of a stream**, and a length over the limit if one comes next. -/
theorem Cuts.feed (h : Cuts limit stream bodies rest) :
    (FrameState.feed limit .fresh stream).2 =
      bodies.map .frame ++ if Oversized limit rest then [.oversized] else [] := by
  rw [h.whole, FrameState.feed_append, FrameState.feed_joined h.carried,
    FrameState.feed_rest h.remains]

/-- A stream is cut in one way only. -/
theorem Cuts.unique (h : Cuts limit stream bodies rest) {others : List (List UInt8)}
    {rest' : List UInt8} (h' : Cuts limit stream others rest') :
    others = bodies ∧ rest' = rest := by
  have hfound : ∀ {bodies : List (List UInt8)} {rest : List UInt8}, Cuts limit stream bodies rest →
      (FrameState.feed limit .fresh stream).2.filterMap FrameEvent.body? = bodies := by
    intro bodies rest h
    have hbodies : (bodies.map FrameEvent.frame).filterMap FrameEvent.body? = bodies := by
      rw [List.filterMap_map]
      exact List.filterMap_some
    rw [h.feed, List.filterMap_append, hbodies]
    split <;> exact List.append_nil bodies
  obtain rfl : others = bodies := (hfound h').symm.trans (hfound h)
  exact ⟨rfl, List.append_cancel_left (h'.whole.symm.trans h.whole)⟩

end Frame

end Telefile
