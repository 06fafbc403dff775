import Telefile.Proofs.Wire.Spellings

/-!
# The shortest body of a message

A message has one shortest body, which is the one that is written for it. Every other body that is
read as the message spells the same pieces, with some of its numbers longer than they need be; what
follows a body is not part of it.

Attributes are left out: the nanoseconds of a time carry into its seconds when they are read.

* `Request.pieces`, `Response.pieces` — the pieces of a message;
* `Request.shortest_pieces`, `Response.shortest_pieces` — what is written spells them shortest;
* `Request.yields_reader`, `Response.spelt_of_reader` — what is read spells them;
* `Respells` — how what is read differs from what is written; `shortest_iff` — so that is shortest;
* **`shortest_bodies`** — for every byte string that is read as a message.
-/

namespace Telefile

open Reader Wire

/-! ## 1. Requests -/

namespace Request

/-- The pieces of a request: the number of its kind, and its fields. -/
def pieces : Request → List Piece
  | openPath p m => Pieces.nat32 0 ++ Pieces.option Pieces.text p ++ Pieces.nat32 m
  | close fd => Pieces.nat32 1 ++ Pieces.int32 fd
  | write fd d => Pieces.nat32 2 ++ Pieces.int32 fd ++ Pieces.blob d
  | read fd c => Pieces.nat32 3 ++ Pieces.int32 fd ++ Pieces.option Pieces.nat64 c
  | seek fd o w => Pieces.nat32 4 ++ Pieces.int32 fd ++ Pieces.int64 o ++ Pieces.nat32 w
  | unlink p => Pieces.nat32 5 ++ Pieces.option Pieces.text p
  | stat p => Pieces.nat32 6 ++ Pieces.option Pieces.text p
  | listDir fd n b => Pieces.nat32 7 ++ Pieces.int32 fd ++ Pieces.nat64 n ++ Pieces.nat64 b
  | dirTree p => Pieces.nat32 8 ++ Pieces.option Pieces.text p

/-- **A request is written in its shortest spelling.** -/
theorem shortest_pieces (q : Request) : shortest q.pieces = q.encode := by
  have htext := shortest_option shortest_text
  have hnumber := shortest_option shortest_nat64
  -- what is left to compare is the byte that the number of the kind takes
  cases q <;> simp only [pieces, shortest_append, shortest_nat32, shortest_nat64, shortest_int32,
    shortest_int64, shortest_blob, htext, hnumber] <;> rfl

/-- **What is read as a request** spells it, and its fields lie in their widths. -/
theorem yields_reader : Request.reader.Yields [] Fits pieces := by
  have htext := yields_option yields_text
  refine yields_nat32.bind fun i _ => ?_
  split
  · exact htext.bind fun p hp => yields_nat32.bind fun m hm => yields_pure ⟨hp, hm⟩ rfl
  · exact yields_int32.map fun fd hfd => ⟨hfd, rfl⟩
  · exact yields_int32.bind fun fd hfd => yields_blob.bind fun d hd => yields_pure ⟨hfd, hd⟩ rfl
  · exact yields_int32.bind fun fd hfd => (yields_option yields_nat64).bind fun c hc =>
      yields_pure ⟨hfd, hc⟩ rfl
  · exact yields_int32.bind fun fd hfd => yields_int64.bind fun o ho => yields_nat32.bind fun w hw =>
      yields_pure ⟨hfd, ho, hw⟩ rfl
  · exact htext.map fun p hp => ⟨hp, rfl⟩
  · exact htext.map fun p hp => ⟨hp, rfl⟩
  · exact yields_int32.bind fun fd hfd => yields_nat64.bind fun n hn => yields_nat64.bind fun b hb =>
      yields_pure ⟨hfd, hn, hb⟩ rfl
  · exact htext.map fun p hp => ⟨hp, rfl⟩
  · exact yields_refuse _

end Request

/-! ## 2. Responses -/

namespace Response

/-- The pieces of a response: the number of its kind, and its fields. -/
def pieces : Response → List Piece
  | status r => Pieces.nat32 0 ++ Pieces.int64 r
  | data r b => Pieces.nat32 1 ++ Pieces.int64 r ++ Pieces.blob b
  | attr r a => Pieces.nat32 2 ++ Pieces.int64 r ++ Pieces.option Pieces.attr a
  | entries r b es =>
    Pieces.nat32 3 ++ Pieces.int64 r ++ Pieces.nat64 b ++ Pieces.sequence Pieces.entry es
  | tree r t => Pieces.nat32 4 ++ Pieces.int64 r ++ Pieces.option Pieces.tree t

/-- **A response is written in its shortest spelling**, if it can be written. -/
theorem shortest_pieces {r : Response} {body : List UInt8} (h : r.encode = .ok body) :
    shortest r.pieces = body := by
  have hattr := shortest_option shortest_attr
  have hentries := shortest_sequence shortest_entry
  have htree := shortest_option shortest_tree
  simp only [encode] at h
  cases r <;> simp only [pieces, shortest_append, shortest_nat32, shortest_nat64, shortest_int64,
    shortest_blob, hattr, hentries, htree]
  case attr r a =>
    dsimp only at h
    split at h
    · cases h
    · cases h
      rfl
  all_goals
    cases h
    rfl

/-- The response to a request for attributes, with them or without. -/
def OfAttr : Response → Prop
  | attr .. => True
  | _ => False

/-- **What is read as a response** spells it, and its fields lie in their widths; unless it is one
of attributes. -/
theorem spelt_of_reader {b rest : List UInt8} {r : Response}
    (h : Response.reader b = .ok (r, rest)) (hr : ¬ r.OfAttr) :
    r.Fits ∧ ∃ c, b = c ++ rest ∧ Spelt r.pieces c := by
  obtain ⟨i, mid, hi, hfields⟩ := bind_eq_ok h
  obtain ⟨-, index, hindex, c, rfl, hc⟩ := yields_nat32 _ _ _ hi
  -- a reader of fields that yields them behind the index is enough
  have hyields : ∀ {fields : Reader Response}, fields mid = .ok (r, rest) →
      fields.Yields index Fits pieces → r.Fits ∧ ∃ d, c ++ mid = d ++ rest ∧ Spelt r.pieces d := by
    intro fields hread hall
    obtain ⟨hfit, missing, hpieces, d, rfl, hd⟩ := hall _ _ _ hread
    refine ⟨hfit, c ++ d, (List.append_assoc ..).symm, ?_⟩
    rw [hpieces]
    exact hc.append hd
  rw [List.nil_append] at hindex
  subst hindex
  split at hfields
  · exact hyields hfields (yields_int64.map fun r hr => ⟨hr, rfl⟩)
  · exact hyields hfields (yields_int64.bind fun r hr => yields_blob.bind fun b hb =>
      yields_pure ⟨hr, hb⟩ rfl)
  · obtain ⟨code, _, -, hrest⟩ := bind_eq_ok hfields
    obtain ⟨a, _, -, hrest⟩ := bind_eq_ok hrest
    cases hrest
    exact absurd trivial hr
  · exact hyields hfields (yields_int64.bind fun r hr => yields_nat64.bind fun b hb =>
      (yields_sequence yields_entry).bind fun es hes => yields_pure ⟨hr, hb, hes.1, hes.2⟩ rfl)
  · exact hyields hfields (yields_int64.bind fun r hr => (yields_option yields_tree).bind fun t ht =>
      yields_pure ⟨hr, ht⟩ rfl)
  · exact hyields hfields (yields_refuse _)

end Response

/-! ## 3. Bodies -/

/-- The bytes `c` are read as the message `m`, of these pieces, for which `body` is written: they
differ from it by numbers in more groups than they need, and in no other way. -/
structure Respells {μ : Type} (decode : List UInt8 → Except DecodeError μ) (pieces : List Piece)
    (m : μ) (body c : List UInt8) : Prop where
  read_back : decode body = .ok m
  shortest_eq : shortest pieces = body
  spelt : Spelt pieces c
  length_le : body.length ≤ c.length
  eq_of_length_eq : body.length = c.length → body = c

/-- No shorter byte string is read as the message. -/
structure Shortest {μ : Type} (decode : List UInt8 → Except DecodeError μ) (m : μ)
    (body : List UInt8) : Prop where
  read : decode body = .ok m
  length_le : ∀ b, decode b = .ok m → body.length ≤ b.length

section Bodies

variable {μ : Type} {decode : List UInt8 → Except DecodeError μ} {pieces : List Piece} {m : μ}
  {body c : List UInt8}

theorem respells_of_spelt (hread : decode body = .ok m) (hbody : shortest pieces = body)
    (hc : Spelt pieces c) : Respells decode pieces m body c where
  read_back := hread
  shortest_eq := hbody
  spelt := hc
  length_le := hbody ▸ hc.length_le
  eq_of_length_eq hlen := by
    subst hbody
    exact (hc.eq_of_length_le (Nat.le_of_eq hlen.symm)).symm

/-- **If all that is read as a message respells its body**, with more bytes behind it or without,
then the body is the only shortest one. -/
theorem shortest_iff (hread : decode body = .ok m)
    (hall : ∀ b, decode b = .ok m → ∃ c, c <+: b ∧ Respells decode pieces m body c)
    (other : List UInt8) : Shortest decode m other ↔ other = body := by
  constructor
  · intro h
    obtain ⟨c, hprefix, hc⟩ := hall _ h.read
    have hle := h.length_le body hread
    obtain rfl : c = other := hprefix.eq_of_length_le (Nat.le_trans hle hc.length_le)
    exact (hc.eq_of_length_eq (Nat.le_antisymm hc.length_le hle)).symm
  · rintro rfl
    refine ⟨hread, fun b hb => ?_⟩
    obtain ⟨c, hprefix, hc⟩ := hall b hb
    exact Nat.le_trans hc.length_le hprefix.length_le

/-- What is read from the front of some bytes leaves the others. -/
theorem exists_rest {reader : Reader μ} {b : List UInt8} (h : Prod.fst <$> reader b = .ok m) :
    ∃ rest, reader b = .ok (m, rest) := by
  rcases hr : reader b with cause | ⟨a, rest⟩
  · rw [hr] at h
    cases h
  · rw [hr] at h
    cases h
    exact ⟨rest, rfl⟩

end Bodies

theorem Request.respells {b : List UInt8} {q : Request} (h : Request.decode b = .ok q) :
    ∃ c rest, b = c ++ rest ∧ Request.reader b = .ok (q, rest) ∧
      Respells Request.decode q.pieces q q.encode c := by
  obtain ⟨rest, hread⟩ := exists_rest h
  obtain ⟨hfit, missing, hpieces, c, hb, hc⟩ := Request.yields_reader _ _ _ hread
  rw [List.nil_append] at hpieces
  subst hpieces
  exact ⟨c, rest, hb, hread, respells_of_spelt (decode_encode hfit) q.shortest_pieces hc⟩

theorem Response.respells {b : List UInt8} {r : Response} (h : Response.decode b = .ok r)
    (hr : ¬ r.OfAttr) :
    ∃ body, r.encode = .ok body ∧ ∃ c rest, b = c ++ rest ∧ Response.reader b = .ok (r, rest) ∧
      Respells Response.decode r.pieces r body c := by
  obtain ⟨rest, hread⟩ := exists_rest h
  obtain ⟨hfit, c, hb, hc⟩ := spelt_of_reader hread hr
  have hbody : ∃ body, r.encode = .ok body := by
    cases r with
    | attr code a => exact absurd trivial hr
    | _ => exact ⟨_, rfl⟩
  obtain ⟨body, hbody⟩ := hbody
  exact ⟨body, hbody, c, rest, hb, hread,
    respells_of_spelt (decode_encode hfit hbody) (shortest_pieces hbody) hc⟩

/-- **Of a message there is one shortest body, the one that is written for it.** Whatever byte
string is read as a message that carries no attributes, the part of it that was read respells that
body: it spells the same pieces, with longer numbers if it is not the body itself. -/
theorem shortest_bodies :
    (∀ (b : List UInt8) (q : Request), Request.decode b = .ok q →
      (∃ c rest, b = c ++ rest ∧ Request.reader b = .ok (q, rest) ∧
        Respells Request.decode q.pieces q q.encode c) ∧
      ∀ body, Shortest Request.decode q body ↔ body = q.encode) ∧
    (∀ (b : List UInt8) (r : Response), Response.decode b = .ok r → ¬ r.OfAttr →
      ∃ written, r.encode = .ok written ∧
        (∃ c rest, b = c ++ rest ∧ Response.reader b = .ok (r, rest) ∧
          Respells Response.decode r.pieces r written c) ∧
        ∀ body, Shortest Response.decode r body ↔ body = written) := by
  constructor
  · intro b q h
    obtain ⟨c, rest, hc⟩ := Request.respells h
    have hall : ∀ b', Request.decode b' = .ok q →
        ∃ c', c' <+: b' ∧ Respells Request.decode q.pieces q q.encode c' := by
      intro b' hb'
      obtain ⟨c', rest', hb, -, hc'⟩ := Request.respells hb'
      exact ⟨c', ⟨rest', hb.symm⟩, hc'⟩
    exact ⟨⟨c, rest, hc⟩, shortest_iff hc.2.2.read_back hall⟩
  · intro b r h hr
    obtain ⟨written, hwritten, c, rest, hc⟩ := Response.respells h hr
    have hall : ∀ b', Response.decode b' = .ok r →
        ∃ c', c' <+: b' ∧ Respells Response.decode r.pieces r written c' := by
      intro b' hb'
      obtain ⟨written', hwritten', c', rest', hb, -, hc'⟩ := Response.respells hb' hr
      obtain rfl : written = written' := Except.ok.inj (hwritten.symm.trans hwritten')
      exact ⟨c', ⟨rest', hb.symm⟩, hc'⟩
    exact ⟨written, hwritten, ⟨c, rest, hc⟩, shortest_iff hc.2.2.read_back hall⟩

/-- An open whose index, length and mode are longer than they need be, with a byte behind it; and
the end of a directory with a long base. -/
theorem shortest_bodies_overlong :
    let q : Request := .openPath (some "a") 0
    let r : Response := .entries (-1) 1 []
    let open_ : List UInt8 := [128, 0, 1, 129, 0, 97, 128, 128, 128, 128, 0]
    let end_ : List UInt8 := [3, 129, 0, 129, 128, 0, 0]
    Request.decode (open_ ++ [7]) = .ok q ∧ Response.decode end_ = .ok r ∧ ¬ r.OfAttr ∧
      (∀ body, Shortest Request.decode q body ↔ body = [0, 1, 1, 97, 0]) ∧
      ∀ body, Shortest Response.decode r body ↔ body = [3, 1, 1, 0] := by
  intro q r open_ end_
  have hopen : Request.decode (open_ ++ [7]) = .ok q := rfl
  have hend : Response.decode end_ = .ok r := by cbv
  have hattr : ¬ r.OfAttr := id
  obtain ⟨written, hwritten, -, hshortest⟩ := shortest_bodies.2 end_ r hend hattr
  obtain rfl : written = [3, 1, 1, 0] := Except.ok.inj (hwritten.symm.trans rfl)
  exact ⟨hopen, hend, hattr, (shortest_bodies.1 _ q hopen).2, hshortest⟩

end Telefile
