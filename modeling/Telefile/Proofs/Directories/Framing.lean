import Telefile.Config
import Telefile.Proofs.Confinement.Operations
import Telefile.Proofs.Directories.Paging
import Telefile.Proofs.Reply.Oversized

/-!
# A page fits its frame

A page is measured in the records of a directory: a header of 19 bytes, the name and a terminator,
filled up to a multiple of eight. Sent are varints and names. Names of a host are short, and as
texts they are three times as long at most; so every record leaves 17 bytes over, which pay for what
stands before the entries.

* `Utf8.utf8ByteSize_decodeLossy_le` — how long the text of a name is;
* `Wire.length_entries_le`, `Response.length_entries_le` — entries against their records, and a page
  against its bytes;
* `Service.names_of_listDir` — how long the names on a page are;
* **`directory_pages_fit`** — under every configuration that was taken.
-/

namespace Telefile

/-! ## 1. Names as texts -/

namespace Utf8

/-- A byte that is a character by itself is one of ASCII. -/
theorem utf8Size_of_lead {b : UInt8} {c : Char} (h : lead b = .char c) : c.utf8Size = 1 := by
  have hascii : ∀ n < 128, (Char.ofNat n).utf8Size = 1 := by decide
  unfold lead at h
  split at h
  · next hb =>
    cases h
    exact hascii b.toNat (UInt8.lt_iff_toNat_lt.mp hb)
  · repeat' split at h
    all_goals cases h

/-- The bytes that characters take. -/
def sizeOf (cs : List Char) : Nat := (cs.flatMap String.utf8EncodeChar).length

theorem sizeOf_cons (c : Char) (cs : List Char) : sizeOf (c :: cs) = c.utf8Size + sizeOf cs := by
  unfold sizeOf
  rw [List.flatMap_cons, List.length_append, String.length_utf8EncodeChar]

/-- What breaks off an open sequence is read as if none had been open. -/
theorem readLossy_broken {p : Pending} {x : UInt8} (h : ¬ (p.low ≤ x ∧ x ≤ p.high))
    (rest : List UInt8) :
    readLossy (some p) (x :: rest) = replacement :: readLossy none (x :: rest) := by
  unfold readLossy
  rw [if_neg h]
  cases lead x <;> rfl

/-- Characters take three bytes for each byte they were read from, and three more if a sequence was
open: it stands for a byte that has been read already. -/
theorem sizeOf_readLossy_le (b : List UInt8) : sizeOf (readLossy none b) ≤ 3 * b.length ∧
    ∀ p, sizeOf (readLossy (some p) b) ≤ 3 * b.length + 3 := by
  have hreplacement : replacement.utf8Size = 3 := rfl
  induction b with
  | nil => exact ⟨Nat.le_refl 0, fun p => Nat.le_refl 3⟩
  | cons x rest ih =>
    obtain ⟨hclosed, hopen⟩ := ih
    rw [List.length_cons]
    have hnone : sizeOf (readLossy none (x :: rest)) ≤ 3 * (rest.length + 1) := by
      unfold readLossy
      cases hx : lead x with
      | char c =>
        have hc := utf8Size_of_lead hx
        dsimp only
        rw [sizeOf_cons]
        omega
      | opens p =>
        have hp := hopen p
        dsimp only
        omega
      | illFormed =>
        dsimp only
        rw [sizeOf_cons]
        omega
    refine ⟨hnone, fun p => ?_⟩
    by_cases hgoes : p.low ≤ x ∧ x ≤ p.high
    · unfold readLossy
      rw [if_pos hgoes]
      dsimp only
      split
      · have hc := (Char.ofNat (p.code * 64 + (x.toNat - 0x80))).utf8Size_le_four
        rw [sizeOf_cons]
        omega
      · have hp := hopen ⟨p.code * 64 + (x.toNat - 0x80), p.lacking - 1, 0x80, 0xBF⟩
        omega
    · rw [readLossy_broken hgoes, sizeOf_cons]
      omega

/-- **The text of a name** is three times as long as the name at most. -/
theorem utf8ByteSize_decodeLossy_le (b : List UInt8) :
    (decodeLossy b).utf8ByteSize ≤ 3 * b.length := by
  rw [← Wire.length_encode]
  unfold decodeLossy
  cases hb : decode? b with
  | some s =>
    rw [encode_of_decode? hb]
    omega
  | none =>
    dsimp only
    rw [encode_eq, String.toList_ofList]
    exact (sizeOf_readLossy_le b).1

end Utf8

/-! ## 2. Pages -/

namespace Wire

/-- An entry leaves 17 bytes of its record over. -/
theorem length_entry_le {e : DirEntry} (h : e.name.utf8ByteSize ≤ 765) :
    (entry e).length + 17 ≤ e.recordSize := by
  have hname : (nat64 e.name.utf8ByteSize).length ≤ 2 :=
    Varint.length_groups_le_of_lt 10 (Nat.lt_of_le_of_lt h (by decide))
  have hkind : (kind e.kind).length = 1 := by cases e.kind <;> rfl
  unfold entry text blob DirEntry.recordSize
  rw [List.length_append, List.length_append, length_encode, hkind]
  omega

/-- So many bytes do all of them. -/
theorem length_entries_le {es : List DirEntry} (h : ∀ e ∈ es, e.name.utf8ByteSize ≤ 765) :
    (es.flatMap entry).length + 17 * es.length ≤ Service.recordBytes es := by
  induction es with
  | nil => exact Nat.le_refl 0
  | cons e es ih =>
    have he := length_entry_le (h e List.mem_cons_self)
    have hes := ih fun x hx => h x (List.mem_cons_of_mem _ hx)
    rw [List.flatMap_cons, List.length_append, List.length_cons, Service.recordBytes_cons]
    omega

/-- **What stands before the entries** is paid for by what they leave over: one entry pays for a
result below 16384, and two for anything. -/
theorem length_front_le {es : List DirEntry} (hsome : es ≠ [])
    (h : ∀ e ∈ es, e.name.utf8ByteSize ≤ 765) (base : Nat) :
    1 + (int64 (Service.recordBytes es)).length + (nat64 base).length + (nat64 es.length).length ≤
      17 * es.length := by
  have hresult : (int64 (Service.recordBytes es)).length ≤ 10 := Varint.length_groups_le _ _
  have hbase : (nat64 base).length ≤ 10 := Varint.length_groups_le _ _
  have hcount : (nat64 es.length).length ≤ 10 := Varint.length_groups_le _ _
  match es, hsome with
  | [e], _ =>
    have hname := h e List.mem_cons_self
    have hrecord : 2 * Service.recordBytes [e] < 128 ^ (1 + 1) := by
      show 2 * (e.recordSize + 0) < 128 ^ 2
      unfold DirEntry.recordSize
      omega
    have hshort : (int64 (Service.recordBytes [e])).length ≤ 2 :=
      Varint.length_groups_le_of_lt 10 hrecord
    have hone : (nat64 [e].length).length = 1 := rfl
    rw [hone]
    show 1 + _ + _ + 1 ≤ 17
    omega
  | e :: e' :: es, _ =>
    rw [List.length_cons, List.length_cons] at hcount ⊢
    omega

end Wire

/-- **A page that is not empty** takes no more bytes than its records. -/
theorem Response.encode_page {es : List DirEntry} (hsome : es ≠ [])
    (h : ∀ e ∈ es, e.name.utf8ByteSize ≤ 765) (base : Nat) :
    ∃ out, (Response.entries (Service.recordBytes es) base es).encode = .ok out ∧
      out.length ≤ Service.recordBytes es := by
  have hfront := Wire.length_front_le hsome h base
  have hentries := Wire.length_entries_le h
  refine ⟨_, rfl, ?_⟩
  unfold Wire.sequence
  rw [List.length_cons, List.length_append, List.length_append, List.length_append]
  omega

/-- The names on a page are texts of names of the host. -/
theorem Service.names_of_listDir {s : Service} {fd : Fd} {nbytes base : Nat} {page : DirPage}
    (hnames : ∀ l n e, s.host.entryAt? (l ++ [n]) = some e → n.length ≤ Host.maxName)
    (h : s.listDir fd nbytes base = .ok page) :
    ∀ e ∈ page.entries, e.name.utf8ByteSize ≤ 765 := by
  obtain ⟨p, l, perms, t, -, -, hshown⟩ := listDir_ok h
  intro x hx
  rcases hshown x hx with rfl | rfl | ⟨n, e, hn, rfl⟩
  · exact (by decide : ".".utf8ByteSize ≤ 765)
  · exact (by decide : "..".utf8ByteSize ≤ 765)
  · have hlossy := Utf8.utf8ByteSize_decodeLossy_le n
    have hlength := hnames l n e hn
    unfold Host.maxName at hlength
    dsimp only
    omega

/-! ## 3. Under a configuration -/

/-- **A page that is not empty fits its frame.** Under every configuration that is taken, on a host
whose names have 255 bytes at most, so that the texts of them have 765 at most: a page with an entry
takes no more bytes as a reply than its records, which are fewer than a frame may have. So it is
sent as it is, whatever was asked for, and never replaced by a failure. -/
theorem directory_pages_fit {config : ServerConfig} (hconfig : config.validate = .ok config)
    {s : Service} (hsettings : s.settings = config.service)
    (hnames : ∀ l n e, s.host.entryAt? (l ++ [n]) = some e → n.length ≤ Host.maxName) (c : Session)
    {fd : Fd} {nbytes base : Nat} {page : DirPage} (hpage : s.listDir fd nbytes base = .ok page)
    (hsome : page.entries ≠ []) :
    let q : Request := .listDir fd nbytes base
    let r : Response := .entries page.bytes page.nextBase page.entries
    (c.answer s q).answer = r ∧ page.bytes = Service.recordBytes page.entries ∧
      (∀ e ∈ page.entries, e.name.utf8ByteSize ≤ 765) ∧
      ∃ out, r.encode = .ok out ∧ out.length ≤ page.bytes ∧ page.bytes < config.maxFrame ∧
        encodeReply config.maxFrame r (q.failure .inputOutput) = .ok out ∧
        ∀ body, Request.decode body = .ok q →
          (replyTo config.maxFrame c s body).answer = sendable config.maxFrame out := by
  intro q r
  have hanswer : (c.answer s q).answer = r := c.answer_page hpage
  have hshort := Service.names_of_listDir hnames hpage
  obtain ⟨hbytes, htransfer⟩ := Service.listDir_bytes hpage
  obtain ⟨out, hout, hle⟩ := Response.encode_page hsome hshort page.nextBase
  rw [← hbytes] at hout hle
  have hlimits : config.service.maxTransfer < config.maxFrame := by
    unfold ServerConfig.validate at hconfig
    split at hconfig
    · cases hconfig
    · next hlt => exact Nat.lt_of_not_le hlt
  have hframe : page.bytes < config.maxFrame := by
    rw [hsettings] at htransfer
    exact Nat.lt_of_le_of_lt htransfer hlimits
  have hdue : encodeReply config.maxFrame r (q.failure .inputOutput) = .ok out :=
    encodeReply_of_le hout (Nat.le_trans hle (Nat.le_of_lt hframe))
  refine ⟨hanswer, hbytes, hshort, out, hout, hle, hframe, hdue, fun body hbody => ?_⟩
  rw [← hanswer] at hdue
  exact (replyTo_of_encodeReply hbody hdue).1

/-- One entry and one byte to spare: a page of the 24 bytes of a transfer, in frames of up to 25. -/
theorem directory_pages_fit_fourBytes :
    let config : ServerConfig := ⟨.default, 25, ⟨none, 24, false⟩⟩
    let s : Service := { (Service.start config.service Host.fourBytes).answer with
      table := DescriptorTable.new.insert 1001 (.directory (Path.ofString ".")) }
    let q : Request := .listDir 1001 24 0
    config.validate = .ok config ∧
      (∀ l n e, s.host.entryAt? (l ++ [n]) = some e → n.length ≤ Host.maxName) ∧
      s.listDir 1001 24 0 = .ok ⟨24, 1, [⟨".", .directory⟩]⟩ ∧
      ∀ c : Session, (c.answer s q).answer = .entries 24 1 [⟨".", .directory⟩] ∧
        ∃ out, out.length ≤ 24 ∧
          encodeReply 25 (c.answer s q).answer (q.failure .inputOutput) = .ok out := by
  intro config s q
  have hnames : ∀ l n e, s.host.entryAt? (l ++ [n]) = some e → n.length ≤ Host.maxName := by
    have hall : ∀ x ∈ Host.fourBytes.allEntries, ∀ n ∈ x.1, n.length ≤ Host.maxName := by decide
    intro l n e hentry
    have hmem : (l ++ [n], e) ∈ Host.fourBytes.allEntries := Host.mem_allEntries_iff.mpr hentry
    exact hall _ hmem n List.mem_concat_self
  have hpage : s.listDir 1001 24 0 = .ok ⟨24, 1, [⟨".", .directory⟩]⟩ := by
    rw [Service.listDir_of_readsAs (Service.readsAs_fourBytes rfl rfl)]
    rfl
  have hconfig : config.validate = .ok config := rfl
  refine ⟨hconfig, hnames, hpage, fun c => ?_⟩
  obtain ⟨hanswer, -, -, out, -, hle, -, hdue, -⟩ :=
    directory_pages_fit hconfig rfl hnames c hpage (List.cons_ne_nil _ _)
  refine ⟨hanswer, out, hle, ?_⟩
  rw [hanswer]
  exact hdue

end Telefile
