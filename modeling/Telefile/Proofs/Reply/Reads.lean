import Telefile.Config
import Telefile.Proofs.Reply.Fitting
import Telefile.Proofs.Samples

/-!
# Which reads are answered with their bytes

The bytes of a read travel behind an index, the result and their number. A configuration is taken
when the frame limit exceeds the transfer limit, which leaves room for the bytes but not always for
what stands before them.

* `replyTo_read` — the reply to a read, by the length of its bytes;
* **`replyTo_read_of_validate`** — the same for a configuration that was taken: with
  `Response.dataLength` of the longest read within the frame limit every read is answered with its
  bytes, and where a read is not, the cursor has moved past them;
* **`not_every_read_fits`** — the comparison of the two limits does not suffice.
-/

namespace Telefile

/-! ## 1. What a read gives -/

theorem Host.length_readAt_le (h : Host) (o : FileObject) (pos n : Nat) :
    (h.readAt o pos n).length ≤ min n readChunk := by
  cases o with
  | file id =>
    show ((h.contentOf id).read pos (min n readChunk)).length ≤ min n readChunk
    rw [Content.read_eq]
    exact List.length_take_le _ _
  | device d =>
    cases d with
    | full =>
      show (List.replicate (min n readChunk) (0 : UInt8)).length ≤ min n readChunk
      exact Nat.le_of_eq List.length_replicate
    | null => exact Nat.zero_le _

/-- A successful read: the bytes are no more than a transfer and a chunk, and the cursor behind the
descriptor has moved past them. -/
theorem Service.read_ok {s : Service} {fd : Fd} {capacity : Option Nat} {bytes : List UInt8}
    (h : (s.read fd capacity).answer = .ok bytes) :
    bytes.length ≤ min s.settings.maxTransfer Host.readChunk ∧
      ∃ hd, s.handle fd = .ok hd ∧
        (s.read fd capacity).state = s.moveCursor fd hd (hd.cursor + bytes.length) := by
  rcases s.read_cases fd capacity with ⟨e, hr⟩ | ⟨hd, n, b, hh, -, hb, hr⟩
  · rw [hr] at h
    cases h
  · rw [hr] at h ⊢
    cases h
    refine ⟨?_, hd, hh, rfl⟩
    have hle := s.host.length_readAt_le hd.object hd.cursor (min n s.settings.maxTransfer)
    rw [hb]
    omega

/-! ## 2. What is sent for it -/

section Reads

variable {limit : Nat} {c : Session} {s : Service} {body bytes : List UInt8} {fd : Fd}
  {capacity : Option Nat}

theorem Session.answer_read_of_ok (h : (s.read fd capacity).answer = .ok bytes) :
    (c.answer s (.read fd capacity)).answer = .data bytes.length bytes := by
  show Response.data (codeOf (fun b => (b.length : Int)) (s.read fd capacity).answer)
    ((s.read fd capacity).answer.toOption.getD []) = _
  rw [h]
  rfl

/-- The reply to a successful read: its bytes if they fit, a failure of three bytes if that fits, and
nothing else. -/
theorem replyTo_read (hbody : Request.decode body = .ok (.read fd capacity))
    (hread : (s.read fd capacity).answer = .ok bytes)
    (hlen : Response.dataLength bytes.length ≤ Frame.maxLength) :
    (replyTo limit c s body).answer =
      if Response.dataLength bytes.length ≤ limit then
        (Response.data bytes.length bytes).encode.toOption
      else if 3 ≤ limit then some [1, 9, 0] else none := by
  have hreply : (replyTo limit c s body).answer =
      fitReply limit (.data bytes.length bytes) (.data Errno.inputOutput.neg []) := by
    unfold replyTo
    rw [hbody]
    dsimp only
    rw [Session.answer_read_of_ok hread]
    rfl
  obtain ⟨out, hout, houtlen⟩ := Response.encode_data bytes
  have hshort : (Response.data Errno.inputOutput.neg []).encode = .ok [1, 9, 0] := rfl
  rw [hreply, hout]
  by_cases hle : Response.dataLength bytes.length ≤ limit
  · have hcarries : Frame.Carries limit out := by
      unfold Frame.Carries
      omega
    rw [if_pos hle, fitReply_of_le hout hcarries.1, sendable_of_carries hcarries]
    rfl
  · rw [if_neg hle, fitReply_of_lt hout (by omega) hshort]
    by_cases hthree : 3 ≤ limit
    · rw [if_pos hthree]
      exact sendable_of_carries ⟨hthree, by decide⟩
    · rw [if_neg hthree]
      exact if_neg fun hc => hthree hc.1

theorem replyTo_read_service (hbody : Request.decode body = .ok (.read fd capacity)) :
    (replyTo limit c s body).state.2 = (s.read fd capacity).state := by
  unfold replyTo
  rw [hbody]
  rfl

end Reads

/-- **A read of a service whose configuration was taken** is answered with its bytes exactly if the
body that carries them is within the frame limit. Else a failure is sent, or nothing where that does
not fit either; but the cursor has moved past the bytes in any case. Every read is answered with its
bytes if the limit leaves room for the longest. -/
theorem replyTo_read_of_validate {config : ServerConfig}
    (hconfig : config.validate = .ok config) (host : Host) (history : List HubEvent) (c : Session)
    {body bytes : List UInt8} {fd : Fd} {capacity : Option Nat}
    (hbody : Request.decode body = .ok (.read fd capacity)) :
    let s := Hub.serviceAfter config.service host history
    let longest := min config.service.maxTransfer Host.readChunk
    (s.read fd capacity).answer = .ok bytes →
      bytes.length ≤ longest ∧ bytes.length < config.maxFrame ∧
      (Response.dataLength longest ≤ config.maxFrame →
        Response.dataLength bytes.length ≤ config.maxFrame) ∧
      (replyTo config.maxFrame c s body).answer =
        (if Response.dataLength bytes.length ≤ config.maxFrame then
          (Response.data bytes.length bytes).encode.toOption
        else if 3 ≤ config.maxFrame then some [1, 9, 0] else none) ∧
      ∃ hd, s.handle fd = .ok hd ∧ (replyTo config.maxFrame c s body).state.2 =
        s.moveCursor fd hd (hd.cursor + bytes.length) := by
  intro s longest hread
  obtain ⟨hle, hd, hh, hstate⟩ := Service.read_ok hread
  rw [Hub.settings_serviceAfter config.service host history] at hle
  have hlimits : config.service.maxTransfer < config.maxFrame := by
    unfold ServerConfig.validate at hconfig
    split at hconfig
    · cases hconfig
    · next hlt => omega
  have hlen : Response.dataLength bytes.length ≤ Frame.maxLength := by
    have h1 := Response.dataLength_le bytes.length
    have h2 : Host.readChunk + 21 ≤ Frame.maxLength := by decide
    omega
  refine ⟨hle, by omega, ?_, replyTo_read hbody hread hlen, hd, hh, ?_⟩
  · intro hlongest
    exact Nat.le_trans (Response.dataLength_mono hle) hlongest
  · rw [replyTo_read_service hbody, hstate]

/-! ## 3. Two limits next to each other -/

/-- Frames of up to five bytes, and transfers of up to four. -/
def ServerConfig.tight : ServerConfig := ⟨.default, 5, ⟨none, 4, false⟩⟩

/-- A client that opens `f` for reading. -/
def readerOfF : List HubEvent := [.join, .call 1 (.openPath (some "f") OpenMode.read.toRaw)]

theorem read_fourBytes :
    ((Hub.serviceAfter ServerConfig.tight.service Host.fourBytes readerOfF).read 1001
      (some 4)).answer = .ok [0x61, 0x62, 0x63, 0x64] := by
  let s : Service :=
    { (Service.start ServerConfig.tight.service Host.fourBytes).answer with nextSession := 2 }
  have hopen : (Hub.serviceAfter ServerConfig.tight.service Host.fourBytes readerOfF) =
      (s.openPath (some "f") .read).state := Session.openPath_service ⟨1, []⟩ s (some "f") .read
  rw [hopen]
  unfold Service.openPath
  rw [Service.prepare_fourBytes rfl rfl (.inl rfl)]
  rfl

/-- A read of `f` is answered by a failure, and the cursor stands at its end. -/
theorem replyTo_read_of_validate_tight :
    let s := Hub.serviceAfter ServerConfig.tight.service Host.fourBytes readerOfF
    let r := replyTo 5 ⟨1, [1001]⟩ s [3, 0xd2, 0x0f, 1, 4]
    ServerConfig.tight.validate = .ok ServerConfig.tight ∧
      Request.decode [3, 0xd2, 0x0f, 1, 4] = .ok (.read 1001 (some 4)) ∧
      (s.read 1001 (some 4)).answer = .ok [0x61, 0x62, 0x63, 0x64] ∧ r.answer = some [1, 9, 0] ∧
      ∃ hd, s.handle 1001 = .ok hd ∧ r.state.2 = s.moveCursor 1001 hd (hd.cursor + 4) := by
  intro s r
  have hdecode : Request.decode [3, 0xd2, 0x0f, 1, 4] = .ok (.read 1001 (some 4)) := by cbv
  have hconfig : ServerConfig.tight.validate = .ok ServerConfig.tight := rfl
  obtain ⟨-, -, -, hreply, hcursor⟩ := replyTo_read_of_validate hconfig
    Host.fourBytes readerOfF ⟨1, [1001]⟩ hdecode read_fourBytes
  exact ⟨hconfig, hdecode, read_fourBytes, hreply, hcursor⟩

/-- **Not every read fits**: the body for the four bytes of `f` has seven. -/
theorem not_every_read_fits :
    ¬ ∀ (config : ServerConfig) (host : Host) (history : List HubEvent) (fd : Fd)
      (capacity : Option Nat) (bytes body : List UInt8), config.validate = .ok config →
      ((Hub.serviceAfter config.service host history).read fd capacity).answer = .ok bytes →
      (Response.data bytes.length bytes).encode = .ok body → body.length ≤ config.maxFrame := by
  intro h
  have hlen := h .tight Host.fourBytes readerOfF 1001 (some 4) _
    [1, 8, 4, 0x61, 0x62, 0x63, 0x64] rfl read_fourBytes rfl
  exact absurd hlen (by decide)

end Telefile
