import Telefile.Proofs.Histories
import Telefile.Room

/-!
# Which reads break off

A read breaks off for want of a buffer, and nothing else does. The buffer is no longer than a
transfer, and no history changes how long that is. So a service whose transfers fit into memory is
not concerned, and one whose transfers do not is concerned by the reads that ask for more than fits.

* `Service.hasRoom_read_iff`, `Service.hasRoom_of_transfer` — which requests get their buffer;
* `Hub.step?_of_hasRoom`, `Hub.step?_eq_some` — what an event does that does not break off;
* **`Hub.run?_of_hasRoom`**, **`Connection.receive?_of_transfer`** — histories and chunks in which
  nothing breaks off.
-/

namespace Telefile

/-! ## 1. Requests -/

namespace Service

variable {room : Nat} {s : Service} {fd : Fd} {h : Handle}

theorem bufferOf_read (hl : s.table.lookup fd = some (.file h)) (n : Nat) :
    s.bufferOf (.read fd (some n)) = min n s.settings.maxTransfer := by
  simp only [bufferOf, handle_of_file hl]

theorem bufferOf_read_le (s : Service) (fd : Fd) (n : Nat) :
    s.bufferOf (.read fd (some n)) ≤ min n s.settings.maxTransfer := by
  unfold bufferOf
  dsimp only
  split
  · exact Nat.le_refl _
  · exact Nat.zero_le _

/-- No buffer is longer than a transfer. -/
theorem bufferOf_le (s : Service) (q : Request) : s.bufferOf q ≤ s.settings.maxTransfer := by
  unfold bufferOf
  split
  · split
    · exact Nat.min_le_right _ _
    · exact Nat.zero_le _
  · exact Nat.zero_le _

/-- A read of a file gets its buffer if memory has so many bytes. -/
theorem hasRoom_read_iff (hl : s.table.lookup fd = some (.file h)) (n : Nat) :
    s.HasRoom room (.read fd (some n)) ↔ min n s.settings.maxTransfer ≤ min room maxBuffer := by
  unfold HasRoom
  rw [bufferOf_read hl]

theorem hasRoom_of_transfer (h : s.settings.maxTransfer ≤ min room maxBuffer) (q : Request) :
    s.HasRoom room q :=
  Nat.le_trans (s.bufferOf_le q) h

end Service

/-! ## 2. Histories -/

namespace Hub

variable {room : Nat} {b : Hub} {id : Nat} {q : Request}

theorem call?_of_hasRoom (h : b.service.HasRoom room q) :
    b.call? room id q = some (b.call id q) := by
  unfold call? call
  cases b.session? id with
  | none => rfl
  | some c => exact if_pos h

theorem call?_of_not_hasRoom (hc : (b.session? id).isSome) (h : ¬ b.service.HasRoom room q) :
    b.call? room id q = none := by
  obtain ⟨c, hc⟩ := Option.isSome_iff_exists.mp hc
  unfold call?
  rw [hc]
  exact if_neg h

theorem call?_eq_some {r : Step Hub (Option Response)} (h : b.call? room id q = some r) :
    r = b.call id q := by
  unfold call? at h
  cases hc : b.session? id with
  | none =>
    rw [hc] at h
    unfold call
    rw [hc]
    exact (Option.some.inj h).symm
  | some c =>
    rw [hc] at h
    dsimp only at h
    split at h
    · exact (Option.some.inj h).symm
    · cases h

theorem step?_call (room : Nat) (b : Hub) (id : Nat) (q : Request) :
    b.step? room (.call id q) = (b.call? room id q).map fun r => (r.answer, r.state) := rfl

/-- An event that does not break off does what it does with room for everything. -/
theorem step?_of_hasRoom {e : HubEvent} (h : ∀ id q, e = .call id q → b.service.HasRoom room q) :
    b.step? room e = some (b.step e) := by
  cases e with
  | join => rfl
  | call id q =>
    rw [step?_call, call?_of_hasRoom (h id q rfl)]
    rfl
  | leave id => rfl

/-- A request breaks off if it does not get its buffer. -/
theorem step?_of_not_hasRoom (hc : (b.session? id).isSome) (h : ¬ b.service.HasRoom room q) :
    b.step? room (.call id q) = none := by
  rw [step?_call, call?_of_not_hasRoom hc h]
  rfl

theorem step?_eq_some {e : HubEvent} {r : Option Response × Hub} (h : b.step? room e = some r) :
    r = b.step e := by
  cases e with
  | join => exact (Option.some.inj h).symm
  | call id q =>
    rw [step?_call] at h
    obtain ⟨r', hr', rfl⟩ := Option.map_eq_some_iff.mp h
    rw [call?_eq_some hr']
    rfl
  | leave id => exact (Option.some.inj h).symm

/-- A history in which nothing breaks off goes as with room for everything. -/
theorem run?_eq_some {es : List HubEvent} {r : List (Option Response) × Hub}
    (h : b.run? room es = some r) : r = b.run es := by
  induction es generalizing b r with
  | nil => exact (Option.some.inj h).symm
  | cons e es ih =>
    unfold run? at h
    cases hstep : b.step? room e with
    | none =>
      rw [hstep] at h
      cases h
    | some first =>
      rw [hstep] at h
      obtain ⟨rest, hrest, rfl⟩ := Option.map_eq_some_iff.mp h
      rw [ih hrest, step?_eq_some hstep]
      rfl

/-- **A history does not break off** if its requests get their buffers from every service with these
settings. -/
theorem run?_of_hasRoom {es : List HubEvent} (h : ∀ s : Service,
    s.settings = b.service.settings → ∀ id q, .call id q ∈ es → s.HasRoom room q) :
    b.run? room es = some (b.run es) := by
  induction es generalizing b with
  | nil => rfl
  | cons e es ih =>
    have hsettings : (b.step e).2.service.settings = b.service.settings :=
      keeps_step (Service.keeps_settings b.service.settings) e rfl
    have hfirst : b.step? room e = some (b.step e) :=
      step?_of_hasRoom fun id q he => h b.service rfl id q (he ▸ List.mem_cons_self)
    have hrest : (b.step e).2.run? room es = some ((b.step e).2.run es) :=
      ih fun s hs id q hq => h s (hs.trans hsettings) id q (List.mem_cons_of_mem _ hq)
    unfold run?
    rw [hfirst]
    dsimp only
    rw [hrest]
    rfl

theorem run?_of_transfer (h : b.service.settings.maxTransfer ≤ min room maxBuffer)
    (es : List HubEvent) : b.run? room es = some (b.run es) :=
  run?_of_hasRoom fun _ hs _ q _ => Service.hasRoom_of_transfer (hs ▸ h) q

end Hub

/-! ## 3. Connections -/

namespace Connection

variable {room limit : Nat}

theorem bufferOf_le (p : Progress) (e : FrameEvent) :
    bufferOf p e ≤ p.service.settings.maxTransfer := by
  unfold bufferOf
  split
  · exact Nat.zero_le _
  · split
    · exact p.service.bufferOf_le _
    · exact Nat.zero_le _

theorem settings_replyTo (limit : Nat) (c : Session) (s : Service) (body : List UInt8) :
    (replyTo limit c s body).state.2.settings = s.settings := by
  unfold replyTo
  split
  · rfl
  · exact Session.keeps_answer (Service.keeps_settings s.settings) c _ rfl

theorem settings_act (limit : Nat) (p : Progress) (e : FrameEvent) :
    (act limit p e).service.settings = p.service.settings := by
  unfold act
  split
  · rfl
  split
  · rfl
  dsimp only
  split
  · exact settings_replyTo limit _ _ _
  · exact settings_replyTo limit _ _ _

theorem foldlM_act?_of_transfer (events : List FrameEvent) {p : Progress}
    (h : p.service.settings.maxTransfer ≤ min room maxBuffer) :
    events.foldlM (act? room limit) p = .ok (events.foldl (act limit) p) := by
  induction events generalizing p with
  | nil => rfl
  | cons e events ih =>
    have hact : act? room limit p e = .ok (act limit p e) :=
      if_pos (Nat.le_trans (bufferOf_le p e) h)
    rw [List.foldlM_cons, hact, List.foldl_cons]
    exact ih (settings_act limit p e ▸ h)

/-- **A chunk does not break off** at a service whose transfers fit into memory. -/
theorem receive?_of_transfer (k : Connection) {s : Service}
    (h : s.settings.maxTransfer ≤ min room maxBuffer) (chunk : List UInt8) :
    k.receive? room limit s chunk = .ok (k.receive limit s chunk) :=
  foldlM_act?_of_transfer _ h

end Connection

theorem Server.receiveIn_of_transfer {room : Nat} {v : Server}
    (h : v.service.settings.maxTransfer ≤ min room maxBuffer) (id : Nat) (chunk : List UInt8) :
    v.receiveIn room id chunk = v.receive id chunk := by
  unfold receiveIn
  cases hk : v.connections.get? id with
  | none =>
    unfold receive
    rw [hk]
  | some k =>
    dsimp only
    rw [k.receive?_of_transfer h]

theorem remoteCallIn_of_transfer {α : Type} {room : Nat} {v : Server}
    (h : v.service.settings.maxTransfer ≤ min room maxBuffer) (id : Nat) (c : Client)
    (m : Call α) : remoteCallIn room v id c m = remoteCall v id c m := by
  unfold remoteCallIn remoteCall
  cases c.send m.request with
  | error e => rfl
  | ok frame =>
    dsimp only
    rw [Server.receiveIn_of_transfer h]

end Telefile
