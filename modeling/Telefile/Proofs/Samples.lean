import Telefile.Host.Arrange
import Telefile.Proofs.Lifetime.Exhaustion

/-!
# A host with one file, and its clients

The states at which the results of the other modules are tried out.

* `Host.fourBytes`, `Host.withoutF` — a host with a file, and the host that is left when it is gone;
* `Service.prepare_fourBytes`, `Service.unlink_fourBytes`, `Service.prepare_withoutF` — what a
  service there makes of the path, whatever else it holds; `Hub.step_openF` — and so a hub;
* `Hub.reopened` — two sessions at one file, and `recordOfReopening`, the record of how it came
  about; `Hub.sharing` — two descriptors on the file.
-/

namespace Telefile

/-! ## 1. The host -/

namespace Host

/-- A host with a file `f` of four bytes. -/
def fourBytes : Host :=
  { (Host.fresh [Utf8.encode "srv"] ⟨0, 0⟩ none).setEntry [Utf8.encode "srv", Utf8.encode "f"]
      (.file 0) with files := [⟨.newFile, ⟨0, 0⟩, .ofList [0x61, 0x62, 0x63, 0x64]⟩] }

/-- The host without its file `f`. -/
def withoutF : Host :=
  (fourBytes.eraseEntry [Utf8.encode "srv", Utf8.encode "f"]).touch [Utf8.encode "srv"]

theorem arrive_fourBytes {last : LastStep} (hlast : last = .follow ∨ last = .entry) :
    fourBytes.arrive last (Path.ofString "f") =
      .ok (.found [Utf8.encode "srv", Utf8.encode "f"] (.file 0)) := by
  rw [show Path.ofString "f" = ⟨[0x66]⟩ by decide]
  unfold arrive
  rw [walk.eq_def]
  rcases hlast with rfl | rfl <;> rfl

theorem lookup_fourBytes {last : LastStep} (hlast : last = .follow ∨ last = .entry) :
    fourBytes.lookup last (Path.ofString "f") =
      .ok ([Utf8.encode "srv", Utf8.encode "f"], .file 0) := by
  unfold lookup
  rw [arrive_fourBytes hlast]

theorem arrive_withoutF (last : LastStep) : withoutF.arrive last (Path.ofString "f") =
    .ok (.vacant [Utf8.encode "srv"] (Utf8.encode "f")) := by
  rw [show Path.ofString "f" = ⟨[0x66]⟩ by decide]
  unfold arrive
  rw [walk.eq_def]
  cases last <;> rfl

end Host

/-! ## 2. What a service makes of the file -/

namespace Service

variable {s : Service}

/-- The file is there for reading and for writing. -/
theorem prepare_fourBytes (hscope : s.scope = .everything) (hhost : s.host = Host.fourBytes)
    {mode : OpenMode} (hmode : mode = .read ∨ mode = .write) : s.prepare (some "f") mode =
      .ok (fresh (Path.ofString "f") mode.access (.file 0), Host.fourBytes) := by
  have hfound := Host.lookup_fourBytes (.inl rfl)
  have hexisting : openExisting Host.fourBytes "f" (Path.ofString "f") mode.access =
      .ok (fresh (Path.ofString "f") mode.access (.file 0), Host.fourBytes) := by
    unfold openExisting Host.openPath
    rw [hfound]
    rcases hmode with rfl | rfl <;> rfl
  unfold prepare Scope.resolve Scope.resolveWith
  rw [hscope, hhost]
  dsimp only
  rw [hfound]
  rcases hmode with rfl | rfl
  · exact hexisting
  · exact hexisting

theorem unlink_fourBytes (hscope : s.scope = .everything) (hhost : s.host = Host.fourBytes) :
    s.unlink (some "f") = ⟨.ok (), { s with host := Host.withoutF }, []⟩ := by
  unfold unlink removed Scope.resolveEntry Scope.resolveWith
  rw [hscope, hhost]
  dsimp only
  unfold Host.removePath
  rw [Host.lookup_fourBytes (.inr rfl)]
  rfl

theorem prepare_withoutF (hscope : s.scope = .everything) (hhost : s.host = Host.withoutF) :
    s.prepare (some "f") .createNew =
      .ok (fresh (Path.ofString "f") .readWrite (.file 1),
        (Host.withoutF.addFile [Utf8.encode "srv", Utf8.encode "f"]).2.touch
          [Utf8.encode "srv"]) := by
  unfold prepare Scope.resolve Scope.resolveWith
  rw [hscope, hhost]
  dsimp only
  unfold Host.lookup
  rw [Host.arrive_withoutF]
  unfold openAs Host.createPath
  rw [Host.arrive_withoutF]
  rfl

/-- The service with `f` open under the next descriptor. -/
def openedF (s : Service) : Service :=
  { s with table := ⟨s.table.last + 1, s.table.files.insert (s.table.last + 1)
      (fresh (Path.ofString "f") .readWrite (.file 0))⟩ }

end Service

/-- A request to open `f` for writing. -/
def Request.openF : Request := .openPath (some "f") OpenMode.write.toRaw

theorem Session.answer_openF {c : Session} {s : Service} (hscope : s.scope = .everything)
    (hhost : s.host = Host.fourBytes) (hlast : s.table.last < maxDescriptor) :
    (c.answer s .openF).answer = .status (s.table.last + 1) ∧ (c.answer s .openF).state =
      ({ c with opened := c.opened ++ [s.table.last + 1] }, s.openedF) := by
  have hopen := answer_of_prepare (c := c)
    (Service.prepare_fourBytes hscope hhost (.inr rfl)) hlast
  rw [← hhost] at hopen
  exact hopen

theorem Hub.step_openF {b : Hub} {id : Nat} {c : Session} (hc : b.session? id = some c)
    (hscope : b.service.scope = .everything) (hhost : b.service.host = Host.fourBytes)
    (hlast : b.service.table.last < maxDescriptor) :
    b.step (.call id .openF) = (some (.status (b.service.table.last + 1)), ⟨b.service.openedF,
      b.sessions.insert id { c with opened := c.opened ++ [b.service.table.last + 1] }⟩) := by
  obtain ⟨hanswer, hstate⟩ := Session.answer_openF (c := c) hscope hhost hlast
  rw [step_call hc, hanswer, hstate]

/-! ## 3. Two sessions at the file -/

/-- Session 1 opens `f`, session 2 closes the descriptor, and session 1 opens `f` again. -/
def reopening : List HubEvent :=
  [.join, .join, .call 1 .openF, .call 2 (.close 1001), .call 1 .openF]

section Reopening

variable (transfer : Nat) (cleanup : Bool)

/-- The hub after that. Session 1 does not know that its first descriptor was closed. -/
def Hub.reopened : Hub :=
  let b := ((Hub.start ⟨none, transfer, cleanup⟩ Host.fourBytes).answer.run [.join, .join]).2
  let opened : Hub := ⟨b.service.openedF, b.sessions.insert 1 ⟨1, [1001]⟩⟩
  let closed := (opened.step (.call 2 (.close 1001))).2
  ⟨closed.service.openedF, closed.sessions.insert 1 ⟨1, [1001, 1002]⟩⟩

theorem Hub.run_reopening :
    (Hub.start ⟨none, transfer, cleanup⟩ Host.fourBytes).answer.run reopening =
      ([none, none, some (.status 1001), some (.status 0), some (.status 1002)],
        reopened transfer cleanup) := by
  let b := ((Hub.start ⟨none, transfer, cleanup⟩ Host.fourBytes).answer.run [.join, .join]).2
  let opened : Hub := ⟨b.service.openedF, b.sessions.insert 1 ⟨1, [1001]⟩⟩
  let closed := (opened.step (.call 2 (.close 1001))).2
  have hopen : b.step (.call 1 .openF) = (some (.status 1001), opened) := by
    have hc : b.session? 1 = some ⟨1, []⟩ := rfl
    exact step_openF hc rfl rfl (show (1000 : Int) < 2147483647 by decide)
  have hclose : opened.step (.call 2 (.close 1001)) = (some (.status 0), closed) := rfl
  have hreopen : closed.step (.call 1 .openF) =
      (some (.status 1002), reopened transfer cleanup) := by
    have hc : closed.session? 1 = some ⟨1, [1001]⟩ := rfl
    exact step_openF hc rfl rfl (show (1001 : Int) < 2147483647 by decide)
  show (none :: none :: (b.run (reopening.drop 2)).1, (b.run (reopening.drop 2)).2) = _
  rw [show reopening.drop 2 = [_, _, _] from rfl]
  simp only [run, hopen, hclose, hreopen]

/-- What that leaves on record. -/
def recordOfReopening : List Note :=
  (Hub.start ⟨none, transfer, cleanup⟩ Host.fourBytes).answer.notesOf reopening

theorem recorded_reopening : Hub.Recorded ⟨none, transfer, cleanup⟩ Host.fourBytes
    (recordOfReopening transfer cleanup) (Hub.reopened transfer cleanup) := by
  have hstart : Hub.Recorded ⟨none, transfer, cleanup⟩ Host.fourBytes [] _ := .start
  have hrun := hstart.run reopening
  rwa [Hub.run_reopening] at hrun

theorem effects_reopening : effects (recordOfReopening transfer cleanup) =
    [.begun, .begun, .issued 1 1001] ++ [.closed 2 1001] ++ [.issued 1 1002] := by
  unfold recordOfReopening Hub.notesOf
  rw [Hub.run_reopening]
  rfl

end Reopening

/-! ## 4. Two descriptors on the file -/

/-- The hub in which session 1 holds 1002 and 1003, both on `f`. -/
def Hub.sharing : Hub :=
  ⟨(reopened 4 false).service.openedF, (reopened 4 false).sessions.insert 1 ⟨1, [1001, 1002, 1003]⟩⟩

/-- What that leaves on record. -/
def recordOfSharing : List Note :=
  recordOfReopening 4 false ++ [⟨.call 1 .openF, some (.status 1003)⟩]

theorem recorded_sharing :
    Hub.Recorded ⟨none, 4, false⟩ Host.fourBytes recordOfSharing Hub.sharing := by
  have hc : (Hub.reopened 4 false).session? 1 = some ⟨1, [1001, 1002]⟩ := rfl
  have hevent := (recorded_reopening 4 false).event (.call 1 .openF)
  rw [Hub.step_openF hc rfl rfl (show (1002 : Int) < 2147483647 by decide)] at hevent
  exact hevent

/-- Session 2 writes two bytes, session 1 reads three, and session 2 seeks too far back. -/
def sharedUse : List HubEvent :=
  [.call 2 (.write 1003 [1, 2]), .call 1 (.read 1002 (some 3)),
    .call 2 (.seek 1002 (-5) Whence.current.toRaw)]

end Telefile
