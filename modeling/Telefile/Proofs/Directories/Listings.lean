import Telefile.Proofs.Confinement.Showing
import Telefile.Proofs.Lookup.Compare
import Telefile.Proofs.Text.ByteOrder
import Telefile.Session

/-!
# What a listing of a directory is

A listing names a directory's entries by the text of their names, whose bytes may not be text. Two
entries may come to have the same name so, and then stand in either order.

* `Host.ListsAs` — what a listing shows of the directory at a location: each entry once, in the byte
  order of the names as they are shown;
* **`Host.listsAs_listed`** — the listing that the service makes is one;
* `Service.listing_eq_ok_iff` — when a path is listed;
* `Session.answer_listDir` — the answer to a client who asks for a page.
-/

namespace Telefile

namespace Host

/-! ## 1. The directory at a location -/

/-- The entries of a directory as a listing shows them. -/
def listed (h : Host) (l : Location) : List DirEntry :=
  ⟨".", .directory⟩ :: ⟨"..", .directory⟩ ::
    Service.sortEntries ((h.children l).map fun c => ⟨Utf8.decodeLossy c.1, c.2.kind⟩)

/-- A listing of the directory at `l`: `.` and `..`, then every entry under the text of its name, in
the byte order of these texts. -/
def ListsAs (h : Host) (l : Location) (all : List DirEntry) : Prop :=
  ∃ (found : List (Name × Entry)) (rest : List DirEntry),
    all = ⟨".", .directory⟩ :: ⟨"..", .directory⟩ :: rest ∧
    (found.map Prod.fst).Nodup ∧
    (∀ n e, (n, e) ∈ found ↔ h.entryAt? (l ++ [n]) = some e) ∧
    rest.Perm (found.map fun c => ⟨Utf8.decodeLossy c.1, c.2.kind⟩) ∧
    rest.Pairwise fun a b => Utf8.encode a.name ≤ Utf8.encode b.name

/-- No name stands twice in a directory. -/
theorem nodup_children (h : Host) (l : Location) : ((h.children l).map Prod.fst).Nodup := by
  unfold children
  refine ((List.mergeSort_perm _ _).map Prod.fst).nodup_iff.mpr (List.pairwise_map.mpr ?_)
  refine List.Pairwise.filterMap _ ?_ (List.pairwise_map.mp h.entries.nodup)
  rintro ⟨p, e⟩ ⟨p', e'⟩ hne c hc c' hc' hsame
  obtain ⟨n, hn, rfl⟩ := Option.map_eq_some_iff.mp hc
  obtain ⟨n', hn', rfl⟩ := Option.map_eq_some_iff.mp hc'
  obtain rfl : n = n' := hsame
  have hlocation : p.location = p'.location :=
    (Place.nameIn?_eq_some_iff.mp hn).trans (Place.nameIn?_eq_some_iff.mp hn').symm
  have hplace := congrArg Place.ofLocation hlocation
  rw [Place.ofLocation_location, Place.ofLocation_location] at hplace
  exact hne hplace

end Host

/-- Sorted entries are in the byte order of their names. -/
theorem Service.pairwise_sortEntries (es : List DirEntry) :
    (sortEntries es).Pairwise fun a b => Utf8.encode a.name ≤ Utf8.encode b.name :=
  Utf8.pairwise_mergeSort DirEntry.name es

/-- **A directory is listed as it is.** -/
theorem Host.listsAs_listed (h : Host) (l : Location) : h.ListsAs l (h.listed l) :=
  ⟨h.children l, _, rfl, h.nodup_children l, fun _ _ => mem_children_iff,
    List.mergeSort_perm _ _, Service.pairwise_sortEntries _⟩

/-! ## 2. The directory that a path leads to -/

theorem Host.listEntry_directory (h : Host) (l : Location) (perms : Perms) (t : Timestamp) :
    h.listEntry l (.directory perms t) =
      if perms.allows .read then .ok ((h.children l).map fun c => (c.1, c.2.kind))
      else .error .permissionDenied := rfl

/-- A path is listed if it leads to a directory that may be read. -/
theorem Service.listing_eq_ok_iff {h : Host} {p : Path} {all : List DirEntry} :
    listing h p = .ok all ↔
      ∃ l perms t, h.lookup .follow p = .ok (l, .directory perms t) ∧
        perms.allows .read = true ∧ all = h.listed l := by
  unfold listing Host.listPath
  constructor
  · intro hlisting
    rcases hl : h.lookup .follow p with cause | ⟨l, e⟩
    · rw [hl] at hlisting
      cases hlisting
    · rw [hl] at hlisting
      cases hdir : e.isDir with
      | false =>
        simp only [Host.listEntry, hdir] at hlisting
        cases hlisting
      | true =>
        obtain ⟨perms, t, rfl⟩ := Host.isDirectory_of_isDir hdir
        simp only [Host.listEntry_directory] at hlisting
        cases hread : perms.allows .read with
        | false =>
          rw [hread] at hlisting
          cases hlisting
        | true =>
          rw [hread] at hlisting
          cases hlisting
          refine ⟨l, perms, t, rfl, hread, ?_⟩
          unfold Host.listed
          rw [List.map_map]
          rfl
  · rintro ⟨l, perms, t, hl, hread, rfl⟩
    rw [hl]
    simp only [Host.listEntry_directory, hread, if_true]
    unfold Host.listed
    rw [List.map_map]
    rfl

/-! ## 3. The answer to a client -/

/-- The answer about a page: its bytes, the next base and its entries, or the code of the failure,
the base as it was, and none. -/
def Session.pageAnswer (base : Nat) : Except FileError DirPage → Int × Nat × List DirEntry
  | .ok page => (page.bytes, page.nextBase, page.entries)
  | .error e => (e.code, base, [])

theorem Session.answer_listDir (c : Session) (s : Service) (fd : Fd) (nbytes base : Nat) :
    (c.listDir s fd nbytes base).answer = pageAnswer base (s.listDir fd nbytes base) := by
  unfold Session.listDir pageAnswer
  cases s.listDir fd nbytes base <;> rfl

/-- The response to a request for a page. -/
theorem Session.response_listDir (c : Session) (s : Service) (fd : Fd) (nbytes base : Nat) :
    (c.answer s (.listDir fd nbytes base)).answer =
      .entries (pageAnswer base (s.listDir fd nbytes base)).1
        (pageAnswer base (s.listDir fd nbytes base)).2.1
        (pageAnswer base (s.listDir fd nbytes base)).2.2 := by
  rw [← c.answer_listDir]
  rfl

/-- A page is answered as it is. -/
theorem Session.answer_page (c : Session) {s : Service} {fd : Fd} {nbytes base : Nat}
    {page : DirPage} (h : s.listDir fd nbytes base = .ok page) :
    (c.answer s (.listDir fd nbytes base)).answer =
      .entries page.bytes page.nextBase page.entries := by
  rw [c.response_listDir, h]
  rfl

end Telefile
