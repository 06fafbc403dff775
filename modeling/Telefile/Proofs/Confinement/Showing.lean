import Telefile.Proofs.Tree
import Telefile.Service.Listing

/-!
# What hierarchies and listings show

* `Host.Shows` — every node of a hierarchy is a directory, each in the one above it;
* **`Host.showAll_subdirsWithin`** — the directories below a path are shown so;
* `Service.mem_pageOf` — a page holds entries of the directory that is listed.
-/

namespace Telefile

namespace Host

/-! ## 1. Hierarchies -/

mutual

/-- The hierarchy shows the directory at `l`, and directories in it by their names. -/
def Shows (h : Host) (l : Location) : DirTree → Prop
  | .node _ ts => (∃ p t, h.entryAt? l = some (.directory p t)) ∧ ShowAll h l ts

/-- The hierarchies show directories in the one at `l`. -/
def ShowAll (h : Host) (l : Location) : List DirTree → Prop
  | [] => True
  | t :: ts => (∃ n, t.name = Utf8.decodeLossy n ∧ Shows h (l ++ [n]) t) ∧ ShowAll h l ts

end

theorem showAll_iff {h : Host} {l : Location} {ts : List DirTree} :
    h.ShowAll l ts ↔ ∀ t ∈ ts, ∃ n, t.name = Utf8.decodeLossy n ∧ h.Shows (l ++ [n]) t := by
  induction ts with
  | nil =>
    rw [ShowAll]
    exact ⟨fun _ _ ht => absurd ht List.not_mem_nil, fun _ => trivial⟩
  | cons t ts ih =>
    rw [ShowAll, ih, List.forall_mem_cons]

/-- A directory that is there is found under its name. -/
theorem lookupIn_directory {h : Host} {l : Location} {n : Name} {p : Path} (hn : n.Proper)
    {perms : Perms} {t : Timestamp} (he : h.entryAt? (l ++ [n]) = some (.directory perms t))
    {found : Location × Entry} (hl : h.lookupIn l n p = .ok found) :
    found = (l ++ [n], .directory perms t) := by
  have harrive : ∃ m e, h.walk .follow maxLinks l false [n] = .ok (.found m e) ∧ found = (m, e) := by
    unfold lookupIn at hl
    split at hl
    · cases hl
    split at hl
    · cases hl
    · split at hl
      · next m e hw =>
        cases hl
        exact ⟨m, e, hw, rfl⟩
      · cases hl
      · cases hl
  obtain ⟨m, e, hw, rfl⟩ := harrive
  have hproper : Location.Proper [n] := by
    intro q hq
    rw [List.mem_singleton.mp hq]
    exact hn
  cases walk_eq_ok_iff.mp hw with
  | dot _ _ => exact absurd rfl hn.not_dot
  | up _ _ => exact absurd rfl hn.not_dotdot
  | stop _ _ he' _ =>
    rw [he] at he'
    cases he'
  | link _ _ he' _ _ =>
    rw [he] at he'
    cases he'
  | reach _ _ he' _ _ =>
    obtain rfl := Option.some.inj (he.symm.trans he')
    rfl
  | down _ _ _ hne _ => exact absurd rfl hne

theorem listEntry_ok {h : Host} {l : Location} {e : Entry} {entries : List (Name × FileKind)}
    (hlist : h.listEntry l e = .ok entries) :
    e.isDir = true ∧ entries = (h.children l).map fun c => (c.1, c.2.kind) := by
  unfold listEntry at hlist
  cases hdir : e.isDir with
  | false =>
    rw [hdir] at hlist
    cases hlist
  | true =>
    rw [hdir, if_neg (by decide)] at hlist
    split at hlist
    · cases hlist
      exact ⟨rfl, rfl⟩
    · cases hlist

/-- The names that stand for directories are proper. -/
def ProperDirectories (h : Host) : Prop :=
  ∀ {l n p t}, h.entryAt? (l ++ [n]) = some (.directory p t) → n.Proper

theorem WellFormed.properDirectories {h : Host} (htree : h.WellFormed) : h.ProperDirectories :=
  fun he => htree.proper he _ (List.mem_append_right _ List.mem_cons_self)

end Host

namespace Service

/-- The node for an entry of a directory, and what is logged of it. -/
def treeNode (h : Host) (depth : Nat) (p : Path) (l : Location) (c : Name × FileKind) :
    DirTree × List LogLine :=
  match subdirsWithin h depth (p.join [c.1]) (h.lookupIn l c.1 (p.join [c.1])) with
  | (.ok below, log) => (.node (Utf8.decodeLossy c.1) below, log)
  | (.error cause, log) =>
    (.node (Utf8.decodeLossy c.1) [], log ++ [unreadable (p.join [c.1]) cause])

theorem subdirsWithin_succ (h : Host) (depth : Nat) (p : Path) (l : Location) (e : Entry) :
    subdirsWithin h (depth + 1) p (.ok (l, e)) =
      match h.listEntry l e with
      | .error cause => (.error cause, [])
      | .ok entries =>
        let nodes := (entries.filter fun c => c.2.isDir).map (treeNode h depth p l)
        (.ok (sortTrees (nodes.map Prod.fst)), nodes.flatMap Prod.snd) := rfl

/-- **The directories below a path** are shown where they are. -/
theorem showAll_subdirsWithin {h : Host} (hproper : h.ProperDirectories) (depth : Nat) :
    ∀ {p : Path} {l : Location} {e : Entry} {ts : List DirTree} {log : List LogLine},
      subdirsWithin h depth p (.ok (l, e)) = (.ok ts, log) → h.ShowAll l ts := by
  induction depth with
  | zero =>
    intro p l e ts log hts
    cases hts
  | succ depth ih =>
    intro p l e ts log hts
    rw [subdirsWithin_succ] at hts
    cases hlist : h.listEntry l e with
    | error cause =>
      rw [hlist] at hts
      cases hts
    | ok entries =>
      rw [hlist] at hts
      cases hts
      obtain ⟨-, hentries⟩ := Host.listEntry_ok hlist
      rw [Host.showAll_iff]
      intro node hnode
      unfold sortTrees at hnode
      rw [List.mem_mergeSort, List.map_map] at hnode
      obtain ⟨c, hc, rfl⟩ := List.mem_map.mp hnode
      obtain ⟨hmem, hdir⟩ := List.mem_filter.mp hc
      rw [hentries] at hmem
      obtain ⟨⟨n, e'⟩, hchild, rfl⟩ := List.mem_map.mp hmem
      obtain ⟨perms, t, rfl⟩ := Host.isDirectory_of_isDir hdir
      have he := Host.mem_children_iff.mp hchild
      refine ⟨n, ?_⟩
      show (treeNode h depth p l (n, _)).1.name = _ ∧ h.Shows _ (treeNode h depth p l (n, _)).1
      unfold treeNode
      rcases hbelow : subdirsWithin h depth (p.join [n]) (h.lookupIn l n (p.join [n])) with
        ⟨cause | below, log⟩
      · -- a directory that cannot be read stays as a node without children
        exact ⟨rfl, ⟨perms, t, he⟩, trivial⟩
      · refine ⟨rfl, ⟨perms, t, he⟩, ?_⟩
        cases hfound : h.lookupIn l n (p.join [n]) with
        | error cause =>
          rw [hfound] at hbelow
          cases depth <;> cases hbelow
        | ok found =>
          rw [hfound, Host.lookupIn_directory (hproper he) he hfound] at hbelow
          exact ih hbelow

/-! ## 2. Listings -/

theorem fitting_subset (budget : Nat) (es : List DirEntry) : fitting budget es ⊆ es := by
  induction es generalizing budget with
  | nil => exact List.Subset.refl _
  | cons e es ih =>
    unfold fitting
    split
    · exact List.nil_subset _
    · intro x hx
      rcases List.mem_cons.mp hx with rfl | hx
      · exact List.mem_cons_self
      · exact List.mem_cons_of_mem e (ih _ hx)

theorem mem_pageOf {all : List DirEntry} {nbytes budget base : Nat} {page : DirPage}
    (hpage : pageOf all nbytes budget base = .ok page) : page.entries ⊆ all := by
  unfold pageOf at hpage
  dsimp only at hpage
  split at hpage
  · cases hpage
  · cases hpage
    exact fun x hx => List.drop_subset base all (fitting_subset budget _ hx)

/-- What a listing shows: the directory itself, the one above, and what is in it. -/
theorem mem_listing {h : Host} {p : Path} {all : List DirEntry}
    (hlisting : listing h p = .ok all) :
    ∃ l perms t, h.lookup .follow p = .ok (l, .directory perms t) ∧ ∀ x ∈ all,
      x = ⟨".", .directory⟩ ∨ x = ⟨"..", .directory⟩ ∨
        ∃ n e, h.entryAt? (l ++ [n]) = some e ∧ x = ⟨Utf8.decodeLossy n, e.kind⟩ := by
  unfold listing Host.listPath at hlisting
  rcases hl : h.lookup .follow p with cause | ⟨l, e⟩
  · rw [hl] at hlisting
    cases hlisting
  · rw [hl] at hlisting
    cases hlist : h.listEntry l e with
    | error cause =>
      simp only [hlist] at hlisting
      cases hlisting
    | ok found =>
      simp only [hlist] at hlisting
      cases hlisting
      obtain ⟨hdir, hfound⟩ := Host.listEntry_ok hlist
      obtain ⟨perms, t, rfl⟩ := Host.isDirectory_of_isDir hdir
      refine ⟨l, perms, t, rfl, fun x hx => ?_⟩
      rcases List.mem_cons.mp hx with rfl | hx
      · exact .inl rfl
      rcases List.mem_cons.mp hx with rfl | hx
      · exact .inr (.inl rfl)
      · unfold sortEntries at hx
        rw [List.mem_mergeSort, hfound, List.map_map] at hx
        obtain ⟨⟨n, e'⟩, hchild, rfl⟩ := List.mem_map.mp hx
        exact .inr (.inr ⟨n, e', Host.mem_children_iff.mp hchild, rfl⟩)

end Service

end Telefile
