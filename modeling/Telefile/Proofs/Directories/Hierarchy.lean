import Mathlib.Data.List.Nodup
import Telefile.Host.Arrange
import Telefile.Proofs.Confinement.Operations
import Telefile.Proofs.Directories.Listings
import Telefile.Proofs.Lookup.Below

/-!
# The hierarchy below a directory

A directory is shown with the directories in it, and each of them with its own, for as long as the
host lets them be listed under their paths. Links are no directories, so no cycle of them is ever
entered; a directory that cannot be listed stays, and takes nothing of the rest with it.

* `Host.Mirrors` — what a hierarchy is of the directory at a location;
* `Host.Reaches` — the directories that listing after listing comes to;
* `Service.mirrors_subdirsWithin` — **the walk makes the hierarchy**; `Service.subdirsWithin_eq` —
  and does not run out of levels;
* `Host.Mirrors.exists_reached` — its size is the number of directories reached;
* **`Service.dirTree_exact`** — when a client gets a hierarchy, and which.
-/

namespace Telefile

namespace Host

/-! ## 1. The directories below a path -/

/-- The host lets what a path leads to be listed under that path. -/
def Listable (h : Host) (p : Path) : Prop := ∃ entries, h.listPath p = .ok entries

mutual

/-- A node for the directory at `l`, whose path is `p`: below it stands a node for every directory
in it, in the byte order of the names shown, if it can be listed, and nothing if it cannot. -/
def Mirrors (h : Host) (p : Path) (l : Location) : DirTree → Prop
  | .node _ ts =>
    (¬ h.Listable p → ts = []) ∧
    (h.Listable p → ∃ names : List Name, names.Nodup ∧
      (∀ n, n ∈ names ↔ ∃ perms t, h.entryAt? (l ++ [n]) = some (.directory perms t)) ∧
      MirrorAll h p l names ts) ∧
    ts.Pairwise fun a b => Utf8.encode a.name ≤ Utf8.encode b.name

/-- The nodes for directories with these names in the one at `l`, one for each. -/
def MirrorAll (h : Host) (p : Path) (l : Location) : List Name → List DirTree → Prop
  | [], [] => True
  | n :: names, t :: ts =>
    t.name = Utf8.decodeLossy n ∧ Mirrors h (p.join [n]) (l ++ [n]) t ∧ MirrorAll h p l names ts
  | [], _ :: _ | _ :: _, [] => False

end

/-- From the directory at the first location, whose path is given, listing after listing leads to
the one at the second. -/
inductive Reaches (h : Host) : Path → Location → Location → Prop
  | here {p : Path} {l : Location} : Reaches h p l l
  | inside {p : Path} {l m : Location} {n : Name} {perms : Perms} {t : Timestamp} :
    h.Listable p → h.entryAt? (l ++ [n]) = some (.directory perms t) →
    Reaches h (p.join [n]) (l ++ [n]) m → Reaches h p l m

variable {h : Host} {p : Path} {l m : Location}

theorem listPath_of_lookup {e : Entry} (hl : h.lookup .follow p = .ok (l, e)) :
    h.listPath p = h.listEntry l e := by
  unfold listPath
  rw [hl]

/-- What can be listed is a directory that the path leads to. -/
theorem Listable.lookup (hlist : h.Listable p) : ∃ l perms t entries,
    h.lookup .follow p = .ok (l, .directory perms t) ∧
      h.listEntry l (.directory perms t) = .ok entries := by
  obtain ⟨entries, hentries⟩ := hlist
  unfold listPath at hentries
  rcases hl : h.lookup .follow p with cause | ⟨l, e⟩
  · rw [hl] at hentries
    cases hentries
  · rw [hl] at hentries
    obtain ⟨perms, t, rfl⟩ := isDirectory_of_isDir (listEntry_ok hentries).1
    exact ⟨l, perms, t, entries, rfl, hentries⟩

/-- A path that leads somewhere is not too long. -/
theorem length_le_of_lookup {last : LastStep} {e : Entry} (hl : h.lookup last p = .ok (l, e)) :
    p.text.length ≤ maxPath :=
  (arrive_eq_ok_iff.mp (lookup_eq_ok_iff.mp hl)).1.2.2

/-- What a listing tells of the directories in the one at `l`. -/
def dirEntries (h : Host) (l : Location) : List (Name × FileKind) :=
  ((h.children l).map fun c => (c.1, c.2.kind)).filter fun c => c.2.isDir

theorem mem_dirEntries_iff {n : Name} : n ∈ (h.dirEntries l).map Prod.fst ↔
    ∃ perms t, h.entryAt? (l ++ [n]) = some (.directory perms t) := by
  unfold dirEntries
  constructor
  · intro hn
    obtain ⟨c, hc, rfl⟩ := List.mem_map.mp hn
    obtain ⟨hc, hdir⟩ := List.mem_filter.mp hc
    obtain ⟨⟨n, e⟩, hchild, rfl⟩ := List.mem_map.mp hc
    obtain ⟨perms, t, rfl⟩ := isDirectory_of_isDir hdir
    exact ⟨perms, t, mem_children_iff.mp hchild⟩
  · rintro ⟨perms, t, he⟩
    have hchild := List.mem_map_of_mem (f := fun c => (c.1, c.2.kind)) (mem_children_iff.mpr he)
    exact List.mem_map_of_mem (f := Prod.fst) (List.mem_filter.mpr ⟨hchild, rfl⟩)

theorem nodup_dirEntries (h : Host) (l : Location) : ((h.dirEntries l).map Prod.fst).Nodup := by
  have hall := h.nodup_children l
  have hsame : ((h.children l).map fun c => (c.1, c.2.kind)).map Prod.fst =
      (h.children l).map Prod.fst := List.map_map
  rw [← hsame] at hall
  exact hall.sublist (List.filter_sublist.map Prod.fst)

theorem listable_of_lookup {perms : Perms} {t : Timestamp}
    (hl : h.lookup .follow p = .ok (l, .directory perms t)) :
    h.Listable p ↔ perms.allows .read = true := by
  unfold Listable
  rw [listPath_of_lookup hl, listEntry_directory]
  constructor
  · rintro ⟨entries, hentries⟩
    by_contra hread
    rw [if_neg hread] at hentries
    cases hentries
  · intro hread
    exact ⟨_, if_pos hread⟩

theorem mirrorAll_map {α : Type} {name : α → Name} {node : α → DirTree} {cs : List α}
    (hall : ∀ c ∈ cs, (node c).name = Utf8.decodeLossy (name c) ∧
      h.Mirrors (p.join [name c]) (l ++ [name c]) (node c)) :
    h.MirrorAll p l (cs.map name) (cs.map node) := by
  induction cs with
  | nil => trivial
  | cons c cs ih =>
    obtain ⟨hc, hcs⟩ := List.forall_mem_cons.mp hall
    exact ⟨hc.1, hc.2, ih hcs⟩

/-! ## 2. The directories reached -/

theorem Reaches.prefix_end (hr : h.Reaches p l m) : l <+: m := by
  induction hr with
  | here => exact List.prefix_rfl
  | inside _ _ _ ih => exact (List.prefix_append _ _).trans ih

/-- What is reached from a directory is a directory. -/
theorem Reaches.directory (hr : h.Reaches p l m)
    (hdir : ∃ perms t, h.entryAt? l = some (.directory perms t)) :
    ∃ perms t, h.entryAt? m = some (.directory perms t) := by
  induction hr with
  | here => exact hdir
  | inside _ he _ ih => exact ih ⟨_, _, he⟩

/-- What is reached by way of one name is not reached by way of another. -/
theorem Reaches.name_unique {n n' : Name} {p' : Path} (hr : h.Reaches p (l ++ [n]) m)
    (hr' : h.Reaches p' (l ++ [n']) m) : n = n' := by
  obtain ⟨more, hmore⟩ := hr.prefix_end
  obtain ⟨more', hmore'⟩ := hr'.prefix_end
  rw [List.append_assoc] at hmore hmore'
  exact (List.cons.inj (List.append_cancel_left (hmore.trans hmore'.symm))).1

theorem not_reaches_above {n : Name} : ¬ h.Reaches p (l ++ [n]) l := by
  intro hr
  have hle := hr.prefix_end.length_le
  rw [List.length_append, List.length_singleton] at hle
  omega

mutual

/-- **The size of a hierarchy** is the number of directories that it reaches. -/
theorem Mirrors.exists_reached {p : Path} {l : Location} : ∀ {t : DirTree}, h.Mirrors p l t →
    ∃ reached : List Location, reached.Nodup ∧ (∀ m, m ∈ reached ↔ h.Reaches p l m) ∧
      t.count = reached.length
  | .node _ ts, hm => by
    rw [Mirrors] at hm
    obtain ⟨hnone, hall, -⟩ := hm
    by_cases hlist : h.Listable p
    · obtain ⟨names, hnodup, hnames, hts⟩ := hall hlist
      obtain ⟨below, hbelow, hmem, hcount⟩ := hts.exists_reached hnodup
      refine ⟨l :: below, List.nodup_cons.mpr ⟨fun hl => ?_, hbelow⟩, fun m => ?_, ?_⟩
      · obtain ⟨n, -, hr⟩ := (hmem l).mp hl
        exact not_reaches_above hr
      · rw [List.mem_cons, hmem]
        constructor
        · rintro (rfl | ⟨n, hn, hr⟩)
          · exact .here
          · obtain ⟨perms, t, he⟩ := (hnames n).mp hn
            exact .inside hlist he hr
        · rintro (_ | ⟨_, he, hr⟩)
          · exact .inl rfl
          · exact .inr ⟨_, (hnames _).mpr ⟨_, _, he⟩, hr⟩
      · rw [DirTree.count, hcount, List.length_cons, Nat.add_comm]
    · obtain rfl := hnone hlist
      refine ⟨[l], List.nodup_singleton l, fun m => ?_, rfl⟩
      rw [List.mem_singleton]
      constructor
      · rintro rfl
        exact .here
      · rintro (_ | ⟨hlist', _, _⟩)
        · rfl
        · exact absurd hlist' hlist

/-- The hierarchies in a directory reach each directory below it once. -/
theorem MirrorAll.exists_reached {p : Path} {l : Location} :
    ∀ {ts : List DirTree} {names : List Name}, h.MirrorAll p l names ts → names.Nodup →
    ∃ reached : List Location, reached.Nodup ∧
      (∀ m, m ∈ reached ↔ ∃ n ∈ names, h.Reaches (p.join [n]) (l ++ [n]) m) ∧
      DirTree.countAll ts = reached.length
  | [], [], _, _ => ⟨[], List.nodup_nil, fun m => by simp, rfl⟩
  | t :: ts, n :: names, hm, hnodup => by
    rw [MirrorAll] at hm
    obtain ⟨-, ht, hts⟩ := hm
    obtain ⟨hn, hnames⟩ := List.nodup_cons.mp hnodup
    obtain ⟨first, hfirst, hmemFirst, hcountFirst⟩ := ht.exists_reached
    obtain ⟨others, hothers, hmemOthers, hcountOthers⟩ := hts.exists_reached hnames
    refine ⟨first ++ others, List.nodup_append'.mpr ⟨hfirst, hothers, fun m hm hm' => ?_⟩,
      fun m => ?_, ?_⟩
    · -- the two names are different, and a location has one name at each depth
      obtain ⟨n', hn', hr'⟩ := (hmemOthers m).mp hm'
      obtain rfl := ((hmemFirst m).mp hm).name_unique hr'
      exact hn hn'
    · rw [List.mem_append, hmemFirst, hmemOthers, List.exists_mem_cons_iff]
    · rw [DirTree.countAll, hcountFirst, hcountOthers, List.length_append]
  | [], _ :: _, hm, _ | _ :: _, [], hm, _ => absurd hm (by rw [MirrorAll]; exact id)

end

/-- The number of directories of the host. -/
def directories (h : Host) : Nat := (h.allEntries.filter fun x => x.2.isDir).length

/-- Different directories are no more than the host has. -/
theorem length_le_directories {found : List Location} (hnodup : found.Nodup)
    (hdirs : ∀ m ∈ found, ∃ perms t, h.entryAt? m = some (.directory perms t)) :
    found.length ≤ h.directories := by
  have hsub : found ⊆ (h.allEntries.filter fun x => x.2.isDir).map Prod.fst := by
    intro m hm
    obtain ⟨perms, t, he⟩ := hdirs m hm
    exact List.mem_map.mpr ⟨(m, .directory perms t),
      List.mem_filter.mpr ⟨mem_allEntries_iff.mpr he, rfl⟩, rfl⟩
  unfold directories
  rw [← List.length_map Prod.fst]
  exact hnodup.length_le_of_subset hsub

/-- The directories above a directory, and itself, are no more than the host has. -/
theorem WellFormed.length_lt_directories (htree : h.WellFormed)
    (hdir : ∃ perms t, h.entryAt? m = some (.directory perms t)) : m.length < h.directories := by
  have hnodup : ((List.range (m.length + 1)).map m.take).Nodup := by
    refine List.nodup_range.map_on fun i hi j hj hij => ?_
    have hlength := congrArg List.length hij
    rw [List.length_take, List.length_take] at hlength
    rw [List.mem_range] at hi hj
    omega
  have hle : ((List.range (m.length + 1)).map m.take).length ≤ h.directories := by
    refine length_le_directories hnodup fun up hup => ?_
    obtain ⟨i, -, rfl⟩ := List.mem_map.mp hup
    exact htree.directory_of_prefix hdir (List.take_prefix i m)
  rw [List.length_map, List.length_range] at hle
  exact hle

/-- So many levels are never used up below the directory at `l`: the paths come to be too long
before that, or no directory lies so deep. -/
def Enough (h : Host) (p : Path) (l : Location) (depth : Nat) : Prop :=
  maxPath + 1 < p.text.length + depth ∨
    ∀ m, l <+: m → (∃ perms t, h.entryAt? m = some (.directory perms t)) →
      m.length < l.length + depth

theorem Enough.pos {depth : Nat} {perms : Perms} {t : Timestamp}
    (hl : h.lookup .follow p = .ok (l, .directory perms t)) (hd : h.Enough p l depth) :
    0 < depth := by
  rcases hd with hlong | hdeep
  · have hle := length_le_of_lookup hl
    omega
  · have hself := hdeep l List.prefix_rfl ⟨perms, t, entryAt?_of_lookup hl⟩
    omega

/-- One level below, one level less is enough. -/
theorem Enough.inside {depth : Nat} {n : Name} {perms perms' : Perms} {t t' : Timestamp}
    (hl : h.lookup .follow p = .ok (l, .directory perms t)) (hn : n.Proper)
    (he : h.entryAt? (l ++ [n]) = some (.directory perms' t'))
    (hd : h.Enough p l (depth + 1)) : 0 < depth ∧ h.Enough (p.join [n]) (l ++ [n]) depth := by
  have hlength : (l ++ [n]).length = l.length + 1 := List.length_append
  rcases hd with hlong | hdeep
  · have hle := length_le_of_lookup hl
    have hlonger := Path.length_lt_join (p := p) hn
    exact ⟨by omega, .inl (by omega)⟩
  · have hself := hdeep _ (List.prefix_append l [n]) ⟨perms', t', he⟩
    refine ⟨by omega, .inr fun m hm hdir => ?_⟩
    have hlt := hdeep m ((List.prefix_append l [n]).trans hm) hdir
    omega

end Host

namespace Service

open Host

variable {h : Host} {p : Path} {l : Location}

/-! ## 3. The walk -/

/-- With levels to spare, the walk below a path fails just where the path cannot be listed. -/
theorem subdirsWithin_isOk_iff {depth : Nat} (hdepth : maxPath < p.text.length + depth) :
    (∃ ts log, subdirsWithin h depth p (h.lookup .follow p) = (.ok ts, log)) ↔ h.Listable p := by
  constructor
  · rintro ⟨ts, log, hts⟩
    cases depth with
    | zero => cases hts
    | succ depth =>
      rcases hl : h.lookup .follow p with cause | ⟨l, e⟩
      · rw [hl] at hts
        cases hts
      · rw [hl, subdirsWithin_succ] at hts
        cases hlist : h.listEntry l e with
        | error cause =>
          rw [hlist] at hts
          cases hts
        | ok entries => exact ⟨entries, (listPath_of_lookup hl).trans hlist⟩
  · intro hlist
    obtain ⟨l, perms, t, entries, hl, hentries⟩ := hlist.lookup
    cases depth with
    | zero => exact absurd (length_le_of_lookup hl) (Nat.not_le_of_lt hdepth)
    | succ depth =>
      rw [hl, subdirsWithin_succ, hentries]
      exact ⟨_, _, rfl⟩

/-- The hierarchy of a directory in one that is walked, if the walk has it right there. -/
theorem mirrors_treeNode {depth : Nat} {c : Name × FileKind}
    (hdepth : maxPath < (p.join [c.1]).text.length + depth)
    (hin : h.lookup .follow (p.join [c.1]) = h.lookupIn l c.1 (p.join [c.1]))
    (hbelow : ∀ {name ts log},
      subdirsWithin h depth (p.join [c.1]) (h.lookupIn l c.1 (p.join [c.1])) = (.ok ts, log) →
      h.Mirrors (p.join [c.1]) (l ++ [c.1]) (.node name ts)) :
    h.Mirrors (p.join [c.1]) (l ++ [c.1]) (treeNode h depth p l c).1 := by
  unfold treeNode
  rcases hwalk : subdirsWithin h depth (p.join [c.1]) (h.lookupIn l c.1 (p.join [c.1])) with
    ⟨cause | ts, log⟩
  · have hnot : ¬ h.Listable (p.join [c.1]) := by
      intro hlist
      obtain ⟨ts, log', hts⟩ := (subdirsWithin_isOk_iff hdepth).mpr hlist
      rw [hin, hwalk] at hts
      cases hts
    dsimp only
    rw [Mirrors]
    exact ⟨fun _ => rfl, fun hlist => absurd hlist hnot, List.Pairwise.nil⟩
  · exact hbelow hwalk

theorem treeNode_name {depth : Nat} {c : Name × FileKind} :
    (treeNode h depth p l c).1.name = Utf8.decodeLossy c.1 := by
  unfold treeNode
  split <;> rfl

/-- Sorted hierarchies are those of the sorted entries. -/
theorem sortTrees_map {α : Type} (node : α → DirTree) (cs : List α) :
    sortTrees (cs.map node) =
      (cs.mergeSort fun a b => decide ((node a).name ≤ (node b).name)).map node :=
  (List.map_mergeSort (f := node) fun _ _ _ _ => rfl).symm

/-- **The walk below a path** makes the hierarchy of the directory it leads to. -/
theorem mirrors_subdirsWithin (htree : h.WellFormed) (depth : Nat) :
    ∀ {p : Path} {l : Location} {e : Entry} {name : String} {ts : List DirTree}
      {log : List LogLine}, h.lookup .follow p = .ok (l, e) →
      maxPath < p.text.length + depth → subdirsWithin h depth p (.ok (l, e)) = (.ok ts, log) →
      h.Mirrors p l (.node name ts) := by
  induction depth with
  | zero =>
    intro p l e name ts log hl hdepth hts
    cases hts
  | succ depth ih =>
    intro p l e name ts log hl hdepth hts
    rw [subdirsWithin_succ] at hts
    cases hlist : h.listEntry l e with
    | error cause =>
      rw [hlist] at hts
      cases hts
    | ok entries =>
      rw [hlist] at hts
      cases hts
      have hlistable : h.Listable p := ⟨entries, (listPath_of_lookup hl).trans hlist⟩
      obtain ⟨hdir, rfl⟩ := listEntry_ok hlist
      obtain ⟨perms, t, rfl⟩ := isDirectory_of_isDir hdir
      let node := fun c => (treeNode h depth p l c).1
      let sorted := (h.dirEntries l).mergeSort fun a b => decide ((node a).name ≤ (node b).name)
      have hsorted : sorted.Perm (h.dirEntries l) := List.mergeSort_perm _ _
      rw [Mirrors, List.map_map, sortTrees_map]
      refine ⟨fun hnot => absurd hlistable hnot, fun _ => ⟨sorted.map Prod.fst, ?_, ?_, ?_⟩, ?_⟩
      · exact (hsorted.map _).nodup_iff.mpr (h.nodup_dirEntries l)
      · exact fun n => (hsorted.map _).mem_iff.trans mem_dirEntries_iff
      · refine mirrorAll_map fun c hc => ⟨treeNode_name, ?_⟩
        obtain ⟨perms', t', he⟩ :=
          mem_dirEntries_iff.mp (List.mem_map_of_mem (hsorted.mem_iff.mp hc))
        have hproper : c.1.Proper := htree.properDirectories he
        have hin := lookup_join hl hproper he
        have hdepth' : maxPath < (p.join [c.1]).text.length + depth := by
          have hlonger := Path.length_lt_join (p := p) hproper
          omega
        refine mirrors_treeNode hdepth' hin fun {name ts log} hts => ?_
        cases hfound : h.lookupIn l c.1 (p.join [c.1]) with
        | error cause =>
          rw [hfound] at hts
          cases depth <;> cases hts
        | ok found =>
          obtain rfl := lookupIn_directory hproper he hfound
          rw [hfound] at hts
          exact ih (hin.trans hfound) hdepth' hts
      · rw [← sortTrees_map]
        exact Utf8.pairwise_mergeSort DirTree.name _

/-- **The walk ends by itself**: any two numbers of levels that are enough make the same of it. -/
theorem subdirsWithin_eq (htree : h.WellFormed) (depth : Nat) :
    ∀ {depth' : Nat} {p : Path} {l : Location} {perms : Perms} {t : Timestamp},
      h.lookup .follow p = .ok (l, .directory perms t) →
      h.Enough p l depth → h.Enough p l depth' →
      subdirsWithin h depth p (.ok (l, .directory perms t)) =
        subdirsWithin h depth' p (.ok (l, .directory perms t)) := by
  induction depth with
  | zero =>
    intro depth' p l perms t hl hd _
    exact absurd (hd.pos hl) (Nat.lt_irrefl 0)
  | succ depth ih =>
    intro depth' p l perms t hl hd hd'
    obtain ⟨depth', rfl⟩ := Nat.exists_eq_succ_of_ne_zero (Nat.ne_of_gt (hd'.pos hl))
    rw [Nat.succ_eq_add_one, subdirsWithin_succ, subdirsWithin_succ]
    cases hlist : h.listEntry l (.directory perms t) with
    | error cause => rfl
    | ok entries =>
      obtain ⟨-, rfl⟩ := listEntry_ok hlist
      have hnodes : (h.dirEntries l).map (treeNode h depth p l) =
          (h.dirEntries l).map (treeNode h depth' p l) := by
        refine List.map_congr_left fun c hc => ?_
        obtain ⟨perms', t', he⟩ := mem_dirEntries_iff.mp (List.mem_map_of_mem (f := Prod.fst) hc)
        have hproper := htree.properDirectories he
        obtain ⟨hpos, hbelow⟩ := hd.inside hl hproper he
        obtain ⟨hpos', hbelow'⟩ := hd'.inside hl hproper he
        have hsame : subdirsWithin h depth (p.join [c.1]) (h.lookupIn l c.1 (p.join [c.1])) =
            subdirsWithin h depth' (p.join [c.1]) (h.lookupIn l c.1 (p.join [c.1])) := by
          cases hfound : h.lookupIn l c.1 (p.join [c.1]) with
          | error cause =>
            obtain ⟨k, rfl⟩ := Nat.exists_eq_succ_of_ne_zero (Nat.ne_of_gt hpos)
            obtain ⟨k', rfl⟩ := Nat.exists_eq_succ_of_ne_zero (Nat.ne_of_gt hpos')
            rfl
          | ok found =>
            obtain rfl := lookupIn_directory hproper he hfound
            exact ih ((lookup_join hl hproper he).trans hfound) hbelow hbelow'
        unfold treeNode
        rw [hsame]
      unfold dirEntries at hnodes
      dsimp only
      rw [hnodes]

/-! ## 4. What a client gets -/

variable {s : Service}

theorem levels_spare (p : Path) :
    maxPath + 1 < p.text.length + (maxPath + 1 - p.text.length + 1) := by
  omega

theorem subdirs_isOk_iff : (∃ ts log, subdirs h p = (.ok ts, log)) ↔ h.Listable p :=
  subdirsWithin_isOk_iff (Nat.lt_of_succ_lt (levels_spare p))

/-- As many levels as there are directories would do for the walk just as well. -/
theorem subdirs_eq_of_lt (htree : h.WellFormed) {depth : Nat} (hdepth : h.directories < depth) :
    subdirsWithin h depth p (h.lookup .follow p) = subdirs h p := by
  obtain ⟨depth, rfl⟩ := Nat.exists_eq_succ_of_ne_zero (Nat.ne_of_gt (Nat.zero_lt_of_lt hdepth))
  unfold subdirs
  rcases hl : h.lookup .follow p with cause | ⟨l, e⟩
  · rfl
  cases hdir : e.isDir with
  | false =>
    rw [Nat.succ_eq_add_one, subdirsWithin_succ, subdirsWithin_succ]
    unfold listEntry
    rw [hdir]
    rfl
  | true =>
    obtain ⟨perms, t, rfl⟩ := isDirectory_of_isDir hdir
    refine subdirsWithin_eq htree _ hl (.inr fun m _ hm => ?_) (.inl (levels_spare p))
    have hlt := htree.length_lt_directories hm
    omega

/-- What a client gets is what the walk makes, under the path as the client wrote it. -/
theorem dirTree_of_resolve {path : String} {full : Path}
    (hres : s.scope.resolve s.host path = .ok full) {t : DirTree} :
    (s.dirTree (some path)).1 = .ok t ↔ ∃ ts log,
      subdirs s.host full = (.ok ts, log) ∧ t = .node path ts := by
  unfold dirTree
  simp only [hres]
  rcases hl : s.host.lookup .follow full with cause | ⟨l, e⟩
  · simp only [subdirs, hl]
    exact ⟨fun ht => (by cases ht), fun ⟨_, _, hts, _⟩ => (by cases hts)⟩
  cases hdir : e.isDir with
  | false =>
    have hwalk : subdirs s.host full = (.error .notADirectory, []) := by
      unfold subdirs
      rw [hl, subdirsWithin_succ]
      unfold listEntry
      rw [hdir]
      rfl
    simp only [hdir, hwalk]
    exact ⟨fun ht => (by cases ht), fun ⟨_, _, hts, _⟩ => (by cases hts)⟩
  | true =>
    simp only [hdir, if_true]
    rcases hwalk : subdirs s.host full with ⟨cause | ts, log⟩
    · exact ⟨fun ht => (by cases ht), fun ⟨_, _, hts, _⟩ => (by cases hts)⟩
    · constructor
      · intro ht
        cases ht
        exact ⟨ts, log, rfl, rfl⟩
      · rintro ⟨ts', log', hts, rfl⟩
        cases hts
        rfl

/-- The hierarchy that a client gets has the directory of the path at its top. -/
theorem resolve_of_dirTree {path : String} {t : DirTree}
    (ht : (s.dirTree (some path)).1 = .ok t) :
    ∃ full, s.scope.resolve s.host path = .ok full := by
  cases hres : s.scope.resolve s.host path with
  | error e =>
    unfold dirTree at ht
    simp only [hres] at ht
    cases ht
  | ok full => exact ⟨full, rfl⟩

/-- **A client gets the hierarchy of directories as it is**: just when the path stands for one that
the host lets be listed; the top has the name that the client wrote; its size is the number of
directories reached, which the host has all; and a walk that may go as deep as there are directories
makes the same of the path, and so ends by itself. -/
theorem dirTree_exact (htree : s.host.WellFormed) (path : String) :
    ((∃ t, (s.dirTree (some path)).1 = .ok t) ↔
      ∃ full, s.scope.resolve s.host path = .ok full ∧ s.host.Listable full) ∧
    (∀ t, (s.dirTree (some path)).1 = .ok t →
      t.name = path ∧ ∃ full l perms time, s.scope.resolve s.host path = .ok full ∧
        s.host.lookup .follow full = .ok (l, .directory perms time) ∧
        s.host.Mirrors full l t ∧
        (∃ reached : List Location, reached.Nodup ∧
          (∀ m, m ∈ reached ↔ s.host.Reaches full l m) ∧ t.count = reached.length) ∧
        t.count ≤ s.host.directories) ∧
    ∀ full depth, s.scope.resolve s.host path = .ok full → s.host.directories < depth →
      subdirsWithin s.host depth full (s.host.lookup .follow full) = subdirs s.host full := by
  refine ⟨⟨?_, ?_⟩, ?_, fun full depth _ hdepth => subdirs_eq_of_lt htree hdepth⟩
  · rintro ⟨t, ht⟩
    obtain ⟨full, hres⟩ := resolve_of_dirTree ht
    obtain ⟨ts, log, hts, -⟩ := (dirTree_of_resolve hres).mp ht
    exact ⟨full, hres, subdirs_isOk_iff.mp ⟨ts, log, hts⟩⟩
  · rintro ⟨full, hres, hlist⟩
    obtain ⟨ts, log, hts⟩ := subdirs_isOk_iff.mpr hlist
    exact ⟨.node path ts, (dirTree_of_resolve hres).mpr ⟨ts, log, hts, rfl⟩⟩
  · intro t ht
    obtain ⟨full, hres⟩ := resolve_of_dirTree ht
    obtain ⟨ts, log, hts, rfl⟩ := (dirTree_of_resolve hres).mp ht
    obtain ⟨l, perms, time, -, hl, -⟩ := (subdirs_isOk_iff.mp ⟨ts, log, hts⟩).lookup
    unfold subdirs at hts
    rw [hl] at hts
    have hm : s.host.Mirrors full l (.node path ts) :=
      mirrors_subdirsWithin htree _ hl (Nat.lt_of_succ_lt (levels_spare full)) hts
    obtain ⟨reached, hnodup, hmem, hcount⟩ := hm.exists_reached
    have hdirs : ∀ m ∈ reached, ∃ perms t, s.host.entryAt? m = some (.directory perms t) :=
      fun m hm => ((hmem m).mp hm).directory ⟨perms, time, entryAt?_of_lookup hl⟩
    exact ⟨rfl, full, l, perms, time, hres, hl, hm, ⟨reached, hnodup, hmem, hcount⟩,
      hcount ▸ length_le_directories hnodup hdirs⟩

end Service

/-- A host whose directory `srv` holds `a`, with a link back up and a directory `x` in it, and `b`,
which nobody may read. -/
def Host.looped : Host :=
  let srv := Utf8.encode "srv"
  let a := Utf8.encode "a"
  let b := Utf8.encode "b"
  (((((Host.fresh [srv] ⟨0, 0⟩ none).setEntry [srv, a] (.directory .newDirectory ⟨0, 0⟩)).setEntry
    [srv, a, Utf8.encode "up"] (.symlink (Path.ofString "..") ⟨0, 0⟩)).setEntry
    [srv, a, Utf8.encode "x"] (.directory .newDirectory ⟨0, 0⟩)).setEntry
    [srv, b] (.directory ⟨0, true⟩ ⟨0, 0⟩)).setEntry
    [srv, b, Utf8.encode "y"] (.directory .newDirectory ⟨0, 0⟩)

theorem Host.lookup_dot_looped : looped.lookup .follow (Path.ofString ".") =
    .ok ([Utf8.encode "srv"], .directory .newDirectory ⟨0, 0⟩) := by
  have hpath : Path.ofString "." = ⟨Path.dot⟩ := by decide
  have hw : looped.Walks .follow maxLinks [Utf8.encode "srv"] false [Path.dot]
      (.found [Utf8.encode "srv"] (.directory .newDirectory ⟨0, 0⟩)) := .dot rfl (.done rfl)
  rw [hpath]
  exact lookup_eq_ok_iff.mpr (arrive_eq_ok_iff.mpr ⟨by decide, hw⟩)

/-- A client sees the directory in `a`, though not the one in `b`, and does not go around. -/
theorem Service.dirTree_looped :
    let s := (start ⟨none, 4096, false⟩ Host.looped).answer
    let srv := Utf8.encode "srv"
    let top := Path.ofString "."
    Host.looped.WellFormed ∧ ∃ t, (s.dirTree (some ".")).1 = .ok t ∧
      Host.looped.Mirrors top [srv] t ∧
      Host.looped.Reaches top [srv] [srv, Utf8.encode "a", Utf8.encode "x"] ∧
      ¬ Host.looped.Reaches top [srv] [srv, Utf8.encode "b", Utf8.encode "y"] ∧
      t.count ≤ Host.looped.directories := by
  intro s srv top
  have htree : s.host.WellFormed := by
    show Host.looped.WellFormed
    decide
  obtain ⟨hwhen, hwhat, -⟩ := dirTree_exact (s := s) htree "."
  have hlist : Host.looped.Listable top :=
    (Host.listable_of_lookup Host.lookup_dot_looped).mpr rfl
  have ha : Host.looped.lookup .follow (top.join [Utf8.encode "a"]) =
      .ok ([srv, Utf8.encode "a"], .directory .newDirectory ⟨0, 0⟩) :=
    Host.lookup_directory Host.lookup_dot_looped (by decide) rfl rfl (by decide) (by decide)
      (by decide)
  have hb : Host.looped.lookup .follow (top.join [Utf8.encode "b"]) =
      .ok ([srv, Utf8.encode "b"], .directory ⟨0, true⟩ ⟨0, 0⟩) :=
    Host.lookup_directory Host.lookup_dot_looped (by decide) rfl rfl (by decide) (by decide)
      (by decide)
  obtain ⟨t, ht⟩ := hwhen.mpr ⟨top, rfl, hlist⟩
  obtain ⟨-, full, l, perms, time, hres, hl, hm, -, hcount⟩ := hwhat t ht
  cases hres
  cases Host.lookup_dot_looped.symm.trans hl
  refine ⟨htree, t, ht, hm, ?_, ?_, hcount⟩
  · have hlista := (Host.listable_of_lookup ha).mpr rfl
    exact .inside hlist (show Host.looped.entryAt? [srv, Utf8.encode "a"] = _ from rfl)
      (.inside hlista rfl .here)
  · intro hr
    cases hr with
    | inside _ _ hr =>
      -- the directory that is gone through has the name `b`
      obtain ⟨more, hmore⟩ := hr.prefix_end
      cases hmore
      cases hr with
      | inside hlistb _ _ =>
        have hread := (Host.listable_of_lookup hb).mp hlistb
        cases hread

end Telefile
